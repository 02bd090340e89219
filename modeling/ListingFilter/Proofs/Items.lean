import ListingFilter.Proofs.Balance
import ListingFilter.Proofs.Conditions

/-!
# Items — lists between commas

The items of a list are trimmed, not empty, and hold no comma. Items of this kind, written with
commas between them, are found again as they are (`listItems_intercalate`). Nothing is lost of the
parentheses in a list when it is read (`parentheses_listItems`).
-/

namespace ListingFilter

namespace Text

/-- An item of a list: a trimmed text that is not empty and holds no comma. -/
structure IsItem (text : Text) : Prop where
  ne_nil : text ≠ []
  tight : text.Tight
  no_comma : ',' ∉ text

theorem Plain.isItem {text : Text} (h : text.Plain) : text.IsItem := by
  refine ⟨h.ne_nil, h.tight, ?_⟩
  intro hcomma
  exact (not_special_of_isPlain (h.isPlain hcomma)).2 (by simp)

theorem pieces_eq_splitOn (mark : Char) (text : Text) : pieces mark text = text.splitOn mark := by
  induction text with
  | nil => rfl
  | cons c rest ih =>
    rw [pieces, ih, List.splitOn, List.splitOn, List.splitOnP_cons_eq_if_modifyHead]
    by_cases hmark : c = mark
    · simp [hmark]
    · rcases List.exists_cons_of_ne_nil (List.splitOnP_ne_nil (· == mark) rest) with
        ⟨piece, more, hfound⟩
      simp [hmark, hfound]

theorem pieces_intercalate {mark : Char} {texts : List Text} (h : ∀ text ∈ texts, mark ∉ text)
    (hne : texts ≠ []) : pieces mark ([mark].intercalate texts) = texts := by
  rw [pieces_eq_splitOn]
  exact List.splitOn_intercalate mark h hne

/-- The items of a list are its pieces between the commas that are not blank, trimmed. -/
theorem mem_listItems_iff {text item : Text} :
    item ∈ text.listItems ↔ ∃ piece ∈ text.pieces ',', ¬ piece.isBlank ∧ piece.trim = item := by
  rw [listItems, List.mem_filter, List.mem_map]
  constructor
  · rintro ⟨⟨piece, hpiece, rfl⟩, hne⟩
    refine ⟨piece, hpiece, fun hblank => ?_, rfl⟩
    rw [trim_eq_nil_iff.2 hblank] at hne
    cases hne
  · rintro ⟨piece, hpiece, hblank, rfl⟩
    refine ⟨⟨piece, hpiece, rfl⟩, ?_⟩
    simpa using mt trim_eq_nil_iff.1 hblank

theorem isItem_of_mem_listItems {text item : Text} (h : item ∈ text.listItems) : item.IsItem := by
  rcases mem_listItems_iff.1 h with ⟨piece, hpiece, hblank, rfl⟩
  refine ⟨mt trim_eq_nil_iff.1 hblank, tight_trim piece, ?_⟩
  -- trimming brings in no comma
  intro hcomma
  rcases exists_append_trim_append piece with ⟨before, after, -, -, hjoin⟩
  apply not_mem_of_mem_pieces hpiece
  rw [← hjoin]
  simp [hcomma]

/-- Items with commas between them are found again. -/
theorem listItems_intercalate {items : List Text} (h : ∀ item ∈ items, item.IsItem) :
    listItems ([','].intercalate items) = items := by
  cases items with
  | nil => decide
  | cons first rest =>
    have hpieces := pieces_intercalate (fun item hitem => (h item hitem).no_comma)
      (List.cons_ne_nil first rest)
    have htrim : (first :: rest).map trim = first :: rest := by
      have hsame : ∀ item ∈ first :: rest, item.trim = id item := by
        intro item hitem
        exact (h item hitem).tight.trim_eq
      rw [List.map_congr_left hsame, List.map_id]
    rw [listItems, hpieces, htrim, List.filter_eq_self]
    intro item hitem
    simpa using (h item hitem).ne_nil

/-- Items with commas between them have no white space at the ends. -/
theorem tight_intercalate {items : List Text} (h : ∀ item ∈ items, item.IsItem) :
    Tight ([','].intercalate items) := by
  induction items with
  | nil => exact tight_nil
  | cons first rest ih =>
    have hfirst := h first List.mem_cons_self
    cases rest with
    | nil => simpa using hfirst.tight
    | cons second rest =>
      have hrest := ih fun item hitem => h item (List.mem_cons_of_mem _ hitem)
      have hne : [','].intercalate (second :: rest) ≠ [] := by
        have hsecond := (h second (by simp)).ne_nil
        cases rest <;> simp [List.intercalate_cons_cons, hsecond]
      rw [List.intercalate_cons_cons]
      exact hfirst.tight.append hfirst.ne_nil [','] hrest hne

/-! ## Parentheses -/

theorem Tight.strip_eq {text : Text} (h : text.Tight) (hnone : text.enclosed? = none) :
    text.strip = text := by
  rw [strip, h.trim_eq, hnone]

/-- Stripping takes off the parentheses of a group. -/
theorem Balanced.strip_group {inner : Text} (h : inner.Balanced) :
    strip ('(' :: inner ++ [')']) = inner.trim := by
  rw [strip, (tight_group inner).trim_eq, enclosed?_eq_some_iff_balanced.2 ⟨rfl, h⟩]

/-- A group is not left as it is by stripping. -/
theorem Balanced.strip_group_ne {inner : Text} (h : inner.Balanced) :
    strip ('(' :: inner ++ [')']) ≠ '(' :: inner ++ [')'] := by
  intro hsame
  rw [h.strip_group] at hsame
  have hlength := congrArg List.length hsame
  have hle := inner.length_trim_le
  simp only [List.length_append, List.length_cons, List.length_nil] at hlength
  omega

theorem enclosed?_group {inner : Text} :
    (enclosed? ('(' :: inner ++ [')'])).isSome ↔ inner.Balanced := by
  rw [Option.isSome_iff_exists]
  constructor
  · rintro ⟨inside, h⟩
    rcases enclosed?_eq_some_iff_balanced.1 h with ⟨hsame, hinside⟩
    rwa [show inner = inside by simpa using hsame]
  · intro h
    exact ⟨inner, enclosed?_eq_some_iff_balanced.2 ⟨rfl, h⟩⟩

theorem parentheses_intercalate (texts : List Text) :
    parentheses ([','].intercalate texts) = texts.flatMap parentheses := by
  induction texts with
  | nil => rfl
  | cons first rest ih =>
    cases rest with
    | nil => simp
    | cons second rest =>
      rw [List.intercalate_cons_cons, parentheses_append, parentheses_append, ih]
      have hcomma : parentheses [','] = [] := rfl
      rw [hcomma, List.append_nil]
      rfl

/-- The items of a list hold the parentheses of the list. -/
theorem parentheses_listItems (text : Text) :
    parentheses ([','].intercalate text.listItems) = text.parentheses := by
  have hdrop : ∀ texts : List Text, (texts.filter (!·.isEmpty)).flatMap parentheses =
      texts.flatMap parentheses := by
    intro texts
    induction texts with
    | nil => rfl
    | cons first rest ih =>
      cases first with
      | nil => exact ih
      | cons c first => simp [ih]
  have hpieces : (pieces ',' text).flatMap parentheses = text.parentheses := by
    rw [← parentheses_intercalate, intercalate_pieces]
  rw [parentheses_intercalate, listItems, hdrop, List.flatMap_map, ← hpieces]
  simp only [parentheses_trim]

theorem Plain.parentheses {text : Text} (h : text.Plain) : text.parentheses = [] := by
  apply parentheses_eq_nil_iff.2
  intro c hc
  have hspecial := (not_special_of_isPlain (h.isPlain hc)).2
  constructor <;> rintro rfl <;> exact hspecial (by simp)

theorem balanced_of_parentheses {text : Text} (h : text.parentheses = []) : text.Balanced :=
  balanced_of_forall (parentheses_eq_nil_iff.1 h)

/-- Plain items bring no parentheses into a list. -/
theorem parentheses_intercalate_of_plain {texts : List Text} (h : ∀ text ∈ texts, text.Plain) :
    Text.parentheses ([','].intercalate texts) = [] := by
  rw [parentheses_intercalate, List.flatMap_eq_nil_iff]
  exact fun text htext => (h text htext).parentheses

end Text

end ListingFilter
