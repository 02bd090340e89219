import ListingFilter.Proofs.Phrases

/-!
# Layouts — the texts that a list can be written as

A list is laid out in a text item by item, with commas between the items, white space around each of
them, and blank places between commas at will. The layouts of a list are exactly the texts that it is
read from (`Text.lays_iff`). One pair of parentheses may stand around a layout, with white space around
the parentheses (`Text.Writes`), and does not matter if the items have no parentheses of their own
(`Text.Writes.exists_lays`).

So a value that is read as a list is the list of the items whatever its layout is, and a layout of no
items is a missing value (`Value.read_of_writes`). Where the operator takes one text, the commas are
characters of that text.
-/

namespace ListingFilter

namespace Text

/-! ## Items side by side -/

theorem pieces_append (mark : Char) (a b : Text) :
    pieces mark (a ++ mark :: b) = pieces mark a ++ pieces mark b := by
  induction a with
  | nil => simp [pieces]
  | cons c a ih =>
    rcases List.exists_cons_of_ne_nil (pieces_ne_nil mark a) with ⟨piece, more, hpieces⟩
    rw [List.cons_append, pieces, pieces, ih, hpieces]
    split <;> rfl

/-- A comma stands between the items before it and those behind it. -/
theorem listItems_append (a b : Text) : listItems (a ++ ',' :: b) = a.listItems ++ b.listItems := by
  simp only [listItems, pieces_append, List.map_append, List.filter_append]

/-- A text without commas is one item, unless it is blank. -/
theorem listItems_of_no_comma {text : Text} (h : ',' ∉ text) :
    text.listItems = if text.isBlank then [] else [text.trim] := by
  have hpieces : pieces ',' ([','].intercalate [text]) = [text] :=
    pieces_intercalate (by simpa using h) (List.cons_ne_nil text [])
  rw [List.intercalate_singleton] at hpieces
  have htrim : text.trim = [] ↔ text.isBlank := trim_eq_nil_iff
  by_cases hblank : text.isBlank
  · simp [listItems, hpieces, hblank, htrim.2 hblank]
  · simp [listItems, hpieces, hblank, mt htrim.1 hblank]

theorem no_comma_of_isBlank {text : Text} (h : text.isBlank) : ',' ∉ text := by
  intro hcomma
  have hspace : isSpace ',' := List.all_eq_true.1 h ',' hcomma
  exact absurd hspace (by decide)

/-! ## Layouts -/

/-- A text lays out a list of items. -/
inductive Lays : List Text → Text → Prop where
  | blank {text : Text} : text.isBlank → Lays [] text
  | item {before item after : Text} : before.isBlank → item.IsItem → after.isBlank →
      Lays [item] (before ++ item ++ after)
  | comma {first second : List Text} {a b : Text} : Lays first a → Lays second b →
      Lays (first ++ second) (a ++ ',' :: b)

/-- The items are read from every layout. -/
theorem Lays.listItems_eq {items : List Text} {text : Text} (h : Lays items text) :
    text.listItems = items := by
  induction h with
  | blank hblank => rw [listItems_of_no_comma (no_comma_of_isBlank hblank), if_pos hblank]
  | @item before item after hbefore hitem hafter =>
    have hcomma : ',' ∉ before ++ item ++ after := by
      simp [no_comma_of_isBlank hbefore, hitem.no_comma, no_comma_of_isBlank hafter]
    have htrim := hitem.tight.trim_pad hbefore hafter
    have hblank : ¬ isBlank (before ++ item ++ after) := by
      rw [← trim_eq_nil_iff, htrim]
      exact hitem.ne_nil
    rw [listItems_of_no_comma hcomma, if_neg hblank, htrim]
  | comma _ _ ihfirst ihsecond => rw [listItems_append, ihfirst, ihsecond]

/-- Every text is a layout of its items. -/
theorem lays_listItems (text : Text) : Lays text.listItems text := by
  have hpieces : ∀ pieces : List Text, pieces ≠ [] → (∀ piece ∈ pieces, ',' ∉ piece) →
      Lays (listItems ([','].intercalate pieces)) ([','].intercalate pieces) := by
    intro pieces hne hcomma
    induction pieces with
    | nil => exact absurd rfl hne
    | cons piece more ih =>
      rw [List.forall_mem_cons] at hcomma
      have hpiece : Lays piece.listItems piece := by
        rw [listItems_of_no_comma hcomma.1]
        by_cases hblank : piece.isBlank
        · rw [if_pos hblank]
          exact .blank hblank
        · rw [if_neg hblank]
          rcases exists_append_trim_append piece with ⟨before, after, hbefore, hafter, hjoin⟩
          have hmem : piece.trim ∈ piece.listItems := by
            rw [listItems_of_no_comma hcomma.1, if_neg hblank]
            exact List.mem_singleton_self _
          have hlays := Lays.item hbefore (isItem_of_mem_listItems hmem) hafter
          rwa [hjoin] at hlays
      cases more with
      | nil => simpa using hpiece
      | cons second more =>
        have hmore := ih (List.cons_ne_nil second more) hcomma.2
        rw [List.intercalate_cons_cons, List.append_assoc, List.singleton_append, listItems_append]
        exact .comma hpiece hmore
  have htext := hpieces (text.pieces ',') (pieces_ne_nil ',' text) fun _ => not_mem_of_mem_pieces
  rwa [intercalate_pieces] at htext

/-- The layouts of a list are the texts that it is read from. -/
theorem lays_iff {items : List Text} {text : Text} : Lays items text ↔ text.listItems = items := by
  constructor
  · exact Lays.listItems_eq
  · rintro rfl
    exact lays_listItems text

namespace Lays

variable {items : List Text} {text : Text}

/-- White space around a layout is white space around its first and its last place. -/
theorem pad (h : Lays items text) {before after : Text} (hbefore : before.isBlank)
    (hafter : after.isBlank) : Lays items (before ++ text ++ after) := by
  induction h generalizing before after with
  | blank hblank =>
    refine .blank ?_
    simp [hbefore, hblank, hafter]
  | @item start item rest hstart hitem hrest =>
    have hlays : Lays [item] ((before ++ start) ++ item ++ (rest ++ after)) :=
      .item (by simp [hbefore, hstart]) hitem (by simp [hrest, hafter])
    simpa using hlays
  | comma _ _ ihfirst ihsecond =>
    have hlays := (ihfirst hbefore isBlank_nil).comma (ihsecond isBlank_nil hafter)
    simpa using hlays

theorem parentheses_eq_nil (h : Lays items text) (hitems : ∀ item ∈ items, item.parentheses = []) :
    text.parentheses = [] := by
  induction h with
  | blank hblank => exact parentheses_of_isBlank hblank
  | item hbefore _ hafter =>
    rw [List.forall_mem_singleton] at hitems
    simp [parentheses_of_isBlank hbefore, hitems, parentheses_of_isBlank hafter]
  | @comma first second a b _ _ ihfirst ihsecond =>
    rw [List.forall_mem_append] at hitems
    have hcomma : parentheses (',' :: b) = b.parentheses := rfl
    rw [parentheses_append, hcomma, ihfirst hitems.1, ihsecond hitems.2, List.append_nil]

/-- A layout of no items is blank, but for its commas. -/
theorem isBlank_iff (h : Lays [] text) : text.isBlank ↔ ',' ∉ text := by
  constructor
  · exact no_comma_of_isBlank
  · intro hcomma
    have hitems := h.listItems_eq
    rw [listItems_of_no_comma hcomma] at hitems
    by_contra hblank
    rw [if_neg hblank] at hitems
    cases hitems

end Lays

theorem listItems_trim (text : Text) : text.trim.listItems = text.listItems := by
  rcases exists_append_trim_append text with ⟨before, after, hbefore, hafter, hjoin⟩
  have hlays := (lays_listItems text.trim).pad hbefore hafter
  rw [hjoin] at hlays
  exact hlays.listItems_eq.symm

/-! ## In parentheses or not -/

/-- A text writes a list of items: it is a layout of them, or has one in parentheses. White space
inside of the parentheses belongs to the layout. -/
inductive Writes : List Text → Text → Prop where
  | bare {items : List Text} {text : Text} : Lays items text → Writes items text
  | enclosed {items : List Text} {before inner after : Text} : before.isBlank → Lays items inner →
      after.isBlank → Writes items (before ++ ('(' :: inner ++ [')']) ++ after)

/-- Stripping leaves the layout, without white space at its ends. -/
theorem Writes.exists_lays {items : List Text} {text : Text} (h : Writes items text)
    (hitems : ∀ item ∈ items, item.parentheses = []) :
    ∃ inner : Text, Lays items inner ∧ text.strip = inner.trim ∧ (',' ∈ inner ↔ ',' ∈ text) := by
  cases h with
  | bare hlays =>
    refine ⟨text, hlays, ?_, Iff.rfl⟩
    -- there are no parentheses to take off
    have hparens : text.trim.parentheses = [] := by
      rw [parentheses_trim, hlays.parentheses_eq_nil hitems]
    have hnone : text.trim.enclosed? = none := by
      refine enclosed?_eq_none_iff.2 ?_
      intro inner _ hgroup
      rw [hgroup, parentheses_group] at hparens
      cases hparens
    rw [strip, hnone]
  | @enclosed before inner after hbefore hlays hafter =>
    refine ⟨inner, hlays, ?_, ?_⟩
    · have hbalanced := balanced_of_parentheses (hlays.parentheses_eq_nil hitems)
      rw [strip, (tight_group inner).trim_pad hbefore hafter,
        enclosed?_eq_some_iff_balanced.2 ⟨rfl, hbalanced⟩]
    · simp [no_comma_of_isBlank hbefore, no_comma_of_isBlank hafter]

theorem Writes.listItems_strip {items : List Text} {text : Text} (h : Writes items text)
    (hitems : ∀ item ∈ items, item.parentheses = []) : text.strip.listItems = items := by
  rcases h.exists_lays hitems with ⟨inner, hlays, hstrip, -⟩
  rw [hstrip, listItems_trim, hlays.listItems_eq]

end Text

namespace Value

variable {items : List Text} {text : Text}

/-- Where a list is asked for, the layout does not matter. -/
theorem read_writes_list (h : Text.Writes items text)
    (hitems : ∀ item ∈ items, item.parentheses = []) {field : Field} {operator : Operator}
    (hlist : field.takesList operator) :
    Value.read text field operator =
      if operator ≠ .exists ∧ items = [] then .error (.malformed text.trim .missingValue)
      else .list <$> items.mapM (field.readItem operator) := by
  rw [read_list hlist, h.listItems_strip hitems]

/-- Where one text is asked for, no items are a missing value, unless there are commas. -/
theorem read_writes_single (h : Text.Writes [] text) {field : Field} {operator : Operator}
    (hexists : operator ≠ .exists) (hsingle : ¬ field.takesList operator) :
    Value.read text field operator =
      if ',' ∈ text then .single <$> field.readItem operator text.strip
      else .error (.malformed text.trim .missingValue) := by
  rcases h.exists_lays (by simp) with ⟨inner, hlays, hstrip, hcomma⟩
  have hempty : text.strip = [] ↔ ',' ∉ text := by
    rw [hstrip, Text.trim_eq_nil_iff, hlays.isBlank_iff, hcomma]
  rw [read_single hsingle]
  by_cases hmem : ',' ∈ text
  · rw [if_pos hmem, if_neg]
    exact fun hrefused => hempty.1 hrefused.2 hmem
  · rw [if_neg hmem, if_pos ⟨hexists, hempty.2 hmem⟩]

/-- A list of values is read independently of its layout. -/
theorem read_of_writes (hitems : ∀ item ∈ items, item.IsItem ∧ '(' ∉ item ∧ ')' ∉ item)
    (h : Text.Writes items text) :
    (items ≠ [] →
      (∀ link operator, Value.read text (.relationship link) operator =
        .ok (.list (items.map .text))) ∧
      (∀ name operator, operator.expectsList →
        Value.read text (.attribute name) operator = .ok (.list (items.map .text))) ∧
      ∀ column operator, operator.expectsList →
        (∃ scalars, List.Forall₂ (fun item scalar => Scalar.read column item = .ok scalar)
            items scalars ∧
          Value.read text (.standard column) operator = .ok (.list scalars)) ∨
        ∃ before item after fault, items = before ++ item :: after ∧
          (∀ earlier ∈ before, ∃ scalar, Scalar.read column earlier = .ok scalar) ∧
          Scalar.read column item = .error fault ∧
          Value.read text (.standard column) operator = .error fault) ∧
    (items = [] →
      (∀ link, Value.read text (.relationship link) .exists = .ok (.list [])) ∧
      (∀ field operator, operator ≠ .exists → field.takesList operator ∨ ',' ∉ text →
        Value.read text field operator = .error (.malformed text.trim .missingValue)) ∧
      ∀ field operator, operator ≠ .exists → ¬ field.takesList operator → ',' ∈ text →
        Value.read text field operator = .single <$> field.readItem operator text.strip) := by
  have hparens : ∀ item ∈ items, item.parentheses = [] := fun item hitem =>
    Text.parentheses_eq_nil_of_not_mem (hitems item hitem).2
  constructor
  · intro hne
    have hlist : ∀ field operator, Field.takesList field operator →
        Value.read text field operator = .list <$> items.mapM (field.readItem operator) := by
      intro field operator hfield
      rw [read_writes_list h hparens hfield, if_neg (fun hnil => hne hnil.2)]
    refine ⟨?_, ?_, ?_⟩
    · intro link operator
      rw [hlist _ _ rfl, Field.mapM_readItem_of_texts fun _ => rfl]
      rfl
    · intro name operator hoperator
      rw [hlist (.attribute name) operator hoperator, Field.mapM_readItem_of_texts fun _ => rfl]
      rfl
    · intro column operator hoperator
      have hlike : operator ≠ .like := by
        rintro rfl
        cases hoperator
      rw [hlist (.standard column) operator hoperator, Field.readItem_standard hlike]
      cases hscalars : items.mapM (Scalar.read column) with
      | ok scalars => exact .inl ⟨scalars, mapM_eq_ok_iff.1 hscalars, rfl⟩
      | error fault =>
        rcases mapM_eq_error_iff.1 hscalars with ⟨before, item, after, hsplit, hbefore, hfault⟩
        exact .inr ⟨before, item, after, fault, hsplit, hbefore, hfault, rfl⟩
  · rintro rfl
    refine ⟨?_, ?_, ?_⟩
    · intro link
      rw [read_writes_list h hparens rfl, if_neg (fun hexists => hexists.1 rfl)]
      rfl
    · intro field operator hexists hempty
      by_cases hfield : field.takesList operator
      · rw [read_writes_list h hparens hfield, if_pos ⟨hexists, rfl⟩]
      · rw [read_writes_single h hexists hfield, if_neg (hempty.resolve_left hfield)]
    · intro field operator hexists hfield hcomma
      rw [read_writes_single h hexists hfield, if_pos hcomma]

/-- Two languages, with a blank place between them and white space everywhere. -/
theorem read_of_writes_languages :
    Text.Writes ["rust".toList, "go".toList] " ( rust ,, go ) ".toList ∧
      Value.read " ( rust ,, go ) ".toList (.relationship .languages) .hasAny =
        .ok (.list [.text "rust".toList, .text "go".toList]) := by
  have hlays : Text.Lays ["rust".toList, "go".toList] " rust ,, go ".toList :=
    Text.lays_iff.2 (by decide)
  have hwrites : Text.Writes ["rust".toList, "go".toList] " ( rust ,, go ) ".toList :=
    .enclosed Text.isBlank_blank hlays Text.isBlank_blank
  have hitems : ∀ item ∈ ["rust".toList, "go".toList],
      Text.IsItem item ∧ '(' ∉ item ∧ ')' ∉ item := by
    intro item hitem
    refine ⟨?_, ?_⟩
    · rw [← hlays.listItems_eq] at hitem
      exact Text.isItem_of_mem_listItems hitem
    · revert item
      decide
  exact ⟨hwrites, ((read_of_writes hitems hwrites).1 (by decide)).1 _ _⟩

/-- A comma between no items is a text, where the operator takes a text. -/
theorem not_read_of_writes_comma :
    Text.Writes [] "(,)".toList ∧
      Value.read "(,)".toList (.standard "title".toList) .equal = .ok (.single (.text ",".toList)) := by
  refine ⟨?_, by decide⟩
  have hlays : Text.Lays [] ",".toList := Text.lays_iff.2 (by decide)
  exact .enclosed Text.isBlank_nil hlays Text.isBlank_nil

end Value

end ListingFilter
