import ListingFilter.Proofs.Balance
import ListingFilter.Connective

/-!
# Severing — where a text is cut

A connective severs a text where its word stands outside of all parentheses, after the start of the
text, white space or a closing parenthesis, and before the end of the text, white space or an
opening parenthesis. A text is whole when it is balanced and nothing severs it.

The words of connectives hold neither white space nor parentheses, so two of them never overlap
(`Severs.not_overlap`), and white space around a text does not matter to where it is severed
(`whole_trim_iff`).
-/

namespace ListingFilter

namespace Text

/-- The text ends with white space or a closing parenthesis. -/
def EndsApart (text : Text) : Prop :=
  ∃ c, text.getLast? = some c ∧ (isSpace c ∨ c = ')')

/-- The text begins with white space or an opening parenthesis. -/
def BeginsApart (text : Text) : Prop :=
  ∃ c, text.head? = some c ∧ (isSpace c ∨ c = '(')

theorem endsApart_append_iff {a b : Text} (h : b ≠ []) : EndsApart (a ++ b) ↔ b.EndsApart := by
  rw [EndsApart, getLast?_append_of_ne_nil a h]
  rfl

theorem beginsApart_append_iff {a b : Text} (h : a ≠ []) : BeginsApart (a ++ b) ↔ a.BeginsApart := by
  rw [BeginsApart, head?_append_of_ne_nil h]
  rfl

theorem EndsApart.ne_nil {text : Text} (h : text.EndsApart) : text ≠ [] := by
  rintro rfl
  rcases h with ⟨c, hc, -⟩
  cases hc

theorem BeginsApart.ne_nil {text : Text} (h : text.BeginsApart) : text ≠ [] := by
  rintro rfl
  rcases h with ⟨c, hc, -⟩
  cases hc

theorem endsApart_append_blank (text : Text) : EndsApart (text ++ [' ']) :=
  ⟨' ', List.getLast?_concat, .inl isSpace_blank⟩

theorem beginsApart_blank_append (text : Text) : BeginsApart ([' '] ++ text) :=
  ⟨' ', rfl, .inl isSpace_blank⟩

theorem endsApart_of_isBlank {text : Text} (h : text.isBlank) (hne : text ≠ []) :
    text.EndsApart := by
  refine ⟨text.getLast hne, List.getLast?_eq_some_getLast hne, .inl ?_⟩
  exact List.all_eq_true.1 h _ (List.getLast_mem hne)

theorem beginsApart_of_isBlank {text : Text} (h : text.isBlank) (hne : text ≠ []) :
    text.BeginsApart := by
  refine ⟨text.head hne, List.head?_eq_some_head hne, .inl ?_⟩
  exact List.all_eq_true.1 h _ (List.head_mem hne)

/-- White space behind a text that ends apart does not matter. -/
theorem EndsApart.append {text after : Text} (h : text.EndsApart) (hafter : after.isBlank) :
    EndsApart (text ++ after) := by
  by_cases hne : after = []
  · rwa [hne, List.append_nil]
  · exact (endsApart_append_iff hne).2 (endsApart_of_isBlank hafter hne)

/-- White space before a text that begins apart does not matter. -/
theorem BeginsApart.append {before text : Text} (h : text.BeginsApart) (hbefore : before.isBlank) :
    BeginsApart (before ++ text) := by
  by_cases hne : before = []
  · rwa [hne, List.nil_append]
  · exact (beginsApart_append_iff hne).2 (beginsApart_of_isBlank hbefore hne)

end Text

/-! ## Words of connectives -/

namespace Connective

theorem mayFollow_getLast?_iff {text : Text} :
    mayFollow text.getLast? ↔ text = [] ∨ text.EndsApart := by
  cases h : text.getLast? with
  | none => simp [mayFollow, List.getLast?_eq_none_iff.1 h]
  | some c =>
    have hne : text ≠ [] := by
      rintro rfl
      simp at h
    simp [mayFollow, Text.EndsApart, h, hne]

theorem mayPrecede_iff {text : Text} : mayPrecede text ↔ text = [] ∨ text.BeginsApart := by
  cases text <;> simp [mayPrecede, Text.BeginsApart]

/-- White space has no small letter. -/
theorem toLower_of_isSpace {c : Char} (h : isSpace c) : c.toLower = c := by
  obtain ⟨range, hmem, hlow, hhigh⟩ := Ranges.exists_of_hasCode h
  have hnotCapital : ¬ (65 ≤ c.toNat ∧ c.toNat ≤ 90) := by
    rintro ⟨hA, hZ⟩
    simp only [spaceRanges, List.mem_cons, List.not_mem_nil, or_false] at hmem
    rcases hmem with rfl | rfl | rfl | rfl | rfl | rfl | rfl | rfl | rfl | rfl <;>
      simp at hlow hhigh <;> omega
  exact dif_neg hnotCapital

theorem foldAscii_eq_of_accepts {spelling : Spelling} {word keyword : Text}
    (h : spelling.accepts word keyword) : word.foldAscii = keyword.foldAscii := by
  cases spelling <;> simp_all [Spelling.accepts]

theorem toLower_mem_of_accepts {spelling : Spelling} {word : Text} {connective : Connective}
    (h : spelling.accepts word connective.keyword) {c : Char} (hc : c ∈ word) :
    c.toLower ∈ connective.keyword.foldAscii := by
  rw [← foldAscii_eq_of_accepts h]
  exact List.mem_map_of_mem hc

/-- A spelling of a keyword holds no white space. -/
theorem not_isSpace_of_accepts {spelling : Spelling} {word : Text} {connective : Connective}
    (h : spelling.accepts word connective.keyword) {c : Char} (hc : c ∈ word) : ¬ isSpace c := by
  intro hspace
  have hsmall := toLower_mem_of_accepts h hc
  rw [toLower_of_isSpace hspace] at hsmall
  have hletters : connective.keyword.foldAscii.all fun d => !isSpace d := by
    cases connective <;> decide
  have hletter := List.all_eq_true.1 hletters c hsmall
  simp [hspace] at hletter

theorem length_of_accepts {spelling : Spelling} {word keyword : Text}
    (h : spelling.accepts word keyword) : word.length = keyword.length := by
  simpa [Text.foldAscii] using congrArg List.length (foldAscii_eq_of_accepts h)

theorem ne_nil_of_accepts {spelling : Spelling} {word : Text} {connective : Connective}
    (h : spelling.accepts word connective.keyword) : word ≠ [] := by
  rintro rfl
  have hlength := length_of_accepts h
  cases connective <;> simp [keyword] at hlength

/-- No text spells both keywords, whatever follows it. -/
theorem eq_of_accepts {spelling : Spelling} {word word' after after' : Text} {k k' : Connective}
    (h : spelling.accepts word k.keyword) (h' : spelling.accepts word' k'.keyword)
    (heq : word ++ after = word' ++ after') : k = k' := by
  have hfold := foldAscii_eq_of_accepts h
  have hfold' := foldAscii_eq_of_accepts h'
  obtain ⟨c, tail, rfl⟩ := List.exists_cons_of_ne_nil (ne_nil_of_accepts h)
  obtain ⟨d, tail', rfl⟩ := List.exists_cons_of_ne_nil (ne_nil_of_accepts h')
  have hhead : c = d := (List.cons.inj heq).1
  have hfirst := congrArg List.head? hfold
  have hfirst' := congrArg List.head? hfold'
  cases k <;> cases k' <;> simp_all [Text.foldAscii, keyword]

/-- A connective is found at the start of a text exactly where the text begins with a spelling of
its keyword that stands apart from what follows. -/
theorem at?_eq_some_iff {spelling : Spelling} {text : Text} {connective : Connective} :
    at? spelling text = some connective ↔
      ∃ word after, text = word ++ after ∧ spelling.accepts word connective.keyword ∧
        (after = [] ∨ after.BeginsApart) := by
  have hopens : ∀ k : Connective, opens spelling text k ↔
      ∃ word after, text = word ++ after ∧ spelling.accepts word k.keyword ∧
        (after = [] ∨ after.BeginsApart) := by
    intro k
    rw [opens, Bool.and_eq_true, mayPrecede_iff]
    constructor
    · rintro ⟨haccepts, hafter⟩
      exact ⟨_, _, (List.take_append_drop k.keyword.length text).symm, haccepts, hafter⟩
    · rintro ⟨word, after, rfl, haccepts, hafter⟩
      rw [← length_of_accepts haccepts, List.take_left, List.drop_left]
      exact ⟨haccepts, hafter⟩
  constructor
  · intro h
    exact (hopens connective).1 (opens_of_at? h)
  · intro h
    have hopened := (hopens connective).2 h
    cases hfound : at? spelling text with
    | none =>
      have hnone := List.find?_eq_none.1 hfound connective (by cases connective <;> simp)
      exact absurd hopened hnone
    | some k =>
      obtain ⟨word, after, heq, haccepts, -⟩ := h
      obtain ⟨word', after', heq', haccepts', -⟩ := (hopens k).1 (opens_of_at? hfound)
      rw [eq_of_accepts haccepts' haccepts (heq' ▸ heq)]

/-! ## Severing -/

/-- The word is a connective that severs `before ++ word ++ after`: it stands outside of all
parentheses and apart from what is around it. -/
structure Severs (spelling : Spelling) (before word after : Text) (connective : Connective) :
    Prop where
  /-- No parenthesis is open before the word. -/
  outermost : before.Balanced
  /-- The word is a spelling of the keyword. -/
  accepted : spelling.accepts word connective.keyword
  /-- It stands at the start, or after white space or a closing parenthesis. -/
  before_apart : before = [] ∨ before.EndsApart
  /-- It stands at the end, or before white space or an opening parenthesis. -/
  after_apart : after = [] ∨ after.BeginsApart

/-- Words do not overlap: where a word ends apart, no other word that begins before its start
reaches beyond that start. -/
theorem Severs.not_overlap {spelling : Spelling} {before word after : Text} {k : Connective}
    (h : k.Severs spelling before word after) {start tail word' after' : Text} {k' : Connective}
    (hbefore : before = start ++ tail) (htail : tail ≠ [])
    (hword : spelling.accepts word' k'.keyword)
    (heq : tail ++ (word ++ after) = word' ++ after') :
    ∃ more, more ≠ [] ∧ tail = word' ++ more ∧ after' = more ++ (word ++ after) := by
  -- what stands directly before a word is no letter of a word
  have hlast : ∀ c, tail.getLast? = some c → c ∉ word' := by
    intro c hc hmem
    rcases h.before_apart with hnil | ⟨d, hd, hapart⟩
    · simp [hnil, htail] at hbefore
    · have hcd : d = c := by
        rw [hbefore, List.getLast?_append, hc] at hd
        simpa using hd.symm
      subst hcd
      rcases hapart with hspace | rfl
      · exact not_isSpace_of_accepts hword hmem hspace
      · exact (ne_parenthesis_of_accepts hword hmem).2 rfl
  rcases List.append_eq_append_iff.1 heq with ⟨more, hmore, -⟩ | ⟨more, hmore, hafter⟩
  · -- `tail` would be the beginning of the word
    have hmem : tail.getLast htail ∈ word' := by
      rw [hmore]
      exact List.mem_append_left _ (List.getLast_mem htail)
    exact absurd hmem (hlast _ (List.getLast?_eq_some_getLast htail))
  · -- the other word ends before `tail` does
    refine ⟨more, ?_, hmore, hafter⟩
    rintro rfl
    rw [List.append_nil] at hmore
    have hmem : tail.getLast htail ∈ word' := hmore ▸ List.getLast_mem htail
    exact hlast _ (List.getLast?_eq_some_getLast htail) hmem

end Connective

namespace Text

/-- No connective severs the text. -/
def Unsevered (spelling : Spelling) (text : Text) : Prop :=
  ∀ (before word after : Text) (connective : Connective),
    text = before ++ word ++ after → ¬ connective.Severs spelling before word after

/-- The text is balanced, and no connective severs it. -/
structure Whole (spelling : Spelling) (text : Text) : Prop where
  balanced : text.Balanced
  unsevered : ∀ (before word after : Text) (connective : Connective),
    text = before ++ word ++ after → ¬ connective.Severs spelling before word after

/-- The text can stand between connectives: it is not empty, has no white space at its ends, and
nothing severs it. -/
structure IsSegment (spelling : Spelling) (text : Text) : Prop where
  ne_nil : text ≠ []
  tight : text.Tight
  whole : text.Whole spelling

end Text

namespace Text

/-- A group in parentheses is a segment: whatever severs it would begin inside of it. -/
theorem Balanced.isSegment_group {inner : Text} (h : inner.Balanced) (spelling : Spelling) :
    IsSegment spelling ('(' :: inner ++ [')']) := by
  refine ⟨by simp, tight_group inner, ⟨h.group, ?_⟩⟩
  intro before word after k heq hsevers
  have hne := Connective.ne_nil_of_accepts hsevers.accepted
  cases before with
  | nil =>
    -- the word would begin with the parenthesis
    rcases List.exists_cons_of_ne_nil hne with ⟨c, tail, rfl⟩
    obtain rfl : '(' = c := (List.cons.inj heq).1
    exact (Connective.ne_parenthesis_of_accepts hsevers.accepted (by simp)).1 rfl
  | cons c tail =>
    -- what stands before the word would be balanced, so it would be the whole group
    rw [List.append_assoc] at heq
    have hnil := eq_nil_of_balanced_start h hsevers.outermost (by simp) heq
    simp [hne] at hnil

end Text

/-! ## Two connectives in one text -/

namespace Connective

variable {spelling : Spelling} {before word after before' word' after' middle : Text}
  {connective connective' : Connective}

theorem balanced_of_accepts (h : spelling.accepts word connective.keyword) : word.Balanced :=
  Text.balanced_of_forall fun _ hc => ne_parenthesis_of_accepts h hc

/-- What severs the text behind a connective that severs a text severs the text as well. -/
theorem Severs.behind (h : connective.Severs spelling before word after)
    (hafter : after = middle ++ word' ++ after')
    (h' : connective'.Severs spelling middle word' after') :
    connective'.Severs spelling (before ++ word ++ middle) word' after' := by
  refine ⟨(h.outermost.append (balanced_of_accepts h.accepted)).append h'.outermost, h'.accepted, ?_,
    h'.after_apart⟩
  right
  rcases h'.before_apart with rfl | hends
  · -- the next word would touch the first one
    exfalso
    rcases h.after_apart with hnil | ⟨c, hc, hapart⟩
    · simp [hafter, ne_nil_of_accepts h'.accepted] at hnil
    · rcases List.exists_cons_of_ne_nil (ne_nil_of_accepts h'.accepted) with ⟨d, tail, rfl⟩
      obtain rfl : d = c := by simpa [hafter] using hc
      rcases hapart with hspace | rfl
      · exact not_isSpace_of_accepts h'.accepted (by simp) hspace
      · exact (ne_parenthesis_of_accepts h'.accepted (by simp)).1 rfl
  · exact (Text.endsApart_append_iff hends.ne_nil).2 hends

/-- Two words that begin at the same place are the same. -/
theorem word_eq_of_accepts (h : spelling.accepts word connective.keyword)
    (h' : spelling.accepts word' connective'.keyword) (heq : word ++ after = word' ++ after') :
    word = word' ∧ after = after' := by
  obtain rfl := eq_of_accepts h h' heq
  exact List.append_inj heq ((length_of_accepts h).trans (length_of_accepts h').symm)

/-- Of two connectives that sever a text, with a whole text before the one, the other is the same or
severs what stands behind it. -/
theorem Severs.same_or_behind (h : connective.Severs spelling before word after)
    (hwhole : before.Whole spelling) (h' : connective'.Severs spelling before' word' after')
    (htext : before' ++ word' ++ after' = before ++ word ++ after) :
    before' = before ∧ word' = word ∧ after' = after ∨
      ∃ middle, before' = before ++ word ++ middle ∧ after = middle ++ word' ++ after' ∧
        connective'.Severs spelling middle word' after' := by
  rw [List.append_assoc, List.append_assoc] at htext
  rcases List.append_eq_append_iff.1 htext with ⟨tail, hbefore, hwords⟩ | ⟨tail, hbefore, hwords⟩
  · by_cases hne : tail = []
    · rw [hne, List.nil_append] at hwords
      rw [hne, List.append_nil] at hbefore
      rcases word_eq_of_accepts h'.accepted h.accepted hwords with ⟨hword, hafter⟩
      exact .inl ⟨hbefore.symm, hword, hafter⟩
    · -- the other word begins earlier, so it severs the whole text before
      exfalso
      rcases h.not_overlap hbefore hne h'.accepted hwords.symm with ⟨more, hmore, rfl, rfl⟩
      refine hwhole.unsevered before' word' more connective' (by simp [hbefore]) ⟨h'.outermost,
        h'.accepted, h'.before_apart, .inr ?_⟩
      exact (Text.beginsApart_append_iff hmore).1 (h'.after_apart.resolve_left (by simp [hmore]))
  · by_cases hne : tail = []
    · rw [hne, List.nil_append] at hwords
      rw [hne, List.append_nil] at hbefore
      rcases word_eq_of_accepts h'.accepted h.accepted hwords.symm with ⟨hword, hafter⟩
      exact .inl ⟨hbefore, hword, hafter⟩
    · -- the other word begins later, so it stands behind this one
      right
      rcases h'.not_overlap hbefore hne h.accepted hwords.symm with ⟨more, hmore, rfl, rfl⟩
      refine ⟨more, by simp [hbefore], by simp, ?_, h'.accepted, .inr ?_, h'.after_apart⟩
      · have houter := h'.outermost
        rwa [hbefore, Text.balanced_append_iff h.outermost,
          Text.balanced_append_iff (balanced_of_accepts h.accepted)] at houter
      · have hends := h'.before_apart.resolve_left (by simp [hbefore, hmore])
        rwa [hbefore, ← List.append_assoc, Text.endsApart_append_iff hmore] at hends

end Connective

/-! ## Texts side by side -/

/-- No spelling of a keyword holds the character. -/
def Spelling.Lacks (spelling : Spelling) (c : Char) : Prop :=
  ∀ (word : Text) (connective : Connective), spelling.accepts word connective.keyword → c ∉ word

namespace Spelling

variable {spelling : Spelling} {c : Char}

theorem lacks_of_isSpace (h : isSpace c) : spelling.Lacks c :=
  fun _ _ haccepts hc => Connective.not_isSpace_of_accepts haccepts hc h

theorem lacks_parenthesis (h : c = '(' ∨ c = ')') : spelling.Lacks c := by
  intro word connective haccepts hc
  rcases Connective.ne_parenthesis_of_accepts haccepts hc with ⟨hopen, hclose⟩
  exact h.elim hopen hclose

end Spelling

namespace Text

variable {spelling : Spelling} {a b : Text}

/-- A text without letters of keywords is not severed. -/
theorem unsevered_of_lacks (h : ∀ c ∈ a, spelling.Lacks c) : a.Unsevered spelling := by
  intro before word after connective ha hsevers
  rcases List.exists_mem_of_ne_nil word (Connective.ne_nil_of_accepts hsevers.accepted) with ⟨c, hc⟩
  refine h c ?_ word connective hsevers.accepted hc
  rw [ha]
  exact List.mem_append_left _ (List.mem_append_right _ hc)

/-- White space is whole. -/
theorem whole_of_isBlank (h : a.isBlank) : a.Whole spelling :=
  ⟨balanced_of_isBlank h, unsevered_of_lacks fun c hc =>
    Spelling.lacks_of_isSpace (List.all_eq_true.1 h c hc)⟩

/-- Whole texts side by side are whole, if no letters of a keyword meet there. -/
theorem Whole.append (ha : a.Whole spelling) (hb : b.Whole spelling)
    (hseam : (∀ c, a.getLast? = some c → spelling.Lacks c) ∨
      ∀ c, b.head? = some c → spelling.Lacks c) : Whole spelling (a ++ b) := by
  refine ⟨ha.balanced.append hb.balanced, ?_⟩
  intro before word after k heq hsevers
  rw [List.append_assoc] at heq
  rcases List.append_eq_append_iff.1 heq with ⟨middle, hbefore, hbSplit⟩ | ⟨tail, haSplit, hwords⟩
  · -- the word stands in the second text
    refine hb.unsevered middle word after k (by rw [hbSplit, List.append_assoc]) ⟨?_,
      hsevers.accepted, ?_, hsevers.after_apart⟩
    · rw [← balanced_append_iff ha.balanced, ← hbefore]
      exact hsevers.outermost
    · by_cases hne : middle = []
      · exact .inl hne
      · have hends := hsevers.before_apart.resolve_left (by simp [hbefore, hne])
        rw [hbefore, endsApart_append_iff hne] at hends
        exact .inr hends
  · rcases List.append_eq_append_iff.1 hwords with ⟨more, htail, hafter⟩ | ⟨more, hword, hbSplit⟩
    · -- it stands in the first one
      refine ha.unsevered before word more k (by rw [haSplit, htail, List.append_assoc])
        ⟨hsevers.outermost, hsevers.accepted, hsevers.before_apart, ?_⟩
      by_cases hne : more = []
      · exact .inl hne
      · have hbegins := hsevers.after_apart.resolve_left (by simp [hafter, hne])
        rw [hafter, beginsApart_append_iff hne] at hbegins
        exact .inr hbegins
    · by_cases htail : tail = []
      · -- it begins the second one
        rw [htail, List.nil_append] at hword
        exact hb.unsevered [] word after k (by rw [hword, hbSplit, List.nil_append])
          ⟨balanced_nil, hsevers.accepted, .inl rfl, hsevers.after_apart⟩
      · by_cases hmore : more = []
        · -- it ends the first one
          rw [hmore, List.append_nil] at hword
          exact ha.unsevered before word [] k (by rw [hword, haSplit, List.append_nil])
            ⟨hsevers.outermost, hsevers.accepted, hsevers.before_apart, .inl rfl⟩
        · -- it would reach across the seam
          rcases hseam with hlast | hfirst
          · refine hlast (tail.getLast htail) ?_ word k hsevers.accepted ?_
            · rw [haSplit, getLast?_append_of_ne_nil _ htail, List.getLast?_eq_some_getLast htail]
            · rw [hword]
              exact List.mem_append_left _ (List.getLast_mem htail)
          · refine hfirst (more.head hmore) ?_ word k hsevers.accepted ?_
            · rw [hbSplit, head?_append_of_ne_nil hmore, List.head?_eq_some_head hmore]
            · rw [hword]
              exact List.mem_append_right _ (List.head_mem hmore)

end Text

/-! ## White space around a text -/

namespace Connective

variable {spelling : Spelling} {before word after pad : Text} {connective : Connective}

theorem Severs.append_left (h : connective.Severs spelling before word after)
    (hpad : pad.isBlank) : connective.Severs spelling (pad ++ before) word after := by
  refine ⟨(Text.balanced_of_isBlank hpad).append h.outermost, h.accepted, ?_, h.after_apart⟩
  rcases h.before_apart with rfl | ⟨c, hc, hapart⟩
  · rw [List.append_nil]
    cases hlast : pad.getLast? with
    | none => exact .inl (List.getLast?_eq_none_iff.1 hlast)
    | some c =>
      exact .inr ⟨c, hlast, .inl (List.all_eq_true.1 hpad c (List.mem_of_getLast? hlast))⟩
  · exact .inr ⟨c, by simp [List.getLast?_append, hc], hapart⟩

/-- White space before the text that the word stands behind can be left out. -/
theorem Severs.of_append_left (h : connective.Severs spelling (pad ++ before) word after)
    (hpad : pad.isBlank) : connective.Severs spelling before word after := by
  refine ⟨(Text.balanced_append_iff (Text.balanced_of_isBlank hpad)).1 h.outermost, h.accepted, ?_,
    h.after_apart⟩
  rcases h.before_apart with hnil | ⟨c, hc, hapart⟩
  · exact .inl (List.append_eq_nil_iff.1 hnil).2
  · cases hlast : before.getLast? with
    | none => exact .inl (List.getLast?_eq_none_iff.1 hlast)
    | some d =>
      obtain rfl : d = c := by simpa [List.getLast?_append, hlast] using hc
      exact .inr ⟨d, hlast, hapart⟩

theorem Severs.append_right (h : connective.Severs spelling before word after)
    (hpad : pad.isBlank) : connective.Severs spelling before word (after ++ pad) := by
  refine ⟨h.outermost, h.accepted, h.before_apart, ?_⟩
  rcases h.after_apart with rfl | ⟨c, hc, hapart⟩
  · rw [List.nil_append]
    cases pad with
    | nil => exact .inl rfl
    | cons c pad => exact .inr ⟨c, rfl, .inl (List.all_eq_true.1 hpad c (by simp))⟩
  · obtain ⟨rest, rfl⟩ := List.head?_eq_some_iff.1 hc
    exact .inr ⟨c, rfl, hapart⟩

/-- White space behind the text that the word stands before can be left out. -/
theorem Severs.of_append_right (h : connective.Severs spelling before word (after ++ pad)) :
    connective.Severs spelling before word after := by
  refine ⟨h.outermost, h.accepted, h.before_apart, ?_⟩
  cases after with
  | nil => exact .inl rfl
  | cons c after =>
    rcases h.after_apart with hnil | ⟨d, hd, hapart⟩
    · simp at hnil
    · exact .inr ⟨d, hd, hapart⟩

end Connective

namespace Text

/-- White space before a text does not matter to where it is severed. -/
theorem whole_append_left_iff {spelling : Spelling} {pad text : Text} (hpad : pad.isBlank) :
    Whole spelling (pad ++ text) ↔ Whole spelling text := by
  constructor
  · rintro ⟨hbalanced, hunsevered⟩
    refine ⟨(balanced_append_iff (balanced_of_isBlank hpad)).1 hbalanced, ?_⟩
    rintro before word after k rfl hsevers
    exact hunsevered (pad ++ before) word after k (by simp only [List.append_assoc])
      (hsevers.append_left hpad)
  · rintro ⟨hbalanced, hunsevered⟩
    refine ⟨(balanced_of_isBlank hpad).append hbalanced, ?_⟩
    intro before word after k heq hsevers
    rw [List.append_assoc] at heq
    rcases List.append_eq_append_iff.1 heq with ⟨more, rfl, htext⟩ | ⟨more, hmore, hword⟩
    · -- the word stands behind the white space
      have hinner := hsevers.of_append_left hpad
      exact hunsevered more word after k (by rw [htext, List.append_assoc]) hinner
    · cases more with
      | nil =>
        -- the word begins the text
        obtain rfl : word ++ after = text := by simpa using hword
        exact hunsevered [] word after k rfl ⟨balanced_nil, hsevers.accepted, .inl rfl,
          hsevers.after_apart⟩
      | cons c more =>
        -- the word would begin with white space
        obtain ⟨d, rest, rfl⟩ :=
          List.exists_cons_of_ne_nil (Connective.ne_nil_of_accepts hsevers.accepted)
        obtain rfl : d = c := (List.cons.inj hword).1
        refine absurd (List.all_eq_true.1 hpad d ?_)
          (Connective.not_isSpace_of_accepts hsevers.accepted (by simp))
        rw [hmore]
        simp

/-- White space behind a text does not matter to where it is severed. -/
theorem whole_append_right_iff {spelling : Spelling} {pad text : Text} (hpad : pad.isBlank) :
    Whole spelling (text ++ pad) ↔ Whole spelling text := by
  have hbalanced : Balanced (text ++ pad) ↔ Balanced text :=
    append_balanced_iff (balanced_of_isBlank hpad)
  constructor
  · rintro ⟨h, hunsevered⟩
    refine ⟨hbalanced.1 h, ?_⟩
    rintro before word after k rfl hsevers
    exact hunsevered before word (after ++ pad) k (by simp only [List.append_assoc])
      (hsevers.append_right hpad)
  · rintro ⟨h, hunsevered⟩
    refine ⟨hbalanced.2 h, ?_⟩
    intro before word after k heq hsevers
    rcases List.append_eq_append_iff.1 heq with ⟨more, hmore, hjoin⟩ | ⟨more, rfl, rfl⟩
    · cases more using List.reverseRecOn with
      | nil =>
        -- the word ends the text
        rw [List.append_nil] at hmore
        exact hunsevered before word [] k (by rw [← hmore, List.append_nil]) ⟨hsevers.outermost,
          hsevers.accepted, hsevers.before_apart, .inl rfl⟩
      | append_singleton more c =>
        -- the word would end with white space
        have hne := Connective.ne_nil_of_accepts hsevers.accepted
        have hlast := congrArg List.getLast? hmore
        rw [List.getLast?_append, List.getLast?_eq_some_getLast hne] at hlast
        have hc : c ∈ word := by
          have hlastWord : word.getLast hne = c := by simpa [List.getLast?_append] using hlast
          exact hlastWord ▸ List.getLast_mem hne
        refine absurd (List.all_eq_true.1 hpad c ?_)
          (Connective.not_isSpace_of_accepts hsevers.accepted hc)
        rw [hjoin]
        simp
    · -- the word stands before the white space
      exact hunsevered before word more k rfl hsevers.of_append_right

theorem whole_pad_iff {spelling : Spelling} {before text after : Text} (hbefore : before.isBlank)
    (hafter : after.isBlank) :
    Whole spelling (before ++ text ++ after) ↔ Whole spelling text := by
  rw [whole_append_right_iff hafter, whole_append_left_iff hbefore]

theorem whole_trim_iff {spelling : Spelling} {text : Text} :
    Whole spelling text.trim ↔ Whole spelling text := by
  obtain ⟨before, after, hbefore, hafter, hjoin⟩ := exists_append_trim_append text
  conv_rhs => rw [← hjoin]
  exact (whole_pad_iff hbefore hafter).symm

end Text

end ListingFilter
