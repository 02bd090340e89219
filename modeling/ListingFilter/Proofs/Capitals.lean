import ListingFilter.Proofs.Members
import ListingFilter.Proofs.Splitting
import ListingFilter.Tree.Reading

/-!
# Capitals — texts that both spellings read alike

Where every keyword that stands by itself in a text is in capitals, it does not matter which
spellings of keywords count. The main statement, `Settings.parse_capitals`, says so of whole filters,
under any limits.

A word stands by itself between separators, which are white space and both parentheses, and the ends
of the text. Reading asks for less before a connective and behind it, but the parts of a text that
are read one after the other (the trimmed segments, and what stands in the parentheses of a group)
begin and end where the text as a whole does not. They are all cut out at separators, so a word at
the end of a part stands by itself in the whole, too (`Text.HasCapitalKeywords.of_seams`).
-/

namespace ListingFilter

/-- White space or a parenthesis. -/
def isSeparator (c : Char) : Bool :=
  isSpace c || c == '(' || c == ')'

theorem isSeparator_iff {c : Char} : isSeparator c ↔ isSpace c ∨ c = '(' ∨ c = ')' := by
  simp [isSeparator, or_assoc]

theorem Spelling.lacks_of_isSeparator {spelling : Spelling} {c : Char} (h : isSeparator c) :
    spelling.Lacks c := by
  rcases isSeparator_iff.1 h with hspace | hparenthesis
  · exact lacks_of_isSpace hspace
  · exact lacks_parenthesis hparenthesis

namespace Text

/-- The text is empty or ends with a separator. -/
def EndsSeparate (text : Text) : Prop :=
  ∀ c ∈ text.getLast?, isSeparator c

/-- The text is empty or begins with a separator. -/
def BeginsSeparate (text : Text) : Prop :=
  ∀ c ∈ text.head?, isSeparator c

instance (text : Text) : Decidable text.EndsSeparate :=
  Option.decidableForallMem _

instance (text : Text) : Decidable text.BeginsSeparate :=
  Option.decidableForallMem _

theorem EndsApart.endsSeparate {text : Text} (h : text.EndsApart) : text.EndsSeparate := by
  intro c hc
  rcases h with ⟨d, hd, hapart⟩
  obtain rfl : d = c := Option.some.inj (hd.symm.trans hc)
  exact isSeparator_iff.2 (hapart.imp_right .inr)

theorem BeginsApart.beginsSeparate {text : Text} (h : text.BeginsApart) : text.BeginsSeparate := by
  intro c hc
  rcases h with ⟨d, hd, hapart⟩
  obtain rfl : d = c := Option.some.inj (hd.symm.trans hc)
  exact isSeparator_iff.2 (hapart.imp_right .inl)

theorem endsSeparate_of_isBlank {text : Text} (h : text.isBlank) : text.EndsSeparate := by
  by_cases hne : text = []
  · simp [EndsSeparate, hne]
  · exact (endsApart_of_isBlank h hne).endsSeparate

theorem beginsSeparate_of_isBlank {text : Text} (h : text.isBlank) : text.BeginsSeparate := by
  by_cases hne : text = []
  · simp [BeginsSeparate, hne]
  · exact (beginsApart_of_isBlank h hne).beginsSeparate

/-- Every keyword that stands by itself, at any depth of parentheses, is in capitals. -/
def HasCapitalKeywords (text : Text) : Prop :=
  ∀ (before word after : Text) (connective : Connective), text = before ++ word ++ after →
    Spelling.anyCase.accepts word connective.keyword →
    before.EndsSeparate → after.BeginsSeparate → word = connective.keyword

/-- The keyword is in capitals if it begins at this offset and stands by itself there. -/
def IsCapitalAt (text : Text) (connective : Connective) (offset : Nat) : Prop :=
  let before : Text := text.take offset
  let word : Text := (text.drop offset).take connective.keyword.length
  let after : Text := (text.drop offset).drop connective.keyword.length
  Spelling.anyCase.accepts word connective.keyword → before.EndsSeparate → after.BeginsSeparate →
    word = connective.keyword

instance (text : Text) (connective : Connective) (offset : Nat) :
    Decidable (text.IsCapitalAt connective offset) :=
  inferInstanceAs (Decidable (_ → _ → _ → _))

/-- The keywords of a text can be looked up one offset after the other. -/
theorem hasCapitalKeywords_iff {text : Text} :
    text.HasCapitalKeywords ↔ ∀ connective ∈ [Connective.and, .or],
      ∀ offset ∈ List.range (text.length + 1), text.IsCapitalAt connective offset := by
  constructor
  · intro h connective _ offset _
    have htext : text = text.take offset ++ (text.drop offset).take connective.keyword.length ++
        (text.drop offset).drop connective.keyword.length := by
      rw [List.append_assoc, List.take_append_drop, List.take_append_drop]
    exact h _ _ _ connective htext
  · intro h before word after connective htext hword
    have hle : before.length < text.length + 1 := by
      rw [htext, List.length_append, List.length_append]
      omega
    have hoffset := h connective (by cases connective <;> simp) before.length (List.mem_range.2 hle)
    have hrest : text.drop before.length = word ++ after := by
      rw [htext, List.append_assoc, List.drop_left]
    have hstart : text.take before.length = before := by
      rw [htext, List.append_assoc, List.take_left]
    rw [IsCapitalAt, hstart, hrest, ← Connective.length_of_accepts hword, List.take_left,
      List.drop_left] at hoffset
    exact hoffset hword

instance (text : Text) : Decidable text.HasCapitalKeywords :=
  decidable_of_iff _ hasCapitalKeywords_iff.symm

end Text

/-! ## Parts of a text -/

namespace Text

variable {text word : Text} {spelling : Spelling} {connective : Connective}

/-- A word has no separator at its ends. -/
theorem not_separate_of_accepts (h : spelling.accepts word connective.keyword)
    (before after : Text) : ¬ EndsSeparate (before ++ word) ∧ ¬ BeginsSeparate (word ++ after) := by
  have hne := Connective.ne_nil_of_accepts h
  constructor
  · intro hends
    rw [EndsSeparate, getLast?_append_of_ne_nil before hne] at hends
    have hlast := hends _ (List.getLast?_eq_some_getLast hne)
    exact Spelling.lacks_of_isSeparator hlast word connective h (List.getLast_mem hne)
  · intro hbegins
    rw [BeginsSeparate, head?_append_of_ne_nil hne] at hbegins
    have hfirst := hbegins _ (List.head?_eq_some_head hne)
    exact Spelling.lacks_of_isSeparator hfirst word connective h (List.head_mem hne)

namespace HasCapitalKeywords

/-- What stands by itself in a part of a text with a separator at each of its seams stands by itself
in the text. -/
theorem of_seams {part : Text} (h : text.HasCapitalKeywords) (front back : Text)
    (htext : text = front ++ part ++ back) (hfront : front.EndsSeparate ∨ part.BeginsSeparate)
    (hback : part.EndsSeparate ∨ back.BeginsSeparate) : part.HasCapitalKeywords := by
  intro before word after k hpart hword hbefore hafter
  have hends : EndsSeparate (front ++ before) := by
    by_cases hnil : before = []
    · -- the word is at the left seam, so the separator stands before it
      rw [hnil, List.append_nil]
      rw [hpart, hnil, List.nil_append] at hfront
      exact hfront.resolve_right (not_separate_of_accepts hword [] after).2
    · rwa [EndsSeparate, getLast?_append_of_ne_nil front hnil]
  have hbegins : BeginsSeparate (after ++ back) := by
    by_cases hnil : after = []
    · -- the word is at the right seam
      rw [hnil, List.nil_append]
      rw [hpart, hnil, List.append_nil] at hback
      exact hback.resolve_left (not_separate_of_accepts hword before []).1
    · rwa [BeginsSeparate, head?_append_of_ne_nil hnil]
  exact h (front ++ before) word (after ++ back) k (by simp [htext, hpart]) hword hends hbegins

theorem of_pad {part before after : Text} (h : text.HasCapitalKeywords)
    (htext : text = before ++ part ++ after) (hbefore : before.isBlank) (hafter : after.isBlank) :
    part.HasCapitalKeywords :=
  h.of_seams before after htext (.inl (endsSeparate_of_isBlank hbefore))
    (.inr (beginsSeparate_of_isBlank hafter))

theorem trim (h : text.HasCapitalKeywords) : text.trim.HasCapitalKeywords := by
  rcases exists_append_trim_append text with ⟨before, after, hbefore, hafter, hjoin⟩
  exact h.of_pad hjoin.symm hbefore hafter

theorem inside {inner : Text} (h : HasCapitalKeywords ('(' :: inner ++ [')'])) :
    inner.HasCapitalKeywords :=
  h.of_seams ['('] [')'] rfl (.inl (by decide)) (.inr (by decide))

/-- The segments of a text are cut out at connectives, and trimmed. -/
theorem of_mem_segments {chain : Chain Text} (h : text.HasCapitalKeywords)
    (hchain : Segmented spelling text chain) {item : Text} (hitem : item ∈ chain.items) :
    item.HasCapitalKeywords := by
  induction hchain with
  | last hbefore _ hafter =>
    rcases List.mem_singleton.1 hitem with rfl
    exact h.of_pad rfl hbefore hafter
  | @more before segment after word rest k chain hbefore _ hafter hend _ hbegin _ ih =>
    rcases List.mem_cons.1 hitem with rfl | hrest
    · have hfirst : HasCapitalKeywords (before ++ item ++ after) :=
        h.of_seams [] (word ++ rest) (by simp) (.inl (by decide)) (.inl hend.endsSeparate)
      exact hfirst.of_pad rfl hbefore hafter
    · refine ih ?_ hrest
      exact h.of_seams (before ++ segment ++ after ++ word) [] (by simp)
        (.inr hbegin.beginsSeparate) (.inr (by decide))

end HasCapitalKeywords

end Text

/-! ## Cutting -/

variable {passed rest text : Text}

/-- Behind a place where a connective may stand, both spellings find the same one. -/
theorem Connective.at?_of_capitals (h : Text.HasCapitalKeywords (passed ++ rest))
    (hfollow : mayFollow passed.getLast?) : at? .anyCase rest = at? .upperCase rest := by
  have hpassed : passed.EndsSeparate := by
    rcases mayFollow_getLast?_iff.1 hfollow with rfl | hends
    · decide
    · exact hends.endsSeparate
  apply Option.ext
  intro connective
  rw [at?_eq_some_iff, at?_eq_some_iff]
  constructor
  · rintro ⟨word, after, rfl, hword, hafter⟩
    have hbegins : after.BeginsSeparate := by
      rcases hafter with rfl | hbegins
      · decide
      · exact hbegins.beginsSeparate
    have hcapital := h passed word after connective (by simp) hword hpassed hbegins
    exact ⟨word, after, rfl, by simp [Spelling.accepts, hcapital], hafter⟩
  · rintro ⟨word, after, rfl, hword, hafter⟩
    have hfold := foldAscii_eq_of_accepts hword
    exact ⟨word, after, rfl, by simp [Spelling.accepts, hfold], hafter⟩

/-- From every place of the text on, both spellings cut alike. -/
theorem Cut.scan_of_capitals (passed : Text) (h : Text.HasCapitalKeywords (passed ++ rest))
    (skip depth : Nat) :
    scan .anyCase skip depth passed.getLast? rest =
      scan .upperCase skip depth passed.getLast? rest := by
  induction rest generalizing passed skip depth with
  | nil => rfl
  | cons c rest ih =>
    -- `c` is passed, whatever becomes of it
    have hbehind : ∀ skip depth : Nat, scan .anyCase skip depth (some c) rest =
        scan .upperCase skip depth (some c) rest := by
      intro skip depth
      have hnext := ih (passed ++ [c]) (by simpa using h) skip depth
      rwa [List.getLast?_concat] at hnext
    have hfound : (if depth == 0 && Connective.mayFollow passed.getLast? then
          Connective.at? .anyCase (c :: rest) else none) =
        if depth == 0 && Connective.mayFollow passed.getLast? then
          Connective.at? .upperCase (c :: rest) else none := by
      split
      · rename_i hmay
        exact Connective.at?_of_capitals h (Bool.and_eq_true_iff.1 hmay).2
      · rfl
    cases skip with
    | succ skip => exact hbehind skip depth
    | zero => simp only [scan, hbehind, hfound]

theorem Text.segments_of_capitals (h : text.HasCapitalKeywords) :
    text.segments .anyCase = text.segments .upperCase := by
  have hcut : text.cut .anyCase = text.cut .upperCase :=
    Cut.scan_of_capitals [] h 0 0
  rw [segments, segments, hcut]

/-! ## Reading -/

namespace Tree

variable {group group' : Text → Text → Except Fault Tree}

/-- A term is a group, inside of which all keywords are in capitals, or a condition, and conditions
are read without regard to the spelling. -/
theorem readTerm_of_capitals {term : Text} (h : term.HasCapitalKeywords)
    (hgroup : ∀ term inner : Text, inner.HasCapitalKeywords →
      group term inner = group' term inner) :
    readTerm group term = readTerm group' term := by
  unfold readTerm
  split
  · rename_i inner henclosed
    rw [(Text.enclosed?_eq_some_iff_balanced.1 henclosed).1] at h
    exact hgroup term inner h.inside
  · rfl

/-- Both spellings read an expression alike, if they do so with what stands in its parentheses. -/
theorem readExpression_of_capitals (h : text.HasCapitalKeywords)
    (hgroup : ∀ term inner : Text, inner.HasCapitalKeywords →
      group term inner = group' term inner) :
    readExpression .anyCase group text = readExpression .upperCase group' text := by
  rw [readExpression, readExpression, Text.segments_of_capitals h]
  cases hsegments : text.segments .upperCase with
  | error fault => rfl
  | ok terms =>
    have hterms : terms.traverse (readTerm group) = terms.traverse (readTerm group') := by
      apply Chain.traverse_congr
      intro term hterm
      have hsegmented := Text.segments_eq_ok_iff.1 hsegments
      exact readTerm_of_capitals (h.of_mem_segments hsegmented hterm) hgroup
    show (do return ofChain (← terms.traverse (readTerm group)) : Except Fault Tree) =
      do return ofChain (← terms.traverse (readTerm group'))
    rw [hterms]

/-- Groups in groups are read alike, for as long as the allowance lasts, and so is its end. -/
theorem readGroup_of_capitals (limit allowance : Nat) (term : Text) {inner : Text}
    (h : inner.HasCapitalKeywords) :
    readGroup .anyCase limit allowance term inner =
      readGroup .upperCase limit allowance term inner := by
  induction allowance generalizing term inner with
  | zero => rfl
  | succ allowance ih =>
    rw [readGroup, readGroup]
    rw [readExpression_of_capitals h fun term inner hinner => ih term hinner]

end Tree

namespace Settings

/-- Where all keywords that stand by themselves are in capitals, a filter is read in the same way
whichever spellings count: as the same tree, or with the same fault. -/
theorem parse_capitals (maxDepth maxLength : Option Nat) (h : text.HasCapitalKeywords) :
    parse ⟨.anyCase, maxDepth, maxLength⟩ text = parse ⟨.upperCase, maxDepth, maxLength⟩ text := by
  have hread : ∀ limit allowance : Nat,
      Tree.readExpression .anyCase (Tree.readGroup .anyCase limit allowance) text.trim =
        Tree.readExpression .upperCase (Tree.readGroup .upperCase limit allowance) text.trim := by
    intro limit allowance
    apply Tree.readExpression_of_capitals h.trim
    intro term inner hinner
    exact Tree.readGroup_of_capitals limit allowance term hinner
  have hrefusal : refusal? ⟨.anyCase, maxDepth, maxLength⟩ text =
      refusal? ⟨.upperCase, maxDepth, maxLength⟩ text := rfl
  rw [parse, parse, hrefusal]
  simp only [hread, allowance]

/-- The `or` in the title stands between hyphens, and the connective touches a parenthesis. -/
def rockOrRoll : Text :=
  "(title = rock-or-roll OR(is_remote = true AND experience = 2))".toList

/-- Both spellings read it as a disjunction. -/
theorem parse_capitals_rockOrRoll :
    rockOrRoll.HasCapitalKeywords ∧
      parse ⟨.anyCase, some 2, none⟩ rockOrRoll = parse ⟨.upperCase, some 2, none⟩ rockOrRoll ∧
      (parse ⟨.upperCase, some 2, none⟩ rockOrRoll).toOption.map Tree.written =
        some "title = rock-or-roll OR (is_remote = true AND experience = 2)".toList := by
  have hcapital : rockOrRoll.HasCapitalKeywords := by decide +kernel
  exact ⟨hcapital, parse_capitals (some 2) none hcapital, by decide +kernel⟩

/-- A small keyword at the end of a group makes a difference: to one of the spellings the group lacks
an operand, to the other the word belongs to the title. -/
example : ¬ Text.HasCapitalKeywords "(title = roll or)".toList ∧
    parse ⟨.anyCase, none, none⟩ "(title = roll or)".toList ≠
      parse ⟨.upperCase, none, none⟩ "(title = roll or)".toList := by
  decide +kernel

end Settings

end ListingFilter
