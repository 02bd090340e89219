import ListingFilter.Proofs.Splitting
import Mathlib.Data.List.Sort

/-!
# Severances — the offsets at which a text is cut

`Text.Splits` cuts a text by taking it apart. Here the same cut is described by offsets: a connective
stands at an offset if no parenthesis is open there, its word is spelled there, and the characters on
both sides let it stand apart (`Connective.StandsAt`). `Text.severances` lists all those offsets from
left to right, and `Text.cutFrom` takes the stretches of text between them.

The main statement, `segments_iff_severances`, says that the segments of a text are found exactly if
the text is balanced and no stretch is blank, that they are those stretches trimmed, and that the
stretches and the words between them make up the text again.
-/

namespace ListingFilter

/-! ## Where connectives stand -/

/-- The connective stands at the offset of the text, outside of all parentheses and apart from what
is around it. -/
structure Connective.StandsAt (spelling : Spelling) (text : Text) (offset : Nat)
    (connective : Connective) : Prop where
  /-- No parenthesis is open at the offset. -/
  outermost : (text.take offset).count '(' = (text.take offset).count ')'
  /-- The keyword is spelled there. -/
  accepted : spelling.accepts ((text.drop offset).take connective.keyword.length) connective.keyword
  /-- Nothing stands before it, or white space or a closing parenthesis. -/
  before_apart : 0 < offset → ∀ c ∈ text[offset - 1]?, isSpace c ∨ c = ')'
  /-- Nothing stands behind it, or white space or an opening parenthesis. -/
  after_apart : ∀ c ∈ text[offset + connective.keyword.length]?, isSpace c ∨ c = '('

instance (spelling : Spelling) (text : Text) (offset : Nat) (connective : Connective) :
    Decidable (connective.StandsAt spelling text offset) :=
  -- the neighbour is tested where it is, and not by a search through all characters
  let _ : Decidable (∀ c ∈ text[offset - 1]?, isSpace c ∨ c = ')') :=
    Option.decidableForallMem _
  let _ : Decidable (∀ c ∈ text[offset + connective.keyword.length]?, isSpace c ∨ c = '(') :=
    Option.decidableForallMem _
  decidable_of_iff
    ((text.take offset).count '(' = (text.take offset).count ')' ∧
      spelling.accepts ((text.drop offset).take connective.keyword.length) connective.keyword ∧
      (0 < offset → ∀ c ∈ text[offset - 1]?, isSpace c ∨ c = ')') ∧
      ∀ c ∈ text[offset + connective.keyword.length]?, isSpace c ∨ c = '(')
    ⟨fun ⟨houter, haccepted, hbefore, hafter⟩ => ⟨houter, haccepted, hbefore, hafter⟩,
      fun h => ⟨h.outermost, h.accepted, h.before_apart, h.after_apart⟩⟩

namespace Text

/-- The offsets at which connectives stand, from left to right. -/
def severances (spelling : Spelling) (text : Text) : List (Nat × Connective) :=
  (List.range text.length).filterMap fun offset =>
    ([.and, .or].find? fun connective => decide (connective.StandsAt spelling text offset)).map
      (offset, ·)

/-- The stretches of the text from `start` on between the places, and the connectives there. -/
def cutFrom (text : Text) (start : Nat) : List (Nat × Connective) → Chain Text
  | [] => ⟨text.drop start, []⟩
  | (offset, connective) :: places =>
    (text.cutFrom (offset + connective.keyword.length) places).link
      ((text.take offset).drop start) connective

/-- The word of the text at a place. -/
def wordAt (text : Text) (place : Nat × Connective) : Text :=
  (text.drop place.1).take place.2.keyword.length

/-- The items of a chain with words in between. -/
def weave (chain : Chain Text) (words : List Text) : Text :=
  chain.first ++ (List.zipWith (· ++ ·) words (chain.rest.map Prod.snd)).flatten

theorem weave_link (item word : Text) (connective : Connective) (chain : Chain Text)
    (words : List Text) :
    weave (chain.link item connective) (word :: words) = item ++ word ++ weave chain words := by
  simp [weave, Chain.link]

variable {spelling : Spelling} {text : Text} {offset : Nat} {connective : Connective}

theorem connectives_cutFrom (text : Text) (start : Nat) (places : List (Nat × Connective)) :
    (text.cutFrom start places).connectives = places.map Prod.snd := by
  induction places generalizing start with
  | nil => rfl
  | cons place places ih =>
    have hrest := ih (place.1 + place.2.keyword.length)
    simpa [cutFrom, Chain.connectives, Chain.link] using hrest

/-- What it means for a connective to stand between two texts. -/
theorem standsAt_append_iff {before word after : Text}
    (hlength : word.length = connective.keyword.length) :
    connective.StandsAt spelling (before ++ word ++ after) before.length ↔
      before.count '(' = before.count ')' ∧ spelling.accepts word connective.keyword ∧
        (before = [] ∨ before.EndsApart) ∧ (after = [] ∨ after.BeginsApart) := by
  have hleft : (before ++ word ++ after).take before.length = before := by simp
  have hword : ((before ++ word ++ after).drop before.length).take connective.keyword.length =
      word := by
    rw [List.append_assoc, List.drop_left, ← hlength, List.take_left]
  have hlast : before ≠ [] → (before ++ word ++ after)[before.length - 1]? = before.getLast? := by
    intro hne
    have hbound := List.length_pos_iff.2 hne
    rw [List.append_assoc, List.getElem?_append_left (by omega), List.getLast?_eq_getElem?]
  have hnext : (before ++ word ++ after)[before.length + connective.keyword.length]? =
      after.head? := by
    rw [← hlength, ← List.length_append, List.getElem?_append_right le_rfl, Nat.sub_self,
      List.head?_eq_getElem?]
  have hbefore : (0 < before.length →
      ∀ c ∈ (before ++ word ++ after)[before.length - 1]?, isSpace c ∨ c = ')') ↔
        before = [] ∨ before.EndsApart := by
    rcases List.eq_nil_or_concat before with rfl | ⟨front, c, rfl⟩
    · simp
    · rw [hlast (by simp)]
      simp [EndsApart]
  have hafter : (∀ c ∈ (before ++ word ++ after)[before.length + connective.keyword.length]?,
      isSpace c ∨ c = '(') ↔ after = [] ∨ after.BeginsApart := by
    rw [hnext]
    cases after <;> simp [BeginsApart]
  constructor
  · rintro ⟨houter, haccepted, hapart, hapart'⟩
    rw [hleft] at houter
    rw [hword] at haccepted
    exact ⟨houter, haccepted, hbefore.1 hapart, hafter.1 hapart'⟩
  · rintro ⟨houter, haccepted, hapart, hapart'⟩
    exact ⟨by rwa [hleft], by rwa [hword], hbefore.2 hapart, hafter.2 hapart'⟩

/-- In a balanced text, a connective stands where it severs the text. -/
theorem Balanced.standsAt_iff (h : text.Balanced) :
    connective.StandsAt spelling text offset ↔
      ∃ before word after : Text, text = before ++ word ++ after ∧ before.length = offset ∧
        connective.Severs spelling before word after := by
  constructor
  · intro hstands
    -- the text before the offset, the word there, and the text behind it
    have hlength := Connective.length_of_accepts hstands.accepted
    have hpositive := List.length_pos_iff.2 (Connective.ne_nil_of_accepts hstands.accepted)
    obtain ⟨before, word, after, rfl, rfl, hword⟩ : ∃ before word after : Text,
        text = before ++ word ++ after ∧ before.length = offset ∧
          word.length = connective.keyword.length := by
      refine ⟨text.take offset, (text.drop offset).take connective.keyword.length,
        (text.drop offset).drop connective.keyword.length, ?_, ?_, hlength⟩
      · rw [List.append_assoc, List.take_append_drop, List.take_append_drop]
      · rw [List.length_take, List.length_drop] at hpositive
        rw [List.length_take]
        omega
    rcases (standsAt_append_iff hword).1 hstands with ⟨houter, haccepted, hbefore, hafter⟩
    refine ⟨before, word, after, rfl, rfl, ⟨?_, houter⟩, haccepted, hbefore, hafter⟩
    intro start hstart
    exact h.count_le start (hstart.trans ⟨word ++ after, by simp⟩)
  · rintro ⟨before, word, after, rfl, rfl, hsevers⟩
    exact (standsAt_append_iff (Connective.length_of_accepts hsevers.accepted)).2
      ⟨hsevers.outermost.count_eq, hsevers.accepted, hsevers.before_apart, hsevers.after_apart⟩

/-! ## The places in order -/

/-- One connective stands at an offset. -/
theorem eq_of_standsAt {connective' : Connective} (h : connective.StandsAt spelling text offset)
    (h' : connective'.StandsAt spelling text offset) : connective = connective' :=
  Connective.eq_of_accepts h.accepted h'.accepted
    ((List.take_append_drop _ _).trans (List.take_append_drop _ _).symm)

/-- The places are those where connectives stand. -/
theorem mem_severances_iff :
    (offset, connective) ∈ text.severances spelling ↔ connective.StandsAt spelling text offset := by
  rw [severances, List.mem_filterMap]
  constructor
  · rintro ⟨offset', -, hfound⟩
    rcases Option.map_eq_some_iff.1 hfound with ⟨connective', hfind, hpair⟩
    obtain ⟨rfl, rfl⟩ := Prod.mk.inj hpair
    simpa using List.find?_some hfind
  · intro h
    refine ⟨offset, ?_, ?_⟩
    · have hpositive := List.length_pos_iff.2 (Connective.ne_nil_of_accepts h.accepted)
      rw [List.length_take, List.length_drop] at hpositive
      rw [List.mem_range]
      omega
    · cases hfound : [Connective.and, .or].find? fun k => decide (k.StandsAt spelling text offset) with
      | none =>
        have hnone := List.find?_eq_none.1 hfound connective (by cases connective <;> simp)
        exact absurd (decide_eq_true h) hnone
      | some connective' =>
        have hstands : connective'.StandsAt spelling text offset := by
          simpa using List.find?_some hfound
        rw [eq_of_standsAt hstands h, Option.map_some]

/-- The places stand from left to right. -/
theorem pairwise_severances (spelling : Spelling) (text : Text) :
    (text.severances spelling).Pairwise fun place place' => place.1 < place'.1 := by
  refine List.Pairwise.filterMap _ ?_ List.pairwise_lt_range
  intro offset offset' hlt place hplace place' hplace'
  rcases Option.map_eq_some_iff.1 hplace with ⟨_, -, rfl⟩
  rcases Option.map_eq_some_iff.1 hplace' with ⟨_, -, rfl⟩
  exact hlt

/-- Places from left to right at which exactly the connectives stand are all of them. -/
theorem severances_eq {places : List (Nat × Connective)}
    (hsorted : places.Pairwise fun place place' => place.1 < place'.1)
    (hmem : ∀ offset connective, (offset, connective) ∈ places ↔
      connective.StandsAt spelling text offset) : text.severances spelling = places := by
  have hirrefl : Std.Irrefl fun place place' : Nat × Connective => place.1 < place'.1 :=
    ⟨fun _ => Nat.lt_irrefl _⟩
  have hantisymm : Std.Antisymm fun place place' : Nat × Connective => place.1 < place'.1 :=
    ⟨fun _ _ h h' => absurd h' (Nat.lt_asymm h)⟩
  refine (pairwise_severances spelling text).eq_of_mem_iff hsorted ?_
  rintro ⟨offset, connective⟩
  exact mem_severances_iff.trans (hmem offset connective).symm

/-- The place behind `length` more characters. -/
def shiftPlace (length : Nat) (place : Nat × Connective) : Nat × Connective :=
  (length + place.1, place.2)

/-- No connective stands in a whole text. -/
theorem Whole.severances_eq_nil (h : text.Whole spelling) : text.severances spelling = [] := by
  refine severances_eq .nil fun offset connective => ?_
  rw [h.balanced.standsAt_iff]
  constructor
  · intro hnone
    cases hnone
  · rintro ⟨before, word, after, htext, -, hsevers⟩
    exact absurd hsevers (h.unsevered before word after connective htext)

/-- Behind a whole text and a connective that severs the text, the other connectives stand where they
do in the rest. -/
theorem severances_sever {before word after : Text} (hwhole : before.Whole spelling)
    (hsevers : connective.Severs spelling before word after) (hafter : after.Balanced) :
    (before ++ word ++ after).severances spelling =
      (before.length, connective) ::
        (after.severances spelling).map (shiftPlace (before ++ word).length) := by
  have hword := Connective.balanced_of_accepts hsevers.accepted
  have hbalanced : (before ++ word ++ after).Balanced :=
    (hwhole.balanced.append hword).append hafter
  refine severances_eq (List.pairwise_cons.2 ⟨?_, ?_⟩) fun offset connective' => ?_
  · intro place hplace
    rcases List.mem_map.1 hplace with ⟨place', -, rfl⟩
    have hpositive := List.length_pos_iff.2 (Connective.ne_nil_of_accepts hsevers.accepted)
    simp only [shiftPlace, List.length_append]
    omega
  · refine (pairwise_severances spelling after).map _ ?_
    intro place place' hlt
    exact Nat.add_lt_add_left hlt _
  · rw [hbalanced.standsAt_iff, List.mem_cons, List.mem_map]
    constructor
    · rintro (hpair | ⟨⟨place, connective''⟩, hplace, hpair⟩)
      · obtain ⟨rfl, rfl⟩ := Prod.mk.inj hpair
        exact ⟨before, word, after, rfl, rfl, hsevers⟩
      · obtain ⟨rfl, rfl⟩ := Prod.mk.inj hpair
        rcases hafter.standsAt_iff.1 (mem_severances_iff.1 hplace) with
          ⟨middle, word', after', rfl, rfl, hsevers'⟩
        exact ⟨before ++ word ++ middle, word', after', by simp, by simp [Nat.add_assoc],
          hsevers.behind rfl hsevers'⟩
    · rintro ⟨before', word', after', htext, rfl, hsevers'⟩
      rcases hsevers.same_or_behind hwhole hsevers' htext.symm with
        ⟨rfl, rfl, rfl⟩ | ⟨middle, rfl, rfl, hbehind⟩
      · left
        have hsame : word' ++ after' = word' ++ after' := rfl
        rw [Connective.eq_of_accepts hsevers'.accepted hsevers.accepted hsame]
      · right
        refine ⟨(middle.length, connective'), mem_severances_iff.2 (hafter.standsAt_iff.2
          ⟨middle, word', after', rfl, rfl, hbehind⟩), ?_⟩
        simp [shiftPlace, Nat.add_assoc]

/-! ## The stretches in between -/

theorem cutFrom_append (front text : Text) (start : Nat) (places : List (Nat × Connective)) :
    (front ++ text).cutFrom (front.length + start) (places.map (shiftPlace front.length)) =
      text.cutFrom start places := by
  induction places generalizing start with
  | nil => simp [cutFrom]
  | cons place places ih =>
    have hrest := ih (place.1 + place.2.keyword.length)
    rw [← Nat.add_assoc] at hrest
    simp [cutFrom, shiftPlace, hrest, List.take_length_add_append, List.drop_length_add_append]

theorem wordAt_append (front text : Text) (place : Nat × Connective) :
    (front ++ text).wordAt (shiftPlace front.length place) = text.wordAt place := by
  simp [wordAt, shiftPlace, List.drop_length_add_append]

/-- The cut of a text is the one at the places where connectives stand, and its texts and the words
between them make up the text. -/
theorem Splits.cutFrom_severances {raw : Chain Text} (h : Splits spelling text raw) :
    text.cutFrom 0 (text.severances spelling) = raw ∧
      weave raw ((text.severances spelling).map text.wordAt) = text := by
  induction h with
  | @whole text hwhole =>
    rw [hwhole.severances_eq_nil]
    exact ⟨rfl, by simp [weave]⟩
  | @sever before word after k chain hwhole hsevers hsplits ih =>
    rcases ih with ⟨hcut, hweave⟩
    have hlength := Connective.length_of_accepts hsevers.accepted
    have hrest := cutFrom_append (before ++ word) after 0 (after.severances spelling)
    have hwords : ((after.severances spelling).map (shiftPlace (before ++ word).length)).map
        (before ++ word ++ after).wordAt = (after.severances spelling).map after.wordAt := by
      simp [Function.comp_def, ← wordAt_append (before ++ word) after]
    rw [severances_sever hwhole hsevers hsplits.balanced]
    constructor
    · rw [Nat.add_zero, hcut] at hrest
      rw [cutFrom, ← hlength, ← List.length_append, hrest]
      simp
    · have hfirst : (before ++ word ++ after).wordAt (before.length, k) = word := by
        simp [wordAt, ← hlength]
      rw [List.map_cons, hwords, hfirst, weave_link, hweave]

/-- The segments of a text are the stretches between its connectives, trimmed; they are found exactly
if the text is balanced and none of the stretches is blank. -/
theorem segments_eq_ok_iff_severances {chain : Chain Text} :
    text.segments spelling = .ok chain ↔
      text.Balanced ∧
        (∀ stretch ∈ (text.cutFrom 0 (text.severances spelling)).items, ¬ stretch.isBlank) ∧
          chain = (text.cutFrom 0 (text.severances spelling)).map trim := by
  have hblank : ∀ raw : Chain Text, [] ∉ (raw.map trim).items ↔
      ∀ stretch ∈ raw.items, ¬ stretch.isBlank := by
    intro raw
    rw [Chain.items_map, List.mem_map]
    constructor
    · intro h stretch hmem hblank
      exact h ⟨stretch, hmem, trim_eq_nil_iff.2 hblank⟩
    · rintro h ⟨stretch, hmem, htrim⟩
      exact h stretch hmem (trim_eq_nil_iff.1 htrim)
  rw [segments_eq_ok_iff_splits]
  constructor
  · rintro ⟨raw, hsplits, rfl, hnil⟩
    rw [hsplits.cutFrom_severances.1]
    exact ⟨hsplits.balanced, (hblank raw).1 hnil, rfl⟩
  · rintro ⟨hbalanced, hstretches, rfl⟩
    obtain ⟨raw, hsplits⟩ := hbalanced.exists_splits spelling
    rw [hsplits.cutFrom_severances.1] at hstretches ⊢
    exact ⟨raw, hsplits, rfl, (hblank raw).2 hstretches⟩

/-- A text has segments exactly if it is balanced and no stretch between its connectives is blank.
The segments are then those stretches trimmed, with all the connectives in their order; the stretches
and the words in between make up the text; and every segment is balanced and its own only segment. -/
theorem segments_iff_severances (spelling : Spelling) (text : Text) :
    ((∃ chain, text.segments spelling = .ok chain) ↔
      text.Balanced ∧
        ∀ stretch ∈ (text.cutFrom 0 (text.severances spelling)).items, ¬ stretch.isBlank) ∧
    ∀ chain, text.segments spelling = .ok chain →
      chain.items = (text.cutFrom 0 (text.severances spelling)).items.map trim ∧
      chain.connectives = (text.severances spelling).map Prod.snd ∧
      weave (text.cutFrom 0 (text.severances spelling))
        ((text.severances spelling).map text.wordAt) = text ∧
      ∀ item ∈ chain.items, item.Balanced ∧ item.segments spelling = .ok ⟨item, []⟩ := by
  constructor
  · constructor
    · rintro ⟨chain, hchain⟩
      rcases segments_eq_ok_iff_severances.1 hchain with ⟨hbalanced, hstretches, -⟩
      exact ⟨hbalanced, hstretches⟩
    · rintro ⟨hbalanced, hstretches⟩
      exact ⟨_, segments_eq_ok_iff_severances.2 ⟨hbalanced, hstretches, rfl⟩⟩
  · intro chain hchain
    have hsegmented := segments_eq_ok_iff.1 hchain
    rcases segments_eq_ok_iff_severances.1 hchain with ⟨hbalanced, -, rfl⟩
    obtain ⟨raw, hsplits⟩ := hbalanced.exists_splits spelling
    refine ⟨Chain.items_map _ _, ?_, hsplits.cutFrom_severances.1 ▸ hsplits.cutFrom_severances.2, ?_⟩
    · rw [Chain.connectives_map, connectives_cutFrom]
    · intro item hitem
      have hsegment := (hsegmented.isSegment_of_mem hitem).1
      exact ⟨hsegment.whole.balanced, segments_self_iff.2 hsegment⟩

/-- Connectives glued to parentheses cut the text, and the one inside of a group does not. -/
theorem segments_iff_severances_glued :
    severances .anyCase "(a OR b)AND c or(d)".toList = [(8, .and), (14, .or)] ∧
      weave (cutFrom "(a OR b)AND c or(d)".toList 0 [(8, .and), (14, .or)])
        ["AND".toList, "or".toList] = "(a OR b)AND c or(d)".toList ∧
      ∀ item : Text, item ∈ ["(a OR b)".toList, "c".toList, "(d)".toList] →
        item.Balanced ∧ item.segments .anyCase = .ok ⟨item, []⟩ := by
  have hplaces : severances .anyCase "(a OR b)AND c or(d)".toList = [(8, .and), (14, .or)] := by
    decide +kernel
  have hsegments : segments .anyCase "(a OR b)AND c or(d)".toList =
      .ok ⟨"(a OR b)".toList, [(.and, "c".toList), (.or, "(d)".toList)]⟩ := by
    decide +kernel
  rcases (segments_iff_severances .anyCase _).2 _ hsegments with ⟨-, -, hweave, hitems⟩
  rw [hplaces] at hweave
  exact ⟨hplaces, hweave, hitems⟩

end Text

end ListingFilter
