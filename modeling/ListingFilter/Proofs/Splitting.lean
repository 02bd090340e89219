import ListingFilter.Proofs.Severing
import ListingFilter.Segments
import Mathlib.Data.Nat.Find

/-!
# Splitting — texts cut at all their outermost connectives

`Splits` says, without a scan, what it means to cut a text at its outermost connectives: whole texts
with connectives between them that sever the text. `Segmented` says the same of a text whose cut has
no blank pieces: segments, white space around them, and connectives in between. The main statements
are

* `cut_eq_iff_splits`: the scan finds exactly such a cut, and there is only one;
* `segments_eq_ok_iff`: reading finds exactly the segments that the text is made up of;
* `segmented_trim_iff`: white space at the ends of a text does not matter to its segments;
* `Segmented.join`: a connective between two texts leaves the segments of both as they are.
-/

namespace ListingFilter

/-- Two chains behind each other, with a connective between them. -/
def Chain.append {α : Type} (first : Chain α) (connective : Connective) (second : Chain α) :
    Chain α :=
  ⟨first.first, first.rest ++ (connective, second.first) :: second.rest⟩

theorem Chain.items_append {α : Type} (first : Chain α) (connective : Connective)
    (second : Chain α) :
    (first.append connective second).items = first.items ++ second.items := by
  simp [append, items]

theorem Chain.connectives_append {α : Type} (first : Chain α) (connective : Connective)
    (second : Chain α) :
    (first.append connective second).connectives =
      first.connectives ++ connective :: second.connectives := by
  simp [append, connectives]

theorem Chain.append_link {α : Type} (item : α) (connective connective' : Connective)
    (first second : Chain α) :
    (first.link item connective).append connective' second =
      (first.append connective' second).link item connective := rfl

/-- The text is cut at connectives that sever it into whole texts. -/
inductive Text.Splits (spelling : Spelling) : Text → Chain Text → Prop where
  | whole {text : Text} : text.Whole spelling → Splits spelling text ⟨text, []⟩
  | sever {before word after : Text} {connective : Connective} {chain : Chain Text} :
      before.Whole spelling → connective.Severs spelling before word after →
      Splits spelling after chain →
      Splits spelling (before ++ word ++ after) (chain.link before connective)

/-! ## The scan -/

namespace Cut

/-- A text in front of the first segment. -/
def prepend (text : Text) (cut : Cut) : Cut :=
  { cut with segments := { cut.segments with first := text ++ cut.segments.first } }

/-- One character is pushed unless it begins a connective. -/
theorem scan_cons {spelling : Spelling} {depth reached : Nat} {previous : Option Char} {c : Char}
    {rest : Text} (hlevel : Text.level? depth [c] = some reached)
    (hat : depth = 0 → Connective.mayFollow previous → Connective.at? spelling (c :: rest) = none) :
    scan spelling 0 depth previous (c :: rest) =
      push c (scan spelling 0 reached (some c) rest) := by
  -- a parenthesis is pushed in any case and changes the depth
  by_cases hopen : c = '('
  · have hreached : depth + 1 = reached := by simpa [Text.level?, hopen] using hlevel
    simp [scan, hopen, hreached]
  · by_cases hclose : c = ')'
    · cases depth with
      | zero => simp [Text.level?, hclose] at hlevel
      | succ depth =>
        have hreached : depth = reached := by simpa [Text.level?, hclose] using hlevel
        simp [scan, hclose, hreached]
    · -- any other character keeps the depth, and begins no connective
      have hreached : depth = reached := by simpa [Text.level?, hopen, hclose] using hlevel
      have hnone : (if depth == 0 && Connective.mayFollow previous then
          Connective.at? spelling (c :: rest) else none) = none := by
        split
        · rename_i houter
          rw [Bool.and_eq_true, beq_iff_eq] at houter
          exact hat houter.1 houter.2
        · rfl
      simp only [scan, hopen, hclose, if_false, hnone]
      rw [hreached]

/-- A stretch of text in which no outermost connective begins is pushed as it is. -/
theorem scan_append {spelling : Spelling} {depth reached : Nat} {previous : Option Char}
    {segment rest : Text} (hlevel : Text.level? depth segment = some reached)
    (hat : ∀ start tail : Text, segment = start ++ tail → tail ≠ [] →
      Text.level? depth start = some 0 → Connective.mayFollow (start.getLast?.or previous) →
      Connective.at? spelling (tail ++ rest) = none) :
    scan spelling 0 depth previous (segment ++ rest) =
      prepend segment (scan spelling 0 reached (segment.getLast?.or previous) rest) := by
  -- on the stretch: its first character is pushed, and the rest begins at the depth behind it
  induction segment generalizing depth previous with
  | nil =>
    obtain rfl : depth = reached := by simpa [Text.level?] using hlevel
    rfl
  | cons c segment ih =>
    have hsplit : Text.level? depth ([c] ++ segment) = some reached := hlevel
    rw [Text.level?_append, Option.bind_eq_some_iff] at hsplit
    obtain ⟨middle, hfirst, hrest⟩ := hsplit
    -- no connective begins here, and none later
    have hhere : depth = 0 → Connective.mayFollow previous →
        Connective.at? spelling (c :: (segment ++ rest)) = none := by
      intro hdepth hprevious
      exact hat [] (c :: segment) rfl (by simp) (by simp [Text.level?, hdepth]) hprevious
    have hlater : ∀ start tail : Text, segment = start ++ tail → tail ≠ [] →
        Text.level? middle start = some 0 → Connective.mayFollow (start.getLast?.or (some c)) →
        Connective.at? spelling (tail ++ rest) = none := by
      intro start tail heq hne hstart hfollow
      refine hat (c :: start) tail (by rw [heq, List.cons_append]) hne ?_ ?_
      · have hjoin : Text.level? depth ([c] ++ start) = some 0 := by
          rw [Text.level?_append, hfirst]
          exact hstart
        exact hjoin
      · cases hlast : start.getLast? <;> simpa [List.getLast?_cons, hlast] using hfollow
    rw [List.cons_append, scan_cons hfirst hhere, ih hrest hlater]
    cases hlast : segment.getLast? <;> simp [List.getLast?_cons, hlast, push, prepend]

/-- Up to any place, a text that nothing severs is pushed as it is. -/
theorem scan_of_unsevered {spelling : Spelling} {segment rest : Text} {reached : Nat}
    (h : Text.Unsevered spelling (segment ++ rest))
    (hlevel : Text.level? 0 segment = some reached) :
    scan spelling 0 0 none (segment ++ rest) =
      prepend segment (scan spelling 0 reached segment.getLast? rest) := by
  -- a connective found in the text would sever it
  have hnone : ∀ start tail : Text, segment = start ++ tail → tail ≠ [] →
      Text.level? 0 start = some 0 → Connective.mayFollow (start.getLast?.or none) →
      Connective.at? spelling (tail ++ rest) = none := by
    intro start tail heq _ hstart hfollow
    cases hat : Connective.at? spelling (tail ++ rest) with
    | none => rfl
    | some k =>
      rcases Connective.at?_eq_some_iff.1 hat with ⟨word, after, htail, haccepts, hafter⟩
      refine absurd ⟨Text.balanced_iff_level?.2 hstart, haccepts, ?_, hafter⟩
        (h start word after k (by rw [heq, List.append_assoc, htail, List.append_assoc]))
      exact Connective.mayFollow_getLast?_iff.1 (by simpa using hfollow)
  simpa using scan_append hlevel hnone

/-- What is left of a connective already found is skipped. -/
theorem scan_skip (spelling : Spelling) (depth : Nat) (previous : Option Char) (word rest : Text) :
    scan spelling word.length depth previous (word ++ rest) =
      scan spelling 0 depth (word.getLast?.or previous) rest := by
  induction word generalizing previous with
  | nil => rfl
  | cons c word ih =>
    rw [List.length_cons, List.cons_append, scan, ih]
    cases hlast : word.getLast? <;> simp [List.getLast?_cons, hlast]

/-- Where the text begins apart, it does not matter what stands before it. -/
theorem scan_previous {spelling : Spelling} {text : Text} (h : text = [] ∨ text.BeginsApart)
    (previous previous' : Option Char) :
    scan spelling 0 0 previous text = scan spelling 0 0 previous' text := by
  rcases h with rfl | ⟨c, hc, hapart⟩
  · rfl
  · obtain ⟨rest, rfl⟩ := List.head?_eq_some_iff.1 hc
    by_cases hopen : c = '('
    · -- behind an opening parenthesis nothing is cut off
      simp [scan, hopen]
    · -- no connective begins with white space
      have hspace : isSpace c := hapart.resolve_right hopen
      have hclose : c ≠ ')' := (Text.ne_parenthesis_of_isSpace hspace).2
      have hlevel : Text.level? 0 [c] = some 0 := by simp [Text.level?, hopen, hclose]
      have hnone : Connective.at? spelling (c :: rest) = none := by
        cases hat : Connective.at? spelling (c :: rest) with
        | none => rfl
        | some k =>
          obtain ⟨word, after, heq, haccepts, -⟩ := Connective.at?_eq_some_iff.1 hat
          obtain ⟨d, tail, rfl⟩ :=
            List.exists_cons_of_ne_nil (Connective.ne_nil_of_accepts haccepts)
          rw [List.cons_append, List.cons.injEq] at heq
          obtain ⟨rfl, -⟩ := heq
          exact absurd hspace (Connective.not_isSpace_of_accepts haccepts (by simp))
      rw [scan_cons hlevel fun _ _ => hnone, scan_cons hlevel fun _ _ => hnone]

/-- A connective is cut off where it severs the text. -/
theorem scan_sever {spelling : Spelling} {before word after : Text} {connective : Connective}
    {previous : Option Char} (h : connective.Severs spelling before word after)
    (hprevious : Connective.mayFollow previous) :
    scan spelling 0 0 previous (word ++ after) =
      sever connective (scan spelling 0 0 none after) := by
  have hat : Connective.at? spelling (word ++ after) = some connective :=
    Connective.at?_eq_some_iff.2 ⟨word, after, rfl, h.accepted, h.after_apart⟩
  have hlength := Connective.length_of_accepts h.accepted
  obtain ⟨c, tail, rfl⟩ := List.exists_cons_of_ne_nil (Connective.ne_nil_of_accepts h.accepted)
  obtain ⟨hopen, hclose⟩ :=
    Connective.ne_parenthesis_of_accepts h.accepted (List.mem_cons_self : c ∈ c :: tail)
  -- the scan skips what is left of the word behind its first letter
  have hskip : connective.keyword.length - 1 = tail.length := by
    rw [← hlength, List.length_cons, Nat.add_sub_cancel]
  rw [List.cons_append] at hat ⊢
  simp only [scan, hopen, hclose, if_false, hprevious, beq_self_eq_true, Bool.and_self, if_true,
    hat]
  rw [hskip, scan_skip, scan_previous h.after_apart]

end Cut

namespace Text

/-! ## Cuts -/

/-- Nothing is cut off a whole text. -/
theorem Whole.scan {spelling : Spelling} {text : Text} (h : text.Whole spelling) :
    Cut.scan spelling 0 0 none text = ⟨⟨text, []⟩, true⟩ := by
  have hunsevered : Unsevered spelling (text ++ []) := by
    rw [List.append_nil]
    exact h.unsevered
  have hscan := Cut.scan_of_unsevered hunsevered (balanced_iff_level?.1 h.balanced)
  simpa [Cut.prepend, Cut.scan] using hscan

/-- A whole text is cut off at the first connective behind it. -/
theorem Whole.scan_append {spelling : Spelling} {before word after : Text}
    {connective : Connective} (h : before.Whole spelling)
    (hsevers : connective.Severs spelling before word after) :
    Cut.scan spelling 0 0 none (before ++ (word ++ after)) =
      Cut.prepend before (Cut.sever connective (Cut.scan spelling 0 0 none after)) := by
  -- a connective found in `before` would end there, since words do not overlap, and sever it
  have hnone : ∀ start tail : Text, before = start ++ tail → tail ≠ [] →
      Text.level? 0 start = some 0 → Connective.mayFollow (start.getLast?.or none) →
      Connective.at? spelling (tail ++ (word ++ after)) = none := by
    intro start tail heq hne hstart hfollow
    cases hat : Connective.at? spelling (tail ++ (word ++ after)) with
    | none => rfl
    | some k =>
      obtain ⟨word', after', htail, haccepts, hafter⟩ := Connective.at?_eq_some_iff.1 hat
      obtain ⟨more, hmore, rfl, rfl⟩ := hsevers.not_overlap heq hne haccepts htail
      refine absurd ⟨balanced_iff_level?.2 hstart, haccepts, ?_, ?_⟩
        (h.unsevered start word' more k (by rw [heq, List.append_assoc]))
      · exact Connective.mayFollow_getLast?_iff.1 (by simpa using hfollow)
      · have hbegins := hafter.resolve_left (by simp [hmore])
        exact .inr ((beginsApart_append_iff hmore).1 hbegins)
  rw [Cut.scan_append (balanced_iff_level?.1 h.balanced) hnone, Cut.scan_sever hsevers]
  rw [Option.or_none, Connective.mayFollow_getLast?_iff]
  exact hsevers.before_apart

/-- The scan finds a cut at connectives that sever the text. -/
theorem Splits.cut {spelling : Spelling} {text : Text} {chain : Chain Text}
    (h : Splits spelling text chain) : text.cut spelling = ⟨chain, true⟩ := by
  induction h with
  | whole hwhole => exact hwhole.scan
  | @sever before word after connective chain hwhole hsevers _ ih =>
    have hafter : Cut.scan spelling 0 0 none after = ⟨chain, true⟩ := ih
    rw [Text.cut, List.append_assoc, hwhole.scan_append hsevers, hafter]
    simp [Cut.prepend, Cut.sever, Chain.link]

/-- Nothing severs a text, or there is a first connective that does, and the text before that one is
whole. -/
theorem unsevered_or_severs (text : Text) (spelling : Spelling) :
    text.Unsevered spelling ∨ ∃ (before word after : Text) (connective : Connective),
      text = before ++ word ++ after ∧ before.Whole spelling ∧
        connective.Severs spelling before word after := by
  classical
  -- of the connectives that sever the text, the one with the shortest text before it
  by_cases hsome : ∃ n, ∃ (before word after : Text) (connective : Connective),
      before.length = n ∧ text = before ++ word ++ after ∧
        connective.Severs spelling before word after
  · right
    obtain ⟨before, word, after, k, hlength, heq, hsevers⟩ := Nat.find_spec hsome
    refine ⟨before, word, after, k, heq, ⟨hsevers.outermost, ?_⟩, hsevers⟩
    -- a connective that severs `before` would sever `text` further left
    intro start word' more k' hbefore hsevers'
    have hne : word' ++ more ≠ [] := by
      simp [Connective.ne_nil_of_accepts hsevers'.accepted]
    have hjoin : before = start ++ (word' ++ more) := by rw [hbefore, List.append_assoc]
    rcases hsevers.not_overlap hjoin hne hsevers'.accepted (List.append_assoc ..) with
      ⟨more', hmore, hsame, -⟩
    obtain rfl : more = more' := List.append_cancel_left hsame
    refine Nat.find_min hsome (m := start.length) ?_
      ⟨start, word', more ++ (word ++ after), k', rfl, ?_, hsevers'.outermost, hsevers'.accepted,
        hsevers'.before_apart, ?_⟩
    · have hpos := List.length_pos_iff.2 hmore
      rw [← hlength, hbefore]
      simp only [List.length_append]
      omega
    · rw [heq, hbefore]
      simp only [List.append_assoc]
    · have hbegins := hsevers'.after_apart.resolve_left hmore
      exact .inr ((beginsApart_append_iff hmore).2 hbegins)
  · left
    intro before word after k heq hsevers
    exact hsome ⟨before.length, before, word, after, k, rfl, heq, hsevers⟩

/-- Every balanced text can be cut. -/
theorem Balanced.exists_splits {text : Text} (h : text.Balanced) (spelling : Spelling) :
    ∃ chain, Splits spelling text chain := by
  induction hn : text.length using Nat.strongRecOn generalizing text with
  | ind n ih =>
    rcases unsevered_or_severs text spelling with
      hunsevered | ⟨before, word, after, k, rfl, hbefore, hsevers⟩
    · exact ⟨_, .whole ⟨h, hunsevered⟩⟩
    · have hword : word.Balanced := Connective.balanced_of_accepts hsevers.accepted
      have hafter : after.Balanced := by
        rw [List.append_assoc, balanced_append_iff hbefore.balanced, balanced_append_iff hword] at h
        exact h
      have hshorter : after.length < n := by
        have hpos := List.length_pos_iff.2 (Connective.ne_nil_of_accepts hsevers.accepted)
        simp only [List.length_append] at hn
        omega
      obtain ⟨chain, hchain⟩ := ih after.length hshorter hafter rfl
      exact ⟨_, .sever hbefore hsevers hchain⟩

theorem Splits.balanced {spelling : Spelling} {text : Text} {chain : Chain Text}
    (h : Splits spelling text chain) : text.Balanced := by
  rw [← isBalanced_iff, ← balanced_cut spelling, h.cut]

/-- The scan of a text finds exactly the cut of the text at all its outermost connectives. -/
theorem cut_eq_iff_splits {spelling : Spelling} {text : Text} {chain : Chain Text} :
    text.cut spelling = ⟨chain, true⟩ ↔ Splits spelling text chain := by
  constructor
  · intro h
    have hbalanced : text.Balanced := by
      rw [← isBalanced_iff, ← balanced_cut spelling, h]
    -- the text has a cut, and the scan finds that one
    obtain ⟨chain', hchain'⟩ := hbalanced.exists_splits spelling
    have hsame := hchain'.cut
    rw [h, Cut.mk.injEq] at hsame
    rw [hsame.1]
    exact hchain'
  · exact Splits.cut

/-- A text can be cut in one way only. -/
theorem Splits.unique {spelling : Spelling} {text : Text} {chain chain' : Chain Text}
    (h : Splits spelling text chain) (h' : Splits spelling text chain') : chain = chain' := by
  have hsame := h.cut.symm.trans h'.cut
  rw [Cut.mk.injEq] at hsame
  exact hsame.1

/-- The segments of a text are found exactly if it can be cut into texts that are not blank; they
are those texts trimmed. -/
theorem segments_eq_ok_iff_splits {spelling : Spelling} {text : Text} {chain : Chain Text} :
    text.segments spelling = .ok chain ↔
      ∃ raw : Chain Text, Splits spelling text raw ∧ chain = raw.map trim ∧ [] ∉ chain.items := by
  have hblank : ∀ raw : Chain Text, [] ∉ (raw.map trim).items ↔
      raw.closed.any isBlank = false ∧ raw.last.isBlank = false := by
    intro raw
    rw [Chain.items_map, ← raw.closed_append_last]
    simp [trim_eq_nil_iff]
  obtain ⟨⟨raw, balanced⟩, hcut⟩ : ∃ found, text.cut spelling = found := ⟨_, rfl⟩
  simp only [segments, hcut]
  constructor
  · intro h
    -- of the three checks, each one has passed
    split at h
    · cases h
    · rename_i hclosed
      split at h
      · cases h
      · rename_i hbalanced
        split at h
        · cases h
        · rename_i hlast
          cases h
          obtain rfl : balanced = true := by simpa using hbalanced
          exact ⟨raw, cut_eq_iff_splits.1 hcut, rfl,
            (hblank raw).2 ⟨by simpa using hclosed, by simpa using hlast⟩⟩
  · rintro ⟨raw', hsplits, rfl, hnotBlank⟩
    have hsame := hcut.symm.trans hsplits.cut
    rw [Cut.mk.injEq] at hsame
    obtain ⟨rfl, rfl⟩ := hsame
    obtain ⟨hclosed, hlast⟩ := (hblank raw).1 hnotBlank
    simp [hclosed, hlast]

/-- Segments with connectives between them, and white space around both. -/
inductive Segmented (spelling : Spelling) : Text → Chain Text → Prop where
  | last {before segment after : Text} :
      before.isBlank → segment.IsSegment spelling → after.isBlank →
      Segmented spelling (before ++ segment ++ after) ⟨segment, []⟩
  | more {before segment after word rest : Text} {connective : Connective} {chain : Chain Text} :
      before.isBlank → segment.IsSegment spelling → after.isBlank →
      (before ++ segment ++ after).EndsApart →
      spelling.accepts word connective.keyword →
      rest.BeginsApart →
      Segmented spelling rest chain →
      Segmented spelling (before ++ segment ++ after ++ word ++ rest) (chain.link segment connective)

theorem Segmented.ne_nil {spelling : Spelling} {text : Text} {chain : Chain Text}
    (h : Segmented spelling text chain) : text ≠ [] := by
  cases h with
  | last _ hsegment _ => simp [hsegment.ne_nil]
  | more _ hsegment _ _ _ _ _ => simp [hsegment.ne_nil]

/-- A cut without blank texts is segmented. -/
theorem Splits.segmented {spelling : Spelling} {text : Text} {raw : Chain Text}
    (h : Splits spelling text raw) (hnil : [] ∉ (raw.map trim).items) :
    Segmented spelling text (raw.map trim) := by
  induction h with
  | @whole text hwhole =>
    rcases exists_append_trim_append text with ⟨before, after, hbefore, hafter, hjoin⟩
    have hne : text.trim ≠ [] := by
      intro htrim
      simp [Chain.items, Chain.map, htrim] at hnil
    have hsegment : text.trim.IsSegment spelling :=
      ⟨hne, tight_trim text, whole_trim_iff.2 hwhole⟩
    have hlast := Segmented.last hbefore hsegment hafter
    rwa [hjoin] at hlast
  | @sever first word rest k raw hwhole hsevers hsplits ih =>
    rw [Chain.map_link, Chain.items_link, List.mem_cons, not_or] at hnil
    rcases hnil with ⟨hfirst, hitems⟩
    have hrest := ih hitems
    -- neither side of the connective is blank, so both stand apart from it
    have hend : first.EndsApart := by
      apply hsevers.before_apart.resolve_left
      rintro rfl
      exact hfirst rfl
    have hbegin : rest.BeginsApart := by
      apply hsevers.after_apart.resolve_left
      rintro rfl
      exact hrest.ne_nil rfl
    rcases exists_append_trim_append first with ⟨before, after, hbefore, hafter, hjoin⟩
    have hmore := Segmented.more hbefore
      ⟨Ne.symm hfirst, tight_trim first, whole_trim_iff.2 hwhole⟩ hafter (hjoin.symm ▸ hend)
      hsevers.accepted hbegin hrest
    rwa [hjoin] at hmore

/-- A segmented text is cut between its segments. -/
theorem Segmented.splits {spelling : Spelling} {text : Text} {chain : Chain Text}
    (h : Segmented spelling text chain) :
    ∃ raw : Chain Text, Splits spelling text raw ∧ chain = raw.map trim ∧ [] ∉ chain.items := by
  induction h with
  | @last before segment after hbefore hsegment hafter =>
    refine ⟨_, .whole ((whole_pad_iff hbefore hafter).2 hsegment.whole), ?_, ?_⟩
    · rw [Chain.map, hsegment.tight.trim_pad hbefore hafter]
      rfl
    · intro hmem
      exact hsegment.ne_nil (List.mem_singleton.1 hmem).symm
  | @more before segment after word rest k chain hbefore hsegment hafter hend hword hbegin _ ih =>
    rcases ih with ⟨raw, hsplits, rfl, hnil⟩
    have hwhole := (whole_pad_iff hbefore hafter).2 hsegment.whole
    refine ⟨_, .sever hwhole ⟨hwhole.balanced, hword, .inr hend, .inr hbegin⟩ hsplits, ?_, ?_⟩
    · rw [Chain.map_link, hsegment.tight.trim_pad hbefore hafter]
    · rw [Chain.items_link, List.mem_cons, not_or]
      exact ⟨Ne.symm hsegment.ne_nil, hnil⟩

/-- The segments of a text are found exactly if the text is made up of them. -/
theorem segments_eq_ok_iff {spelling : Spelling} {text : Text} {chain : Chain Text} :
    text.segments spelling = .ok chain ↔ Segmented spelling text chain := by
  rw [segments_eq_ok_iff_splits]
  constructor
  · rintro ⟨raw, hsplits, rfl, hnil⟩
    exact hsplits.segmented hnil
  · exact Segmented.splits

/-- A text is made up of segments in one way only. -/
theorem Segmented.unique {spelling : Spelling} {text : Text} {chain chain' : Chain Text}
    (h : Segmented spelling text chain) (h' : Segmented spelling text chain') : chain = chain' := by
  have hfound := segments_eq_ok_iff.2 h
  rw [segments_eq_ok_iff.2 h', Except.ok.injEq] at hfound
  exact hfound.symm

theorem Segmented.balanced {spelling : Spelling} {text : Text} {chain : Chain Text}
    (h : Segmented spelling text chain) : text.Balanced := by
  rcases h.splits with ⟨raw, hsplits, -, -⟩
  exact hsplits.balanced

/-- The segments of a text can stand between connectives and are no longer than the text. -/
theorem Segmented.isSegment_of_mem {spelling : Spelling} {text : Text} {chain : Chain Text}
    (h : Segmented spelling text chain) {item : Text} (hitem : item ∈ chain.items) :
    item.IsSegment spelling ∧ item.length ≤ text.length := by
  induction h with
  | last _ hsegment _ =>
    rcases List.mem_singleton.1 hitem with rfl
    refine ⟨hsegment, ?_⟩
    simp only [List.length_append]
    omega
  | more _ hsegment _ _ _ _ _ ih =>
    simp only [List.length_append]
    rcases List.mem_cons.1 hitem with rfl | hrest
    · exact ⟨hsegment, by omega⟩
    · rcases ih hrest with ⟨hitemSegment, hlength⟩
      exact ⟨hitemSegment, by omega⟩

/-- The segments of a text stand in it. -/
theorem Segmented.isInfix_of_mem {spelling : Spelling} {text : Text} {chain : Chain Text}
    (h : Segmented spelling text chain) {item : Text} (hitem : item ∈ chain.items) :
    item <:+: text := by
  induction h with
  | @last before segment after _ _ _ =>
    rcases List.mem_singleton.1 hitem with rfl
    exact List.infix_append before item after
  | @more before segment after word rest k chain _ _ _ _ _ _ _ ih =>
    rcases List.mem_cons.1 hitem with rfl | hrest
    · have hfirst := List.infix_append before item (after ++ word ++ rest)
      simpa only [List.append_assoc] using hfirst
    · exact (ih hrest).trans (List.suffix_append _ rest).isInfix

theorem Segmented.append_left {spelling : Spelling} {text : Text} {chain : Chain Text}
    (h : Segmented spelling text chain) {pad : Text} (hpad : pad.isBlank) :
    Segmented spelling (pad ++ text) chain := by
  cases h with
  | @last before segment after hbefore hsegment hafter =>
    have hpads : isBlank (pad ++ before) := by simp [hpad, hbefore]
    have hlast := Segmented.last hpads hsegment hafter
    simpa only [List.append_assoc] using hlast
  | @more before segment after word rest k chain hbefore hsegment hafter hend hword hbegin hrest =>
    have hend' : EndsApart (pad ++ before ++ segment ++ after) := by
      rw [List.append_assoc, List.append_assoc, endsApart_append_iff (by simp [hsegment.ne_nil])]
      rwa [← List.append_assoc]
    have hpads : isBlank (pad ++ before) := by simp [hpad, hbefore]
    have hmore := Segmented.more hpads hsegment hafter hend' hword hbegin hrest
    simpa only [List.append_assoc] using hmore

theorem Segmented.append_right {spelling : Spelling} {text : Text} {chain : Chain Text}
    (h : Segmented spelling text chain) {pad : Text} (hpad : pad.isBlank) :
    Segmented spelling (text ++ pad) chain := by
  induction h with
  | @last before segment after hbefore hsegment hafter =>
    rw [List.append_assoc]
    exact .last hbefore hsegment (by simp [hpad, hafter])
  | @more before segment after word rest k chain hbefore hsegment hafter hend hword hbegin hrest ih =>
    rw [List.append_assoc]
    exact .more hbefore hsegment hafter hend hword
      ((beginsApart_append_iff hrest.ne_nil).2 hbegin) ih

/-- Two segmented texts with a connective that stands apart between them. -/
theorem Segmented.join {spelling : Spelling} {text word text' : Text} {connective : Connective}
    {chain chain' : Chain Text} (h : Segmented spelling text chain) (hend : text.EndsApart)
    (hword : spelling.accepts word connective.keyword) (hbegin : text'.BeginsApart)
    (h' : Segmented spelling text' chain') :
    Segmented spelling (text ++ word ++ text') (chain.append connective chain') := by
  induction h with
  | last hbefore hsegment hafter =>
    exact .more hbefore hsegment hafter hend hword hbegin h'
  | @more before segment after word' rest k chain hbefore hsegment hafter hend' hword' hbegin' hrest
      ih =>
    have hbegins : BeginsApart (rest ++ word ++ text') := by
      rw [List.append_assoc]
      exact (beginsApart_append_iff hrest.ne_nil).2 hbegin'
    have hjoined := ih ((endsApart_append_iff hrest.ne_nil).1 hend)
    have hmore := Segmented.more hbefore hsegment hafter hend' hword' hbegins hjoined
    rw [Chain.append_link]
    simpa only [List.append_assoc] using hmore

/-- A segmented text is white space around a text that is segmented in the same way. -/
theorem Segmented.exists_core {spelling : Spelling} {text : Text} {chain : Chain Text}
    (h : Segmented spelling text chain) :
    ∃ first core last : Text, first.isBlank ∧ last.isBlank ∧ core.Tight ∧
      text = first ++ core ++ last ∧ Segmented spelling core chain := by
  induction h with
  | @last before segment after hbefore hsegment hafter =>
    refine ⟨before, segment, after, hbefore, hafter, hsegment.tight, rfl, ?_⟩
    have hnil : isBlank [] := rfl
    simpa using Segmented.last hnil hsegment hnil
  | @more before segment after word rest k chain hbefore hsegment hafter hend hword hbegin _ ih =>
    rcases ih with ⟨first, core, last, hfirst, hlast, htight, rfl, hrest⟩
    have hend' : EndsApart ([] ++ segment ++ after) := by
      rw [List.append_assoc, endsApart_append_iff (by simp [hsegment.ne_nil])] at hend
      exact hend
    have hbegin' : BeginsApart (first ++ core) := by
      rwa [beginsApart_append_iff (by simp [hrest.ne_nil])] at hbegin
    have hcore : Segmented spelling (segment ++ after ++ word ++ (first ++ core))
        (chain.link segment k) := by
      have hnil : isBlank [] := rfl
      simpa using Segmented.more hnil hsegment hafter hend' hword hbegin' (hrest.append_left hfirst)
    refine ⟨before, _, last, hbefore, hlast, ?_, by simp only [List.append_assoc], hcore⟩
    have hcoreTight :=
      hsegment.tight.append hsegment.ne_nil (after ++ word ++ first) htight hrest.ne_nil
    simpa only [List.append_assoc] using hcoreTight

/-- A segment alone is segmented. -/
theorem IsSegment.segmented {spelling : Spelling} {text : Text} (h : text.IsSegment spelling) :
    Segmented spelling text ⟨text, []⟩ := by
  simpa using Segmented.last isBlank_nil h isBlank_nil

/-- A text is its own only segment exactly if it can stand between connectives. -/
theorem segments_self_iff {spelling : Spelling} {text : Text} :
    text.segments spelling = .ok ⟨text, []⟩ ↔ text.IsSegment spelling := by
  rw [segments_eq_ok_iff]
  constructor
  · intro h
    exact (h.isSegment_of_mem (List.mem_singleton.2 rfl)).1
  · exact IsSegment.segmented

/-- White space at the ends of a text does not matter to its segments. -/
theorem segmented_trim_iff {spelling : Spelling} {text : Text} {chain : Chain Text} :
    Segmented spelling text.trim chain ↔ Segmented spelling text chain := by
  constructor
  · intro h
    rcases exists_append_trim_append text with ⟨before, after, hbefore, hafter, hjoin⟩
    rw [← hjoin]
    exact (h.append_left hbefore).append_right hafter
  · intro h
    rcases h.exists_core with ⟨first, core, last, hfirst, hlast, htight, rfl, hcore⟩
    rwa [htight.trim_pad hfirst hlast]

theorem Segmented.not_isBlank {spelling : Spelling} {text : Text} {chain : Chain Text}
    (h : Segmented spelling text chain) : ¬ text.isBlank := by
  intro hblank
  have htrim := segmented_trim_iff.2 h
  rw [trim_eq_nil_iff.2 hblank] at htrim
  exact htrim.ne_nil rfl

end Text

end ListingFilter
