import ListingFilter.Proofs.Imbalance
import ListingFilter.Proofs.ReadingAhead
import ListingFilter.Stream.Segments

/-!
# Streaming — a text is cut as it is read

On the octets of a text, a reader finds the segments that the text has, or their fault
(`Lookahead.perform_segments`).

A step of the reader is described by the text that is to come before it and the one that is to come
after it (`Lookahead.Gives`), so that it does not matter how far the reader has read ahead. One pass
then does to the reader what one character does in the scan of the text (`Cut.scan`).
-/

namespace ListingFilter

/-! ## Outcomes of a cut -/

/-- The trimmed segments of a cut, or the fault that is reported. -/
def Cut.outcome (group : Text) (found : Cut) : Except Fault (Chain Text) :=
  if found.segments.closed.any Text.isBlank then .error (.malformed group .missingOperand)
  else if !found.balanced then .error (.unbalanced group)
  else if found.segments.last.isBlank then .error (.malformed group .missingOperand)
  else .ok (found.segments.map Text.trim)

theorem Text.segments_eq_outcome (spelling : Spelling) (text : Text) :
    text.segments spelling = (text.cut spelling).outcome text := rfl

namespace Cut

open Lookahead (closeSegment)

variable {group current : Text}

/-- At the end of a text with open parentheses or none, only the last segment is left. -/
theorem outcome_prepend_end (depth : Nat) :
    (prepend current ⟨⟨[], []⟩, depth == 0⟩).outcome group =
      if depth == 0 then (closeSegment group current).map fun last => ⟨last, []⟩
      else .error (.unbalanced group) := by
  have hlast : (prepend current ⟨⟨[], []⟩, depth == 0⟩).segments = ⟨current, []⟩ := by
    simp [prepend]
  unfold outcome closeSegment
  rw [hlast]
  cases depth with
  | zero =>
    show (if current.isBlank then _ else _) = Except.map _ _
    split <;> rfl
  | succ depth => rfl

/-- A connective closes the segment before it, and what becomes of the cut behind it follows. -/
theorem outcome_prepend_sever (connective : Connective) (cut : Cut) :
    (prepend current (sever connective cut)).outcome group =
      match closeSegment group current with
      | .error fault => .error fault
      | .ok segment => (cut.outcome group).map (Chain.link segment connective) := by
  have hlast : (prepend current (sever connective cut)).segments.last = cut.segments.last := by
    simp [prepend, sever, Chain.last, Chain.items]
  unfold outcome closeSegment
  rw [closed_sever, hlast, List.any_cons]
  cases current.isBlank with
  | true => rfl
  | false =>
    rw [Bool.false_or]
    -- the checks are those of the cut behind the connective
    split
    · rfl
    · have hbalanced : (prepend current (sever connective cut)).balanced = cut.balanced := rfl
      rw [hbalanced]
      split
      · rfl
      · split
        · rfl
        · simp [prepend, sever, Chain.map, Chain.link, Except.map]

theorem prepend_push (c : Char) (cut : Cut) :
    prepend current (push c cut) = prepend (current ++ [c]) cut := by
  simp [prepend, push]

end Cut

namespace Lookahead

/-! ## Steps and the text to come -/

variable {α β : Type} {text rest left : Text} {spelling : Spelling}

/-- Where the text is to come, the step gives this answer, and what is left is to come then. -/
def Gives (text : Text) (step : Step α) (answer : α) (left : Text) : Prop :=
  ∀ reader : Lookahead, reader.Holds text →
    ∃ after, perform step reader = (.ok answer, after) ∧ after.Holds left

namespace Gives

theorem pure (text : Text) (a : α) : Gives text (Pure.pure a) a text :=
  fun reader h => ⟨reader, rfl, h⟩

theorem bind {step : Step α} {next : α → Step β} {a : α} {b : β} (h : Gives text step a rest)
    (hnext : Gives rest (next a) b left) : Gives text (step >>= next) b left := by
  intro reader hreader
  rcases h reader hreader with ⟨middle, hrun, hmiddle⟩
  rcases hnext middle hmiddle with ⟨after, hrun', hafter⟩
  refine ⟨after, ?_, hafter⟩
  rw [perform_bind, hrun]
  exact hrun'

/-- A step that answers a request gives the answer about the text to come. -/
theorem of_request (request : Request) {step : Step α} {wrap : α → Answer} {a : α}
    (hstep : request.step = do return wrap (← step)) (hwrap : Function.Injective wrap)
    (hcounts : request.Counts) (ha : request.answer text = wrap a) :
    Gives text step a (request.rest text) := by
  intro reader hreader
  have hturn : (⟨reader, request⟩ : Turn).before.Holds text := hreader
  rcases Turn.of_holds hturn hcounts with ⟨houtcome, hafter⟩
  unfold Turn.outcome at houtcome
  unfold Turn.after at hafter
  rw [hstep, perform_bind] at houtcome hafter
  rcases hrun : perform step reader with ⟨fault | answer, after⟩
  · rw [hrun] at houtcome
    cases houtcome
  · rw [hrun] at houtcome hafter
    rw [ha] at houtcome
    obtain rfl := hwrap (Except.ok.inj houtcome)
    exact ⟨after, rfl, hafter⟩

end Gives

theorem gives_peek (text : Text) (count : Nat) :
    Gives text (peek count) (text.take count) text :=
  .of_request (.peek count) rfl (fun _ _ => Answer.text.inj) trivial rfl

theorem gives_skip (text : Text) (count : Nat) :
    Gives text (skip count) (min count text.length) (text.drop count) :=
  .of_request (.skip count) rfl (fun _ _ => Answer.count.inj) trivial rfl

theorem gives_peekChar (text : Text) {index : Nat} (h : index + 1 < wordCount) :
    Gives text (peekChar index) text[index]? text :=
  .of_request (.peekChar ⟨index, Nat.lt_of_succ_lt h⟩) rfl (fun _ _ => Answer.char.inj) h rfl

/-! ## Connectives -/

/-- The rest of the text without the word of the connective that was found, if one was. -/
def behind (text : Text) (found : Option Connective) : Text :=
  match found with
  | none => text
  | some connective => text.drop connective.keyword.length

theorem gives_takeFirst (text : Text) (candidates : List Connective) :
    Gives text (takeFirst spelling candidates) (candidates.find? (Connective.opens spelling text))
      (behind text (candidates.find? (Connective.opens spelling text))) := by
  induction candidates with
  | nil => exact .pure text none
  | cons connective more ih =>
    have hlength : connective.keyword.length + 1 < wordCount := by cases connective <;> decide
    have hnext : Connective.mayPrecede text[connective.keyword.length]?.toList =
        Connective.mayPrecede (text.drop connective.keyword.length) := by
      rw [← List.head?_drop]
      cases text.drop connective.keyword.length <;> rfl
    rw [takeFirst, List.find?_cons, Connective.opens]
    refine (gives_peek text _).bind ?_
    cases haccepts : spelling.accepts (text.take connective.keyword.length) connective.keyword with
    | false => exact ih
    | true =>
      refine (gives_peekChar text hlength).bind ?_
      rw [hnext]
      cases Connective.mayPrecede (text.drop connective.keyword.length) with
      | false => exact ih
      | true => exact (gives_skip text _).bind (.pure _ _)

/-- The connective is found that the scan of the text finds. -/
theorem gives_takeConnective (spelling : Spelling) (text : Text) (depth : Nat)
    (previous : Option Char) :
    Gives text (takeConnective spelling depth previous)
      (if depth == 0 && Connective.mayFollow previous then Connective.at? spelling text else none)
      (behind text (if depth == 0 && Connective.mayFollow previous then
        Connective.at? spelling text else none)) := by
  unfold takeConnective
  split
  · exact gives_takeFirst text [.and, .or]
  · exact .pure text none

/-- Where the scan finds a connective, it goes on with a scan of what is behind the word. -/
theorem scan_of_found {depth : Nat} {previous : Option Char} {connective : Connective}
    (h : (if depth == 0 && Connective.mayFollow previous then Connective.at? spelling text
      else none) = some connective) :
    depth = 0 ∧ (behind text (some connective)).length < text.length ∧
      Cut.scan spelling 0 depth previous text =
        Cut.sever connective (Cut.scan spelling 0 0 none (behind text (some connective))) := by
  split at h
  · rename_i hmay
    rw [Bool.and_eq_true, beq_iff_eq] at hmay
    rcases hmay with ⟨rfl, hfollow⟩
    rcases Connective.at?_eq_some_iff.1 h with ⟨word, after, rfl, hword, hafter⟩
    have hsevers : connective.Severs spelling [] word after :=
      ⟨Text.balanced_nil, hword, .inl rfl, hafter⟩
    have hbehind : behind (word ++ after) (some connective) = after := by
      rw [behind, ← Connective.length_of_accepts hword, List.drop_left]
    have hpos := List.length_pos_iff.2 (Connective.ne_nil_of_accepts hword)
    rw [hbehind, List.length_append]
    exact ⟨rfl, by omega, Cut.scan_sever hsevers hfollow⟩
  · cases h

/-! ## Passes -/

variable {group current : Text}

/-- Behind a connective the segments are read that the cut has there. -/
theorem exists_gives_sever {further : Step (Option (Except Fault (Chain Text)))} {cut : Cut}
    (connective : Connective) (h : Gives text further (some (cut.outcome group)) left) :
    ∃ left, Gives text (sever group current connective further)
      (some ((Cut.prepend current (Cut.sever connective cut)).outcome group)) left := by
  rw [Cut.outcome_prepend_sever]
  unfold sever
  cases closeSegment group current with
  | error fault => exact ⟨text, .pure _ _⟩
  | ok segment => exact ⟨left, h.bind (.pure _ _)⟩

/-- If there are more passes than characters to come, they reach the end, and what they find is what
becomes of the scan of these characters behind the segment begun. -/
theorem exists_gives_segmentsFrom {passes : Nat} (h : text.length < passes) (depth : Nat)
    (previous : Option Char) (current : Text) :
    ∃ left, Gives text (segmentsFrom spelling group passes depth previous current)
      (some ((Cut.prepend current (Cut.scan spelling 0 depth previous text)).outcome group))
      left := by
  induction passes generalizing text depth previous current with
  | zero => cases h
  | succ passes ih =>
    have hpeek : Gives text (peekChar 0) text[0]? text := gives_peekChar text (by decide)
    cases text with
    | nil =>
      refine ⟨[], hpeek.bind ?_⟩
      rw [Cut.scan, Cut.outcome_prepend_end]
      show Gives [] (if _ then _ else _) _ []
      split
      · exact .pure [] _
      · exact .pure [] _
    | cons c rest =>
      have hrest : rest.length < passes := Nat.lt_of_succ_lt_succ h
      -- taking the character goes on with the scan behind it
      have htake : ∀ depth, ∃ left, Gives (c :: rest)
          (do
            let _ ← skip 1
            segmentsFrom spelling group passes depth (some c) (current ++ [c]))
          (some ((Cut.prepend current
            (Cut.push c (Cut.scan spelling 0 depth (some c) rest))).outcome group)) left := by
        intro depth
        rcases ih hrest depth (some c) (current ++ [c]) with ⟨left, hgives⟩
        refine ⟨left, (gives_skip (c :: rest) 1).bind ?_⟩
        rw [Cut.prepend_push]
        exact hgives
      by_cases hopen : c = '('
      · subst hopen
        rcases htake (depth + 1) with ⟨left, hgives⟩
        exact ⟨left, hpeek.bind hgives⟩
      · by_cases hclose : c = ')'
        · subst hclose
          cases depth with
          | zero =>
            -- a parenthesis without a partner ends the reading
            exact ⟨_, hpeek.bind (.pure _ _)⟩
          | succ depth =>
            rcases htake depth with ⟨left, hgives⟩
            exact ⟨left, hpeek.bind hgives⟩
        · have hfind := gives_takeConnective spelling (c :: rest) depth previous
          cases hfound : (if depth == 0 && Connective.mayFollow previous then
              Connective.at? spelling (c :: rest) else none) with
          | none =>
            rcases htake depth with ⟨left, hgives⟩
            refine ⟨left, hpeek.bind ?_⟩
            rw [hfound] at hfind
            simp only [Cut.scan, hopen, hclose, if_false, hfound, List.getElem?_cons_zero]
            exact hfind.bind hgives
          | some connective =>
            rcases scan_of_found hfound with ⟨rfl, hshorter, hscan⟩
            rw [hfound] at hfind
            have hbehind : (behind (c :: rest) (some connective)).length < passes :=
              Nat.lt_of_lt_of_le hshorter (Nat.le_of_lt_succ h)
            rcases ih hbehind 0 none [] with ⟨_, hgives⟩
            rcases exists_gives_sever connective hgives with ⟨left, hsever⟩
            refine ⟨left, hpeek.bind ?_⟩
            rw [hscan]
            simp only [List.getElem?_cons_zero, hopen, hclose, if_false]
            exact hfind.bind hsever

/-- A reader at the start of the octets of a text finds what the text is cut into: its segments, or
the fault that is reported of it. -/
theorem perform_segments (spelling : Spelling) (text : Text) :
    ∃ after, perform (segments spelling text) (ofOctets text.utf8) =
      (.ok (some (text.segments spelling)), after) := by
  have hpasses : text.length < text.length + 1 := Nat.lt_succ_self _
  have hgives : ∃ left, Gives text (segments spelling text) (some ((text.cut spelling).outcome text))
      left :=
    exists_gives_segmentsFrom hpasses 0 none []
  rcases hgives with ⟨left, hgives⟩
  rcases hgives _ (holds_ofOctets text) with ⟨after, hrun, -⟩
  rw [Text.segments_eq_outcome]
  exact ⟨after, hrun⟩

end Lookahead

end ListingFilter
