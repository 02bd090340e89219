import ListingFilter.Proofs.Encoding
import ListingFilter.Stream.Lookahead

/-!
# Reading ahead — nothing lost, doubled or moved

Requests are put to a reader one after the other, and each is a turn: it reads ahead as far as it
reaches and answers from the buffer, or it meets a fault and keeps what it has read (`Turn.cases`).
So what a turn reads is what it takes away, what it leaves in the buffer and the fault it ends with
(`Turn.exists_read`), and this adds up over a run (`exists_read_run`).

A character is in the buffer or still in the source. The answers are about both together
(`Turn.sound`), so that they do not depend on how far the reader happens to have read ahead. This
leaves out a look at the last position, which nothing is read ahead for (`Request.Counts`).
-/

namespace ListingFilter

namespace Source

/-! ## Characters and faults -/

/-- The characters among the items. -/
def chars (items : List Item) : Text :=
  items.filterMap fun
    | .ok char => some char
    | .error _ => none

/-- The faults among the items. -/
def faults (items : List Item) : List StreamFault :=
  items.filterMap fun
    | .ok _ => none
    | .error fault => some fault

@[simp] theorem chars_nil : chars [] = [] := rfl

@[simp] theorem chars_append (a b : List Item) : chars (a ++ b) = chars a ++ chars b :=
  List.filterMap_append

@[simp] theorem faults_append (a b : List Item) : faults (a ++ b) = faults a ++ faults b :=
  List.filterMap_append

@[simp] theorem chars_map_ok (text : Text) : chars (text.map .ok) = text := by
  simp [chars]

@[simp] theorem faults_map_ok (text : Text) : faults (text.map .ok) = [] := by
  simp [faults]

@[simp] theorem chars_error_cons (fault : StreamFault) (items : List Item) :
    chars (.error fault :: items) = chars items := rfl

end Source

open Source

namespace Lookahead

/-! ## Steps -/

variable {α β : Type}

/-- What a step gives, and the reader after it. -/
def perform (step : Step α) (reader : Lookahead) : Except StreamFault α × Lookahead :=
  (step.run.run reader : Id _)

theorem perform_bind (step : Step α) (next : α → Step β) (reader : Lookahead) :
    perform (step >>= next) reader =
      match perform step reader with
      | (.ok a, after) => perform (next a) after
      | (.error fault, after) => (.error fault, after) := by
  simp only [perform, ExceptT.run_bind, StateT.run_bind]
  rcases (step.run.run reader : Id _) with ⟨outcome, after⟩
  cases outcome <;> rfl

theorem perform_get (reader : Lookahead) : perform get reader = (.ok reader, reader) := rfl

theorem perform_set (reader after : Lookahead) : perform (set after) reader = (.ok ⟨⟩, after) := rfl

theorem perform_feed_succ (count : Nat) (reader : Lookahead) :
    perform (feed (count + 1)) reader =
      match reader.source.next with
      | (none, source) => (.ok (), { reader with source })
      | (some (.error fault), source) => (.error fault, { reader with source })
      | (some (.ok char), source) => perform (feed count) ⟨reader.buffer ++ [char], source⟩ := by
  rw [feed, perform_bind, perform_get]
  dsimp only
  rcases reader.source.next with ⟨_ | _ | _, source⟩
  · rfl
  · rfl
  · rw [perform_bind, perform_set]

/-- Reading ahead puts characters behind those in the buffer. It ends well when there are as many as
asked for or the source has ended, and otherwise with the next fault. -/
inductive Feeds (before : Lookahead) (count : Nat) :
    Except StreamFault Unit × Lookahead → Prop where
  | filled {chars : Text} {source : Source} :
      before.source.items = chars.map .ok ++ source.items →
      count ≤ chars.length ∨ source.items = [] →
      Feeds before count (.ok (), ⟨before.buffer ++ chars, source⟩)
  | failed {chars : Text} {source : Source} {fault : StreamFault} :
      before.source.items = chars.map .ok ++ .error fault :: source.items →
      Feeds before count (.error fault, ⟨before.buffer ++ chars, source⟩)

/-- A character may be read first. -/
theorem Feeds.cons {buffer : Text} {source rest : Source} {char : Char} {count : Nat}
    {result : Except StreamFault Unit × Lookahead} (hitems : source.items = .ok char :: rest.items)
    (h : Feeds ⟨buffer ++ [char], rest⟩ count result) :
    Feeds ⟨buffer, source⟩ (count + 1) result := by
  cases h with
  | @filled chars last hchars hcount =>
    rw [List.append_assoc]
    refine .filled ?_ ?_
    · show source.items = _
      rw [hitems, show rest.items = _ from hchars]
      rfl
    · exact hcount.imp_left Nat.succ_le_succ
  | @failed chars last fault hchars =>
    rw [List.append_assoc]
    refine .failed ?_
    show source.items = _
    rw [hitems, show rest.items = _ from hchars]
    rfl

theorem feeds (count : Nat) (reader : Lookahead) :
    Feeds reader count (perform (feed count) reader) := by
  induction count generalizing reader with
  | zero =>
    have hnone : Feeds reader 0 (.ok (), ⟨reader.buffer ++ [], reader.source⟩) :=
      .filled rfl (.inl (Nat.zero_le _))
    rwa [List.append_nil] at hnone
  | succ count ih =>
    rcases reader with ⟨buffer, source⟩
    rw [perform_feed_succ]
    rcases source.next_cases with ⟨item, rest, hnext, -⟩ | ⟨-, hnext⟩
    · have hitems := items_of_next_eq_some hnext
      simp only [hnext]
      cases item with
      | error fault =>
        have hfail : Feeds ⟨buffer, source⟩ (count + 1) (.error fault, ⟨buffer ++ [], rest⟩) :=
          .failed hitems
        rwa [List.append_nil] at hfail
      | ok char => exact .cons hitems (ih _)
    · -- the source has ended
      have hends : Feeds ⟨buffer, source⟩ (count + 1) (.ok (), ⟨buffer ++ [], ⟨[], []⟩⟩) :=
        .filled ((items_of_next_eq_none hnext).trans (items_of_next_eq_none rfl).symm)
          (.inr (items_of_next_eq_none rfl))
      rw [List.append_nil] at hends
      simp only [hnext]
      exact hends

theorem perform_ensure (count : Nat) (reader : Lookahead) :
    perform (ensure count) reader = perform (feed (count - reader.buffer.length)) reader := by
  rw [ensure, perform_bind, perform_get]

/-! ## Requests -/

/-- What is asked of a reader. -/
inductive Request where
  | peek (count : Nat)
  | peekChar (index : Fin wordCount)
  | skip (count : Nat)
deriving DecidableEq, Repr

/-- What a reader answers. -/
inductive Answer where
  | text (text : Text)
  | char (char : Option Char)
  | count (count : Nat)
deriving DecidableEq, Repr

namespace Request

/-- The step that is asked for. -/
def step : Request → Step Answer
  | .peek count => return .text (← Lookahead.peek count)
  | .peekChar index => return .char (← Lookahead.peekChar index)
  | .skip count => return .count (← Lookahead.skip count)

/-- The number of characters that are read ahead. -/
def reach : Request → Nat
  | .peek count => count
  | .peekChar index => (index + 1) % wordCount
  | .skip count => count

/-- The answer depends on as many characters as are read ahead. Only a look at the last position asks
for more characters than can be counted. -/
def Counts : Request → Prop
  | .peekChar index => index + 1 < wordCount
  | _ => True

instance : DecidablePred Counts
  | .peek _ => instDecidableTrue
  | .peekChar index => inferInstanceAs (Decidable (index + 1 < wordCount))
  | .skip _ => instDecidableTrue

/-- The answer when this is the text to come. -/
def answer (text : Text) : Request → Answer
  | .peek count => .text (text.take count)
  | .peekChar index => .char text[index.val]?
  | .skip count => .count (min count text.length)

/-- The characters that are taken from the text to come. -/
def taken (text : Text) : Request → Text
  | .skip count => text.take count
  | _ => []

/-- The text that is still to come afterwards. -/
def rest (text : Text) : Request → Text
  | .skip count => text.drop count
  | _ => text

/-- The answers to one request after the other. -/
def answers (text : Text) : List Request → List Answer
  | [] => []
  | request :: more => request.answer text :: answers (request.rest text) more

theorem taken_append_rest (text : Text) (request : Request) :
    request.taken text ++ request.rest text = text := by
  cases request with
  | peek count => rfl
  | peekChar index => rfl
  | skip count => exact List.take_append_drop count text

/-- What is read ahead goes beyond the position that is looked at. -/
theorem lt_of_reach_le {index : Fin wordCount} {length : Nat} (hcounts : Counts (.peekChar index))
    (h : reach (.peekChar index) ≤ length) : index < length := by
  have hreach : (index + 1) % wordCount ≤ length := h
  rwa [Nat.mod_eq_of_lt hcounts] at hreach

/-- Characters out of reach play no part in the answer. -/
theorem answer_append {request : Request} {text : Text} (hcounts : request.Counts)
    (h : request.reach ≤ text.length) (behind : Text) :
    request.answer (text ++ behind) = request.answer text := by
  cases request with
  | peek count =>
    have hcount : count ≤ text.length := h
    rw [answer, answer, List.take_append_of_le_length hcount]
  | peekChar index =>
    have hindex : index < text.length := lt_of_reach_le hcounts h
    rw [answer, answer, List.getElem?_append_left hindex]
  | skip count =>
    have hcount : count ≤ text.length := h
    rw [answer, answer, List.length_append]
    congr 1
    omega

/-- Characters out of reach are still to come. -/
theorem rest_append {request : Request} {text : Text} (h : request.reach ≤ text.length)
    (behind : Text) : request.rest (text ++ behind) = request.rest text ++ behind := by
  cases request with
  | peek count => rfl
  | peekChar index => rfl
  | skip count =>
    have hcount : count ≤ text.length := h
    exact List.drop_append_of_le_length hcount

end Request

open Request

/-- Every step reads ahead as far as it reaches and then answers from the buffer alone. -/
theorem perform_step (request : Request) (reader : Lookahead) :
    perform request.step reader =
      match perform (ensure request.reach) reader with
      | (.ok (), filled) =>
        (.ok (request.answer filled.buffer), ⟨request.rest filled.buffer, filled.source⟩)
      | (.error fault, filled) => (.error fault, filled) := by
  cases request with
  | peek count =>
    simp only [step, Lookahead.peek, perform_bind, reach]
    rcases perform (ensure count) reader with ⟨_ | _, filled⟩ <;> rfl
  | peekChar index =>
    simp only [step, Lookahead.peekChar, perform_bind, reach]
    rcases perform (ensure ((index + 1) % wordCount)) reader with ⟨_ | _, filled⟩ <;> rfl
  | skip count =>
    simp only [step, Lookahead.skip, perform_bind, reach]
    rcases perform (ensure count) reader with ⟨_ | _, filled⟩ <;> rfl

/-! ## Turns -/

/-- A request and the reader it is asked of. -/
structure Turn where
  before : Lookahead
  request : Request

namespace Turn

/-- The answer, or the fault that was met. -/
def outcome (turn : Turn) : Except StreamFault Answer :=
  (perform turn.request.step turn.before).1

/-- The reader afterwards. -/
def after (turn : Turn) : Lookahead :=
  (perform turn.request.step turn.before).2

/-- The fault that was met. -/
def fault? (turn : Turn) : Option StreamFault :=
  match turn.outcome with
  | .ok _ => none
  | .error fault => some fault

/-- The characters that a skip took away: those that a look at as many shows. -/
def removed (turn : Turn) : Text :=
  match turn.request, turn.outcome, outcome ⟨turn.before, .peek turn.request.reach⟩ with
  | .skip _, .ok _, .ok (.text text) => text
  | _, _, _ => []

theorem of_filled {turn : Turn} {filled : Lookahead}
    (h : perform (ensure turn.request.reach) turn.before = (.ok (), filled)) :
    turn.outcome = .ok (turn.request.answer filled.buffer) ∧
      turn.after = ⟨turn.request.rest filled.buffer, filled.source⟩ ∧
      turn.removed = turn.request.taken filled.buffer := by
  rcases turn with ⟨reader, request⟩
  have hstep := perform_step request reader
  simp only [h] at hstep
  refine ⟨congrArg Prod.fst hstep, congrArg Prod.snd hstep, ?_⟩
  have hlook := perform_step (.peek request.reach) reader
  simp only [show (Request.peek request.reach).reach = request.reach from rfl, h] at hlook
  simp only [removed, outcome, hstep, hlook]
  cases request <;> rfl

theorem of_failed {turn : Turn} {filled : Lookahead} {fault : StreamFault}
    (h : perform (ensure turn.request.reach) turn.before = (.error fault, filled)) :
    turn.outcome = .error fault ∧ turn.after = filled ∧ turn.removed = [] := by
  rcases turn with ⟨reader, request⟩
  have hstep := perform_step request reader
  simp only [h] at hstep
  refine ⟨congrArg Prod.fst hstep, congrArg Prod.snd hstep, ?_⟩
  simp only [removed, outcome, hstep]

/-- A turn reads ahead as far as its request reaches or until the source ends, and then answers; or
it meets the next fault, and keeps what it has read. -/
theorem cases (turn : Turn) :
    (∃ (read : Text) (source : Source),
      turn.before.source.items = read.map .ok ++ source.items ∧
      (turn.request.reach ≤ (turn.before.buffer ++ read).length ∨ source.items = []) ∧
      turn.outcome = .ok (turn.request.answer (turn.before.buffer ++ read)) ∧
      turn.after = ⟨turn.request.rest (turn.before.buffer ++ read), source⟩ ∧
      turn.removed = turn.request.taken (turn.before.buffer ++ read)) ∨
    ∃ (read : Text) (source : Source) (fault : StreamFault),
      turn.before.source.items = read.map .ok ++ .error fault :: source.items ∧
      turn.outcome = .error fault ∧ turn.after = ⟨turn.before.buffer ++ read, source⟩ ∧
      turn.removed = [] := by
  have hfeeds := feeds (turn.request.reach - turn.before.buffer.length) turn.before
  rw [← perform_ensure] at hfeeds
  generalize hensure : perform (ensure turn.request.reach) turn.before = result at hfeeds
  cases hfeeds with
  | @filled read source hitems hreach =>
    refine .inl ⟨read, source, hitems, hreach.imp_left ?_, of_filled hensure⟩
    intro hlength
    rw [List.length_append]
    omega
  | @failed read source fault hitems =>
    exact .inr ⟨read, source, fault, hitems, of_failed hensure⟩

end Turn

/-- The characters that are still to come: those in the buffer and those of the source. -/
def pending (reader : Lookahead) : Text :=
  reader.buffer ++ chars reader.source.items

/-- No faults are ahead of the reader, and this text is to come. -/
structure Holds (reader : Lookahead) (text : Text) : Prop where
  faults_eq : faults reader.source.items = []
  pending_eq : reader.pending = text

/-- The answer covers less than was asked for. -/
def Answer.FallsShort : Request → Answer → Prop
  | .peek wanted, .text shown => shown.length < wanted
  | .peekChar _, .char shown => shown = none
  | .skip wanted, .count available => available < wanted
  | _, _ => False

/-- No answer about as many characters as were asked for falls short. -/
theorem Request.not_fallsShort {request : Request} {text : Text} (hcounts : request.Counts)
    (h : request.reach ≤ text.length) : ¬ Answer.FallsShort request (request.answer text) := by
  intro hshort
  cases request with
  | peek count =>
    have hcount : count ≤ text.length := h
    have hlt : (text.take count).length < count := hshort
    rw [List.length_take] at hlt
    omega
  | peekChar index =>
    have hindex : index < text.length := lt_of_reach_le hcounts h
    have hnone : text[index.val]? = none := hshort
    rw [List.getElem?_eq_none_iff] at hnone
    omega
  | skip count =>
    have hcount : count ≤ text.length := h
    have hlt : min count text.length < count := hshort
    omega

namespace Turn

/-- What holds of every turn of every reader. -/
structure Sound (turn : Turn) : Prop where
  /-- The answer is about the characters to come. -/
  answered : turn.request.Counts → ∀ answer, turn.outcome = .ok answer →
    answer = turn.request.answer turn.before.pending
  /-- What is left of the characters to come is what the request leaves of them. -/
  left : ∀ answer, turn.outcome = .ok answer →
    turn.after.pending = turn.request.rest turn.before.pending
  /-- A skip counts the characters that it takes away. -/
  counted : ∀ count, turn.outcome = .ok (.count count) → count = turn.removed.length
  /-- A fault takes nothing away. -/
  kept : ∀ fault, turn.outcome = .error fault →
    turn.removed = [] ∧ turn.before.buffer <+: turn.after.buffer
  /-- An answer falls short only when no octet is left. -/
  ended : turn.request.Counts → ∀ answer, turn.outcome = .ok answer →
    Answer.FallsShort turn.request answer → turn.after.source.left = []

theorem sound (turn : Turn) : turn.Sound := by
  rcases turn.cases with ⟨read, source, hitems, hreach, houtcome, hafter, hremoved⟩ |
    ⟨read, source, fault, hitems, houtcome, hafter, hremoved⟩
  · have hpending : turn.before.pending = turn.before.buffer ++ read ++ chars source.items := by
      rw [pending, hitems, chars_append, chars_map_ok, List.append_assoc]
    constructor
    case answered =>
      intro hcounts answer hanswer
      rw [houtcome] at hanswer
      cases hanswer
      rw [hpending]
      rcases hreach with hreach | hend
      · exact (answer_append hcounts hreach _).symm
      · rw [hend, chars_nil, List.append_nil]
    case left =>
      intro answer _
      rw [hpending, hafter, pending]
      rcases hreach with hreach | hend
      · exact (rest_append hreach _).symm
      · rw [hend, chars_nil, List.append_nil, List.append_nil]
    case counted =>
      intro count hcount
      rw [houtcome, Except.ok.injEq] at hcount
      rw [hremoved]
      cases hrequest : turn.request with
      | peek wanted =>
        rw [hrequest] at hcount
        cases hcount
      | peekChar index =>
        rw [hrequest] at hcount
        cases hcount
      | skip wanted =>
        rw [hrequest] at hcount
        cases hcount
        exact List.length_take.symm
    case kept =>
      intro fault hfault
      rw [houtcome] at hfault
      cases hfault
    case ended =>
      intro hcounts answer hanswer hshort
      rw [houtcome] at hanswer
      cases hanswer
      rcases hreach with hreach | hend
      · exact absurd hshort (not_fallsShort hcounts hreach)
      · rw [hafter, ← flatMap_items, hend, List.flatMap_nil]
  · have hnoAnswer : ∀ answer, turn.outcome ≠ .ok answer := by
      intro answer hanswer
      rw [houtcome] at hanswer
      cases hanswer
    constructor
    case answered => exact fun _ answer hanswer => absurd hanswer (hnoAnswer answer)
    case left => exact fun answer hanswer => absurd hanswer (hnoAnswer answer)
    case counted => exact fun count hcount => absurd hcount (hnoAnswer _)
    case kept =>
      intro fault' hfault
      refine ⟨hremoved, ?_⟩
      rw [hafter]
      exact List.prefix_append turn.before.buffer read
    case ended => exact fun _ answer hanswer => absurd hanswer (hnoAnswer answer)

/-- What a turn reads is what it takes away, what it leaves in the buffer and the fault it ends
with. -/
theorem exists_read (turn : Turn) :
    ∃ read, turn.before.source.items = read ++ turn.after.source.items ∧
      turn.before.buffer ++ chars read = turn.removed ++ turn.after.buffer ∧
      faults read = turn.fault?.toList := by
  rcases turn.cases with ⟨read, source, hitems, -, houtcome, hafter, hremoved⟩ |
    ⟨read, source, fault, hitems, houtcome, hafter, hremoved⟩
  · refine ⟨read.map .ok, ?_, ?_, ?_⟩
    · rw [hafter, hitems]
    · rw [chars_map_ok, hafter, hremoved, taken_append_rest]
    · rw [faults_map_ok, fault?, houtcome]
      rfl
  · refine ⟨read.map .ok ++ [.error fault], ?_, ?_, ?_⟩
    · rw [hafter, hitems, List.append_assoc, List.singleton_append]
    · rw [chars_append, chars_map_ok, chars_error_cons, chars_nil, List.append_nil, hafter, hremoved,
        List.nil_append]
    · rw [faults_append, faults_map_ok, fault?, houtcome]
      rfl

/-- Where a text is to come, a turn answers about it, and what the request leaves of it is to come
afterwards. -/
theorem of_holds {turn : Turn} {text : Text} (h : turn.before.Holds text)
    (hcounts : turn.request.Counts) :
    turn.outcome = .ok (turn.request.answer text) ∧ turn.after.Holds (turn.request.rest text) := by
  rcases turn.exists_read with ⟨read, hitems, -, hfaults⟩
  have hnone := h.faults_eq
  rw [hitems, faults_append, List.append_eq_nil_iff] at hnone
  have hmet : turn.fault? = none := by
    rw [← Option.toList_eq_nil_iff, ← hfaults, hnone.1]
  cases houtcome : turn.outcome with
  | error fault =>
    rw [fault?, houtcome] at hmet
    cases hmet
  | ok answer =>
    rw [turn.sound.answered hcounts answer houtcome, h.pending_eq]
    refine ⟨rfl, hnone.2, ?_⟩
    rw [turn.sound.left answer houtcome, h.pending_eq]

end Turn

/-! ## Runs -/

/-- The turns of one request after the other. -/
def turns (reader : Lookahead) : List Request → List Turn
  | [] => []
  | request :: more =>
    let turn : Turn := ⟨reader, request⟩
    turn :: turns turn.after more

/-- The reader after one request after the other. -/
def afterAll (reader : Lookahead) : List Request → Lookahead
  | [] => reader
  | request :: more => afterAll (Turn.after ⟨reader, request⟩) more

/-- What is read in a run is what its turns take away, what is left in the buffer and the faults they
end with. -/
theorem exists_read_run (requests : List Request) (reader : Lookahead) :
    ∃ read, reader.source.items = read ++ (reader.afterAll requests).source.items ∧
      reader.buffer ++ chars read =
        (reader.turns requests).flatMap Turn.removed ++ (reader.afterAll requests).buffer ∧
      faults read = (reader.turns requests).filterMap Turn.fault? := by
  induction requests generalizing reader with
  | nil => exact ⟨[], rfl, List.append_nil _, rfl⟩
  | cons request more ih =>
    rcases Turn.exists_read ⟨reader, request⟩ with ⟨first, hitems, hchars, hfaults⟩
    rcases ih (Turn.after ⟨reader, request⟩) with ⟨later, hitems', hchars', hfaults'⟩
    refine ⟨first ++ later, ?_, ?_, ?_⟩
    · rw [afterAll, List.append_assoc, ← hitems']
      exact hitems
    · rw [afterAll, turns, chars_append, ← List.append_assoc, hchars, List.append_assoc, hchars',
        List.flatMap_cons, List.append_assoc]
    · rw [turns, faults_append, hfaults, hfaults', List.filterMap_cons]
      cases Turn.fault? ⟨reader, request⟩ <;> rfl

/-- Where a text is to come, all answers are those about it. -/
theorem outcomes_of_holds {requests : List Request} {reader : Lookahead} {text : Text}
    (h : reader.Holds text) (hcounts : ∀ request ∈ requests, request.Counts) :
    (reader.turns requests).map Turn.outcome = (answers text requests).map .ok := by
  induction requests generalizing reader text with
  | nil => rfl
  | cons request more ih =>
    rw [List.forall_mem_cons] at hcounts
    have hturn : (⟨reader, request⟩ : Turn).before.Holds text := h
    rcases Turn.of_holds hturn hcounts.1 with ⟨houtcome, hrest⟩
    rw [turns, answers, List.map_cons, List.map_cons, houtcome, ih hrest hcounts.2]

/-- A reader at the start of the octets of a text has that text to come. -/
theorem holds_ofOctets (text : Text) : (ofOctets text.utf8).Holds text := by
  have hsource : (ofOctets text.utf8).source.items = text.map .ok := items_utf8 text
  constructor
  case faults_eq => rw [hsource, faults_map_ok]
  case pending_eq =>
    rw [pending, hsource, chars_map_ok]
    rfl

/-- Looks at single characters of one, two and three octets, between a skip and looks behind the end
of the text. -/
def glances : List Request :=
  [.peekChar ⟨2, by decide⟩, .peek 9, .skip 1, .peekChar ⟨0, by decide⟩, .peekChar ⟨2, by decide⟩]

/-- A look at three characters meets an octet of no character. The next one goes on behind it. -/
example : ((ofOctets [0x61, 0xff, 0x62, 0x63, 0x64]).turns
    [.peek 3, .skip 1, .peek 3]).map Turn.outcome =
      [.error (.badOctets [0xff]), .ok (.count 1), .ok (.text ['b', 'c', 'd'])] := by
  decide

end Lookahead

end ListingFilter
