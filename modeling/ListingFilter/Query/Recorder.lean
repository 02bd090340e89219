import ListingFilter.Query.Backend

/-!
# Recorder — the calls that a tree makes

A backend that never fails, keeps the calls made so far and answers each with its number, counted
from zero.
-/

namespace ListingFilter

/-- A call to a backend whose queries are numbers. -/
inductive Call where
  | probe (probe : Probe)
  | combine (chain : Chain Nat)
deriving DecidableEq, Repr

/-- Writes down the call and answers with its number. -/
def Call.record (call : Call) : BackendM (List Call) Nat := do
  let calls ← get
  set (calls ++ [call])
  return calls.length

/-- The backend that writes down its calls. -/
def recorder : Backend (List Call) Nat where
  probe probe := Call.record (.probe probe)
  combine chain := Call.record (.combine chain)

/-- The number of the last call that a tree makes, or why it cannot be turned into a query, and the
calls made until then. -/
def Tree.record (tree : Tree) : Except QueryFault Nat × List Call :=
  ((tree.query recorder).run.run [] : Id _)

end ListingFilter
