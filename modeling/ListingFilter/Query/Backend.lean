import ListingFilter.Query.Probe

/-!
# Backend — turning a tree into a query

A backend makes queries from probes and joins them; it may keep a state and may fail. A tree is
walked in post-order: a member's query is made before that of the next member, and a group's
queries are joined once all of them are made. A group brings no precedence of its own: its members
are joined as one chain, in which a missing connective counts as `AND`.
-/

namespace ListingFilter

/-- A step of a backend. The state of a failed step is kept. -/
abbrev BackendM (σ : Type) := ExceptT QueryFault (StateM σ)

/-- The storage side of a filter, with states `σ` and queries `α`. -/
structure Backend (σ α : Type) where
  /-- Makes the query of one test. -/
  probe : Probe → BackendM σ α
  /-- Joins the queries of a group. -/
  combine : Chain α → BackendM σ α

namespace Tree

variable {σ α : Type}

/-- Joins the queries of the members of a group. The connective before the first member does not
count. -/
def combineMembers (backend : Backend σ α) : List (Connective × α) → BackendM σ α
  | [] => throw .emptyGroup
  | (_, first) :: rest => backend.combine ⟨first, rest⟩

mutual

/-- The query of a tree. -/
def query (backend : Backend σ α) : Tree → BackendM σ α
  | .leaf condition => do backend.probe (← liftM (Probe.of condition))
  | .group members => do combineMembers backend (← queries backend members)

/-- The queries of the members of a group, each with its connective. -/
def queries (backend : Backend σ α) : List Member → BackendM σ (List (Connective × α))
  | [] => return []
  | (connective, tree) :: rest => do
    let first ← query backend tree
    return (connective.getD .and, first) :: (← queries backend rest)

end

end Tree

end ListingFilter
