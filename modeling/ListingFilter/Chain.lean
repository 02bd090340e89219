import ListingFilter.Connective

/-!
# Chain — items joined by connectives

A chain holds at least one item, and one connective between each item and the next: `a AND b OR c`
is `a` followed by `(AND, b)` and `(OR, c)`. A filter text is cut into a chain of texts, and the
members of a group are joined as a chain of queries.
-/

namespace ListingFilter

/-- A first item and, behind their connectives, the others. -/
structure Chain (α : Type) where
  first : α
  rest : List (Connective × α) := []
deriving DecidableEq, Repr

namespace Chain

variable {α β ε : Type}

/-- The items in order. -/
def items (chain : Chain α) : List α :=
  chain.first :: chain.rest.map Prod.snd

/-- The connectives in order. -/
def connectives (chain : Chain α) : List Connective :=
  chain.rest.map Prod.fst

@[simp] theorem items_ne_nil (chain : Chain α) : chain.items ≠ [] := by
  simp [items]

/-- There is one connective less than there are items. -/
theorem length_items (chain : Chain α) : chain.items.length = chain.connectives.length + 1 := by
  simp [items, connectives]

/-- Items and connectives taken together. -/
def size (chain : Chain α) : Nat :=
  1 + 2 * chain.rest.length

/-- The same chain over the images of its items. -/
def map (f : α → β) (chain : Chain α) : Chain β :=
  ⟨f chain.first, chain.rest.map fun (connective, item) => (connective, f item)⟩

@[simp] theorem items_map (f : α → β) (chain : Chain α) :
    (chain.map f).items = chain.items.map f := by
  simp [items, map, Function.comp_def]

@[simp] theorem connectives_map (f : α → β) (chain : Chain α) :
    (chain.map f).connectives = chain.connectives := by
  simp [connectives, map, Function.comp_def]

/-- The chain with another item and a connective in front. -/
def link (item : α) (connective : Connective) (chain : Chain α) : Chain α :=
  ⟨item, (connective, chain.first) :: chain.rest⟩

@[simp] theorem items_link (item : α) (connective : Connective) (chain : Chain α) :
    (chain.link item connective).items = item :: chain.items := rfl

@[simp] theorem map_link (f : α → β) (item : α) (connective : Connective) (chain : Chain α) :
    (chain.link item connective).map f = (chain.map f).link (f item) connective := rfl

/-- Applies a step that may fail to every item from left to right; the first failure is the
answer. -/
def traverse (f : α → Except ε β) (chain : Chain α) : Except ε (Chain β) := do
  let first ← f chain.first
  let rest ← chain.rest.mapM fun (connective, item) => do
    return (connective, ← f item)
  return ⟨first, rest⟩

/-- The items before the last one. -/
def closed (chain : Chain α) : List α :=
  chain.items.dropLast

/-- The last item. -/
def last (chain : Chain α) : α :=
  chain.items.getLast chain.items_ne_nil

/-- The items are those before the last one and the last one. -/
theorem closed_append_last (chain : Chain α) : chain.closed ++ [chain.last] = chain.items :=
  List.dropLast_concat_getLast chain.items_ne_nil

end Chain

end ListingFilter
