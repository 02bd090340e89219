import ListingFilter.Chain
import ListingFilter.Condition.Basic

/-!
# Tree — conditions joined in groups

A tree is a condition or a group of trees. Each member of a group carries the connective that joins
it to the member before it; only the first member needs none. The type admits any connective at any
member; reading a filter yields only groups of two or more members with the connectives in their
places.
-/

namespace ListingFilter

/-- Conditions joined in groups. -/
inductive Tree where
  | leaf (condition : Condition)
  | group (members : List (Option Connective × Tree))

/-- A member of a group: the connective before it and the tree. -/
abbrev Member := Option Connective × Tree

namespace Tree

/-! ## Equality and induction -/

mutual

/-- Equality of trees is decided leaf by leaf. -/
def decEq : (a b : Tree) → Decidable (a = b)
  | .leaf a, .leaf b =>
    if same : a = b then isTrue (same ▸ rfl) else isFalse fun equal => same (Tree.leaf.inj equal)
  | .group as, .group bs =>
    match decEqMembers as bs with
    | isTrue same => isTrue (same ▸ rfl)
    | isFalse other => isFalse fun equal => other (Tree.group.inj equal)
  | .leaf _, .group _ => isFalse nofun
  | .group _, .leaf _ => isFalse nofun

/-- Equality of the members of a group is decided in order. -/
def decEqMembers : (as bs : List Member) → Decidable (as = bs)
  | [], [] => isTrue rfl
  | [], _ :: _ => isFalse nofun
  | _ :: _, [] => isFalse nofun
  | (k, a) :: as, (l, b) :: bs =>
    if joint : k = l then
      match decEq a b, decEqMembers as bs with
      | isTrue first, isTrue rest => isTrue (by rw [joint, first, rest])
      | isFalse first, _ => isFalse fun equal => first (Prod.mk.inj (List.cons.inj equal).1).2
      | _, isFalse rest => isFalse fun equal => rest (List.cons.inj equal).2
    else isFalse fun equal => joint (Prod.mk.inj (List.cons.inj equal).1).1

end

instance : DecidableEq Tree := decEq

/-- What holds of every leaf, and of a group whenever it holds of all its members, holds of every
tree. -/
theorem induction {P : Tree → Prop} (leaf : ∀ condition, P (.leaf condition))
    (group : ∀ members : List Member, (∀ member ∈ members, P member.2) → P (.group members))
    (tree : Tree) : P tree :=
  @Tree.rec P (fun members => ∀ member ∈ members, P member.2) (fun member => P member.2) leaf group
    (by simp) (fun _ _ first rest => List.forall_mem_cons.2 ⟨first, rest⟩)
    (fun _ _ second => second) tree

/-! ## Size and content -/

mutual

/-- The number of conditions. -/
def leafCount : Tree → Nat
  | .leaf _ => 1
  | .group members => leafCounts members

/-- The number of conditions of all members. -/
def leafCounts : List Member → Nat
  | [] => 0
  | (_, tree) :: rest => tree.leafCount + leafCounts rest

end

mutual

/-- The nesting of groups; a condition alone has none. -/
def depth : Tree → Nat
  | .leaf _ => 0
  | .group members => 1 + maxDepth members

/-- The deepest nesting among the members. -/
def maxDepth : List Member → Nat
  | [] => 0
  | (_, tree) :: rest => max tree.depth (maxDepth rest)

end

mutual

/-- The conditions from left to right. -/
def conditions : Tree → List Condition
  | .leaf condition => [condition]
  | .group members => allConditions members

/-- The conditions of all members from left to right. -/
def allConditions : List Member → List Condition
  | [] => []
  | (_, tree) :: rest => tree.conditions ++ allConditions rest

end

mutual

/-- Every condition counts once. -/
theorem length_conditions : ∀ tree : Tree, tree.conditions.length = tree.leafCount
  | .leaf _ => rfl
  | .group members => length_allConditions members

theorem length_allConditions :
    ∀ members : List Member, (allConditions members).length = leafCounts members
  | [] => rfl
  | (_, tree) :: rest => by
    rw [allConditions, List.length_append, leafCounts, length_conditions tree,
      length_allConditions rest]

end

/-! ## The written form -/

/-- The text of a tree that stands as a member of a group: groups are put in parentheses. -/
def parenthesized (tree : Tree) (written : Text) : Text :=
  match tree with
  | .leaf _ => written
  | .group _ => '(' :: written ++ [')']

/-- What joins a member to the one before it. -/
def joint : Option Connective → Text
  | none => []
  | some connective => ' ' :: connective.keyword ++ [' ']

mutual

/-- The written form. -/
def written : Tree → Text
  | .leaf condition => condition.written
  | .group members => writtenMembers members

/-- The written forms of the members with what joins them. -/
def writtenMembers : List Member → Text
  | [] => []
  | (connective, tree) :: rest =>
    joint connective ++ tree.parenthesized tree.written ++ writtenMembers rest

end

/-! ## Sameness and chains -/

mutual

/-- Equality, with numbers compared numerically. -/
def same : Tree → Tree → Bool
  | .leaf a, .leaf b => a.same b
  | .group as, .group bs => sameMembers as bs
  | _, _ => false

/-- Equality of members in order. -/
def sameMembers : List Member → List Member → Bool
  | [], [] => true
  | (k, a) :: as, (l, b) :: bs => k == l && a.same b && sameMembers as bs
  | _, _ => false

end

/-- The tree that a chain of trees stands for: a single one itself, several as a group. -/
def ofChain (chain : Chain Tree) : Tree :=
  match chain.rest with
  | [] => chain.first
  | rest =>
    .group ((none, chain.first) :: rest.map fun (connective, tree) => (some connective, tree))

end Tree

end ListingFilter
