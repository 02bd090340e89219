import ListingFilter.Proofs.Grammar

/-!
# Shape — the trees that filters stand for

Every group of a tree that was read has at least two members. The first of them has no connective
before it, and every other has one. Every condition was read from an atom of the filter
(`Derives.shaped`). The tree is made of the trees of the terms that the filter is cut into
(`derives_iff_exists_chains`).
-/

namespace ListingFilter

/-- The members of a group are joined as in a filter: they are at least two, the first has no
connective before it, and every other has one. -/
structure Joined (members : List Member) : Prop where
  two_le : 2 ≤ members.length
  first : ∀ member, members.head? = some member → member.1 = none
  others : ∀ member ∈ members.tail, member.1 ≠ none

/-- The members of every group are joined as in a filter, and `P` holds of every condition. -/
inductive Tree.Shaped (P : Condition → Prop) : Tree → Prop where
  | leaf {condition : Condition} : P condition → Shaped P (.leaf condition)
  | group {members : List Member} :
      Joined members → (∀ member ∈ members, Shaped P member.2) → Shaped P (.group members)

/-! ## The conditions of a tree -/

namespace Tree

theorem mem_allConditions {members : List Member} {condition : Condition} :
    condition ∈ allConditions members ↔ ∃ member ∈ members, condition ∈ member.2.conditions := by
  induction members with
  | nil => simp [allConditions]
  | cons member members ih =>
    rcases member with ⟨joint, tree⟩
    rw [allConditions, List.mem_append, ih]
    have hcons := List.exists_mem_cons_iff (fun member : Member => condition ∈ member.2.conditions)
      (joint, tree) members
    exact hcons.symm

theorem allConditions_members (joint : Option Connective) (trees : Chain Tree) :
    allConditions (trees.members joint) = trees.items.flatMap conditions := by
  have hflat : ∀ members : List Member,
      allConditions members = (members.map Prod.snd).flatMap conditions := by
    intro members
    induction members with
    | nil => rfl
    | cons member members ih => rw [allConditions, ih, List.map_cons, List.flatMap_cons]
  rw [hflat, Chain.map_snd_members]

/-- The conditions of a tree may be looked at one by one. -/
theorem Shaped.imp {P Q : Condition → Prop} {tree : Tree} (h : tree.Shaped P)
    (hPQ : ∀ condition ∈ tree.conditions, P condition → Q condition) : tree.Shaped Q := by
  induction h with
  | leaf hcondition => exact .leaf (hPQ _ (by simp [conditions]) hcondition)
  | group hjoined _ ih =>
    refine .group hjoined ?_
    intro member hmember
    apply ih member hmember
    intro condition hcondition
    exact hPQ condition (mem_allConditions.2 ⟨member, hmember, hcondition⟩)

theorem Shaped.of_mem_conditions {P : Condition → Prop} {tree : Tree} (h : tree.Shaped P) :
    ∀ condition ∈ tree.conditions, P condition := by
  induction h with
  | leaf hcondition =>
    intro condition hmem
    rwa [List.mem_singleton.1 hmem]
  | group _ _ ih =>
    intro condition hmem
    rcases mem_allConditions.1 hmem with ⟨member, hmember, hcondition⟩
    exact ih member hmember condition hcondition

end Tree

/-! ## Joined members are chains -/

theorem Chain.joined_members {chain : Chain Tree} (h : chain.rest ≠ []) :
    Joined (chain.members none) := by
  rcases chain with ⟨first, rest⟩
  refine ⟨?_, ?_, ?_⟩
  · have hpos : 0 < rest.length := List.length_pos_iff.2 h
    simp only [members, List.length_cons, List.length_map]
    omega
  · intro member hmember
    obtain rfl : (none, first) = member := by simpa [members] using hmember
    rfl
  · intro member hmember
    rcases List.mem_map.1 hmember with ⟨link, -, rfl⟩
    simp

theorem Joined.exists_chain {members : List Member} (h : Joined members) :
    ∃ chain : Chain Tree, chain.rest ≠ [] ∧ members = chain.members none := by
  rcases h with ⟨htwo, hfirst, hothers⟩
  rcases members with _ | ⟨⟨joint, tree⟩, members⟩
  · simp at htwo
  · obtain rfl : joint = none := hfirst _ rfl
    -- every other member has a connective that can be taken out
    have hlinks : ∀ others : List Member, (∀ member ∈ others, member.1 ≠ none) →
        ∃ links : List (Connective × Tree),
          others = links.map fun link => (some link.1, link.2) := by
      intro others h
      induction others with
      | nil => exact ⟨[], rfl⟩
      | cons member others ih =>
        rcases ih fun member hmember => h member (List.mem_cons_of_mem _ hmember) with ⟨links, rfl⟩
        rcases member with ⟨joint, tree⟩
        rcases Option.ne_none_iff_exists'.1 (h _ List.mem_cons_self) with ⟨connective, hjoint⟩
        obtain rfl : joint = some connective := hjoint
        exact ⟨(connective, tree) :: links, rfl⟩
    rcases hlinks members hothers with ⟨links, rfl⟩
    refine ⟨⟨tree, links⟩, ?_, rfl⟩
    rintro rfl
    simp at htwo

/-! ## What filters derive -/

namespace Grammar

theorem Terms.exists_chain {spelling : Spelling} {Term : Text → Tree → Prop}
    {joint : Option Connective} {text : Text} {members : List Member}
    (h : Terms spelling Term joint text members) :
    ∃ trees : Chain Tree, members = trees.members joint := by
  induction h with
  | @last joint before term after tree _ _ _ => exact ⟨⟨tree, []⟩, rfl⟩
  | @more joint before term after word rest tree connective members _ _ _ _ _ _ _ ih =>
    rcases ih with ⟨trees, rfl⟩
    exact ⟨trees.link tree connective, rfl⟩

theorem Terms.exists_term {spelling : Spelling} {Term : Text → Tree → Prop}
    {joint : Option Connective} {text : Text} {members : List Member}
    (h : Terms spelling Term joint text members) :
    ∀ member ∈ members, ∃ term, Term term member.2 := by
  induction h with
  | last _ hterm _ =>
    intro member hmember
    rcases List.mem_singleton.1 hmember with rfl
    exact ⟨_, hterm⟩
  | more _ hterm _ _ _ _ _ ih =>
    intro member hmember
    rcases List.mem_cons.1 hmember with rfl | hrest
    · exact ⟨_, hterm⟩
    · exact ih member hrest

/-- A filter derives a tree exactly if it is made up of terms, and they derive the trees that the tree
is made of. -/
theorem derives_iff_exists_chains {spelling : Spelling} {text : Text} {tree : Tree} :
    Derives spelling text tree ↔ ∃ (terms : Chain Text) (trees : Chain Tree),
      text.Segmented spelling terms ∧ terms.connectives = trees.connectives ∧
        List.Forall₂ (Term spelling) terms.items trees.items ∧ Tree.ofChain trees = tree := by
  constructor
  · intro h
    rcases h with ⟨members, hterms, rfl⟩
    rcases hterms.exists_chain with ⟨trees, rfl⟩
    rcases (terms_iff fun _ _ => Term.isSegment).1 hterms with ⟨terms, hterms, hpaired⟩
    rcases Chain.forall₂_members_iff.1 hpaired with ⟨-, hconnectives, hitems⟩
    exact ⟨terms, trees, hterms, hconnectives, hitems, ofChain_eq_treeOf trees⟩
  · intro h
    rcases h with ⟨terms, trees, hterms, hconnectives, hitems, rfl⟩
    have hpaired : List.Forall₂ (Paired (Term spelling)) (terms.members none) (trees.members none) :=
      Chain.forall₂_members_iff.2 ⟨rfl, hconnectives, hitems⟩
    exact ⟨trees.members none, (terms_iff fun _ _ => Term.isSegment).2 ⟨terms, hterms, hpaired⟩,
      (ofChain_eq_treeOf trees).symm⟩

/-- The tree of an expression is shaped if those of its terms are. -/
theorem Terms.shaped {spelling : Spelling} {Term : Text → Tree → Prop} {P : Condition → Prop}
    {text : Text} {members : List Member} (h : Terms spelling Term none text members)
    (hTerm : ∀ term tree, Term term tree → tree.Shaped P) : (treeOf members).Shaped P := by
  have hmembers : ∀ member ∈ members, member.2.Shaped P := by
    intro member hmember
    rcases h.exists_term member hmember with ⟨term, hterm⟩
    exact hTerm term member.2 hterm
  rcases h.exists_chain with ⟨⟨first, rest⟩, rfl⟩
  cases rest with
  | nil => exact hmembers _ List.mem_cons_self
  | cons link rest => exact .group (Chain.joined_members (by simp)) hmembers

/-- The condition was read from an atom. -/
def Atomic (spelling : Spelling) (condition : Condition) : Prop :=
  ∃ text : Text, text.IsAtom spelling ∧ Condition.read text = .ok condition

theorem Term.shaped {spelling : Spelling} {term : Text} {tree : Tree} (h : Term spelling term tree) :
    tree.Shaped (Atomic spelling) := by
  refine Term.induction (P := fun _ tree => tree.Shaped (Atomic spelling)) ?_ ?_ h
  · intro text condition hatom hread
    exact .leaf ⟨text, hatom, hread⟩
  · intro inner members hterms
    exact hterms.shaped fun _ _ hterm => hterm.2

/-- What a filter derives is joined as in a filter, and all its conditions were read. -/
theorem Derives.shaped {spelling : Spelling} {text : Text} {tree : Tree}
    (h : Derives spelling text tree) : tree.Shaped (Atomic spelling) := by
  rcases h with ⟨members, hterms, rfl⟩
  exact hterms.shaped fun _ _ => Term.shaped

end Grammar

end ListingFilter
