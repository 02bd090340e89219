import ListingFilter.Proofs.Outcomes
import ListingFilter.Proofs.Splitting
import ListingFilter.Tree.Basic

/-!
# Members — chains item by item

The items of a chain, each with the connective before it, are what the members of a group are made
of. A step over the items of a chain goes well exactly if it gives, behind each connective, what the
step gives of the item there (`exists_traverse_iff`, `Chain.traverse_eq_ok_iff`). Otherwise it fails
with the fault of the leftmost item that has one (`Chain.traverse_eq_error_iff`).
-/

namespace ListingFilter

/-- Both stand behind the same connective, and `P` relates them. -/
def Paired {α β : Type} (P : α → β → Prop) (a : Option Connective × α)
    (b : Option Connective × β) : Prop :=
  a.1 = b.1 ∧ P a.2 b.2

namespace Chain

variable {α β ε : Type}

/-- The items of a chain, each behind the connective before it, the first one behind `joint`. -/
def members (joint : Option Connective) (chain : Chain α) : List (Option Connective × α) :=
  (joint, chain.first) :: chain.rest.map fun (connective, item) => (some connective, item)

theorem members_map (f : α → β) (joint : Option Connective) (chain : Chain α) :
    (chain.map f).members joint = (chain.members joint).map fun a => (a.1, f a.2) := by
  simp [members, map, Function.comp_def]

theorem length_members (joint : Option Connective) (chain : Chain α) :
    (chain.members joint).length = chain.rest.length + 1 := by
  simp [members]

theorem map_snd_members (joint : Option Connective) (chain : Chain α) :
    (chain.members joint).map Prod.snd = chain.items := by
  simp [members, items, Function.comp_def]

theorem forall_members_iff {chain : Chain α} (joint : Option Connective) {p : α → Prop} :
    (∀ member ∈ chain.members joint, p member.2) ↔ ∀ item ∈ chain.items, p item := by
  rw [← chain.map_snd_members joint, List.forall_mem_map]

/-- A step over the items of a chain is a step over its members. -/
theorem members_traverse (f : α → Except ε β) (joint : Option Connective) (chain : Chain α) :
    (chain.traverse f).map (members joint) =
      (chain.members joint).mapM fun a => (f a.2).map (a.1, ·) := by
  have hlinks : ∀ links : List (Connective × α),
      Except.map (List.map fun (k, item) => (some k, item))
          (links.mapM fun (k, item) => do return (k, ← f item) : Except ε (List (Connective × β))) =
        (links.map fun (k, item) => (some k, item)).mapM fun a => (f a.2).map (a.1, ·) := by
    intro links
    induction links with
    | nil => rfl
    | cons link links ih =>
      rcases link with ⟨k, item⟩
      rw [List.mapM_cons, List.map_cons, List.mapM_cons, ← ih]
      cases hitem : f item with
      | error fault => simp [hitem, bind, Except.bind, Except.map]
      | ok b =>
        cases (links.mapM fun (k, item) => do return (k, ← f item) :
          Except ε (List (Connective × β))) <;>
          simp [hitem, bind, Except.bind, Except.map, pure, Except.pure]
  rcases chain with ⟨first, rest⟩
  rw [members, List.mapM_cons, ← hlinks, traverse]
  cases hfirst : f first with
  | error fault => simp [bind, Except.bind, Except.map]
  | ok b =>
    cases (rest.mapM fun (k, item) => do return (k, ← f item) :
      Except ε (List (Connective × β))) <;>
      simp [bind, Except.bind, Except.map, pure, Except.pure, members]

/-- A step that either goes well or fails with one and the same fault does so over a chain. -/
theorem traverse_eq_ite {f : α → Except ε β} {g : α → β} {p : α → Prop} [DecidablePred p]
    {fault : ε} {chain : Chain α}
    (h : ∀ item ∈ chain.items, f item = if p item then .ok (g item) else .error fault) :
    chain.traverse f =
      if ∀ item ∈ chain.items, p item then .ok (chain.map g) else .error fault := by
  rcases chain with ⟨first, rest⟩
  have hrest : ∀ link ∈ rest, (do return (link.1, ← f link.2) : Except ε (Connective × β)) =
      if p link.2 then .ok (link.1, g link.2) else .error fault := by
    intro link hlink
    rw [h link.2 (List.mem_cons_of_mem _ (List.mem_map_of_mem hlink))]
    split <;> rfl
  rw [traverse, h first List.mem_cons_self]
  simp only [mapM_eq_ite hrest]
  by_cases hfirst : p first
  · by_cases hothers : ∀ link ∈ rest, p link.2
    · have hall : ∀ item ∈ items ⟨first, rest⟩, p item := by
        simpa [items, hfirst] using fun item k hk => hothers (k, item) hk
      rw [if_pos hfirst, if_pos hothers, if_pos hall]
      rfl
    · have hnot : ¬ ∀ item ∈ items ⟨first, rest⟩, p item := by
        intro hall
        exact hothers fun link hlink => hall _ (List.mem_cons_of_mem _ (List.mem_map_of_mem hlink))
      rw [if_pos hfirst, if_neg hothers, if_neg hnot]
      rfl
  · have hnot : ¬ ∀ item ∈ items ⟨first, rest⟩, p item :=
      fun hall => hfirst (hall first List.mem_cons_self)
    rw [if_neg hfirst, if_neg hnot]
    rfl

/-- The items of the result are those of a step over the items. -/
theorem items_traverse (f : α → Except ε β) (chain : Chain α) :
    items <$> chain.traverse f = chain.items.mapM f := by
  have hlinks : ∀ links : List (Connective × α),
      List.map Prod.snd <$> (links.mapM fun (k, item) => do return (k, ← f item) :
        Except ε (List (Connective × β))) = (links.map Prod.snd).mapM f := by
    intro links
    induction links with
    | nil => rfl
    | cons link links ih =>
      rw [List.mapM_cons, List.map_cons, List.mapM_cons, ← ih]
      simp only [map_eq_pure_bind, bind_assoc, pure_bind, List.map_cons]
  rw [traverse, items, List.mapM_cons, ← hlinks]
  simp only [map_eq_pure_bind, bind_assoc, pure_bind, items]

/-- A step over a chain fails exactly with the fault of the leftmost item that has one. -/
theorem traverse_eq_error_iff {f : α → Except ε β} {chain : Chain α} {fault : ε} :
    chain.traverse f = .error fault ↔ ∃ before a after, chain.items = before ++ a :: after ∧
      (∀ b ∈ before, ∃ c, f b = .ok c) ∧ f a = .error fault := by
  rw [← mapM_eq_error_iff, ← items_traverse, map_eq_error_iff]

theorem traverse_congr {f g : α → Except ε β} {chain : Chain α}
    (h : ∀ item ∈ chain.items, f item = g item) : chain.traverse f = chain.traverse g := by
  have hrest : chain.rest.mapM (fun (k, item) => do return (k, ← f item) : _ → Except ε _) =
      chain.rest.mapM fun (k, item) => do return (k, ← g item) := by
    apply mapM_congr
    intro link hlink
    have hitem := h link.2 (List.mem_cons_of_mem _ (List.mem_map_of_mem hlink))
    show (do return (link.1, ← f link.2) : Except ε (Connective × β)) =
      do return (link.1, ← g link.2)
    rw [hitem]
  rw [traverse, traverse, h chain.first List.mem_cons_self, hrest]

theorem map_id (chain : Chain α) : chain.map id = chain := by
  rcases chain with ⟨first, rest⟩
  simp [map]

theorem traverse_map {γ : Type} (f : β → Except ε γ) (g : α → β) (chain : Chain α) :
    (chain.map g).traverse f = chain.traverse fun item => f (g item) := by
  rw [traverse, traverse, map]
  simp only [List.mapM_map]
  rfl

/-! ## Pairs of members -/

theorem members_injective (joint : Option Connective) :
    Function.Injective (members joint : Chain α → _) := by
  intro as bs h
  rcases as with ⟨first, rest⟩
  rcases bs with ⟨first', rest'⟩
  simp only [members, List.cons.injEq, Prod.mk.injEq, true_and] at h
  have hlink : Function.Injective fun (link : Connective × α) => (some link.1, link.2) := by
    intro a b hab
    simpa [Prod.ext_iff] using hab
  rw [h.1, List.map_injective_iff.2 hlink h.2]

/-- The members of two chains are paired if the connectives are the same and the items are paired. -/
theorem forall₂_members_iff {P : α → β → Prop} {joint joint' : Option Connective} {as : Chain α}
    {bs : Chain β} : List.Forall₂ (Paired P) (as.members joint) (bs.members joint') ↔
      joint = joint' ∧ as.connectives = bs.connectives ∧ List.Forall₂ P as.items bs.items := by
  rcases as with ⟨a, links⟩
  rcases bs with ⟨b, links'⟩
  have hlinks : List.Forall₂ (Paired P) (links.map fun (k, item) => (some k, item))
      (links'.map fun (k, item) => (some k, item)) ↔
        links.map Prod.fst = links'.map Prod.fst ∧
          List.Forall₂ P (links.map Prod.snd) (links'.map Prod.snd) := by
    induction links generalizing links' with
    | nil => cases links' <;> simp
    | cons link links ih =>
      cases links' with
      | nil => simp
      | cons link' links' =>
        simp only [List.map_cons, List.forall₂_cons, List.cons.injEq, ih, Paired,
          Option.some.injEq]
        exact and_and_and_comm
  rw [members, members, List.forall₂_cons, hlinks, connectives, connectives, items, items,
    List.forall₂_cons, Paired, and_assoc]
  exact and_congr_right fun _ => and_left_comm

end Chain

/-- A step over a chain goes well exactly if each member of the result is what the step gives of the
member at its place. -/
theorem exists_traverse_iff {α β ε : Type} {f : α → Except ε β} {joint : Option Connective}
    {chain : Chain α} {members : List (Option Connective × β)} :
    (∃ chain' : Chain β, chain.traverse f = .ok chain' ∧ chain'.members joint = members) ↔
      List.Forall₂ (Paired fun a b => f a = .ok b) (chain.members joint) members := by
  have hmap : (∃ chain' : Chain β, chain.traverse f = .ok chain' ∧ chain'.members joint = members) ↔
      (chain.traverse f).map (Chain.members joint) = .ok members := by
    cases chain.traverse f <;> simp [Except.map]
  rw [hmap, Chain.members_traverse, mapM_eq_ok_iff]
  have hpaired : ∀ (a : Option Connective × α) (b : Option Connective × β),
      (f a.2).map (a.1, ·) = .ok b ↔ Paired (fun a b => f a = .ok b) a b := by
    rintro ⟨k, a⟩ ⟨l, b⟩
    cases hstep : f a <;> simp [Except.map, Paired, hstep]
  simp only [hpaired]

/-- A step over a chain goes well exactly if it keeps the connectives and gives each item at its
place. -/
theorem Chain.traverse_eq_ok_iff {α β ε : Type} {f : α → Except ε β}
    {chain : Chain α} {chain' : Chain β} :
    chain.traverse f = .ok chain' ↔ chain.connectives = chain'.connectives ∧
      List.Forall₂ (fun a b => f a = .ok b) chain.items chain'.items := by
  have hmembers : chain.traverse f = .ok chain' ↔
      ∃ found, chain.traverse f = .ok found ∧ found.members none = chain'.members none := by
    constructor
    · intro h
      exact ⟨chain', h, rfl⟩
    · intro h
      rcases h with ⟨found, h, hsame⟩
      rwa [← members_injective none hsame]
  rw [hmembers, exists_traverse_iff, forall₂_members_iff]
  exact and_iff_right rfl

end ListingFilter
