import Mathlib.Data.List.Nodup
import ListingFilter.Proofs.Queries

/-!
# Postorder — the calls of a walk through a tree

A tree is walked in post-order, and every node makes one call: a condition the probe that tests it, a
group the joining of its members' queries (`Tree.Makes`). Two kinds of nodes make none, and end the
walk (`Tree.Offends`).

What a step of the walk does is said by `Walks`: from every log it adds the calls of its nodes, or
those of the nodes before the first that offends. Walks follow one another (`Walks.bind`), so the
walk through a tree is one (`Tree.walks`). That no query is lost or used twice is a fact about the
numbers of the nodes alone (`Tree.perm_operands`).

The main statement is `Tree.record_postorder`.
-/

namespace ListingFilter

/-! ## Nodes and their numbers -/

namespace Tree

mutual

/-- The nodes in post-order: those of the members from left to right, then the group. -/
def nodes : Tree → List Tree
  | .leaf condition => [.leaf condition]
  | .group members => allNodes members ++ [.group members]

/-- The nodes of all members from left to right. -/
def allNodes : List Member → List Tree
  | [] => []
  | (_, tree) :: rest => tree.nodes ++ allNodes rest

end

mutual

/-- The number of groups. -/
def groupCount : Tree → Nat
  | .leaf _ => 0
  | .group members => groupCounts members + 1

/-- The number of groups of all members. -/
def groupCounts : List Member → Nat
  | [] => 0
  | (_, tree) :: rest => tree.groupCount + groupCounts rest

end

mutual

/-- Every condition and every group is one node. -/
theorem length_nodes : ∀ tree : Tree, tree.nodes.length = tree.leafCount + tree.groupCount
  | .leaf _ => rfl
  | .group members => by
    rw [nodes, List.length_append, length_allNodes members, leafCount, groupCount]
    rfl

theorem length_allNodes :
    ∀ members : List Member, (allNodes members).length = leafCounts members + groupCounts members
  | [] => rfl
  | (_, tree) :: rest => by
    rw [allNodes, List.length_append, length_nodes tree, length_allNodes rest, leafCounts,
      groupCounts]
    omega

end

/-- A tree is a node of itself. -/
theorem length_nodes_pos (tree : Tree) : 0 < tree.nodes.length := by
  cases tree <;> simp [nodes]

/-- The condition of a node that is one. -/
def condition? : Tree → Option Condition
  | .leaf condition => some condition
  | .group _ => none

mutual

/-- The conditions are met in their order. -/
theorem filterMap_nodes : ∀ tree : Tree, tree.nodes.filterMap condition? = tree.conditions
  | .leaf _ => rfl
  | .group members => by
    rw [nodes, List.filterMap_append, filterMap_allNodes members, conditions]
    exact List.append_nil _

theorem filterMap_allNodes :
    ∀ members : List Member, (allNodes members).filterMap condition? = allConditions members
  | [] => rfl
  | (_, tree) :: rest => by
    rw [allNodes, List.filterMap_append, filterMap_nodes tree, filterMap_allNodes rest,
      allConditions]

end

/-- The queries of members whose nodes are numbered from `start`, each with its connective: that of a
member is the number of its last node. -/
def memberQueries (start : Nat) : List Member → List (Connective × Nat)
  | [] => []
  | (joint, tree) :: rest =>
    (joint.getD .and, start + tree.nodes.length - 1) ::
      memberQueries (start + tree.nodes.length) rest

/-- The query of a member is one of the numbers of the members' nodes. -/
theorem lt_of_mem_memberQueries {start query : Nat} {members : List Member}
    (h : query ∈ (memberQueries start members).map Prod.snd) :
    query < start + (allNodes members).length := by
  induction members generalizing start with
  | nil => cases h
  | cons member rest ih =>
    rcases member with ⟨joint, tree⟩
    have hpos := tree.length_nodes_pos
    rw [allNodes, List.length_append]
    rcases List.mem_cons.1 h with rfl | hrest
    · dsimp only
      omega
    · have hlt := ih hrest
      omega

/-! ## Calls -/

/-- The call that the node of this number makes. A condition makes the probe that tests it, with its
own arguments. A group joins the queries of its members, whose nodes have the numbers just before its
own; the connective of the first is dropped. -/
inductive Makes (number : Nat) : Tree → Call → Prop where
  | probe {condition : Condition} {probe : Probe} :
      condition.IsTestedBy probe → Makes number (.leaf condition) (.probe probe)
  | combine {members : List Member} {start first : Nat} {joint : Connective}
      {rest : List (Connective × Nat)} :
      start + (allNodes members).length = number →
      memberQueries start members = (joint, first) :: rest →
      Makes number (.group members) (.combine ⟨first, rest⟩)

/-- The node makes no call: it is a group without members, or a condition on linked records with an
operator that tests none. -/
inductive Offends : Tree → QueryFault → Prop where
  | emptyGroup : Offends (.group []) .emptyGroup
  | noMembership {condition : Condition} {link : Link} :
      condition.field = .relationship link → (∀ membership, ¬ condition.TestsLinks membership) →
      Offends (.leaf condition) (.noMembership condition.operator)

theorem offends_leaf_iff {condition : Condition} {fault : QueryFault} :
    (Tree.leaf condition).Offends fault ↔ Probe.of condition = .error fault := by
  have hnone : Membership.of? condition = none ↔ ∀ membership, ¬ condition.TestsLinks membership := by
    simp only [Option.eq_none_iff_forall_ne_some, ne_eq, Membership.of?_eq_some_iff]
  constructor
  · rintro (_ | ⟨hfield, hmembership⟩)
    simp only [Probe.of, hfield, hnone.2 hmembership]
  · intro h
    unfold Probe.of at h
    split at h
    · cases h
    · rename_i link hfield
      split at h
      · cases h
      · rename_i hmembership
        cases h
        exact .noMembership hfield (hnone.1 hmembership)
    · cases h

theorem offends_group_iff {members : List Member} {fault : QueryFault} :
    (Tree.group members).Offends fault ↔ members = [] ∧ fault = .emptyGroup := by
  constructor
  · rintro ⟨⟩
    exact ⟨rfl, rfl⟩
  · rintro ⟨rfl, rfl⟩
    exact .emptyGroup

theorem Makes.not_offends {number : Nat} {node : Tree} {call : Call} {fault : QueryFault}
    (h : node.Makes number call) : ¬ node.Offends fault := by
  cases h with
  | probe hprobe =>
    rw [offends_leaf_iff, Probe.of_eq_ok_iff.2 hprobe]
    exact nofun
  | combine _ hqueries =>
    rw [offends_group_iff]
    rintro ⟨rfl, -⟩
    cases hqueries

end Tree

namespace Call

/-- The queries that a call uses up. -/
def operands : Call → List Nat
  | .probe _ => []
  | .combine chain => chain.items

/-- The probe of a call that is one. -/
def probe? : Call → Option Probe
  | .probe asked => some asked
  | .combine _ => none

end Call

theorem Tree.Makes.lt_of_mem_operands {number query : Nat} {node : Tree} {call : Call}
    (h : node.Makes number call) (hquery : query ∈ call.operands) : query < number := by
  cases h with
  | probe => cases hquery
  | combine hnumber hqueries =>
    rw [← hnumber]
    apply Tree.lt_of_mem_memberQueries
    rwa [hqueries]

/-- These nodes, visited one after the other, make these calls, of which the first has the number
`start`. -/
inductive Visits : Nat → List Tree → List Call → Prop where
  | nil {start : Nat} : Visits start [] []
  | cons {start : Nat} {node : Tree} {nodes : List Tree} {call : Call} {calls : List Call} :
      node.Makes start call → Visits (start + 1) nodes calls →
      Visits start (node :: nodes) (call :: calls)

namespace Visits

variable {start : Nat} {nodes nodes' : List Tree} {calls calls' : List Call}

theorem length_eq (h : Visits start nodes calls) : calls.length = nodes.length := by
  induction h with
  | nil => rfl
  | cons _ _ ih => rw [List.length_cons, List.length_cons, ih]

theorem append (h : Visits start nodes calls) (h' : Visits (start + nodes.length) nodes' calls') :
    Visits start (nodes ++ nodes') (calls ++ calls') := by
  induction h with
  | nil => exact h'
  | cons hmakes _ ih =>
    refine .cons hmakes (ih ?_)
    rwa [List.length_cons, ← Nat.add_assoc, Nat.add_right_comm] at h'

/-- The calls of two lists of nodes are those of the first, then those of the second. -/
theorem exists_of_append (h : Visits start (nodes ++ nodes') calls) :
    ∃ calls₁ calls₂, calls = calls₁ ++ calls₂ ∧ Visits start nodes calls₁ ∧
      Visits (start + nodes.length) nodes' calls₂ := by
  induction nodes generalizing start calls with
  | nil => exact ⟨[], calls, rfl, .nil, h⟩
  | cons node nodes ih =>
    cases h with
    | cons hmakes hrest =>
      rcases ih hrest with ⟨calls₁, calls₂, rfl, hfirst, hsecond⟩
      refine ⟨_ :: calls₁, calls₂, rfl, .cons hmakes hfirst, ?_⟩
      rwa [List.length_cons, ← Nat.add_assoc, Nat.add_right_comm]

theorem not_offends (h : Visits start nodes calls) {node : Tree} (hnode : node ∈ nodes)
    {fault : QueryFault} : ¬ node.Offends fault := by
  induction h with
  | nil => cases hnode
  | cons hmakes _ ih =>
    rcases List.mem_cons.1 hnode with rfl | hrest
    · exact hmakes.not_offends
    · exact ih hrest

/-- The probes test the conditions among the nodes. -/
theorem forall₂_probe (h : Visits start nodes calls) :
    List.Forall₂ Condition.IsTestedBy
      (nodes.filterMap Tree.condition?) (calls.filterMap Call.probe?) := by
  induction h with
  | nil => exact .nil
  | cons hmakes _ ih =>
    cases hmakes with
    | probe hprobe => exact .cons hprobe ih
    | combine => exact ih

/-- A call uses queries of calls before it only. -/
theorem lt_of_mem_operands {before after : List Call} {call : Call}
    (h : Visits start nodes (before ++ call :: after)) {query : Nat}
    (hquery : query ∈ call.operands) : query < start + before.length := by
  induction before generalizing start nodes with
  | nil =>
    cases h with
    | cons hmakes _ => exact hmakes.lt_of_mem_operands hquery
  | cons first before ih =>
    cases h with
    | cons _ hrest =>
      have hlt := ih hrest
      rw [List.length_cons]
      omega

end Visits

/-! ## No query is lost or used twice -/

namespace Tree

/-- Of the numbers of members' nodes, each is used up by one of their calls or left as the query of a
member, if those of every member are used up but its last. -/
theorem perm_memberQueries {members : List Member}
    (h : ∀ member ∈ members, ∀ {start calls}, Visits start member.2.nodes calls →
      (calls.flatMap Call.operands ++ [start + member.2.nodes.length - 1]).Perm
        (List.range' start member.2.nodes.length))
    {start : Nat} {calls : List Call} (hvisits : Visits start (allNodes members) calls) :
    (calls.flatMap Call.operands ++ (memberQueries start members).map Prod.snd).Perm
      (List.range' start (allNodes members).length) := by
  induction members generalizing start calls with
  | nil =>
    cases hvisits
    exact .nil
  | cons member rest ih =>
    rcases member with ⟨joint, tree⟩
    rw [List.forall_mem_cons] at h
    rcases hvisits.exists_of_append with ⟨calls₁, calls₂, rfl, hfirst, hrest⟩
    have hboth := (h.1 hfirst).append (ih h.2 hrest)
    rw [List.range'_append_1] at hboth
    rw [allNodes, List.length_append, List.flatMap_append]
    refine .trans ?_ hboth
    simp only [memberQueries, List.map_cons, List.append_assoc, List.singleton_append]
    exact List.perm_middle.append_left _

/-- Of the numbers of a tree's nodes, each but the last is used up by exactly one of their calls. -/
theorem perm_operands (tree : Tree) : ∀ {start : Nat} {calls : List Call},
    Visits start tree.nodes calls →
    (calls.flatMap Call.operands ++ [start + tree.nodes.length - 1]).Perm
      (List.range' start tree.nodes.length) := by
  induction tree using Tree.induction with
  | leaf condition =>
    intro start calls h
    cases h with
    | cons hmakes hrest =>
      cases hmakes
      cases hrest
      exact .refl _
  | group members ih =>
    intro start calls h
    rcases h.exists_of_append with ⟨calls, own, rfl, hmembers, hown⟩
    have hperm := perm_memberQueries ih hmembers
    cases hown with
    | cons hmakes hrest =>
      cases hrest
      cases hmakes with
      | @combine _ start' first joint rest hnumber hqueries =>
        obtain rfl : start' = start := by omega
        rw [hqueries] at hperm
        simp only [nodes, List.length_append, List.length_singleton, List.flatMap_append,
          List.flatMap_singleton]
        rw [List.range'_1_concat]
        exact hperm.append_right _

theorem count_operands {tree : Tree} {calls : List Call} (h : Visits 0 tree.nodes calls)
    (query : Nat) : (calls.flatMap Call.operands).count query =
      if query + 1 < tree.nodes.length then 1 else 0 := by
  have hcount := (tree.perm_operands h).count_eq query
  rw [List.count_append, List.count_singleton, List.Nodup.count List.nodup_range'] at hcount
  simp only [beq_iff_eq, List.mem_range'_1] at hcount
  have hpos := tree.length_nodes_pos
  split_ifs at hcount ⊢ <;> omega

end Tree

/-- One call uses the query up, later than the query was made and once; no other call uses it. -/
def ConsumedOnce (calls : List Call) (query : Nat) : Prop :=
  ∃ before call after, calls = before ++ call :: after ∧ query < before.length ∧
    call.operands.count query = 1 ∧ ∀ other ∈ before ++ after, query ∉ other.operands

theorem Visits.consumedOnce {nodes : List Tree} {calls : List Call} (h : Visits 0 nodes calls)
    {query : Nat} (hcount : (calls.flatMap Call.operands).count query = 1) :
    ConsumedOnce calls query := by
  have hmem : query ∈ calls.flatMap Call.operands := by
    rw [← List.count_pos_iff, hcount]
    exact Nat.one_pos
  rcases List.mem_flatMap.1 hmem with ⟨call, hcall, hquery⟩
  rcases List.append_of_mem hcall with ⟨before, after, rfl⟩
  have hlater := h.lt_of_mem_operands hquery
  rw [Nat.zero_add] at hlater
  have hpos := List.count_pos_iff.2 hquery
  -- the one use is in this call, so there is none before it and none behind it
  rw [List.flatMap_append, List.flatMap_cons, List.count_append, List.count_append] at hcount
  refine ⟨before, call, after, rfl, hlater, by omega, ?_⟩
  intro other hother hused
  have hothers : 0 < ((before ++ after).flatMap Call.operands).count query :=
    List.count_pos_iff.2 (List.mem_flatMap.2 ⟨other, hother, hused⟩)
  rw [List.flatMap_append, List.count_append] at hothers
  omega

/-! ## The walk -/

open BackendM

variable {α β : Type}

theorem BackendM.perform_bind_error {σ : Type} {step : BackendM σ α} {next : α → BackendM σ β}
    {state state' : σ} {fault : QueryFault} (h : perform step state = (.error fault, state')) :
    perform (step >>= next) state = (.error fault, state') := by
  unfold perform at h
  simp only [perform, ExceptT.run_bind, StateT.run_bind]
  rw [h]
  rfl

/-- From every log of `start` calls, the step adds the calls of the nodes and gives the answer; or it
adds those of the nodes before the first that offends, and fails with its fault. -/
def Walks (start : Nat) (nodes : List Tree) (step : BackendM (List Call) α) (answer : α) : Prop :=
  ∀ log : List Call, log.length = start →
    (∃ calls, Visits start nodes calls ∧ perform step log = (.ok answer, log ++ calls)) ∨
    ∃ before node after fault calls, nodes = before ++ node :: after ∧ node.Offends fault ∧
      Visits start before calls ∧ perform step log = (.error fault, log ++ calls)

namespace Walks

theorem pure {start : Nat} (a : α) : Walks start [] (Pure.pure a) a := by
  intro log _
  refine .inl ⟨[], .nil, ?_⟩
  rw [List.append_nil]
  rfl

theorem bind {start : Nat} {nodes nodes' : List Tree} {step : BackendM (List Call) α}
    {next : α → BackendM (List Call) β} {a : α} {b : β} (h : Walks start nodes step a)
    (hnext : Walks (start + nodes.length) nodes' (next a) b) :
    Walks start (nodes ++ nodes') (step >>= next) b := by
  intro log hlog
  rcases h log hlog with
    ⟨calls, hvisits, hrun⟩ | ⟨before, node, after, fault, calls, rfl, hoffends, hvisits, hrun⟩
  · have hlength : (log ++ calls).length = start + nodes.length := by
      rw [List.length_append, hlog, hvisits.length_eq]
    rcases hnext _ hlength with
      ⟨calls', hvisits', hrun'⟩ | ⟨before, node, after, fault, calls', rfl, hoffends, hvisits', hrun'⟩
    · refine .inl ⟨calls ++ calls', hvisits.append hvisits', ?_⟩
      rw [perform_bind hrun, hrun', List.append_assoc]
    · refine .inr ⟨nodes ++ before, node, after, fault, calls ++ calls', ?_, hoffends,
        hvisits.append hvisits', ?_⟩
      · rw [List.append_assoc]
      · rw [perform_bind hrun, hrun', List.append_assoc]
  · refine .inr ⟨before, node, after ++ nodes', fault, calls, ?_, hoffends, hvisits,
      perform_bind_error hrun⟩
    rw [List.append_assoc, List.cons_append]

end Walks

namespace Tree

theorem walks_leaf (start : Nat) (condition : Condition) :
    Walks start [.leaf condition] (query recorder (.leaf condition)) start := by
  rintro log rfl
  rw [query]
  cases hprobe : Probe.of condition with
  | ok probe =>
    exact .inl ⟨[.probe probe], .cons (.probe (Probe.of_eq_ok_iff.1 hprobe)) .nil, rfl⟩
  | error fault =>
    refine .inr ⟨[], .leaf condition, [], fault, [], rfl, offends_leaf_iff.2 hprobe, .nil, ?_⟩
    rw [List.append_nil]
    rfl

theorem walks_queries {members : List Member}
    (h : ∀ member ∈ members, ∀ start, Walks start member.2.nodes (query recorder member.2)
      (start + member.2.nodes.length - 1)) (start : Nat) :
    Walks start (allNodes members) (queries recorder members) (memberQueries start members) := by
  induction members generalizing start with
  | nil => exact .pure []
  | cons member rest ih =>
    rcases member with ⟨joint, tree⟩
    rw [List.forall_mem_cons] at h
    rw [allNodes, queries]
    refine (h.1 start).bind ?_
    rw [← List.append_nil (allNodes rest)]
    exact (ih h.2 _).bind (.pure _)

/-- The queries of the members are joined, unless there are none. -/
theorem walks_combineMembers (start : Nat) (members : List Member) :
    Walks (start + (allNodes members).length) [.group members]
      (combineMembers recorder (memberQueries start members))
      (start + (allNodes members).length) := by
  intro log hlog
  cases hqueries : memberQueries start members with
  | nil =>
    obtain rfl : members = [] := by
      cases members with
      | nil => rfl
      | cons member rest => cases hqueries
    refine .inr ⟨[], .group [], [], .emptyGroup, [], rfl, .emptyGroup, .nil, ?_⟩
    rw [List.append_nil]
    rfl
  | cons first rest =>
    refine .inl ⟨[.combine ⟨first.2, rest⟩], .cons (.combine rfl hqueries) .nil, ?_⟩
    rw [← hlog]
    rfl

/-- Turning a tree into a query walks its nodes and answers with the number of the last. -/
theorem walks (tree : Tree) :
    ∀ start, Walks start tree.nodes (tree.query recorder) (start + tree.nodes.length - 1) := by
  induction tree using Tree.induction with
  | leaf condition => exact fun start => walks_leaf start condition
  | group members ih =>
    intro start
    have hlast : start + (nodes (.group members)).length - 1 =
        start + (allNodes members).length := by
      rw [nodes, List.length_append]
      rfl
    rw [hlast, nodes, query]
    exact (walks_queries ih start).bind (walks_combineMembers start members)

/-- If no node offends, every node makes one call, in post-order: the probes test the conditions from
left to right, each with the condition's own arguments, each group joins its members' queries once
they are made, every query but the last is used up by exactly one later call, and the last is the
answer. Otherwise the walk fails with the fault of the first node that offends, and the calls made are
those of the nodes before it. -/
theorem record_postorder (tree : Tree) :
    ((∀ node ∈ tree.nodes, ∀ fault, ¬ node.Offends fault) →
      ∃ last calls, tree.record = (.ok last, calls) ∧ last + 1 = calls.length ∧
        calls.length = tree.leafCount + tree.groupCount ∧
        Visits 0 tree.nodes calls ∧
        List.Forall₂ Condition.IsTestedBy tree.conditions (calls.filterMap Call.probe?) ∧
        (∀ query < last, ConsumedOnce calls query) ∧ last ∉ calls.flatMap Call.operands) ∧
    ((∃ node ∈ tree.nodes, ∃ fault, node.Offends fault) →
      ∃ before node after fault calls, tree.nodes = before ++ node :: after ∧
        (∀ other ∈ before, ∀ fault, ¬ other.Offends fault) ∧ node.Offends fault ∧
        tree.record = (.error fault, calls) ∧ Visits 0 before calls) := by
  rcases tree.walks 0 [] rfl with
    ⟨calls, hvisits, hrun⟩ | ⟨before, node, after, fault, calls, hnodes, hoffends, hvisits, hrun⟩
  · refine ⟨fun _ => ?_, ?_⟩
    · have hlength := hvisits.length_eq
      have hpos := tree.length_nodes_pos
      have hprobes := hvisits.forall₂_probe
      rw [filterMap_nodes] at hprobes
      refine ⟨_, calls, hrun, ?_, ?_, hvisits, hprobes, ?_, ?_⟩
      · omega
      · rw [hlength, length_nodes]
      · intro query hquery
        apply hvisits.consumedOnce
        rw [count_operands hvisits, if_pos (by omega)]
      · rw [← List.count_eq_zero, count_operands hvisits, if_neg (by omega)]
    · rintro ⟨node, hnode, fault, hoffends⟩
      exact absurd hoffends (hvisits.not_offends hnode)
  · refine ⟨fun hnone => ?_, fun _ => ?_⟩
    · refine absurd hoffends (hnone node ?_ fault)
      rw [hnodes]
      exact List.mem_append_right before List.mem_cons_self
    · exact ⟨before, node, after, fault, calls, hnodes,
        fun other hother fault => hvisits.not_offends hother, hoffends, hrun, hvisits⟩

/-- Two groups in one that no filter stands for: the connectives are in the wrong places. -/
def crooked (members : List Member) : Tree :=
  .group [(some .or, colours), (none, .group members)]

/-- A test of a free attribute that no filter stands for: a text is compared as a number. -/
def rating : Tree :=
  .leaf ⟨.attribute "rating".toList, .greater, .single (.text "3".toList), some .numericCast⟩

/-- Each probe has the arguments of its condition. The missing connective counts as `AND`, and the one
before the first member is dropped. An empty group ends the walk behind the four calls of
`colours`. -/
theorem record_postorder_crooked :
    (∃ calls, (crooked [(some .or, rating)]).record = (.ok 6, calls) ∧
      List.Forall₂ Condition.IsTestedBy (crooked [(some .or, rating)]).conditions
        (calls.filterMap Call.probe?) ∧
      calls = [
        .probe (.linked .languages (.anyOf true) ["PHP".toList, "Go".toList]),
        .probe (.column "colour".toList .equal (.single (.text "red".toList))),
        .probe (.column "size".toList .equal (.single (.text "3".toList))),
        .combine ⟨0, [(.and, 1), (.or, 2)]⟩,
        .probe (.attribute "rating".toList .greater (.single (.text "3".toList)) true),
        .combine ⟨4, []⟩,
        .combine ⟨3, [(.and, 5)]⟩] ∧
      ∀ query < 6, ConsumedOnce calls query) ∧
    ∃ before node after calls, (crooked []).nodes = before ++ node :: after ∧
      node.Offends .emptyGroup ∧ (crooked []).record = (.error .emptyGroup, calls) ∧
      Visits 0 before calls ∧ calls.length = 4 := by
  constructor
  · have hsound : ∀ node ∈ (crooked [(some .or, rating)]).nodes, ∀ fault, ¬ node.Offends fault := by
      simp [crooked, colours, rating, nodes, allNodes, offends_leaf_iff, offends_group_iff, Probe.of,
        Membership.of?]
    rcases (record_postorder (crooked [(some .or, rating)])).1 hsound with
      ⟨last, calls, hrecord, -, -, -, hprobes, honce, -⟩
    cases hrecord
    exact ⟨_, rfl, hprobes, rfl, honce⟩
  · rcases (record_postorder (crooked [])).2
      ⟨.group [], by simp [crooked, colours, nodes, allNodes], .emptyGroup, .emptyGroup⟩ with
      ⟨before, node, after, fault, calls, hnodes, -, hoffends, hrecord, hvisits⟩
    cases hrecord
    exact ⟨before, node, after, _, hnodes, hoffends, rfl, hvisits, rfl⟩

end Tree

end ListingFilter
