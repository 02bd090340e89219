import ListingFilter.Proofs.Concatenation
import ListingFilter.Proofs.WellFormed
import ListingFilter.Query.Recorder

/-!
# Queries — what filters ask of a backend

Two faults of a tree stop its translation before a backend is asked anything: a group without
members, and an operator that tests no linked records. No tree that is read has either. So a backend
that never fails itself answers every filter, and what it is asked are the tests of the conditions,
from left to right (`Shaped.answers`). Testing listings in memory can only fail for a column that
listings do not have (`ofTree_eq_error_iff`).

The main statement is `query_of_parse`.
-/

namespace ListingFilter

variable {σ α β : Type}

/-! ## Running a backend -/

namespace BackendM

/-- What a step answers from a state, and the state behind it. -/
def perform (step : BackendM σ α) (state : σ) : Except QueryFault α × σ :=
  (step.run.run state : Id _)

theorem perform_bind {step : BackendM σ α} {next : α → BackendM σ β} {state state' : σ} {a : α}
    (h : perform step state = (.ok a, state')) :
    perform (step >>= next) state = perform (next a) state' := by
  unfold perform at h
  simp only [perform, ExceptT.run_bind, StateT.run_bind]
  rw [h]
  rfl

theorem perform_liftM (a : α) (state : σ) :
    perform (liftM (.ok a : Except QueryFault α) : BackendM σ α) state = (.ok a, state) := rfl

end BackendM

open BackendM

namespace Backend

/-- Neither a probe nor a group ever makes the backend fail. -/
structure NeverFails (backend : Backend σ α) : Prop where
  probe : ∀ probe state, ∃ query state', perform (backend.probe probe) state = (.ok query, state')
  combine : ∀ chain state, ∃ query state',
    perform (backend.combine chain) state = (.ok query, state')

/-- The backend that also keeps the probes it was asked for. -/
def logged (backend : Backend σ α) : Backend (σ × List Probe) α where
  probe probe := fun (state, log) =>
    let (outcome, state') := perform (backend.probe probe) state
    (outcome, (state', log ++ [probe]))
  combine chain := fun (state, log) =>
    let (outcome, state') := perform (backend.combine chain) state
    (outcome, (state', log))

variable {backend : Backend σ α} {state state' : σ} {outcome : Except QueryFault α}

theorem perform_logged_probe {probe : Probe}
    (h : perform (backend.probe probe) state = (outcome, state')) (log : List Probe) :
    perform (backend.logged.probe probe) (state, log) = (outcome, (state', log ++ [probe])) := by
  have hrun : perform (backend.logged.probe probe) (state, log) =
      ((perform (backend.probe probe) state).1,
        ((perform (backend.probe probe) state).2, log ++ [probe])) := rfl
  rw [hrun, h]

theorem perform_logged_combine {chain : Chain α}
    (h : perform (backend.combine chain) state = (outcome, state')) (log : List Probe) :
    perform (backend.logged.combine chain) (state, log) = (outcome, (state', log)) := by
  have hrun : perform (backend.logged.combine chain) (state, log) =
      ((perform (backend.combine chain) state).1,
        ((perform (backend.combine chain) state).2, log)) := rfl
  rw [hrun, h]

end Backend

theorem recorder_neverFails : recorder.NeverFails :=
  ⟨fun _ calls => ⟨calls.length, _, rfl⟩, fun _ calls => ⟨calls.length, _, rfl⟩⟩

/-! ## What a condition asks for -/

/-- The operator of the condition tests linked records in this way. -/
inductive Condition.TestsLinks (condition : Condition) : Membership → Prop where
  | anyOf {countGuard : Bool} :
      condition.operator = .equal ∨ condition.operator = .isAny ∨ condition.operator = .hasAny →
      (countGuard ↔ condition.proviso = some .countGuard) →
      TestsLinks condition (.anyOf countGuard)
  | noneOf : condition.operator = .notEqual → TestsLinks condition .noneOf
  | exists : condition.operator = .exists → TestsLinks condition .exists

/-- The probe makes the test of the condition, with the arguments that the condition has: its field,
its operator and its value; of linked records the texts of the value in their order, and of a free
attribute whether it is compared as a number. -/
inductive Condition.IsTestedBy (condition : Condition) : Probe → Prop where
  | column {name : Text} :
      condition.field = .standard name →
      IsTestedBy condition (.column name condition.operator condition.value)
  | linked {link : Link} {membership : Membership} {labels : List Text} :
      condition.field = .relationship link → condition.TestsLinks membership →
      condition.value.scalars.filter (fun scalar => scalar.type = .text) = labels.map .text →
      IsTestedBy condition (.linked link membership labels)
  | «attribute» {name : Text} {numeric : Bool} :
      condition.field = .attribute name → (numeric ↔ condition.proviso = some .numericCast) →
      IsTestedBy condition (.attribute name condition.operator condition.value numeric)

theorem Condition.has_iff {condition : Condition} {proviso : Proviso} :
    condition.has proviso ↔ condition.proviso = some proviso :=
  beq_iff_eq

theorem Membership.of?_eq_some_iff {condition : Condition} {membership : Membership} :
    of? condition = some membership ↔ condition.TestsLinks membership := by
  constructor
  · intro h
    unfold of? at h
    split at h
    · rename_i hoperator
      cases h
      exact .anyOf (.inl hoperator) Condition.has_iff
    · rename_i hoperator
      cases h
      exact .anyOf (.inr (.inl hoperator)) Condition.has_iff
    · rename_i hoperator
      cases h
      exact .anyOf (.inr (.inr hoperator)) Condition.has_iff
    · rename_i hoperator
      cases h
      exact .noneOf hoperator
    · rename_i hoperator
      cases h
      exact .exists hoperator
    · cases h
  · intro h
    unfold of?
    cases h with
    | anyOf hoperator hguard =>
      rw [← Condition.has_iff, ← Bool.eq_iff_iff] at hguard
      rcases hoperator with hoperator | hoperator | hoperator <;> rw [hoperator, hguard]
    | noneOf hoperator => rw [hoperator]
    | «exists» hoperator => rw [hoperator]

/-- The labels are the texts among the scalars. -/
theorem Value.labels_eq_iff {value : Value} {labels : List Text} :
    value.labels = labels ↔
      value.scalars.filter (fun scalar => scalar.type = .text) = labels.map .text := by
  unfold Value.labels
  have htexts : ∀ scalars : List Scalar, (scalars.filterMap Scalar.asText?).map .text =
      scalars.filter fun scalar => scalar.type = .text := by
    intro scalars
    induction scalars with
    | nil => rfl
    | cons scalar rest ih =>
      cases scalar with
      | text content => exact congrArg (Scalar.text content :: ·) ih
      | number | boolean | instant => exact ih
  rw [← htexts]
  constructor
  · intro h
    rw [h]
  · intro h
    exact List.map_injective_iff.2 (fun _ _ => Scalar.text.inj) h

/-- Every condition asks for the probe that makes its test, and for no other. -/
theorem Probe.of_eq_ok_iff {condition : Condition} {probe : Probe} :
    Probe.of condition = .ok probe ↔ condition.IsTestedBy probe := by
  constructor
  · intro h
    unfold Probe.of at h
    split at h
    · rename_i name hfield
      cases h
      exact .column hfield
    · rename_i link hfield
      split at h
      · rename_i membership hmembership
        cases h
        exact .linked hfield (Membership.of?_eq_some_iff.1 hmembership) (Value.labels_eq_iff.1 rfl)
      · cases h
    · rename_i name hfield
      cases h
      exact .attribute hfield Condition.has_iff
  · intro h
    unfold Probe.of
    cases h with
    | column hfield => simp only [hfield]
    | linked hfield hmembership hlabels =>
      simp only [hfield, Membership.of?_eq_some_iff.2 hmembership, Value.labels_eq_iff.2 hlabels]
    | «attribute» hfield hnumeric =>
      rw [← Condition.has_iff, ← Bool.eq_iff_iff] at hnumeric
      simp only [hfield, hnumeric]

/-- The probe makes the test of the condition. Of linked records, every scalar of the value is a label,
there is one unless only the link counts, and they are counted for `HAS_ANY` only. -/
structure Condition.Asks (condition : Condition) (probe : Probe) : Prop where
  tested : condition.IsTestedBy probe
  labels : ∀ link membership labels, probe = .linked link membership labels →
    condition.value.scalars = labels.map .text
  ne_nil : ∀ link membership labels, probe = .linked link membership labels →
    membership ≠ .exists → labels ≠ []
  counted : ∀ link membership labels, probe = .linked link membership labels →
    (membership = .anyOf true ↔ condition.operator = .hasAny)

/-- What a condition asks for is the probe that it is translated into. -/
theorem Condition.Asks.of {condition : Condition} {probe : Probe} (h : condition.Asks probe) :
    Probe.of condition = .ok probe :=
  Probe.of_eq_ok_iff.2 h.tested

theorem Value.labels_texts (texts : List Text) : labels (.list (texts.map .text)) = texts := by
  unfold labels scalars
  rw [List.filterMap_map]
  exact List.filterMap_some

/-- Every operator that linked records take tests them. -/
theorem Membership.exists_of? {condition : Condition}
    (hallows : FieldKind.relationship.allows condition.operator)
    (hguard : condition.has .countGuard ↔ condition.operator = .hasAny) :
    ∃ membership, of? condition = some membership ∧
      (membership = .exists ↔ condition.operator = .exists) ∧
      (membership = .anyOf true ↔ condition.operator = .hasAny) := by
  have hoperator : condition.operator ∈ FieldKind.relationship.operators :=
    List.contains_iff_mem.1 hallows
  unfold FieldKind.operators at hoperator
  simp only [List.mem_cons, List.not_mem_nil, or_false] at hoperator
  unfold of?
  rcases hoperator with h | h | h | h | h <;> simp [h] at hguard <;> simp [h, hguard]

/-- Every well-formed condition asks for a probe. -/
theorem Condition.WellFormed.exists_asks {condition : Condition} (h : condition.WellFormed) :
    ∃ probe, condition.Asks probe := by
  cases hfield : condition.field with
  | standard name =>
    refine ⟨_, .column hfield, ?_, ?_, ?_⟩
    all_goals exact nofun
  | «attribute» name =>
    refine ⟨_, .attribute hfield Condition.has_iff, ?_, ?_, ?_⟩
    all_goals exact nofun
  | relationship link =>
    have hallows := h.allows
    have hsuits := h.suits
    have hempty := h.empty_list
    have hguard : condition.has .countGuard ↔ condition.operator = .hasAny := by
      simpa [has, hfield] using h.countGuard
    rw [hfield] at hallows hsuits
    rcases Membership.exists_of? hallows hguard with ⟨membership, hmembership, hexists, hcounted⟩
    generalize hvalue : condition.value = value at hsuits hempty
    cases hsuits with
    | labels texts =>
      have hlabels : condition.value.labels = texts := by
        rw [hvalue, Value.labels_texts]
      refine ⟨.linked link membership texts, .linked hfield
        (Membership.of?_eq_some_iff.1 hmembership) (Value.labels_eq_iff.1 hlabels), ?_, ?_, ?_⟩
      · rintro _ _ _ ⟨⟩
        rw [hvalue]
        rfl
      · rintro _ _ _ ⟨⟩ hnotExists htexts
        rw [htexts] at hempty
        exact hnotExists (hexists.2 (hempty rfl))
      · rintro _ _ _ ⟨⟩
        exact hcounted

/-! ## Every translation goes well -/

/-- From every state, both steps give the same answer, of which `P` holds. The second one keeps what
the conditions ask for, behind what it kept before. -/
def Answers (conditions : List Condition) (P : α → Prop) (step : BackendM σ α)
    (logged : BackendM (σ × List Probe) α) : Prop :=
  ∀ state, ∃ answer state' probes, P answer ∧ List.Forall₂ Condition.Asks conditions probes ∧
    perform step state = (.ok answer, state') ∧
    ∀ log, perform logged (state, log) = (.ok answer, (state', log ++ probes))

namespace Answers

theorem pure {P : α → Prop} {a : α} (h : P a) :
    Answers [] P (pure a : BackendM σ α) (pure a) := by
  intro state
  refine ⟨a, state, [], h, .nil, rfl, ?_⟩
  intro log
  rw [List.append_nil]
  rfl

theorem bind {conditions conditions' : List Condition} {P : α → Prop} {Q : β → Prop}
    {step : BackendM σ α} {logged : BackendM (σ × List Probe) α} {next : α → BackendM σ β}
    {next' : α → BackendM (σ × List Probe) β} (h : Answers conditions P step logged)
    (hnext : ∀ a, P a → Answers conditions' Q (next a) (next' a)) :
    Answers (conditions ++ conditions') Q (step >>= next) (logged >>= next') := by
  intro state
  rcases h state with ⟨a, state', probes, hP, hasks, hrun, hlogged⟩
  rcases hnext a hP state' with ⟨b, state'', probes', hQ, hasks', hrun', hlogged'⟩
  refine ⟨b, state'', probes ++ probes', hQ, List.rel_append hasks hasks', ?_, ?_⟩
  · rw [perform_bind hrun, hrun']
  · intro log
    rw [perform_bind (hlogged log), hlogged', List.append_assoc]

end Answers

namespace Tree

variable {backend : Backend σ α}

theorem answers_leaf (h : backend.NeverFails) {condition : Condition}
    (hcondition : ∃ probe, condition.Asks probe) :
    Answers [condition] (fun _ => True) (query backend (.leaf condition))
      (query backend.logged (.leaf condition)) := by
  intro state
  rcases hcondition with ⟨probe, hasks⟩
  rcases h.probe probe state with ⟨answer, state', hrun⟩
  refine ⟨answer, state', [probe], trivial, .cons hasks .nil, ?_, ?_⟩
  · rw [query, hasks.of, perform_bind (perform_liftM probe state), hrun]
  · intro log
    rw [query, hasks.of, perform_bind (perform_liftM probe (state, log)),
      Backend.perform_logged_probe hrun]

/-- The queries of members whose trees are answered are answered, one for each member. -/
theorem answers_queries {members : List Member} (h : ∀ member ∈ members,
      Answers member.2.conditions (fun _ => True) (query backend member.2)
        (query backend.logged member.2)) :
    Answers (allConditions members) (fun queries => queries.length = members.length)
      (queries backend members) (queries backend.logged members) := by
  induction members with
  | nil => exact .pure rfl
  | cons member members ih =>
    rcases member with ⟨joint, tree⟩
    rw [List.forall_mem_cons] at h
    refine h.1.bind fun first _ => ?_
    rw [← List.append_nil (allConditions members)]
    refine (ih h.2).bind fun others hothers => .pure ?_
    rw [List.length_cons, List.length_cons, hothers]

theorem answers_combineMembers (h : backend.NeverFails) {queries : List (Connective × α)}
    (hne : queries ≠ []) : Answers [] (fun _ => True) (combineMembers backend queries)
      (combineMembers backend.logged queries) := by
  rcases List.exists_cons_of_ne_nil hne with ⟨first, rest, rfl⟩
  intro state
  rcases h.combine ⟨first.2, rest⟩ state with ⟨answer, state', hrun⟩
  refine ⟨answer, state', [], trivial, .nil, hrun, ?_⟩
  intro log
  rw [List.append_nil]
  exact Backend.perform_logged_combine hrun log

/-- A backend that never fails answers every tree whose groups are joined as in a filter and whose
conditions ask for probes. -/
theorem Shaped.answers (h : backend.NeverFails) {tree : Tree}
    (hshaped : tree.Shaped fun condition => ∃ probe, condition.Asks probe) :
    Answers tree.conditions (fun _ => True) (query backend tree) (query backend.logged tree) := by
  induction hshaped with
  | leaf hcondition => exact answers_leaf h hcondition
  | @group members hjoined _ ih =>
    show Answers (allConditions members) _ _ _
    rw [← List.append_nil (allConditions members)]
    refine (answers_queries ih).bind fun queries hlength => answers_combineMembers h ?_
    rintro rfl
    have htwo := hjoined.two_le
    rw [← hlength] at htwo
    cases htwo

end Tree

/-! ## Columns that listings do not have -/

/-- The condition is about a column of this name, and listings have no such column. -/
def Condition.NamesUnknown (condition : Condition) (name : Text) : Prop :=
  condition.field = .standard name ∧ ∀ column : Column, column.name ≠ name

theorem Column.ofName?_eq_none_iff {name : Text} :
    ofName? name = none ↔ ∀ column : Column, column.name ≠ name := by
  constructor
  · intro h column hname
    rw [← hname, ofName?_name] at h
    cases h
  · intro h
    cases hfound : ofName? name with
    | none => rfl
    | some column => exact absurd (name_of_ofName? hfound) (h column)

namespace Matcher

variable {fault : QueryFault}

/-- A condition that asks for a probe cannot be tested exactly if its column is unknown. -/
theorem ofTree_leaf_eq_error_iff {condition : Condition} (h : ∃ probe, condition.Asks probe) :
    ofTree (.leaf condition) = .error fault ↔
      ∃ name, condition.NamesUnknown name ∧ fault = .unknownColumn name := by
  rcases h with ⟨probe, hasks⟩
  have hof := hasks.of
  rw [ofTree_leaf, hof]
  show ofProbe probe = .error fault ↔ _
  unfold Condition.NamesUnknown
  unfold Probe.of at hof
  cases hfield : condition.field with
  | standard name =>
    rw [hfield] at hof
    cases hof
    simp only [Field.standard.injEq, ← Column.ofName?_eq_none_iff]
    unfold ofProbe
    cases hcolumn : Column.ofName? name with
    | none => simp [hcolumn, eq_comm]
    | some column => simp [hcolumn]
  | «attribute» name =>
    rw [hfield] at hof
    cases hof
    simp [ofProbe]
  | relationship link =>
    rw [hfield] at hof
    dsimp only at hof
    split at hof
    · cases hof
      simp [ofProbe]
    · cases hof

theorem exists_ofTree_leaf_iff {condition : Condition} (h : ∃ probe, condition.Asks probe) :
    (∃ matcher, ofTree (.leaf condition) = .ok matcher) ↔
      ∀ name, ¬ condition.NamesUnknown name := by
  have hleaf : ∀ fault, ofTree (.leaf condition) = .error fault ↔
      ∃ name, condition.NamesUnknown name ∧ fault = .unknownColumn name := fun _ =>
    ofTree_leaf_eq_error_iff h
  cases htest : ofTree (.leaf condition) with
  | ok matcher =>
    rw [htest] at hleaf
    simp only [Except.ok.injEq, exists_eq', true_iff]
    intro name hname
    cases (hleaf (.unknownColumn name)).2 ⟨name, hname, rfl⟩
  | error fault =>
    rcases (hleaf fault).1 htest with ⟨name, hname, -⟩
    simp only [reduceCtorEq, exists_false, false_iff]
    exact fun hnone => hnone name hname

/-- The test of a tree fails as the tests of its conditions do, one after the other. -/
theorem ofTree_eq_error_iff {P : Condition → Prop} {tree : Tree} (h : tree.Shaped P) :
    ofTree tree = .error fault ↔
      tree.conditions.mapM (fun condition => ofTree (.leaf condition)) = .error fault := by
  induction h generalizing fault with
  | @leaf condition _ =>
    show _ ↔ [condition].mapM _ = _
    rw [List.mapM_cons, List.mapM_nil, bind_eq_error_iff]
    simp [pure, Except.pure, bind, Except.bind]
  | @group members hjoined _ ih =>
    rcases hjoined.exists_chain with ⟨trees, hrest, rfl⟩
    rw [← Tree.ofChain_of_ne_nil hrest, ofTree_ofChain, map_eq_error_iff]
    rw [← map_eq_error_iff (f := Chain.items), Chain.items_traverse, Tree.ofChain_of_ne_nil hrest]
    show _ ↔ (Tree.allConditions (trees.members none)).mapM _ = _
    rw [Tree.allConditions_members]
    apply mapM_flatMap_eq_error_iff
    exact (Chain.forall_members_iff none).1 fun member hmember fault => ih member hmember

/-- If every condition asks for a probe, the test of a tree fails exactly for the leftmost unknown
column. -/
theorem ofTree_eq_error_iff_leftmost {tree : Tree}
    (h : tree.Shaped fun condition => ∃ probe, condition.Asks probe) :
    ofTree tree = .error fault ↔ ∃ before condition after,
      tree.conditions = before ++ condition :: after ∧
      (∀ other ∈ before, ∀ name, ¬ other.NamesUnknown name) ∧
      ∃ name, condition.NamesUnknown name ∧ fault = .unknownColumn name := by
  have hasks := h.of_mem_conditions
  rw [ofTree_eq_error_iff h, mapM_eq_error_iff]
  refine exists_congr fun before => exists_congr fun condition => exists_congr fun after =>
    and_congr_right fun hsplit => and_congr ?_ ?_
  · refine forall₂_congr fun other hother => exists_ofTree_leaf_iff (hasks other ?_)
    rw [hsplit]
    exact List.mem_append_left _ hother
  · refine ofTree_leaf_eq_error_iff (hasks condition ?_)
    rw [hsplit]
    exact List.mem_append_right before List.mem_cons_self

end Matcher

/-! ## Filters -/

/-- Every filter that is read can be translated. A backend that never fails itself answers it; what it
is asked are the tests of the conditions, from left to right, each as the condition asks for it.
Testing listings in memory fails exactly if some condition is about a column that listings do not
have, and then for the leftmost such column. -/
theorem Settings.query_of_parse {settings : Settings} {text : Text} {tree : Tree}
    (h : settings.parse text = .ok tree) :
    (∀ {σ α : Type} (backend : Backend σ α), backend.NeverFails →
      ∀ state, ∃ query state' probes,
        perform (tree.query backend) state = (.ok query, state') ∧
        perform (tree.query backend.logged) (state, []) = (.ok query, (state', probes)) ∧
        List.Forall₂ Condition.Asks tree.conditions probes) ∧
    ((∃ fault, Matcher.ofTree tree = .error fault) ↔
      ∃ condition ∈ tree.conditions, ∃ name, condition.NamesUnknown name) ∧
    (∀ fault, Matcher.ofTree tree = .error fault → ∃ before condition after,
      tree.conditions = before ++ condition :: after ∧
      (∀ other ∈ before, ∀ name, ¬ other.NamesUnknown name) ∧
      ∃ name, condition.NamesUnknown name ∧ fault = .unknownColumn name) := by
  have hshaped : tree.Shaped fun condition => ∃ probe, condition.Asks probe :=
    (wellFormed_of_parse h).imp fun _ _ hcondition => hcondition.exists_asks
  refine ⟨?_, ?_, ?_⟩
  · intro σ α backend hbackend state
    rcases hshaped.answers hbackend state with ⟨query, state', probes, -, hasks, hrun, hlogged⟩
    exact ⟨query, state', probes, hrun, hlogged [], hasks⟩
  · constructor
    · rintro ⟨fault, hfault⟩
      rcases (Matcher.ofTree_eq_error_iff_leftmost hshaped).1 hfault with
        ⟨before, condition, after, hsplit, -, name, hname, -⟩
      refine ⟨condition, ?_, name, hname⟩
      rw [hsplit]
      exact List.mem_append_right before List.mem_cons_self
    · rintro ⟨condition, hcondition, name, hname⟩
      cases htest : Matcher.ofTree tree with
      | error fault => exact ⟨fault, rfl⟩
      | ok matcher =>
        -- then every condition could be tested
        exfalso
        rcases (exists_ok_iff_of_error_iff fun _ => Matcher.ofTree_eq_error_iff hshaped).1
          ⟨matcher, htest⟩ with ⟨tests, htests⟩
        rcases exists_ok_of_mapM_eq_ok htests hcondition with ⟨test, -, hok⟩
        exact (Matcher.exists_ofTree_leaf_iff (hshaped.of_mem_conditions condition hcondition)).1
          ⟨test, hok⟩ name hname
  · intro fault hfault
    exact (Matcher.ofTree_eq_error_iff_leftmost hshaped).1 hfault

/-- The tree of `languages HAS_ANY (PHP, Go) AND colour = red OR size = 3`. -/
def Tree.colours : Tree :=
  .group [
    (none, .leaf ⟨.relationship .languages, .hasAny, .list [.text "PHP".toList, .text "Go".toList],
      some .countGuard⟩),
    (some .and, .leaf ⟨.standard "colour".toList, .equal, .single (.text "red".toList), none⟩),
    (some .or, .leaf ⟨.standard "size".toList, .equal, .single (.text "3".toList), none⟩)]

/-- The backend that writes down its calls answers, and of the two unknown columns the first one is
reported. -/
theorem Settings.query_of_parse_colours :
    parse {} "languages HAS_ANY (PHP, Go) AND colour = red OR size = 3".toList =
        .ok Tree.colours ∧
      recorder.NeverFails ∧
      (∃ query calls probes,
        perform (Tree.colours.query recorder) [] = (.ok query, calls) ∧
        List.Forall₂ Condition.Asks Tree.colours.conditions probes) ∧
      Matcher.ofTree Tree.colours = .error (.unknownColumn "colour".toList) ∧
      ∃ before condition after, Tree.colours.conditions = before ++ condition :: after ∧
        condition.NamesUnknown "colour".toList := by
  have hparse : parse {} "languages HAS_ANY (PHP, Go) AND colour = red OR size = 3".toList =
      .ok Tree.colours := by
    decide +kernel
  have hfault : Matcher.ofTree Tree.colours = .error (.unknownColumn "colour".toList) := rfl
  rcases query_of_parse hparse with ⟨hanswered, -, hleftmost⟩
  rcases hanswered recorder recorder_neverFails [] with ⟨query, calls, probes, hrun, -, hasks⟩
  rcases hleftmost _ hfault with ⟨before, condition, after, hsplit, -, name, hname, hsame⟩
  rw [← QueryFault.unknownColumn.inj hsame] at hname
  exact ⟨hparse, recorder_neverFails, ⟨query, calls, probes, hrun, hasks⟩, hfault, before, condition,
    after, hsplit, hname⟩

end ListingFilter
