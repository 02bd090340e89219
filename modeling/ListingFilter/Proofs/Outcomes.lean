import Mathlib.Data.List.Forall2

/-!
# Outcomes — when a sequence of steps goes well

Reading goes step by step, and the first step that fails decides. These are the rules for the
outcome of a sequence of such steps in terms of the outcomes of its parts.
-/

namespace ListingFilter

variable {α β ε : Type}

theorem bind_eq_ok_iff {step : Except ε α} {next : α → Except ε β} {b : β} :
    step >>= next = .ok b ↔ ∃ a, step = .ok a ∧ next a = .ok b := by
  cases step <;> simp [bind, Except.bind]

theorem map_eq_ok_iff {step : Except ε α} {f : α → β} {b : β} :
    f <$> step = .ok b ↔ ∃ a, step = .ok a ∧ f a = b := by
  cases step <;> simp [Functor.map, Except.map]

theorem pure_eq_ok_iff {a b : α} : (pure a : Except ε α) = .ok b ↔ a = b := by
  simp [pure, Except.pure]

theorem throw_bind_eq_error {fault : ε} {next : α → Except ε β} :
    (throw fault >>= next) = .error fault := rfl

/-- Behind a check that fails with a fault, the rest goes on exactly if the check does not fail. -/
theorem ite_error_eq_ok_iff {p : Prop} [Decidable p] {fault : ε} {rest : Except ε β} {b : β} :
    (if p then .error fault else rest) = .ok b ↔ ¬ p ∧ rest = .ok b := by
  by_cases hp : p <;> simp [hp]

/-- Only what a step does with the elements of a list matters. -/
theorem mapM_congr {f g : α → Except ε β} {as : List α} (h : ∀ a ∈ as, f a = g a) :
    as.mapM f = as.mapM g := by
  induction as with
  | nil => rfl
  | cons a as ih =>
    rw [List.forall_mem_cons] at h
    rw [List.mapM_cons, List.mapM_cons, h.1, ih h.2]

/-- What is done with every result can be done with the list of the results. -/
theorem mapM_map_eq {γ : Type} (f : α → Except ε β) (g : β → γ) (as : List α) :
    as.mapM (fun a => g <$> f a) = List.map g <$> as.mapM f := by
  induction as with
  | nil => rfl
  | cons a as ih =>
    rw [List.mapM_cons, List.mapM_cons, ih]
    cases f a with
    | error fault => rfl
    | ok b => cases as.mapM f <;> rfl

/-- A step over a list goes well exactly if every element gives the one at its place. -/
theorem mapM_eq_ok_iff {f : α → Except ε β} {as : List α} {bs : List β} :
    as.mapM f = .ok bs ↔ List.Forall₂ (fun a b => f a = .ok b) as bs := by
  induction as generalizing bs with
  | nil =>
    rw [List.mapM_nil, pure_eq_ok_iff, List.forall₂_nil_left_iff]
    exact eq_comm
  | cons a as ih =>
    rw [List.mapM_cons, List.forall₂_cons_left_iff, bind_eq_ok_iff]
    constructor
    · rintro ⟨b, hfirst, hrest⟩
      rw [bind_eq_ok_iff] at hrest
      rcases hrest with ⟨bs', hrest, hpure⟩
      exact ⟨b, bs', hfirst, ih.1 hrest, (pure_eq_ok_iff.1 hpure).symm⟩
    · rintro ⟨b, bs', hfirst, hrest, rfl⟩
      exact ⟨b, hfirst, bind_eq_ok_iff.2 ⟨bs', ih.2 hrest, rfl⟩⟩

/-! ## Failure -/

theorem bind_eq_error_iff {step : Except ε α} {next : α → Except ε β} {fault : ε} :
    step >>= next = .error fault ↔
      step = .error fault ∨ ∃ a, step = .ok a ∧ next a = .error fault := by
  cases step <;> simp [bind, Except.bind]

/-- Steps that fail with the same faults go well together. -/
theorem exists_ok_iff_of_error_iff {step : Except ε α} {step' : Except ε β}
    (h : ∀ fault, step = .error fault ↔ step' = .error fault) :
    (∃ a, step = .ok a) ↔ ∃ b, step' = .ok b := by
  cases step with
  | error fault => simp [(h fault).1 rfl]
  | ok a =>
    cases step' with
    | error fault => exact absurd ((h fault).2 rfl) (by simp)
    | ok b => simp

theorem map_eq_error_iff {step : Except ε α} {f : α → β} {fault : ε} :
    f <$> step = .error fault ↔ step = .error fault := by
  cases step <;> simp [Functor.map, Except.map]

/-- A check fails with its own fault, or what comes behind it fails. -/
theorem ite_error_eq_error_iff {p : Prop} [Decidable p] {own fault : ε} {rest : Except ε β} :
    (if p then .error own else rest) = .error fault ↔
      p ∧ own = fault ∨ ¬ p ∧ rest = .error fault := by
  by_cases hp : p <;> simp [hp]

/-- A step over a list fails exactly with the fault of the leftmost element that has one. -/
theorem mapM_eq_error_iff {f : α → Except ε β} {as : List α} {fault : ε} :
    as.mapM f = .error fault ↔ ∃ before a after, as = before ++ a :: after ∧
      (∀ b ∈ before, ∃ c, f b = .ok c) ∧ f a = .error fault := by
  induction as with
  | nil => simp [pure, Except.pure]
  | cons a as ih =>
    have hstep : (a :: as).mapM f = .error fault ↔
        f a = .error fault ∨ ∃ b, f a = .ok b ∧ as.mapM f = .error fault := by
      rw [List.mapM_cons, bind_eq_error_iff]
      simp only [bind_eq_error_iff, pure, Except.pure, reduceCtorEq, and_false, exists_false,
        or_false]
    rw [hstep, ih]
    constructor
    · intro h
      rcases h with hfirst | ⟨b, hfirst, before, a', after, rfl, hbefore, hfault⟩
      · exact ⟨[], a, as, rfl, by simp, hfirst⟩
      · refine ⟨a :: before, a', after, rfl, ?_, hfault⟩
        rw [List.forall_mem_cons]
        exact ⟨⟨b, hfirst⟩, hbefore⟩
    · intro h
      rcases h with ⟨before, a', after, hsplit, hbefore, hfault⟩
      cases before with
      | nil =>
        obtain ⟨rfl, rfl⟩ := List.cons.inj hsplit
        exact .inl hfault
      | cons first before =>
        obtain ⟨rfl, rfl⟩ := List.cons.inj hsplit
        rw [List.forall_mem_cons] at hbefore
        obtain ⟨⟨b, hfirst⟩, hbefore⟩ := hbefore
        exact .inr ⟨b, hfirst, before, a', after, rfl, hbefore, hfault⟩

/-- A step over a list of lists fails as the same step over all their elements. -/
theorem mapM_flatMap_eq_error_iff {γ δ : Type} {f : α → Except ε β} {g : α → List γ}
    {test : γ → Except ε δ} {as : List α} {fault : ε}
    (h : ∀ a ∈ as, ∀ fault, f a = .error fault ↔ (g a).mapM test = .error fault) :
    as.mapM f = .error fault ↔ (as.flatMap g).mapM test = .error fault := by
  induction as with
  | nil => simp [pure, Except.pure]
  | cons a as ih =>
    rw [List.forall_mem_cons] at h
    have hgood := exists_ok_iff_of_error_iff h.1
    rw [List.mapM_cons, List.flatMap_cons, List.mapM_append]
    simp only [bind_eq_error_iff, pure, Except.pure, reduceCtorEq, and_false, exists_false,
      or_false, h.1 fault, ih h.2, exists_and_right, hgood]

/-! ## Elements and their outcomes -/

/-- Every element has its partner in the other list. -/
theorem exists_mem_of_forall₂ {R : α → β → Prop} {as : List α} {bs : List β}
    (h : List.Forall₂ R as bs) {a : α} (ha : a ∈ as) : ∃ b ∈ bs, R a b := by
  induction h with
  | nil => cases ha
  | @cons a' b as bs hfirst _ ih =>
    rcases List.mem_cons.1 ha with rfl | hmem
    · exact ⟨b, List.mem_cons_self, hfirst⟩
    · rcases ih hmem with ⟨b', hb', hpair⟩
      exact ⟨b', List.mem_cons_of_mem _ hb', hpair⟩

/-- Elements that have the same partners may stand in for each other. -/
theorem forall₂_congr_at {R : α → β → Prop} {a a' : α} (h : ∀ b, R a b ↔ R a' b)
    {before after : List α} {bs : List β} :
    List.Forall₂ R (before ++ a :: after) bs ↔ List.Forall₂ R (before ++ a' :: after) bs := by
  induction before generalizing bs with
  | nil => simp only [List.nil_append, List.forall₂_cons_left_iff, h]
  | cons first before ih => simp only [List.cons_append, List.forall₂_cons_left_iff, ih]

/-- A step that goes well over a list goes well for every element. -/
theorem exists_ok_of_mapM_eq_ok {f : α → Except ε β} {as : List α} {bs : List β}
    (h : as.mapM f = .ok bs) {a : α} (ha : a ∈ as) : ∃ b ∈ bs, f a = .ok b :=
  exists_mem_of_forall₂ (mapM_eq_ok_iff.1 h) ha

/-- What a step over a list gives, it gives of an element. -/
theorem exists_of_mapM_eq_ok {f : α → Except ε β} {as : List α} {bs : List β}
    (h : as.mapM f = .ok bs) {b : β} (hb : b ∈ bs) : ∃ a ∈ as, f a = .ok b :=
  exists_mem_of_forall₂ (mapM_eq_ok_iff.1 h).flip hb

/-- Over the images of a list, a step that gives every element back under a condition gives back the
list. -/
theorem mapM_map_eq_ok_iff {f : α → Except ε β} {g : β → α} {p : β → Prop} {as bs : List β}
    (h : ∀ a ∈ as, ∀ b, f (g a) = .ok b ↔ b = a ∧ p a) :
    (as.map g).mapM f = .ok bs ↔ bs = as ∧ ∀ a ∈ as, p a := by
  rw [mapM_eq_ok_iff, List.forall₂_map_left_iff]
  induction as generalizing bs with
  | nil => simp
  | cons a as ih =>
    rw [List.forall₂_cons_left_iff, List.forall_mem_cons]
    have hrest : ∀ bs, List.Forall₂ (fun c b => f (g c) = .ok b) as bs ↔ bs = as ∧ ∀ a ∈ as, p a :=
      fun _ => ih fun b hb => h b (List.mem_cons_of_mem a hb)
    constructor
    · rintro ⟨b, bs', hfirst, hbs', rfl⟩
      rcases (h a List.mem_cons_self b).1 hfirst with ⟨rfl, hp⟩
      rcases (hrest bs').1 hbs' with ⟨rfl, hall⟩
      exact ⟨rfl, hp, hall⟩
    · rintro ⟨rfl, hp, hall⟩
      exact ⟨a, as, (h a List.mem_cons_self a).2 ⟨rfl, hp⟩, (hrest as).2 ⟨rfl, hall⟩, rfl⟩

/-- A step that either goes well or fails with one and the same fault does so over a list. -/
theorem mapM_eq_ite {f : α → Except ε β} {g : α → β} {p : α → Prop} [DecidablePred p] {fault : ε}
    {as : List α} (h : ∀ a ∈ as, f a = if p a then .ok (g a) else .error fault) :
    as.mapM f = if ∀ a ∈ as, p a then .ok (as.map g) else .error fault := by
  induction as with
  | nil => simp [pure, Except.pure]
  | cons a as ih =>
    rw [List.mapM_cons, h a List.mem_cons_self, ih fun b hb => h b (List.mem_cons_of_mem a hb)]
    by_cases hfirst : p a
    · by_cases hrest : ∀ b ∈ as, p b
      · rw [if_pos hfirst, if_pos hrest, if_pos (List.forall_mem_cons.2 ⟨hfirst, hrest⟩)]
        rfl
      · rw [if_pos hfirst, if_neg hrest, if_neg fun hall => hrest (List.forall_mem_cons.1 hall).2]
        rfl
    · rw [if_neg hfirst, if_neg fun hall => hfirst (List.forall_mem_cons.1 hall).1]
      rfl

end ListingFilter
