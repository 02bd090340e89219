import ListingFilter.Parentheses
import ListingFilter.Proofs.Trimming
import Mathlib.Data.List.Induction

/-!
# Balance — parentheses by counting

A text is balanced when no start of it closes more parentheses than it opens, and the whole of it
closes as many as it opens. This is the reading of `Text.isBalanced` that needs no walk through the
text: `level?_eq_some_iff` says that the walk counts, and `isBalanced_iff` that the two agree.

Balanced texts can be put side by side, put in parentheses, and taken apart where one of them ends.
-/

namespace ListingFilter

namespace Text

/-- Every parenthesis has its partner: none closes before it is opened, and all are closed. -/
structure Balanced (text : Text) : Prop where
  /-- No start of the text closes more parentheses than it opens. -/
  count_le : ∀ start : Text, start <+: text → start.count ')' ≤ start.count '('
  /-- As many parentheses close as open. -/
  count_eq : text.count '(' = text.count ')'

/-! ## The walk counts -/

/-- A start of `c :: rest` is empty or `c` before a start of `rest`. -/
theorem forall_prefix_cons_iff {c : Char} {rest : Text} {P : Text → Prop} :
    (∀ start : Text, start <+: c :: rest → P start) ↔
      P [] ∧ ∀ start : Text, start <+: rest → P (c :: start) := by
  constructor
  · intro h
    refine ⟨h [] List.nil_prefix, ?_⟩
    intro start hstart
    exact h (c :: start) (List.cons_prefix_cons.2 ⟨rfl, hstart⟩)
  · rintro ⟨hnil, hcons⟩ start hstart
    cases start with
    | nil => exact hnil
    | cons d start =>
      obtain ⟨rfl, hstart'⟩ := List.cons_prefix_cons.1 hstart
      exact hcons start hstart'

theorem count_open (text : Text) : ('(' :: text).count '(' = text.count '(' + 1 ∧
    ('(' :: text).count ')' = text.count ')' := by
  simp

theorem count_close (text : Text) : (')' :: text).count '(' = text.count '(' ∧
    (')' :: text).count ')' = text.count ')' + 1 := by
  simp

/-- A walk that starts with `depth` open parentheses and goes through to the end never closes one
that is not open, and ends with those left over. -/
theorem level?_eq_some_iff {depth reached : Nat} {text : Text} :
    level? depth text = some reached ↔
      (∀ start : Text, start <+: text → start.count ')' ≤ depth + start.count '(') ∧
        depth + text.count '(' = reached + text.count ')' := by
  induction text generalizing depth with
  | nil => simp [level?]
  | cons c rest ih =>
    rw [forall_prefix_cons_iff]
    by_cases hopen : c = '('
    · have hstep : level? depth (c :: rest) = level? (depth + 1) rest := by simp [level?, hopen]
      have hcount : ∀ n m : Nat, n ≤ depth + (m + 1) ↔ n ≤ depth + 1 + m := by omega
      rw [hstep, ih, hopen]
      simp only [count_open, hcount, List.count_nil]
      constructor
      · rintro ⟨hle, heq⟩
        exact ⟨⟨by omega, hle⟩, by omega⟩
      · rintro ⟨⟨-, hle⟩, heq⟩
        exact ⟨hle, by omega⟩
    · by_cases hclose : c = ')'
      · cases depth with
        | zero =>
          -- the first character closes a parenthesis that is not open
          have hstep : level? 0 (c :: rest) = none := by simp [level?, hclose]
          rw [hstep]
          constructor
          · intro h
            cases h
          · rintro ⟨⟨-, hle⟩, -⟩
            have hfirst := hle [] List.nil_prefix
            simp [hclose] at hfirst
        | succ depth =>
          have hstep : level? (depth + 1) (c :: rest) = level? depth rest := by
            simp [level?, hclose]
          have hcount : ∀ n m : Nat, n + 1 ≤ depth + 1 + m ↔ n ≤ depth + m := by omega
          rw [hstep, ih, hclose]
          simp only [count_close, hcount, List.count_nil]
          constructor
          · rintro ⟨hle, heq⟩
            exact ⟨⟨by omega, hle⟩, by omega⟩
          · rintro ⟨⟨-, hle⟩, heq⟩
            exact ⟨hle, by omega⟩
      · have hstep : level? depth (c :: rest) = level? depth rest := by
          simp [level?, hopen, hclose]
        rw [hstep, ih]
        simp [hopen, hclose]

/-- The walk and the counts agree on which texts are balanced. -/
theorem isBalanced_iff {text : Text} : text.isBalanced ↔ text.Balanced := by
  rw [isBalanced, beq_iff_eq, level?_eq_some_iff]
  constructor
  · rintro ⟨hle, heq⟩
    exact ⟨fun start hs => by simpa using hle start hs, by simpa using heq⟩
  · rintro ⟨hle, heq⟩
    exact ⟨fun start hs => by simpa using hle start hs, by simpa using heq⟩

theorem balanced_iff_level? {text : Text} : text.Balanced ↔ level? 0 text = some 0 := by
  rw [← isBalanced_iff, isBalanced, beq_iff_eq]

/-- Parentheses already open before the text stay open behind it. -/
theorem level?_add {depth reached : Nat} {text : Text} (extra : Nat)
    (h : level? depth text = some reached) :
    level? (depth + extra) text = some (reached + extra) := by
  rw [level?_eq_some_iff] at h ⊢
  obtain ⟨hle, heq⟩ := h
  constructor
  · intro start hstart
    have hstartLe := hle start hstart
    omega
  · omega

/-- A balanced text leaves as many parentheses open as there were. -/
theorem Balanced.level? {text : Text} (h : text.Balanced) (depth : Nat) :
    Text.level? depth text = some depth := by
  simpa using level?_add depth (balanced_iff_level?.1 h)

/-! ## Putting together and taking apart -/

@[simp] theorem balanced_nil : Balanced [] := by
  simp [balanced_iff_level?, Text.level?]

/-- Behind a balanced text the rest decides. -/
theorem balanced_append_iff {a b : Text} (ha : a.Balanced) :
    Balanced (a ++ b) ↔ b.Balanced := by
  simp [balanced_iff_level?, level?_append, ha.level?]

/-- Before a balanced text the rest decides. -/
theorem append_balanced_iff {a b : Text} (hb : b.Balanced) : Balanced (a ++ b) ↔ a.Balanced := by
  rw [balanced_iff_level?, balanced_iff_level?, level?_append]
  cases h : Text.level? 0 a with
  | none => simp
  | some depth => simp [hb.level?]

theorem Balanced.append {a b : Text} (ha : a.Balanced) (hb : b.Balanced) :
    Balanced (a ++ b) :=
  (balanced_append_iff ha).2 hb

/-- A text without parentheses is balanced. -/
theorem balanced_of_forall {text : Text} (h : ∀ c ∈ text, c ≠ '(' ∧ c ≠ ')') : text.Balanced := by
  have hnone : ∀ (start : Text) (c : Char), start <+: text → c = '(' ∨ c = ')' →
      start.count c = 0 := by
    intro start c hs hc
    apply List.count_eq_zero.2
    intro hmem
    have := h c (hs.subset hmem)
    rcases hc with rfl | rfl <;> simp at this
  constructor
  · intro start hstart
    rw [hnone start ')' hstart (.inr rfl)]
    exact Nat.zero_le _
  · have hwhole : text <+: text := List.prefix_refl text
    rw [hnone text '(' hwhole (.inl rfl), hnone text ')' hwhole (.inr rfl)]

/-- White space is balanced. -/
theorem balanced_of_isBlank {text : Text} (h : text.isBlank) : text.Balanced := by
  apply balanced_of_forall
  intro c hc
  exact ne_parenthesis_of_isSpace (List.all_eq_true.1 h c hc)

/-- A balanced text stays balanced in parentheses. -/
theorem Balanced.group {inner : Text} (h : inner.Balanced) :
    Balanced ('(' :: inner ++ [')']) := by
  have hopen : Text.level? 0 ('(' :: inner ++ [')']) = Text.level? 1 (inner ++ [')']) := rfl
  rw [balanced_iff_level?, hopen, level?_append, h.level?]
  rfl

/-- The groups, as far as reading sees them. -/
theorem enclosed?_eq_some_iff_balanced {text inner : Text} :
    enclosed? text = some inner ↔ text = '(' :: inner ++ [')'] ∧ inner.Balanced := by
  rw [enclosed?_eq_some_iff, isBalanced_iff]

theorem enclosed?_eq_none_iff {text : Text} :
    enclosed? text = none ↔ ∀ inner : Text, inner.Balanced → text ≠ '(' :: inner ++ [')'] := by
  rw [Option.eq_none_iff_forall_ne_some]
  constructor
  · intro h inner hinner heq
    exact h inner (enclosed?_eq_some_iff_balanced.2 ⟨heq, hinner⟩)
  · intro h inner henclosed
    rcases enclosed?_eq_some_iff_balanced.1 henclosed with ⟨heq, hinner⟩
    exact h inner hinner heq

/-- Only the whole of a group is balanced among its starts, the empty one apart: behind all others
its first parenthesis is still open. -/
theorem eq_nil_of_balanced_start {inner before after : Text} (hinner : inner.Balanced)
    (hbefore : before.Balanced) (hne : before ≠ [])
    (h : '(' :: inner ++ [')'] = before ++ after) : after = [] := by
  cases after using List.reverseRecOn with
  | nil => rfl
  | append_singleton middle last =>
    exfalso
    cases before with
    | nil => exact hne rfl
    | cons c start =>
      rw [List.cons_append, List.cons_append, List.cons.injEq, ← List.append_assoc] at h
      obtain ⟨rfl, hrest⟩ := h
      have hstart : start <+: inner := ⟨middle, (List.append_inj' hrest rfl).1.symm⟩
      have hle := hinner.count_le start hstart
      have heq := hbefore.count_eq
      simp at heq
      omega

/-- What is balanced together with the text before it stays so in parentheses. -/
theorem balanced_append_group {before text : Text} (h : Balanced (before ++ text)) :
    Balanced (before ++ '(' :: text ++ [')']) := by
  rw [balanced_iff_level?, level?_append, Option.bind_eq_some_iff] at h
  rcases h with ⟨depth, hbefore, htext⟩
  have hclose : Text.level? (depth + 1) (text ++ [')']) = some 0 := by
    rw [level?_append, level?_add 1 htext]
    rfl
  rw [balanced_iff_level?, List.append_assoc, level?_append, hbefore]
  exact hclose

/-! ## The parentheses alone -/

/-- The parentheses of a text in order, without all else. -/
def parentheses (text : Text) : Text :=
  text.filter fun c => c == '(' || c == ')'

@[simp] theorem parentheses_append (a b : Text) :
    parentheses (a ++ b) = parentheses a ++ parentheses b :=
  List.filter_append ..

theorem parentheses_group (inner : Text) :
    parentheses ('(' :: inner ++ [')']) = '(' :: parentheses inner ++ [')'] := by
  rw [parentheses_append]
  rfl

theorem parentheses_eq_nil_iff {text : Text} :
    text.parentheses = [] ↔ ∀ c ∈ text, c ≠ '(' ∧ c ≠ ')' := by
  simp [parentheses]

theorem parentheses_eq_nil_of_not_mem {text : Text} (h : '(' ∉ text ∧ ')' ∉ text) :
    text.parentheses = [] := by
  apply parentheses_eq_nil_iff.2
  intro c hc
  constructor
  · rintro rfl
    exact h.1 hc
  · rintro rfl
    exact h.2 hc

theorem parentheses_of_isBlank {text : Text} (h : text.isBlank) : text.parentheses = [] := by
  apply parentheses_eq_nil_iff.2
  intro c hc
  exact ne_parenthesis_of_isSpace (List.all_eq_true.1 h c hc)

@[simp] theorem parentheses_trim (text : Text) : text.trim.parentheses = text.parentheses := by
  rcases exists_append_trim_append text with ⟨before, after, hbefore, hafter, hjoin⟩
  conv_rhs => rw [← hjoin]
  simp [parentheses_of_isBlank hbefore, parentheses_of_isBlank hafter]

/-- Only the parentheses count in a walk. -/
theorem level?_parentheses (depth : Nat) (text : Text) :
    level? depth text.parentheses = level? depth text := by
  induction text generalizing depth with
  | nil => rfl
  | cons c rest ih =>
    by_cases hopen : c = '('
    · subst hopen
      exact ih (depth + 1)
    · by_cases hclose : c = ')'
      · subst hclose
        cases depth with
        | zero => rfl
        | succ depth => exact ih depth
      · have hskip : parentheses (c :: rest) = parentheses rest := by
          simp [parentheses, hopen, hclose]
        rw [hskip, ih]
        simp [Text.level?, hopen, hclose]

theorem balanced_iff_of_parentheses_eq {a b : Text} (h : a.parentheses = b.parentheses) :
    a.Balanced ↔ b.Balanced := by
  rw [balanced_iff_level?, balanced_iff_level?, ← level?_parentheses, h, level?_parentheses]

theorem count_eq_of_parentheses_eq {a b : Text} (h : a.parentheses = b.parentheses) :
    a.count '(' = b.count '(' := by
  have hcount := congrArg (List.count '(') h
  rwa [parentheses, parentheses, List.count_filter (by decide), List.count_filter (by decide)]
    at hcount

/-- What is balanced together with the text before it stays so when it is stripped. -/
theorem balanced_append_strip {before text : Text} (h : Balanced (before ++ text)) :
    Balanced (before ++ text.strip) := by
  unfold strip
  split
  · rename_i inner henclosed
    rcases enclosed?_eq_some_iff_balanced.1 henclosed with ⟨htrim, hinner⟩
    have htext : text.Balanced := by
      rw [← balanced_iff_of_parentheses_eq (parentheses_trim text), htrim]
      exact hinner.group
    have hbefore := (append_balanced_iff htext).1 h
    exact hbefore.append ((balanced_iff_of_parentheses_eq (parentheses_trim inner)).2 hinner)
  · refine (balanced_iff_of_parentheses_eq ?_).2 h
    simp

end Text

end ListingFilter
