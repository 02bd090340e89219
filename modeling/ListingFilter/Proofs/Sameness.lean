import ListingFilter.Proofs.Orderings
import ListingFilter.Proofs.Roundtrip

/-!
# Sameness — trees that differ in the signs of zeros

Trees are the same when they are equal but for their numbers, which are compared by value. So the two
zeros may stand for each other, though they are written differently. A comparison does not see the
difference (`Scalar.compare?_eq_of_same`); `LIKE` looks at written forms and would. In a tree that was
read `LIKE` has a text to look for, and the values of linked records and free attributes are texts,
too. Texts are the same only if they are equal (`Scalar.eq_of_same`), so a tree that was read stands
for the same test as every tree that is the same (`Settings.compiles_of_same`).
-/

namespace ListingFilter

/-! ## Scalars and values -/

namespace Scalar

variable {a b : Scalar}

/-- Only numbers may be the same and yet different. -/
theorem eq_of_same (h : a.same b) (ha : ∀ number, a ≠ .number number) : a = b := by
  cases a with
  | number number => exact absurd rfl (ha number)
  | text content => simpa [same] using h
  | boolean flag => simpa [same] using h
  | instant value => simpa [same] using h

/-- Scalars that are the same come before and after the same scalars. -/
theorem compare?_eq_of_same (h : a.same b) (actual : Scalar) :
    actual.compare? a = actual.compare? b := by
  by_cases hnumber : ∃ number, a = .number number
  · rcases hnumber with ⟨m, rfl⟩
    cases b with
    | number n =>
      -- a comparison sees nothing of a number but its place
      have hplace : m.place? = n.place? := Number.place?_eq_of_equals h
      cases actual <;> simp [compare?, Number.compare?, hplace]
    | text | boolean | instant => simp [same] at h
  · rw [not_exists] at hnumber
    rw [eq_of_same h hnumber]

theorem compares_eq_of_same (h : a.same b) (actual : Scalar) (operator : Operator) :
    actual.compares operator a = actual.compares operator b := by
  rw [compares, compares, compare?_eq_of_same h]

end Scalar

namespace Value

variable {v w : Value}

/-- Values that are the same have the same scalars at the same places. -/
theorem forall₂_scalars_of_same (h : v.same w) :
    List.Forall₂ (fun a b => a.same b) v.scalars w.scalars := by
  cases v <;> cases w
  case single.single a b => exact .cons h .nil
  case list.list as bs => exact same_list_iff.1 h
  all_goals cases h

/-- Values without numbers are the same only if they are equal. -/
theorem eq_of_same (h : v.same w) (hv : ∀ scalar ∈ v.scalars, ∀ number, scalar ≠ .number number) :
    v = w := by
  have hscalars : v.scalars = w.scalars := by
    rw [← List.forall₂_eq_eq_eq]
    have hboth := (List.forall₂_and_left _ _).2 ⟨hv, forall₂_scalars_of_same h⟩
    exact hboth.imp fun a b hab => Scalar.eq_of_same hab.2 hab.1
  cases v <;> cases w
  case single.single a b =>
    rw [(List.cons.inj hscalars).1]
  case list.list as bs =>
    obtain rfl : as = bs := hscalars
    rfl
  all_goals cases h

/-- Unless it looks at written forms, a test does not tell values that are the same. -/
theorem passes_eq_of_same (h : v.same w) {operator : Operator} (hlike : operator ≠ .like)
    (actual : Scalar) : actual.passes operator v = actual.passes operator w := by
  have hpasses : ∀ value : Value, actual.passes operator value =
      if operator = .isIn then value.scalars.any (actual.compares .equal)
      else value.scalars.head?.any (actual.compares operator) := by
    intro value
    cases operator <;> first | rfl | contradiction
  have hscalars := forall₂_scalars_of_same h
  rw [hpasses, hpasses]
  generalize v.scalars = as at hscalars
  generalize w.scalars = bs at hscalars
  split
  · induction hscalars with
    | nil => rfl
    | cons hfirst _ ih =>
      rw [List.any_cons, List.any_cons, Scalar.compares_eq_of_same hfirst, ih]
  · cases hscalars with
    | nil => rfl
    | cons hfirst _ => exact Scalar.compares_eq_of_same hfirst actual operator

/-- The values of fields and operators hold numbers only where a column is compared. -/
theorem Suits.no_number_or_column {field : Field} {operator : Operator}
    (h : v.Suits field operator) :
    (∀ scalar ∈ v.scalars, ∀ number, scalar ≠ .number number) ∨
      (∃ name, field = .standard name) ∧ operator ≠ .like := by
  have htexts : ∀ texts : List Text,
      ∀ scalar ∈ (list (texts.map .text)).scalars, ∀ number, scalar ≠ .number number := by
    intro texts scalar hscalar number
    rcases List.mem_map.1 hscalar with ⟨text, -, rfl⟩
    exact nofun
  have htext : ∀ content : Text,
      ∀ scalar ∈ (single (.text content)).scalars, ∀ number, scalar ≠ .number number := by
    intro content scalar hscalar number
    rw [List.mem_singleton.1 hscalar]
    exact nofun
  cases h with
  | labels texts => exact .inl (htexts texts)
  | rows texts => exact .inl (htexts texts)
  | row content _ => exact .inl (htext content)
  | pattern content => exact .inl (htext content)
  | choices _ => exact .inr ⟨⟨_, rfl⟩, nofun⟩
  | comparison hlike _ _ => exact .inr ⟨⟨_, rfl⟩, hlike⟩

end Value

/-! ## Conditions and trees -/

namespace Matcher

/-- A well-formed condition stands for the same test as every condition that is the same. -/
theorem ofTree_leaf_eq_of_same {a b : Condition} (ha : a.WellFormed) (h : a.same b) :
    ofTree (.leaf a) = ofTree (.leaf b) := by
  rcases a with ⟨field, operator, v, proviso⟩
  rcases b with ⟨field', operator', w, proviso'⟩
  simp only [Condition.same, Bool.and_eq_true, beq_iff_eq] at h
  rcases h with ⟨⟨⟨rfl, rfl⟩, hvalue⟩, rfl⟩
  rcases ha.suits.no_number_or_column with hnumbers | ⟨⟨name, hname⟩, hlike⟩
  · rw [Value.eq_of_same hvalue hnumbers]
  · -- a column is compared, and the comparison sees no difference
    obtain rfl : field = .standard name := hname
    rw [ofTree_leaf, ofTree_leaf]
    simp only [Probe.of, Except.bind, ofProbe, Value.passes_eq_of_same hvalue hlike]

/-- Members with the same tests behind the same connectives have the same queries. -/
theorem ofMembers_congr {as bs : List Member}
    (h : List.Forall₂ (Paired fun a b => ofTree a = ofTree b) as bs) :
    ofMembers as = ofMembers bs := by
  induction h with
  | nil => rfl
  | @cons a b as bs hfirst _ ih =>
    rcases a with ⟨joint, a⟩
    rcases b with ⟨joint', b⟩
    obtain ⟨rfl, htest⟩ : joint = joint' ∧ ofTree a = ofTree b := hfirst
    rw [ofMembers, ofMembers, htest, ih]

/-- A tree of well-formed conditions stands for the same test as every tree that is the same, or for
none with the same fault. -/
theorem ofTree_eq_of_same {a b : Tree} (ha : a.Shaped Condition.WellFormed) (h : a.same b) :
    ofTree a = ofTree b := by
  induction ha generalizing b with
  | leaf hcondition =>
    cases b with
    | group members => cases h
    | leaf condition => exact ofTree_leaf_eq_of_same hcondition h
  | @group members _ _ ih =>
    cases b with
    | leaf condition => cases h
    | group members' =>
      have hsame := Tree.sameMembers_iff.1 h
      have htests := (List.forall₂_and_left _ _).2 ⟨ih, hsame⟩
      rw [ofTree_group, ofTree_group]
      rw [ofMembers_congr (htests.imp fun a b hab => ⟨hab.2.1, hab.1 hab.2.2⟩)]

end Matcher

/-! ## Filters -/

/-- A tree that was read and any tree that is the same, read or not, come to the same: both are
refused with the same fault, or both are compiled to tests that pass the same listings. -/
theorem Settings.compiles_of_same {settings : Settings} {text : Text} {a b : Tree}
    (ha : settings.parse text = .ok a) (h : a.same b) :
    (∃ fault, Matcher.ofTree a = .error fault ∧ Matcher.ofTree b = .error fault) ∨
      ∃ matcher matcher', Matcher.ofTree a = .ok matcher ∧ Matcher.ofTree b = .ok matcher' ∧
        ∀ listing, matcher listing = matcher' listing := by
  have hsame := Matcher.ofTree_eq_of_same (wellFormed_of_parse ha) h
  cases htest : Matcher.ofTree a with
  | error fault => exact .inl ⟨fault, rfl, hsame.symm.trans htest⟩
  | ok matcher => exact .inr ⟨matcher, matcher, rfl, hsame.symm.trans htest, fun _ => rfl⟩

/-- The tree of `salary_min >= 0 OR title LIKE 0` with one of the two zeros. -/
def Tree.salaryFrom (zero : Number) : Tree :=
  .group [
    (none, .leaf ⟨.standard "salary_min".toList, .greaterOrEqual, .single (.number zero), none⟩),
    (some .or, .leaf ⟨.standard "title".toList, .like, .single (.text "0".toList), none⟩)]

/-- The two zeros are written differently, and no listing tells them apart. -/
theorem Settings.compiles_of_same_zeros :
    parse {} "salary_min >= -0 OR title LIKE 0".toList = .ok (Tree.salaryFrom (.ofRank true 0)) ∧
      parse (unlimited .upperCase) "(salary_min >= 0.0) OR (title LIKE 0)".toList =
        .ok (Tree.salaryFrom (.ofRank false 0)) ∧
      (Tree.salaryFrom (.ofRank true 0)).same (Tree.salaryFrom (.ofRank false 0)) ∧
      (Tree.salaryFrom (.ofRank true 0)).written ≠ (Tree.salaryFrom (.ofRank false 0)).written ∧
      ∃ matcher matcher', Matcher.ofTree (Tree.salaryFrom (.ofRank true 0)) = .ok matcher ∧
        Matcher.ofTree (Tree.salaryFrom (.ofRank false 0)) = .ok matcher' ∧
        ∀ listing, matcher listing = matcher' listing := by
  have hparse : parse {} "salary_min >= -0 OR title LIKE 0".toList =
      .ok (Tree.salaryFrom (.ofRank true 0)) := by
    decide +kernel
  have hsame : (Tree.salaryFrom (.ofRank true 0)).same (Tree.salaryFrom (.ofRank false 0)) := by
    decide +kernel
  refine ⟨hparse, by decide +kernel, hsame, by decide +kernel, ?_⟩
  rcases compiles_of_same hparse hsame with ⟨fault, hfault, -⟩ | htests
  · cases hfault
  · exact htests

/-- A tree that is never read: its `LIKE` looks for a number and not for a text. -/
def Tree.titleLike (number : Number) : Tree :=
  .leaf ⟨.standard "title".toList, .like, .single (.number number), none⟩

/-- In such trees the sign of a zero counts. -/
example : (Tree.titleLike (.ofRank false 0)).same (Tree.titleLike (.ofRank true 0)) ∧
    ∃ matcher matcher', Matcher.ofTree (Tree.titleLike (.ofRank false 0)) = .ok matcher ∧
      Matcher.ofTree (Tree.titleLike (.ofRank true 0)) = .ok matcher' ∧
      matcher { title := "0".toList } ≠ matcher' { title := "0".toList } :=
  ⟨by decide +kernel, _, _, rfl, rfl, by decide +kernel⟩

end ListingFilter
