import ListingFilter.Proofs.Columns
import ListingFilter.Proofs.Memberships
import ListingFilter.Text.LowerCase

/-!
# Casing — lower case and the texts around

The lower case of a character does not depend on its neighbours, save for the capital sigma, whose
lower case hangs on the nearest characters on both sides that casing does not look through. So the
lower case of a piece of a text may differ from the lower case of the piece alone, at a sigma near
one of its ends. `Text.HasOpenSigma` says at which (`Text.lowerWithin_eq_lower`).

`LIKE` compares lower cases. It finds a pattern in every text that holds it, and a piece of a pattern
wherever it finds the pattern, exactly if the pattern (the piece) has no such sigma. That is the main
statement, `Matcher.like_iff_not_hasOpenSigma`.
-/

namespace ListingFilter

namespace Text

/-! ## The lower case of a piece of a text -/

/-- The lower case of `text` where it stands between two others, the first of them read backwards. -/
def lowerWithin (before : Text) : Text → Text → Text
  | [], _ => []
  | c :: rest, after =>
    (if c = '\u03A3' then [lowerSigma before (rest ++ after)] else lowerChar c) ++
      lowerWithin (c :: before) rest after

variable {text x y : Text}

theorem lowerAfter_append (before text after : Text) :
    lowerAfter before (text ++ after) =
      lowerWithin before text after ++ lowerAfter (text.reverse ++ before) after := by
  induction text generalizing before with
  | nil => rfl
  | cons c text ih => simp [lowerAfter, lowerWithin, ih]

theorem lower_eq_lowerWithin (text : Text) : text.lower = lowerWithin [] text [] := by
  have hend := lowerAfter_append [] text []
  simpa [lower, lowerAfter] using hend

/-- A piece of a text is a piece of its lower case, in the lower case that it has there. -/
theorem lowerWithin_isInfix (before text after : Text) :
    lowerWithin before.reverse text after <:+: lower (before ++ text ++ after) := by
  rw [lower, List.append_assoc, lowerAfter_append, List.append_nil, lowerAfter_append,
    ← List.append_assoc]
  exact List.infix_append ..

theorem lowerWithin_append (before x y after : Text) :
    lowerWithin before (x ++ y) after =
      lowerWithin before x (y ++ after) ++ lowerWithin (x.reverse ++ before) y after := by
  induction x generalizing before with
  | nil => rfl
  | cons c x ih => simp [lowerWithin, ih]

/-! ## What a sigma depends on -/

/-- Casing looks through all of the text. -/
def IsTransparent (text : Text) : Prop :=
  ∀ c ∈ text, isCaseIgnorable c

theorem IsTransparent.leansOnCased_append (h : x.IsTransparent) (y : Text) :
    leansOnCased (x ++ y) = leansOnCased y := by
  unfold leansOnCased
  rw [List.dropWhile_append_of_pos h]

theorem leansOnCased_append_of_not_isTransparent (h : ¬ x.IsTransparent) (y : Text) :
    leansOnCased (x ++ y) = leansOnCased x := by
  unfold leansOnCased
  induction x with
  | nil => exact absurd (List.forall_mem_nil _) h
  | cons c x ih =>
    rw [List.cons_append]
    by_cases hc : isCaseIgnorable c
    · rw [List.dropWhile_cons_of_pos hc, List.dropWhile_cons_of_pos hc]
      exact ih fun hx => h (List.forall_mem_cons.2 ⟨hc, hx⟩)
    · rw [List.dropWhile_cons_of_neg hc, List.dropWhile_cons_of_neg hc]
      rfl

theorem IsTransparent.not_leansOnCased (h : x.IsTransparent) : leansOnCased x = false := by
  have hnil := h.leansOnCased_append []
  rw [List.append_nil] at hnil
  rw [hnil]
  rfl

theorem isTransparent_reverse_iff : IsTransparent x.reverse ↔ x.IsTransparent := by
  simp [IsTransparent]

/-- The sigma is no character that casing looks through. -/
theorem not_isTransparent_sigma (x y : Text) : ¬ IsTransparent (x ++ '\u03A3' :: y) := by
  intro h
  exact absurd (h '\u03A3' (by simp)) (by decide +kernel)

/-- The lower case of a sigma between `x` and `y` may change with the texts around the two. -/
def IsOpen (x y : Text) : Prop :=
  x.IsTransparent ∧ ¬ leansOnCased y ∨ leansOnCased x.reverse ∧ y.IsTransparent

/-- The lower case of a sigma that is not open is the same whatever stands around. -/
theorem lowerSigma_append (h : ¬ IsOpen x y) (before after : Text) :
    lowerSigma (x.reverse ++ before) (y ++ after) = lowerSigma x.reverse y := by
  unfold IsOpen at h
  rw [not_or, not_and, not_and, not_not] at h
  unfold lowerSigma
  by_cases hx : x.IsTransparent
  · -- then a cased character comes first behind the sigma
    have hcased := h.1 hx
    have hy : ¬ y.IsTransparent := by
      intro hy
      rw [hy.not_leansOnCased] at hcased
      cases hcased
    rw [leansOnCased_append_of_not_isTransparent hy, hcased]
    simp only [Bool.not_true, Bool.and_false]
  · rw [leansOnCased_append_of_not_isTransparent (mt isTransparent_reverse_iff.1 hx)]
    by_cases hy : y.IsTransparent
    · -- then no cased character comes first in front of it
      have hnone : leansOnCased x.reverse = false := Bool.eq_false_iff.2 fun hcased => h.2 hcased hy
      rw [hnone]
      simp only [Bool.false_and]
    · rw [leansOnCased_append_of_not_isTransparent hy]

/-! ## Patterns whose lower case is fixed -/

/-- Some sigma of the text is open: nothing but characters that casing looks through stands on one
side of it, and the other side does not settle its lower case. -/
def HasOpenSigma (text : Text) : Prop :=
  ∃ x y : Text, text = x ++ '\u03A3' :: y ∧ IsOpen x y

/-- A text that begins and ends with characters that casing does not look through, and with no sigma,
has no open sigma. -/
theorem not_hasOpenSigma_of_ends {c d : Char} (hc : ¬ isCaseIgnorable c) (hd : ¬ isCaseIgnorable d)
    (hfirst : c ≠ '\u03A3') (hlast : d ≠ '\u03A3') : ¬ HasOpenSigma (c :: text ++ [d]) := by
  rintro ⟨x, y, hsplit, hopen⟩
  have hx : ¬ x.IsTransparent := by
    cases x with
    | nil => exact absurd (List.cons.inj hsplit).1 hfirst
    | cons first x =>
      obtain rfl := (List.cons.inj hsplit).1
      exact fun hall => hc (hall c List.mem_cons_self)
  have hy : ¬ y.IsTransparent := by
    rcases List.eq_nil_or_concat y with rfl | ⟨y, last, rfl⟩
    · exact absurd (List.append_inj_right' hsplit rfl) (by simpa using hlast)
    · rw [List.concat_eq_append, ← List.cons_append, ← List.append_assoc] at hsplit
      obtain rfl : d = last := List.cons.inj (List.append_inj_right' hsplit rfl) |>.1
      exact fun hall => hd (hall d (by simp))
  rcases hopen with ⟨hopen, -⟩ | ⟨-, hopen⟩
  · exact hx hopen
  · exact hy hopen

/-- What is read on goes through the text with what is before and behind it, as without. -/
theorem lowerWithin_eq_of_not_isOpen {front : Text}
    (h : ∀ x y : Text, text = x ++ '\u03A3' :: y → ¬ IsOpen (front ++ x) y) (before after : Text) :
    lowerWithin (front.reverse ++ before) text after = lowerWithin front.reverse text [] := by
  induction text generalizing front with
  | nil => rfl
  | cons c text ih =>
    have hrest := @ih (front ++ [c]) fun x y hsplit => by
      have hlater := h (c :: x) y (by rw [hsplit, List.cons_append])
      rwa [List.append_assoc]
    rw [List.reverse_append] at hrest
    rw [lowerWithin, lowerWithin, List.append_nil]
    congr 1
    by_cases hc : c = '\u03A3'
    · subst hc
      have hhere := h [] text rfl
      rw [List.append_nil] at hhere
      rw [if_pos rfl, if_pos rfl, lowerSigma_append hhere]
    · rw [if_neg hc, if_neg hc]

/-- Without an open sigma, the lower case of a text is the same wherever the text stands. -/
theorem lowerWithin_eq_lower (h : ¬ text.HasOpenSigma) (before after : Text) :
    lowerWithin before text after = text.lower := by
  have hfixed := @lowerWithin_eq_of_not_isOpen text []
    (fun x y hsplit hopen => h ⟨x, y, hsplit, hopen⟩) before after
  rw [lower_eq_lowerWithin]
  exact hfixed

/-- Without an open sigma, a piece of a text is a piece of it in lower case. -/
theorem lower_isInfix_lower (h : ¬ x.HasOpenSigma) (hpiece : x <:+: y) : x.lower <:+: y.lower := by
  rcases hpiece with ⟨before, after, rfl⟩
  rw [← lowerWithin_eq_lower h before.reverse after]
  exact lowerWithin_isInfix before x after

/-! ## Patterns whose lower case is not fixed -/

/-- Behind a character that casing does not look through, what stands further in front is
without effect. -/
theorem lowerWithin_append_left (h : ¬ x.IsTransparent) (before text after : Text) :
    lowerWithin (x ++ before) text after = lowerWithin x text after := by
  induction text generalizing x with
  | nil => rfl
  | cons c text ih =>
    have hmore : ¬ IsTransparent (c :: x) := fun hall => h (List.forall_mem_cons.1 hall).2
    have hrest := ih hmore
    rw [List.cons_append] at hrest
    rw [lowerWithin, lowerWithin, hrest, lowerSigma, lowerSigma,
      leansOnCased_append_of_not_isTransparent h]

theorem lowerWithin_append_right (h : ¬ y.IsTransparent) (before text after : Text) :
    lowerWithin before text (y ++ after) = lowerWithin before text y := by
  induction text generalizing before with
  | nil => rfl
  | cons c text ih =>
    have hmore : ¬ IsTransparent (text ++ y) := fun hall =>
      h fun d hd => hall d (List.mem_append_right text hd)
    rw [lowerWithin, lowerWithin, ih, lowerSigma, lowerSigma, ← List.append_assoc,
      leansOnCased_append_of_not_isTransparent hmore]

/-- A text that casing looks through has no sigma. -/
theorem IsTransparent.not_hasOpenSigma (h : text.IsTransparent) : ¬ text.HasOpenSigma := by
  rintro ⟨x, y, rfl, -⟩
  exact not_isTransparent_sigma x y h

/-- The lower case of a sigma and of what stands on both sides of it. -/
theorem lowerWithin_sigma (before x y after : Text) :
    lowerWithin before (x ++ '\u03A3' :: y) after =
      lowerWithin before x ('\u03A3' :: y ++ after) ++
        lowerSigma (x.reverse ++ before) (y ++ after) ::
          lowerWithin ('\u03A3' :: (x.reverse ++ before)) y after := by
  rw [lowerWithin_append, lowerWithin, if_pos rfl]
  rfl

theorem not_isInfix_of_count_lt {c : Char} (h : y.count c < x.count c) : ¬ x <:+: y :=
  fun hpiece => absurd (hpiece.sublist.count_le c) (Nat.not_le_of_lt h)

/-- A first sigma that is not final alone becomes final behind a letter. -/
theorem not_lower_isInfix_cons (hx : x.IsTransparent) (hy : ¬ leansOnCased y) :
    ¬ lower (x ++ '\u03A3' :: y) <:+: lower ('A' :: (x ++ '\u03A3' :: y)) := by
  have hletter : lowerChar 'A' = ['a'] ∧ leansOnCased ['A'] := by decide +kernel
  have halone : lowerSigma x.reverse y = '\u03C3' := by
    rw [lowerSigma, (isTransparent_reverse_iff.2 hx).not_leansOnCased]
    rfl
  have hbehind : lowerSigma (x.reverse ++ ['A']) y = '\u03C2' := by
    rw [lowerSigma, (isTransparent_reverse_iff.2 hx).leansOnCased_append, hletter.2,
      Bool.eq_false_iff.2 hy]
    rfl
  have hfront : lowerWithin ['A'] x ('\u03A3' :: y) = lowerWithin [] x ('\u03A3' :: y) := by
    rw [lowerWithin_eq_lower hx.not_hasOpenSigma, lowerWithin_eq_lower hx.not_hasOpenSigma]
  have hrest : lowerWithin ('\u03A3' :: (x.reverse ++ ['A'])) y [] =
      lowerWithin ('\u03A3' :: x.reverse) y [] :=
    lowerWithin_append_left (not_isTransparent_sigma [] x.reverse) ['A'] y []
  have hwhole : lower ('A' :: (x ++ '\u03A3' :: y)) =
      'a' :: lowerWithin ['A'] (x ++ '\u03A3' :: y) [] := by
    rw [lower_eq_lowerWithin, lowerWithin, if_neg (by decide), hletter.1]
    rfl
  apply not_isInfix_of_count_lt (c := '\u03C3')
  rw [hwhole, lower_eq_lowerWithin, lowerWithin_sigma, lowerWithin_sigma]
  simp only [List.append_nil, halone, hbehind, hfront, hrest, List.count_cons, List.count_append]
  simp

/-- A last sigma that is final alone is no longer final before a letter. -/
theorem not_lower_isInfix_concat (hx : leansOnCased x.reverse) (hy : y.IsTransparent) :
    ¬ lower (x ++ '\u03A3' :: y) <:+: lower (x ++ '\u03A3' :: y ++ ['A']) := by
  have hletter : lowerChar 'A' = ['a'] ∧ leansOnCased ['A'] := by decide +kernel
  have halone : lowerSigma x.reverse y = '\u03C2' := by
    rw [lowerSigma, hx, hy.not_leansOnCased]
    rfl
  have hbefore : lowerSigma x.reverse (y ++ ['A']) = '\u03C3' := by
    rw [lowerSigma, hy.leansOnCased_append, hletter.2, Bool.not_true, Bool.and_false]
    rfl
  have hfront : lowerWithin [] x ('\u03A3' :: y ++ ['A']) = lowerWithin [] x ('\u03A3' :: y) :=
    lowerWithin_append_right (not_isTransparent_sigma [] y) [] x ['A']
  have hrest : lowerWithin ('\u03A3' :: x.reverse) y ['A'] =
      lowerWithin ('\u03A3' :: x.reverse) y [] := by
    rw [lowerWithin_eq_lower hy.not_hasOpenSigma, lowerWithin_eq_lower hy.not_hasOpenSigma]
  have hwhole : lower (x ++ '\u03A3' :: y ++ ['A']) =
      lowerWithin [] (x ++ '\u03A3' :: y) ['A'] ++ ['a'] := by
    rw [lower, lowerAfter_append, lowerAfter, if_neg (by decide), hletter.1]
    rfl
  apply not_isInfix_of_count_lt (c := '\u03C2')
  rw [hwhole, lower_eq_lowerWithin, lowerWithin_sigma, lowerWithin_sigma]
  simp only [List.append_nil, halone, hbefore, hfront, hrest, List.count_cons, List.count_append]
  simp

/-- A text with an open sigma is a piece of some text but not so in lower case. -/
theorem HasOpenSigma.exists_not_isInfix (h : text.HasOpenSigma) :
    ∃ whole : Text, text <:+: whole ∧ ¬ text.lower <:+: whole.lower := by
  rcases h with ⟨x, y, rfl, ⟨hx, hy⟩ | ⟨hx, hy⟩⟩
  · exact ⟨'A' :: (x ++ '\u03A3' :: y), (List.suffix_cons ..).isInfix, not_lower_isInfix_cons hx hy⟩
  · exact ⟨x ++ '\u03A3' :: y ++ ['A'], (List.prefix_append ..).isInfix,
      not_lower_isInfix_concat hx hy⟩

end Text

/-! ## Looking for a pattern -/

/-- The text is the value of a column of the listing, or stands in a row of a free attribute. -/
def Listing.Stores (listing : Listing) (field : Field) (text : Text) : Prop :=
  match field with
  | .standard name => ∃ column, Column.name column = name ∧ listing.value? column = some (.text text)
  | .attribute name => ⟨name, text⟩ ∈ listing.attributes
  | .relationship _ => False

/-- Listings have a column of this name, and it holds texts; or the field is a free attribute. -/
def Field.IsTextual : Field → Prop
  | .standard name => ScalarType.ofColumn name = .text ∧ ∃ column, Column.name column = name
  | .attribute _ => True
  | .relationship _ => False

variable {field : Field}

theorem Column.eq_of_name_eq {a b : Column} (h : a.name = b.name) : a = b := by
  have hsame := ofName?_name a
  rw [h, ofName?_name] at hsame
  exact (Option.some.inj hsame).symm

/-- A column of texts always holds one. -/
theorem Listing.exists_value?_eq_text {column : Column}
    (h : ScalarType.ofColumn column.name = .text) (text : Text) :
    ∃ listing : Listing, listing.value? column = some (.text text) := by
  cases column
  case title => exact ⟨{ title := text }, rfl⟩
  case description => exact ⟨{ description := text }, rfl⟩
  case companyName => exact ⟨{ companyName := text }, rfl⟩
  case jobType => exact ⟨{ jobType := text }, rfl⟩
  case status => exact ⟨{ status := text }, rfl⟩
  all_goals exact absurd h (by decide)

/-- Some listing stores just this text for the field. -/
theorem Field.IsTextual.exists_listing (h : field.IsTextual) (text : Text) :
    ∃ listing : Listing, ∀ other, listing.Stores field other ↔ other = text := by
  cases field with
  | relationship link => cases h
  | «attribute» name =>
    refine ⟨{ attributes := [⟨name, text⟩] }, fun other => ?_⟩
    simp [Listing.Stores]
  | standard name =>
    rcases h with ⟨htype, column, rfl⟩
    rcases Listing.exists_value?_eq_text htype text with ⟨listing, hlisting⟩
    refine ⟨listing, fun other => ⟨?_, ?_⟩⟩
    · rintro ⟨column', hname, hother⟩
      obtain rfl := Column.eq_of_name_eq hname
      rw [hlisting] at hother
      cases hother
      rfl
    · rintro rfl
      exact ⟨column, rfl, hlisting⟩

/-- What is stored for a textual field meets `LIKE` if the pattern stands in it, both in lower
case. -/
theorem Condition.holds_like_iff (h : field.IsTextual) {pattern : Text} {listing : Listing} :
    (Condition.plain field .like (.single (.text pattern))).Holds listing ↔
      ∃ text, listing.Stores field text ∧ pattern.lower <:+: text.lower := by
  cases field with
  | relationship link => cases h
  | «attribute» name =>
    simp only [Condition.Holds, Condition.plain, reduceCtorEq, if_false, Scalar.Meets, Value.scalars,
      List.head?_cons, Option.some.injEq, exists_eq_left', Scalar.written, Listing.Stores]
    constructor
    · rintro ⟨⟨_, text⟩, hrow, rfl, hpiece⟩
      exact ⟨text, hrow, hpiece⟩
    · rintro ⟨text, hrow, hpiece⟩
      exact ⟨⟨name, text⟩, hrow, rfl, hpiece⟩
  | standard name =>
    simp only [Condition.Holds, Condition.plain, Scalar.Meets, Value.scalars, List.head?_cons,
      Option.some.injEq, exists_eq_left', Listing.Stores]
    constructor
    · rintro ⟨column, actual, rfl, hactual, hpiece⟩
      have htype := Listing.type_of_value? hactual
      rw [h.1] at htype
      cases actual with
      | text content => exact ⟨content, ⟨column, rfl, hactual⟩, hpiece⟩
      | number value => cases htype
      | boolean flag => cases htype
      | instant value => cases htype
    · rintro ⟨text, ⟨column, hname, hvalue⟩, hpiece⟩
      exact ⟨column, .text text, hname, hvalue, hpiece⟩

/-- `LIKE` can be tested of every textual field. -/
theorem Matcher.exists_ofTree_like (h : field.IsTextual) (pattern : Text) : ∃ matcher,
    ofTree (.leaf (.plain field .like (.single (.text pattern)))) = .ok matcher := by
  rw [ofTree_leaf]
  cases field with
  | relationship link => cases h
  | «attribute» name => exact ⟨_, rfl⟩
  | standard name =>
    rcases h with ⟨-, column, rfl⟩
    simp only [Condition.plain, Probe.of, Except.bind, ofProbe, Column.ofName?_name]
    exact ⟨_, rfl⟩

/-- `LIKE` finds a pattern in every text that holds it, and wherever it finds a text that holds it,
exactly if the pattern has no open sigma. -/
theorem Matcher.like_iff_not_hasOpenSigma (h : field.IsTextual) :
    ∃ test : Text → Matcher,
      (∀ pattern, ofTree (.leaf (.plain field .like (.single (.text pattern)))) =
        .ok (test pattern)) ∧
      ∀ pattern : Text,
        ((∀ listing text, listing.Stores field text → pattern <:+: text → test pattern listing) ↔
          ¬ pattern.HasOpenSigma) ∧
        ((∀ listing whole, pattern <:+: whole → test whole listing → test pattern listing) ↔
          ¬ pattern.HasOpenSigma) := by
  choose test htest using Matcher.exists_ofTree_like h
  have hfinds : ∀ pattern listing, test pattern listing ↔
      ∃ text, listing.Stores field text ∧ pattern.lower <:+: text.lower := fun pattern listing =>
    (leaf_apply_iff (htest pattern) listing).trans (Condition.holds_like_iff h)
  refine ⟨test, htest, fun pattern => ⟨⟨?_, ?_⟩, ⟨?_, ?_⟩⟩⟩
  · intro hall hopen
    rcases hopen.exists_not_isInfix with ⟨whole, hpiece, hnot⟩
    rcases h.exists_listing whole with ⟨listing, hstores⟩
    rcases (hfinds _ _).1 (hall listing whole ((hstores whole).2 rfl) hpiece) with
      ⟨text, htext, hlower⟩
    obtain rfl := (hstores text).1 htext
    exact hnot hlower
  · intro hfixed listing text htext hpiece
    exact (hfinds _ _).2 ⟨text, htext, Text.lower_isInfix_lower hfixed hpiece⟩
  · intro hall hopen
    rcases hopen.exists_not_isInfix with ⟨whole, hpiece, hnot⟩
    rcases h.exists_listing whole with ⟨listing, hstores⟩
    have hwhole := (hfinds whole listing).2 ⟨whole, (hstores whole).2 rfl, List.infix_rfl⟩
    rcases (hfinds _ _).1 (hall listing whole hpiece hwhole) with ⟨text, htext, hlower⟩
    obtain rfl := (hstores text).1 htext
    exact hnot hlower
  · intro hfixed listing whole hpiece hwhole
    rcases (hfinds _ _).1 hwhole with ⟨text, htext, hlower⟩
    exact (hfinds _ _).2 ⟨text, htext, (Text.lower_isInfix_lower hfixed hpiece).trans hlower⟩

/-- A pattern with two sigmas inside. -/
theorem Matcher.like_iff_not_hasOpenSigma_title :
    (Field.standard Column.title.name).IsTextual ∧
    ∃ matcher, ofTree (.leaf (.plain (.standard Column.title.name) .like
        (.single (.text "ΟΔΥΣΣΕ".toList)))) = .ok matcher ∧
      matcher { title := "ΟΔΥΣΣΕΑΣ".toList } = true := by
  have htitle : (Field.standard Column.title.name).IsTextual := ⟨by decide, .title, rfl⟩
  rcases like_iff_not_hasOpenSigma htitle with ⟨test, htest, hfinds⟩
  have hends : "ΟΔΥΣΣΕ".toList = 'Ο' :: "ΔΥΣΣ".toList ++ ['Ε'] := by decide
  have hfixed : ¬ Text.HasOpenSigma "ΟΔΥΣΣΕ".toList := by
    rw [hends]
    exact Text.not_hasOpenSigma_of_ends (by decide +kernel) (by decide +kernel) (by decide)
      (by decide)
  have hpiece : "ΟΔΥΣΣΕ".toList <:+: "ΟΔΥΣΣΕΑΣ".toList := by decide
  exact ⟨htitle, _, htest _, (hfinds _).1.2 hfixed _ _ ⟨.title, rfl, rfl⟩ hpiece⟩

/-- With its first four letters, of which the last is a sigma, the same name is not found. -/
theorem Matcher.not_like_openSigma_title :
    "ΟΔΥΣ".toList <:+: "ΟΔΥΣΣΕΑΣ".toList ∧
    ∃ whole piece : Matcher,
      Settings.unbounded.Compiles "title LIKE ΟΔΥΣΣΕΑΣ".toList whole ∧
      Settings.unbounded.Compiles "title LIKE ΟΔΥΣ".toList piece ∧
      whole { title := "ΟΔΥΣΣΕΑΣ".toList } = true ∧
      piece { title := "ΟΔΥΣΣΕΑΣ".toList } = false := by
  have hcompiles : ∀ pattern ∈ ["ΟΔΥΣΣΕΑΣ".toList, "ΟΔΥΣ".toList],
      Settings.unbounded.Compiles ("title LIKE ".toList ++ pattern)
        fun listing => (Scalar.text listing.title).passes .like (.single (.text pattern)) := by
    intro pattern hpattern
    refine ⟨.leaf (.plain (.standard "title".toList) .like (.single (.text pattern))), ?_, rfl⟩
    simp only [List.mem_cons, List.not_mem_nil, or_false] at hpattern
    rcases hpattern with rfl | rfl <;> decide +kernel
  refine ⟨by decide, _, _, hcompiles _ (by decide), hcompiles _ (by decide), ?_, ?_⟩
  · decide +kernel
  · decide +kernel

end ListingFilter
