import ListingFilter.Proofs.Rereading
import ListingFilter.Proofs.Shape

/-!
# Adjacency — groups side by side without connectives

The grammar joins terms by connectives only. A row of groups with nothing but white space between
them is no group and has no connective outside of its groups, so it is taken for the text of one
condition. There the search for an operator does not mind the parentheses: the operator of the row is
one that stands in one of the groups, and the field and the value are what stands before and behind
it, parentheses included. The other conditions are swallowed.

`Settings.parse_sideBySide` says what becomes of a row: it is read as this one condition if a column
takes the operator and the swallowed field does not ask for an instant, and it is refused otherwise.
-/

namespace ListingFilter

namespace Text

/-- Texts in parentheses side by side, each behind a text that stands before it. -/
def sideBySide (links : List (Text × Text)) : Text :=
  links.flatMap fun link => link.1 ++ ('(' :: link.2 ++ [')'])

variable {spelling : Spelling} {links : List (Text × Text)} {gap part : Text}

theorem sideBySide_cons (gap part : Text) (links : List (Text × Text)) :
    sideBySide ((gap, part) :: links) = gap ++ (('(' :: part ++ [')']) ++ sideBySide links) := by
  rw [sideBySide, List.flatMap_cons, List.append_assoc]
  rfl

theorem sideBySide_ne_nil (h : links ≠ []) : sideBySide links ≠ [] := by
  rcases List.exists_cons_of_ne_nil h with ⟨⟨gap, part⟩, links, rfl⟩
  simp [sideBySide_cons]

theorem getLast?_sideBySide (h : links ≠ []) : (sideBySide links).getLast? = some ')' := by
  rcases List.eq_nil_or_concat links with rfl | ⟨links, ⟨gap, part⟩, rfl⟩
  · exact absurd rfl h
  · rw [sideBySide, List.concat_eq_append, List.flatMap_append, List.flatMap_singleton,
      getLast?_append_of_ne_nil _ (by simp), getLast?_append_of_ne_nil _ (by simp),
      List.getLast?_concat]

/-! ## A row is an atom -/

/-- Nothing severs a row: letters of a keyword stand inside of its groups only. -/
theorem whole_sideBySide (h : ∀ link ∈ links, link.1.isBlank ∧ link.2.Balanced) :
    Whole spelling (sideBySide links) := by
  induction links with
  | nil => exact whole_of_isBlank isBlank_nil
  | cons link links ih =>
    rcases link with ⟨gap, part⟩
    rw [List.forall_mem_cons] at h
    rw [sideBySide_cons]
    have hopen : ∀ c, ('(' :: part ++ [')']).head? = some c → spelling.Lacks c := fun c hc =>
      Spelling.lacks_parenthesis (.inl (Option.some.inj hc).symm)
    have hclose : ∀ c, ('(' :: part ++ [')']).getLast? = some c → spelling.Lacks c := by
      intro c hc
      rw [List.getLast?_concat] at hc
      exact Spelling.lacks_parenthesis (.inr (Option.some.inj hc).symm)
    have hrow := ((h.1.2.isSegment_group spelling).whole).append (ih h.2) (.inl hclose)
    exact (whole_of_isBlank h.1.1).append hrow (.inr fun c hc => hopen c hc)

/-- Behind a balanced start of a row comes white space, or the next group. -/
theorem isSpace_or_open_of_balanced_start
    (h : ∀ link ∈ links, link.1.isBlank ∧ link.2.Balanced) {start rest : Text} {c : Char}
    (hstart : start.Balanced) (hrow : sideBySide links = start ++ c :: rest) :
    isSpace c ∨ c = '(' := by
  induction links generalizing start with
  | nil => simp [sideBySide] at hrow
  | cons link links ih =>
    rcases link with ⟨gap, part⟩
    rw [List.forall_mem_cons] at h
    rcases h with ⟨⟨hgap, hpart⟩, hlinks⟩
    rw [sideBySide_cons] at hrow
    rcases List.append_eq_append_iff.1 hrow with ⟨inside, rfl, hinside⟩ | ⟨tail, rfl, htail⟩
    · rw [balanced_append_iff (balanced_of_isBlank hgap)] at hstart
      rcases List.append_eq_append_iff.1 hinside with ⟨later, rfl, hlater⟩ | ⟨tail, hgroup, htail⟩
      · -- the start goes beyond the first group
        exact ih hlinks ((balanced_append_iff hpart.group).1 hstart) hlater
      · by_cases hnil : inside = []
        · -- the group comes next
          rw [hnil, List.nil_append] at hinside
          exact .inr (List.cons.inj hinside).1.symm
        · -- the start ends with the group
          have hdone := eq_nil_of_balanced_start hpart hstart hnil hgroup
          rw [hdone, List.nil_append] at htail
          exact ih hlinks balanced_nil htail.symm
    · -- the start ends in the white space before it
      cases tail with
      | nil => exact .inr (List.cons.inj htail).1
      | cons d tail =>
        rw [(List.cons.inj htail).1]
        exact .inl (List.all_eq_true.1 hgap d (by simp))

/-- A row of two or more groups is no group. -/
theorem sideBySide_ne_group (hpart : part.Balanced) (hlinks : links ≠ []) {inner : Text}
    (hinner : inner.Balanced) : sideBySide (([], part) :: links) ≠ '(' :: inner ++ [')'] := by
  intro hgroup
  rw [sideBySide_cons, List.nil_append] at hgroup
  exact sideBySide_ne_nil hlinks (eq_nil_of_balanced_start hinner hpart.group (by simp) hgroup.symm)

theorem isAtom_sideBySide (hpart : part.Balanced) (hlinks : links ≠ [])
    (h : ∀ link ∈ links, link.1.isBlank ∧ link.2.Balanced) :
    IsAtom spelling (sideBySide (([], part) :: links)) := by
  refine ⟨⟨sideBySide_ne_nil (by simp), ⟨?_, ?_⟩, whole_sideBySide ?_⟩, fun inner hinner =>
    sideBySide_ne_group hpart hlinks hinner⟩
  · intro c hc hspace
    exact (ne_parenthesis_of_isSpace hspace).1 (Option.some.inj hc).symm
  · intro c hc hspace
    rw [getLast?_sideBySide (by simp)] at hc
    exact (ne_parenthesis_of_isSpace hspace).2 (Option.some.inj hc).symm
  · rw [List.forall_mem_cons]
    exact ⟨⟨isBlank_nil, hpart⟩, h⟩

end Text

/-! ## The operator of a row -/

/-- White space or a closing parenthesis at the end of a text keeps operators in it apart from what
follows. -/
theorem Text.EndsApart.standsIn_append {operator : Operator} {a : Text} (hend : a.EndsApart)
    (h : operator.StandsIn a) (b : Text) : operator.StandsIn (a ++ b) := by
  rcases hend with ⟨c, hlast, hapart⟩
  rcases List.getLast?_eq_some_iff.1 hlast with ⟨front, rfl⟩
  have hgap : Operator.Gap c := by
    rcases hapart with hspace | rfl
    · exact Operator.gap_of_isSpace hspace
    · exact Operator.gap_close
  rw [Operator.standsIn_append_gap_iff (hgap.ignores operator)] at h
  rw [List.append_assoc]
  exact (Operator.standsIn_gap_iff (hgap.ignores operator)).2 (.inl h)

/-- In everything that derives a tree some operator stands. -/
theorem Grammar.Terms.exists_standsIn {spelling : Spelling} {Term : Text → Tree → Prop}
    {joint : Option Connective} {text : Text} {members : List Member}
    (h : Terms spelling Term joint text members)
    (hTerm : ∀ term tree, Term term tree → ∃ operator : Operator, operator.StandsIn term) :
    ∃ operator : Operator, operator.StandsIn text := by
  cases h with
  | last hbefore hterm hafter =>
    rcases hTerm _ _ hterm with ⟨operator, hstands⟩
    refine ⟨operator, ?_⟩
    rwa [Operator.standsIn_append_blank_iff hafter, Operator.standsIn_blank_append_iff hbefore]
  | @more _ before term after word rest _ _ _ hbefore hterm hafter hend _ _ _ =>
    rcases hTerm _ _ hterm with ⟨operator, hstands⟩
    refine ⟨operator, ?_⟩
    rw [List.append_assoc]
    refine hend.standsIn_append ?_ _
    rwa [Operator.standsIn_append_blank_iff hafter, Operator.standsIn_blank_append_iff hbefore]

theorem Grammar.Term.exists_standsIn {spelling : Spelling} {term : Text} {tree : Tree}
    (h : Term spelling term tree) : ∃ operator : Operator, operator.StandsIn term := by
  refine Term.induction (P := fun term _ => ∃ operator : Operator, operator.StandsIn term) ?_ ?_ h
  · intro text condition _ hread
    rcases Condition.exists_of_read hread with ⟨_, _, hfind, -⟩
    exact ⟨condition.operator, (Operator.find?_eq_some_iff.1 hfind).1⟩
  · intro inner members hterms
    rcases hterms.exists_standsIn fun _ _ hterm => hterm.2 with ⟨operator, hstands⟩
    refine ⟨operator, ?_⟩
    rwa [List.cons_append, Operator.standsIn_cons_gap_iff (Operator.gap_open.ignores _),
      Operator.standsIn_append_gap_iff (Operator.gap_close.ignores _)]

/-- Operators stand in a row where they stand in one of the groups. -/
theorem Operator.standsIn_sideBySide_iff {operator : Operator} {links : List (Text × Text)}
    (h : ∀ link ∈ links, link.1.isBlank) :
    operator.StandsIn (Text.sideBySide links) ↔ ∃ link ∈ links, operator.StandsIn link.2 := by
  induction links with
  | nil => exact iff_of_false not_standsIn_nil (by simp)
  | cons link links ih =>
    rcases link with ⟨gap, part⟩
    rw [List.forall_mem_cons] at h
    have hrow : Text.sideBySide ((gap, part) :: links) =
        gap ++ '(' :: (part ++ ')' :: Text.sideBySide links) := by
      simp [Text.sideBySide_cons]
    rw [hrow, standsIn_blank_append_iff h.1, standsIn_cons_gap_iff (gap_open.ignores _),
      standsIn_gap_iff (gap_close.ignores _), ih h.2, List.exists_mem_cons_iff]

/-- In a row of groups that derive trees an operator is found. -/
theorem Operator.exists_find?_sideBySide {spelling : Spelling} {gap part : Text} {tree : Tree}
    {links : List (Text × Text)} (h : ∀ link ∈ (gap, part) :: links, link.1.isBlank)
    (hpart : Grammar.Derives spelling part tree) :
    ∃ operator, find? (Text.sideBySide ((gap, part) :: links)) = some operator := by
  rcases hpart with ⟨members, hterms, -⟩
  rcases hterms.exists_standsIn fun _ _ hterm => hterm.exists_standsIn with ⟨operator, hstands⟩
  rw [← Option.isSome_iff_exists, find?, List.find?_isSome]
  refine ⟨operator, mem_searchOrder operator, isSome_cut?_iff.2 ?_⟩
  exact (standsIn_sideBySide_iff h).2 ⟨(gap, part), List.mem_cons_self, hstands⟩

/-- What stands before the operator of a row begins with a parenthesis, and what stands behind it
has parentheses, but is no group. -/
theorem Operator.cut?_sideBySide {operator : Operator} {part before after : Text}
    {links : List (Text × Text)} (hpart : part.Balanced)
    (h : ∀ link ∈ links, link.1.isBlank ∧ link.2.Balanced)
    (hcut : operator.cut? (Text.sideBySide (([], part) :: links)) = some (before, after)) :
    before.head? = some '(' ∧ after.parentheses ≠ [] ∧ after.trim.enclosed? = none := by
  have hlinks : ∀ link ∈ (([], part) :: links : List (Text × Text)),
      link.1.isBlank ∧ link.2.Balanced :=
    List.forall_mem_cons.2 ⟨⟨Text.isBlank_nil, hpart⟩, h⟩
  have hrow := eq_append_of_cut? hcut
  rw [List.append_assoc] at hrow
  rcases List.exists_cons_of_ne_nil operator.symbol_ne_nil with ⟨c, symbol, hsymbol⟩
  have hc : c ∈ operator.symbol := by simp [hsymbol]
  -- the operator begins neither with white space nor with a parenthesis
  have hunbalanced : ¬ before.Balanced := by
    intro hbefore
    rw [hsymbol, List.cons_append] at hrow
    rcases Text.isSpace_or_open_of_balanced_start hlinks hbefore hrow with hspace | rfl
    · exact (gap_of_isSpace hspace).notMem operator hc
    · exact gap_open.notMem operator hc
  have hbeforeNe : before ≠ [] := by
    intro hnil
    rw [hnil] at hunbalanced
    exact hunbalanced Text.balanced_nil
  refine ⟨?_, ?_, Option.not_isSome_iff_eq_none.1 fun hsome => hunbalanced ?_⟩
  · rw [← Text.head?_append_of_ne_nil hbeforeNe (operator.symbol ++ after), ← hrow]
    rfl
  · intro hnone
    have hlast := Text.getLast?_sideBySide (List.cons_ne_nil ([], part) links)
    have hrest : operator.symbol ++ after ≠ [] := by simp [operator.symbol_ne_nil]
    rw [hrow, Text.getLast?_append_of_ne_nil _ hrest] at hlast
    rcases List.mem_append.1 (List.mem_of_getLast? hlast) with hclose | hclose
    · exact gap_close.notMem operator hclose
    · exact (Text.parentheses_eq_nil_iff.1 hnone _ hclose).2 rfl
  · -- a group behind the operator would leave a balanced text before it
    rcases Option.isSome_iff_exists.1 hsome with ⟨inner, henclosed⟩
    rcases Text.enclosed?_eq_some_iff_balanced.1 henclosed with ⟨htrim, hinner⟩
    have hafter : after.Balanced := by
      rw [← Text.balanced_iff_of_parentheses_eq after.parentheses_trim, htrim]
      exact hinner.group
    have hwhole : Text.Whole .anyCase _ := Text.whole_sideBySide hlinks
    have hbalanced := hwhole.balanced
    rw [hrow, ← List.append_assoc, Text.append_balanced_iff hafter] at hbalanced
    have hsymbol := Text.balanced_of_parentheses operator.parentheses_symbol
    exact (Text.append_balanced_iff hsymbol).1 hbalanced

/-! ## Reading a row -/

/-- What begins with a parenthesis names a column. -/
theorem Field.ofToken_of_open {token : Text} (h : token.head? = some '(') :
    ofToken token = .standard token := by
  rcases List.head?_eq_some_iff.1 h with ⟨rest, rfl⟩
  have hmark : attributeMark.afterStart? ('(' :: rest) = none := rfl
  have hlink : Link.ofName? ('(' :: rest) = none := rfl
  rw [ofToken, hmark, hlink]

/-- The value that takes a text as it is, or as the texts between its commas. -/
def Value.verbatim (operator : Operator) (text : Text) : Value :=
  if operator.expectsList then .list (text.listItems.map .text) else .single (.text text)

/-- For a column that is named with a parenthesis, values are texts unless they are instants. -/
theorem ScalarType.ofColumn_of_open {name : Text} (h : name.head? = some '(') :
    ofColumn name = if Text.occursIn "_at".toList name then .instant else .text := by
  rcases List.head?_eq_some_iff.1 h with ⟨rest, rfl⟩
  simp [ofColumn]

namespace Value

variable {name text : Text} {operator : Operator} {value : Value}

theorem readStripped_of_texts
    (h : ∀ text, (Field.standard name).readItem operator text = .ok (.text text)) (text : Text) :
    readStripped text (.standard name) operator = .ok (verbatim operator text) := by
  rw [readStripped_eq, Field.mapM_readItem_of_texts h, h, verbatim]
  show (if operator.expectsList then _ else _) = _
  split <;> rfl

/-- A text with parentheses leaves something to compare with. -/
theorem not_isEmpty_verbatim (h : text.parentheses ≠ []) : ¬ (verbatim operator text).isEmpty := by
  unfold verbatim
  split
  · rw [isEmpty, List.isEmpty_iff, List.map_eq_nil_iff]
    intro hitems
    rw [← Text.parentheses_listItems, hitems] at h
    exact h rfl
  · exact fun hblank => h (Text.parentheses_of_isBlank hblank)

/-- Parentheses in the column and in the text are no instants, so the text is taken as it is, or not
at all. -/
theorem read_of_open (hname : name.head? = some '(') (htight : text.Tight)
    (hparens : text.parentheses ≠ []) (hgroup : text.enclosed? = none) :
    Value.read text (.standard name) operator = .ok value ↔
      (operator = .like ∨ ¬ Text.occursIn "_at".toList name) ∧ value = verbatim operator text := by
  have hne : text ≠ [] := by
    intro hnil
    rw [hnil] at hparens
    exact hparens rfl
  have htype := ScalarType.ofColumn_of_open hname
  rw [read_eq_ok_iff, htight.strip_eq hgroup]
  by_cases htaken : operator = .like ∨ ¬ Text.occursIn "_at".toList name
  · have hitems : ∀ text, (Field.standard name).readItem operator text = .ok (.text text) := by
      intro text
      rw [Field.readItem]
      split
      · rfl
      · rename_i hlike
        rw [Scalar.read, htype, if_neg (htaken.resolve_left hlike)]
    rw [readStripped_of_texts hitems]
    constructor
    · rintro ⟨hvalue, -⟩
      exact ⟨htaken, (Except.ok.inj hvalue).symm⟩
    · rintro ⟨-, hvalue⟩
      rw [hvalue]
      exact ⟨rfl, .inr ⟨hne, not_isEmpty_verbatim hparens⟩⟩
  · rw [not_or, not_not] at htaken
    rw [if_pos htaken.2] at htype
    have hitems : ∀ text scalar, (Field.standard name).readItem operator text = .ok scalar →
        scalar.asText? = none := by
      intro text scalar hread
      rw [Field.readItem, if_neg htaken.1] at hread
      rw [Scalar.asText?_eq_none_iff, ← (Scalar.read_eq_ok_iff.1 hread).1, htype]
      decide
    refine iff_of_false ?_ fun h => h.1.elim htaken.1 (absurd htaken.2)
    rintro ⟨hread, -⟩
    rcases parentheses_of_typed hread hitems with hcolumn | htext
    · exact (Text.parentheses_eq_nil_iff.1 hcolumn _ (List.mem_of_head? hname)).1 rfl
    · exact hparens htext

end Value

/-- A condition whose text begins with a parenthesis compares a column with a text. -/
theorem Condition.read_of_open {text before after : Text} {operator : Operator}
    {condition : Condition} (hfind : Operator.find? text = some operator)
    (hcut : operator.cut? text = some (before, after)) (hbefore : before.head? = some '(')
    (hafter : after.parentheses ≠ []) (hgroup : after.trim.enclosed? = none) :
    Condition.read text = .ok condition ↔
      FieldKind.standard.allows operator ∧
        (operator = .like ∨ ¬ Text.occursIn "_at".toList before.trim) ∧
        condition = ⟨.standard before.trim, operator, .verbatim operator after.trim, none⟩ := by
  have hopen : ¬ isSpace '(' := by decide
  have hbeforeBlank : ¬ before.isBlank := by
    intro hblank
    exact hopen (List.all_eq_true.1 hblank _ (List.mem_of_head? hbefore))
  have hafterBlank : ¬ after.isBlank := fun hblank => hafter (Text.parentheses_of_isBlank hblank)
  have hclause : Clause.read text = .ok ⟨before.trim, operator, after.trim⟩ :=
    Clause.read_eq_ok_iff.2 ⟨hfind, before, after, hcut, hbeforeBlank, .inr hafterBlank, rfl, rfl⟩
  have hhead := Text.head?_trim hbefore hopen
  have hvalue : ∀ value : Value, Value.read after.trim (.standard before.trim) operator = .ok value ↔
      (operator = .like ∨ ¬ Text.occursIn "_at".toList before.trim) ∧
        value = .verbatim operator after.trim := by
    intro value
    refine Value.read_of_open hhead (Text.tight_trim after) ?_ hgroup
    rwa [Text.parentheses_trim]
  rcases condition with ⟨field, operator', value, proviso⟩
  rw [read_eq_ok_iff]
  simp only [hclause, Except.ok.injEq, exists_eq_left', Field.ofToken_of_open hhead, mk.injEq]
  constructor
  · rintro ⟨rfl, rfl, hallows, hread, hproviso⟩
    rcases (hvalue value).1 hread with ⟨htaken, hverbatim⟩
    exact ⟨hallows, htaken, rfl, rfl, hverbatim, (Except.ok.inj hproviso).symm⟩
  · rintro ⟨hallows, htaken, rfl, rfl, hverbatim, rfl⟩
    exact ⟨rfl, rfl, hallows, (hvalue value).2 ⟨htaken, hverbatim⟩, rfl⟩

/-! ## Filters -/

/-- Filters in parentheses, two or more side by side with nothing but white space between them, are
read as one condition or not at all. The row is cut at the first operator in the order of search; what
stands before it, up to its parenthesis, is the column, and all that stands behind it is the value.
This is read if columns take the operator and the column is not taken for an instant. -/
theorem Settings.parse_sideBySide {spelling : Spelling} {first : Text} {links : List (Text × Text)}
    (hlinks : links ≠ []) (hblank : ∀ link ∈ links, link.1.isBlank)
    (hparts : ∀ part ∈ first :: links.map Prod.snd,
      ∃ tree, (unlimited spelling).parse part = .ok tree) :
    ∃ (operator : Operator) (before after : Text),
      Operator.find? (Text.sideBySide (([], first) :: links)) = some operator ∧
      operator.cut? (Text.sideBySide (([], first) :: links)) = some (before, after) ∧
      ∀ tree, (unlimited spelling).parse (Text.sideBySide (([], first) :: links)) = .ok tree ↔
        FieldKind.standard.allows operator ∧
          (operator = .like ∨ ¬ Text.occursIn "_at".toList before.trim) ∧
          tree = .leaf ⟨.standard before.trim, operator, .verbatim operator after.trim, none⟩ := by
  simp only [parse_unlimited_eq_ok_iff, List.forall_mem_cons, List.forall_mem_map] at hparts
  rcases hparts with ⟨⟨_, hderives⟩, hrest⟩
  have hfirst := (hderives.balanced fun _ _ => Grammar.Term.isSegment).1
  have hbalanced : ∀ link ∈ links, link.1.isBlank ∧ link.2.Balanced := by
    intro link hlink
    rcases hrest link hlink with ⟨_, hpart⟩
    exact ⟨hblank link hlink, (hpart.balanced fun _ _ => Grammar.Term.isSegment).1⟩
  have hgaps : ∀ link ∈ (([], first) :: links : List (Text × Text)), link.1.isBlank :=
    List.forall_mem_cons.2 ⟨Text.isBlank_nil, hblank⟩
  rcases Operator.exists_find?_sideBySide hgaps hderives with ⟨operator, hfind⟩
  have hstands := (Operator.find?_eq_some_iff.1 hfind).1
  rcases Option.isSome_iff_exists.1 (Operator.isSome_cut?_iff.2 hstands) with ⟨⟨before, after⟩, hcut⟩
  rcases Operator.cut?_sideBySide hfirst hbalanced hcut with ⟨hopen, hparens, hgroup⟩
  refine ⟨operator, before, after, hfind, hcut, ?_⟩
  intro tree
  rw [parse_of_isAtom (Text.isAtom_sideBySide hfirst hlinks hbalanced), map_eq_ok_iff]
  simp only [Condition.read_of_open hfind hcut hopen hparens hgroup]
  constructor
  · rintro ⟨condition, ⟨hallows, htaken, hcondition⟩, htree⟩
    exact ⟨hallows, htaken, by rw [← htree, hcondition]⟩
  · rintro ⟨hallows, htaken, htree⟩
    exact ⟨_, ⟨hallows, htaken, rfl⟩, htree.symm⟩

/-- A title swallows the title behind it; a title behind a date is swallowed with the date, which is
refused. -/
theorem Settings.parse_sideBySide_dateAndTitle :
    (unlimited .anyCase).parse "(title = a)(title LIKE b)".toList =
        .ok (.leaf ⟨.standard "(title".toList, .equal,
          .single (.text "a)(title LIKE b)".toList), none⟩) ∧
      ∀ tree, (unlimited .anyCase).parse "(created_at > 2024-01-01) (title = a)".toList ≠
        .ok tree := by
  have htitle : (unlimited .anyCase).parse "title = a".toList =
      .ok (.leaf ⟨.standard "title".toList, .equal, .single (.text "a".toList), none⟩) := by
    decide +kernel
  have hpattern : (unlimited .anyCase).parse "title LIKE b".toList =
      .ok (.leaf ⟨.standard "title".toList, .like, .single (.text "b".toList), none⟩) := by
    decide +kernel
  have hcreated : (unlimited .anyCase).parse "created_at > 2024-01-01".toList =
      .ok (.leaf ⟨.standard "created_at".toList, .greater, .single (.instant ⟨1704067200, 0⟩),
        none⟩) := by
    decide +kernel
  constructor
  · rcases parse_sideBySide (List.cons_ne_nil ([], "title LIKE b".toList) [])
      (List.forall_mem_singleton.2 Text.isBlank_nil)
      (List.forall_mem_cons.2 ⟨⟨_, htitle⟩, List.forall_mem_singleton.2 ⟨_, hpattern⟩⟩) with
      ⟨operator, before, after, hfind, hcut, hread⟩
    obtain rfl : operator = .equal := Option.some.inj (hfind.symm.trans (by decide))
    have hparts : (before, after) = ("(title ".toList, " a)(title LIKE b)".toList) :=
      Option.some.inj (hcut.symm.trans (by decide))
    cases hparts
    exact (hread _).2 ⟨by decide, .inr (by decide), by decide⟩
  · rcases parse_sideBySide (List.cons_ne_nil ([' '], "title = a".toList) [])
      (List.forall_mem_singleton.2 Text.isBlank_blank)
      (List.forall_mem_cons.2 ⟨⟨_, hcreated⟩, List.forall_mem_singleton.2 ⟨_, htitle⟩⟩) with
      ⟨operator, before, after, hfind, hcut, hread⟩
    obtain rfl : operator = .equal := Option.some.inj (hfind.symm.trans (by decide))
    have hparts : (before, after) =
        ("(created_at > 2024-01-01) (title ".toList, " a)".toList) :=
      Option.some.inj (hcut.symm.trans (by decide))
    cases hparts
    intro tree htree
    rcases (hread tree).1 htree with ⟨-, htaken, -⟩
    exact absurd htaken (by decide)

/-- Not every row is refused: the second of two titles becomes part of the value of the first. -/
theorem Settings.not_refused_sideBySide_titles :
    ¬ ∀ (spelling : Spelling) (first : Text) (links : List (Text × Text)), links ≠ [] →
      (∀ link ∈ links, link.1.isBlank) →
      (∀ part ∈ first :: links.map Prod.snd, ∃ tree, (unlimited spelling).parse part = .ok tree) →
        ∃ fault, (unlimited spelling).parse (Text.sideBySide (([], first) :: links)) =
          .error fault := by
  intro h
  have hfirst : (unlimited .anyCase).parse "title = a".toList =
      .ok (.leaf ⟨.standard "title".toList, .equal, .single (.text "a".toList), none⟩) := by
    decide +kernel
  have hsecond : (unlimited .anyCase).parse "title = b".toList =
      .ok (.leaf ⟨.standard "title".toList, .equal, .single (.text "b".toList), none⟩) := by
    decide +kernel
  have hread : (unlimited .anyCase).parse "(title = a) (title = b)".toList =
      .ok (.leaf ⟨.standard "(title".toList, .equal, .single (.text "a) (title = b)".toList),
        none⟩) := by
    decide +kernel
  rcases h .anyCase "title = a".toList [([' '], "title = b".toList)] (List.cons_ne_nil _ _)
    (List.forall_mem_singleton.2 Text.isBlank_blank)
    (List.forall_mem_cons.2 ⟨⟨_, hfirst⟩, List.forall_mem_singleton.2 ⟨_, hsecond⟩⟩) with
    ⟨fault, hfault⟩
  exact absurd (hread.symm.trans hfault) nofun

end ListingFilter
