import ListingFilter.Proofs.Shape

/-!
# Welding — cuts of texts put side by side

Two texts put side by side are cut where each of them is cut. At the seam the last piece of the one
and the first piece of the other become one piece (`Splits.weld`). That needs two things: no letters
of a keyword meet at the seam, and a connective at the seam keeps standing apart.

What a filter derives depends on its pieces one by one, so of two filters whose cuts differ in one
piece both derive the same as soon as those pieces do (`derives_weld_iff`).
-/

namespace ListingFilter

namespace Chain

variable {α : Type}

/-- What holds of every single item, and of a chain with another item in front whenever it holds of
the chain, holds of every chain. -/
theorem induction {P : Chain α → Prop} (single : ∀ item, P ⟨item, []⟩)
    (link : ∀ item connective chain, P chain → P (chain.link item connective)) (chain : Chain α) :
    P chain := by
  rcases chain with ⟨first, rest⟩
  induction rest generalizing first with
  | nil => exact single first
  | cons next rest ih => exact link first next.1 ⟨next.2, rest⟩ (ih next.2)

theorem closed_link (item : α) (connective : Connective) (chain : Chain α) :
    (chain.link item connective).closed = item :: chain.closed := rfl

theorem last_link (item : α) (connective : Connective) (chain : Chain α) :
    (chain.link item connective).last = chain.last :=
  List.getLast_cons chain.items_ne_nil

/-- Two chains of texts behind each other, with the last text of the one and the first text of the
other as one text. -/
def weld (as bs : Chain Text) : Chain Text :=
  go as.first as.rest
where
  go (item : Text) : List (Connective × Text) → Chain Text
    | [] => ⟨item ++ bs.first, bs.rest⟩
    | (connective, next) :: rest => (go next rest).link item connective

theorem weld_link (item : Text) (connective : Connective) (as bs : Chain Text) :
    (as.link item connective).weld bs = (as.weld bs).link item connective := rfl

theorem items_weld (as bs : Chain Text) :
    (as.weld bs).items = as.closed ++ (as.last ++ bs.first) :: bs.rest.map Prod.snd := by
  induction as using Chain.induction with
  | single item => rfl
  | link item connective as ih => rw [weld_link, items_link, ih, closed_link, last_link]; rfl

theorem connectives_weld (as bs : Chain Text) :
    (as.weld bs).connectives = as.connectives ++ bs.connectives := by
  induction as using Chain.induction with
  | single item => rfl
  | link item connective as ih =>
    show connective :: (as.weld bs).connectives = connective :: as.connectives ++ bs.connectives
    rw [ih, List.cons_append]

end Chain

namespace Text

variable {spelling : Spelling} {a b : Text} {as bs : Chain Text}

/-! ## Connectives at the ends of a text -/

/-- The text ends with a connective that severs it. -/
def EndsInConnective (spelling : Spelling) (text : Text) : Prop :=
  ∃ (before word : Text) (connective : Connective),
    text = before ++ word ∧ connective.Severs spelling before word []

/-- The text begins with a connective that severs it. -/
def BeginsInConnective (spelling : Spelling) (text : Text) : Prop :=
  ∃ (word after : Text) (connective : Connective),
    text = word ++ after ∧ connective.Severs spelling [] word after

theorem Splits.eq_single_of_nil (h : Splits spelling [] as) : as = ⟨[], []⟩ := by
  have hnil : Whole spelling [] := ⟨balanced_nil, unsevered_of_lacks (by simp)⟩
  exact h.unique (.whole hnil)

/-- Behind a connective at the end nothing is left. -/
theorem Splits.last_eq_nil (h : Splits spelling a as) (hend : a.EndsInConnective spelling) :
    as.last = [] := by
  induction h with
  | @whole text hwhole =>
    rcases hend with ⟨before, word, k, rfl, hsevers⟩
    exact absurd hsevers (hwhole.unsevered before word [] k (by rw [List.append_nil]))
  | @sever before word after k chain hwhole hsevers hafter ih =>
    rw [Chain.last_link]
    rcases hend with ⟨start, word', k', htext, hsevers'⟩
    rcases hsevers.same_or_behind hwhole hsevers' (by rw [List.append_nil, htext]) with
      ⟨-, -, hnil⟩ | ⟨middle, -, hmiddle, hbehind⟩
    · rw [← hnil] at hafter
      rw [hafter.eq_single_of_nil]
      rfl
    · rw [List.append_nil] at hmiddle
      exact ih ⟨middle, word', k', hmiddle, hbehind⟩

/-- Before a connective at the start nothing stands. -/
theorem Splits.first_eq_nil (h : Splits spelling a as) (hbegin : a.BeginsInConnective spelling) :
    as.first = [] := by
  rcases hbegin with ⟨word', after', k', htext, hsevers'⟩
  cases h with
  | whole hwhole => exact absurd hsevers' (hwhole.unsevered [] word' after' k' htext)
  | @sever before word after k chain hwhole hsevers hafter =>
    rcases hsevers.same_or_behind hwhole hsevers' htext.symm with ⟨hnil, -, -⟩ | ⟨middle, hnil, -, -⟩
    · exact hnil.symm
    · simp [Connective.ne_nil_of_accepts hsevers.accepted] at hnil

/-- The pieces of a text are whole and stand in it. -/
theorem Splits.whole_and_isInfix_of_mem (h : Splits spelling a as) {item : Text}
    (hitem : item ∈ as.items) : item.Whole spelling ∧ item <:+: a := by
  induction h with
  | @whole text hwhole =>
    rcases List.mem_singleton.1 hitem with rfl
    exact ⟨hwhole, List.infix_refl item⟩
  | @sever before word after k chain hwhole _ _ ih =>
    rcases List.mem_cons.1 hitem with rfl | hrest
    · refine ⟨hwhole, ?_⟩
      have hinfix := List.infix_append [] item (word ++ after)
      simpa only [List.nil_append, List.append_assoc] using hinfix
    · rcases ih hrest with ⟨hitemWhole, hinfix⟩
      exact ⟨hitemWhole, hinfix.trans (List.suffix_append _ after).isInfix⟩

theorem Splits.isInfix_last (h : Splits spelling a as) : as.last <:+: a :=
  (h.whole_and_isInfix_of_mem (List.getLast_mem as.items_ne_nil)).2

theorem Splits.isInfix_first (h : Splits spelling a as) : as.first <:+: a :=
  (h.whole_and_isInfix_of_mem List.mem_cons_self).2

/-! ## Seams -/

/-- A whole text in front goes to the first piece. -/
theorem Whole.splits_append (ha : a.Whole spelling) (hb : Splits spelling b bs)
    (hseam : (∀ c, a.getLast? = some c → spelling.Lacks c) ∨
      ∀ c, b.head? = some c → spelling.Lacks c)
    (hbegin : a.EndsApart ∨ ¬ b.BeginsInConnective spelling) :
    Splits spelling (a ++ b) ⟨a ++ bs.first, bs.rest⟩ := by
  cases hb with
  | whole hwhole => exact .whole (ha.append hwhole hseam)
  | @sever before word after k chain hwhole hsevers hafter =>
    have hseam' : (∀ c, a.getLast? = some c → spelling.Lacks c) ∨
        ∀ c, before.head? = some c → spelling.Lacks c := by
      refine hseam.imp_right fun hfirst c hc => hfirst c ?_
      rw [List.append_assoc, head?_append_of_ne_nil (List.ne_nil_of_mem (List.mem_of_head? hc)), hc]
    have hapart : a ++ before = [] ∨ EndsApart (a ++ before) := by
      right
      by_cases hne : before = []
      · rw [hne, List.append_nil]
        refine hbegin.resolve_right fun hnot => hnot ⟨word, after, k, ?_, ?_⟩
        · rw [hne, List.nil_append]
        · rwa [hne] at hsevers
      · exact (endsApart_append_iff hne).2 (hsevers.before_apart.resolve_left hne)
    show Splits spelling (a ++ (before ++ word ++ after)) (chain.link (a ++ before) k)
    rw [← List.append_assoc, ← List.append_assoc]
    exact .sever (ha.append hwhole hseam')
      ⟨ha.balanced.append hsevers.outermost, hsevers.accepted, hapart, hsevers.after_apart⟩ hafter

/-- Two texts side by side are cut where each of them is cut, if the second one begins with no letter
of a keyword and lets a connective at the end of the first one stand apart. -/
theorem Splits.weld (ha : Splits spelling a as) (hb : Splits spelling b bs) (hne : b ≠ [])
    (hseam : ∀ c, b.head? = some c → spelling.Lacks c)
    (hend : b.BeginsApart ∨ ¬ a.EndsInConnective spelling) :
    Splits spelling (a ++ b) (as.weld bs) := by
  induction ha with
  | whole hwhole =>
    refine hwhole.splits_append hb (.inr hseam) (.inr ?_)
    rintro ⟨word, after, k, rfl, hsevers⟩
    have hword := Connective.ne_nil_of_accepts hsevers.accepted
    refine hseam (word.head hword) ?_ word k hsevers.accepted (List.head_mem hword)
    rw [head?_append_of_ne_nil hword, List.head?_eq_some_head hword]
  | @sever before word after k chain hwhole hsevers hafter ih =>
    have hapart : after ++ b = [] ∨ BeginsApart (after ++ b) := by
      right
      rcases hsevers.after_apart with rfl | hbegins
      · refine hend.resolve_right fun hnot => hnot ⟨before, word, k, ?_, hsevers⟩
        rw [List.append_nil]
      · exact (beginsApart_append_iff hbegins.ne_nil).2 hbegins
    have hends : after.EndsInConnective spelling →
        EndsInConnective spelling (before ++ word ++ after) := by
      rintro ⟨start, word', k', htext, hsevers'⟩
      refine ⟨before ++ word ++ start, word', k', ?_, hsevers.behind ?_ hsevers'⟩
      · rw [htext, List.append_assoc (before ++ word)]
      · rw [htext, List.append_nil]
    rw [Chain.weld_link, List.append_assoc]
    exact .sever hwhole ⟨hsevers.outermost, hsevers.accepted, hsevers.before_apart, hapart⟩
      (ih (hend.imp_right (mt hends)))

end Text

/-! ## Filters that differ in one piece -/

namespace Grammar

variable {spelling : Spelling} {text text' : Text} {tree : Tree}

/-- What a filter derives, in terms of the pieces it is cut into. -/
theorem derives_iff_of_splits {raw : Chain Text} (h : text.Splits spelling raw) :
    Derives spelling text tree ↔ ∃ trees : Chain Tree, raw.connectives = trees.connectives ∧
      List.Forall₂ (fun piece tree => Term spelling piece.trim tree) raw.items trees.items ∧
      Tree.ofChain trees = tree := by
  rw [derives_iff_exists_chains]
  constructor
  · rintro ⟨terms, trees, hterms, hconnectives, hitems, htree⟩
    rcases hterms.splits with ⟨raw', hraw', rfl, -⟩
    obtain rfl := h.unique hraw'
    rw [Chain.connectives_map] at hconnectives
    rw [Chain.items_map, List.forall₂_map_left_iff] at hitems
    exact ⟨trees, hconnectives, hitems, htree⟩
  · rintro ⟨trees, hconnectives, hitems, htree⟩
    refine ⟨raw.map Text.trim, trees, h.segmented ?_, ?_, ?_, htree⟩
    · -- no term is empty
      intro hnil
      rw [Chain.items_map, List.mem_map] at hnil
      rcases hnil with ⟨piece, hpiece, htrim⟩
      rcases exists_mem_of_forall₂ hitems hpiece with ⟨tree', -, hterm⟩
      exact hterm.isSegment.ne_nil htrim
    · rwa [Chain.connectives_map]
    · rwa [Chain.items_map, List.forall₂_map_left_iff]

/-- Of what filters with welded cuts derive, the piece at the seam can be told apart. -/
theorem derives_weld_iff {as : Chain Text} {piece piece' : Text}
    {rest : List (Connective × Text)} (h : text.Splits spelling (as.weld ⟨piece, rest⟩))
    (h' : text'.Splits spelling (as.weld ⟨piece', rest⟩))
    (hterm : ∀ tree, Term spelling (as.last ++ piece).trim tree ↔
      Term spelling (as.last ++ piece').trim tree) :
    Derives spelling text tree ↔ Derives spelling text' tree := by
  have hconnectives : (as.weld ⟨piece, rest⟩).connectives =
      (as.weld ⟨piece', rest⟩).connectives := by
    rw [Chain.connectives_weld, Chain.connectives_weld]
    rfl
  rw [derives_iff_of_splits h, derives_iff_of_splits h', hconnectives]
  refine exists_congr fun trees => and_congr_right fun _ => and_congr_left fun _ => ?_
  rw [Chain.items_weld, Chain.items_weld]
  exact forall₂_congr_at (R := fun (piece : Text) tree => Term spelling piece.trim tree) hterm

theorem exists_term_of_derives_weld {as : Chain Text} {piece : Text}
    {rest : List (Connective × Text)} (h : text.Splits spelling (as.weld ⟨piece, rest⟩))
    (hderives : Derives spelling text tree) :
    ∃ tree', Term spelling (as.last ++ piece).trim tree' := by
  rcases (derives_iff_of_splits h).1 hderives with ⟨trees, -, hitems, -⟩
  have hmem : as.last ++ piece ∈ (as.weld ⟨piece, rest⟩).items := by
    rw [Chain.items_weld]
    exact List.mem_append_right _ List.mem_cons_self
  rcases exists_mem_of_forall₂ hitems hmem with ⟨tree', -, hterm⟩
  exact ⟨tree', hterm⟩

end Grammar

end ListingFilter
