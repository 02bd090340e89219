import ListingFilter.Proofs.Rendering

/-!
# Joining — cuts of texts with connectives between them

Balanced texts with connectives between them are cut at least at those connectives, and at no others
exactly if all of the texts are whole (`Chain.splits_written`). So the number of segments of the
written form of a group tells whether its members are read one by one
(`Chain.whole_of_segmented_written`).
-/

namespace ListingFilter

namespace Text

variable {spelling : Spelling} {a b word : Text} {as bs : Chain Text} {connective : Connective}

/-- White space before a text does not matter to the number of its pieces. -/
theorem Splits.exists_append_left {pad : Text} (h : Splits spelling b bs) (hpad : pad.isBlank) :
    ∃ chain, Splits spelling (pad ++ b) chain ∧ chain.rest.length = bs.rest.length := by
  cases h with
  | whole hwhole => exact ⟨_, .whole ((whole_append_left_iff hpad).2 hwhole), rfl⟩
  | @sever before word after connective chain hbefore hsevers hafter =>
    refine ⟨chain.link (pad ++ before) connective, ?_, rfl⟩
    have hsplits := Splits.sever ((whole_append_left_iff hpad).2 hbefore) (hsevers.append_left hpad)
      hafter
    simpa only [List.append_assoc] using hsplits

/-- Two texts with a connective between them are cut there and where each of them is cut. -/
theorem Splits.join (ha : Splits spelling a as) (hb : Splits spelling b bs)
    (hword : spelling.accepts word connective.keyword) :
    ∃ chain, Splits spelling (a ++ ([' '] ++ word ++ ([' '] ++ b))) chain ∧
      chain.rest.length = as.rest.length + 1 + bs.rest.length := by
  have hbegin : BeginsApart ([' '] ++ b) := beginsApart_blank_append b
  -- on the cut of the first text, whose last piece the connective comes behind
  induction ha with
  | @whole text hwhole =>
    rcases hb.exists_append_left isBlank_blank with ⟨chain, hchain, hlength⟩
    have hpadded : (text ++ [' ']).Whole spelling := (whole_append_right_iff isBlank_blank).2 hwhole
    have hend : EndsApart (text ++ [' ']) := endsApart_append_blank text
    have hsplits := Splits.sever hpadded ⟨hpadded.balanced, hword, .inr hend, .inr hbegin⟩ hchain
    refine ⟨_, by simpa only [List.append_assoc] using hsplits, ?_⟩
    simp only [Chain.link, List.length_cons, List.length_nil]
    omega
  | @sever before word' after k chain hbefore hsevers hafter ih =>
    rcases ih with ⟨joined, hjoined, hlength⟩
    -- the first connective severs the longer text as well
    have hafterApart : after ++ ([' '] ++ word ++ ([' '] ++ b)) = [] ∨
        BeginsApart (after ++ ([' '] ++ word ++ ([' '] ++ b))) := by
      right
      rcases hsevers.after_apart with rfl | hapart
      · exact beginsApart_blank_append _
      · exact (beginsApart_append_iff hapart.ne_nil).2 hapart
    have hsplits := Splits.sever hbefore
      ⟨hsevers.outermost, hsevers.accepted, hsevers.before_apart, hafterApart⟩ hjoined
    refine ⟨_, by simpa only [List.append_assoc] using hsplits, ?_⟩
    simp only [Chain.link, List.length_cons]
    omega

/-- The segments of a text are as many as the pieces that it is cut into. -/
theorem Segmented.length_rest_eq {chain : Chain Text} (h : Segmented spelling a chain)
    (ha : Splits spelling a as) : as.rest.length = chain.rest.length := by
  rcases h.splits with ⟨pieces, hpieces, rfl, -⟩
  rw [ha.unique hpieces, Chain.map, List.length_map]

/-- A text that is cut into one piece is whole. -/
theorem Splits.whole_of_rest_eq_nil (h : Splits spelling a as) (hrest : as.rest.length = 0) :
    a.Whole spelling := by
  cases h with
  | whole hwhole => exact hwhole
  | sever => simp [Chain.link] at hrest

end Text

/-- Balanced members with connectives between them are cut at those connectives, and nowhere else
only if all of the members are whole. -/
theorem Chain.splits_written {spelling : Spelling} {trees : Chain Tree}
    (h : ∀ tree ∈ trees.items, (tree.parenthesized tree.written).Balanced) :
    ∃ raw, Text.Splits spelling (Tree.writtenMembers (trees.members none)) raw ∧
      trees.rest.length ≤ raw.rest.length ∧ (raw.rest.length = trees.rest.length →
        ∀ tree ∈ trees.items, (tree.parenthesized tree.written).Whole spelling) := by
  rcases trees with ⟨first, rest⟩
  induction rest generalizing first with
  | nil =>
    rcases (h first List.mem_cons_self).exists_splits spelling with ⟨raw, hraw⟩
    refine ⟨raw, ?_, Nat.zero_le _, ?_⟩
    · simpa [members, Tree.writtenMembers, Tree.joint] using hraw
    · intro hlength tree htree
      obtain rfl : tree = first := List.mem_singleton.1 htree
      exact hraw.whole_of_rest_eq_nil hlength
  | cons link rest ih =>
    rcases link with ⟨connective, second⟩
    rcases (h first List.mem_cons_self).exists_splits spelling with ⟨raw, hraw⟩
    rcases ih second fun tree htree => h tree (List.mem_cons_of_mem _ htree) with
      ⟨more, hmore, hle, hwhole⟩
    rcases hraw.join hmore (spelling.accepts_self connective.keyword) with ⟨joined, hjoined, hlength⟩
    refine ⟨joined, ?_, ?_, ?_⟩
    · simpa [members, Tree.writtenMembers, Tree.joint] using hjoined
    · simp only [List.length_cons] at hle ⊢
      omega
    · -- neither the first member nor the others have pieces to spare
      intro hsame tree htree
      simp only [List.length_cons] at hle hsame hwhole
      rcases List.mem_cons.1 htree with rfl | hrest
      · exact hraw.whole_of_rest_eq_nil (by omega)
      · exact hwhole (by omega) tree hrest

/-- The written form of balanced members has at least as many segments as members, and as many only
if all of the members are whole. -/
theorem Chain.whole_of_segmented_written {spelling : Spelling} {trees : Chain Tree}
    {chain : Chain Text} (h : ∀ tree ∈ trees.items, (tree.parenthesized tree.written).Balanced)
    (hchain : Text.Segmented spelling (Tree.writtenMembers (trees.members none)) chain) :
    trees.rest.length ≤ chain.rest.length ∧ (chain.rest.length = trees.rest.length →
      ∀ tree ∈ trees.items, (tree.parenthesized tree.written).Whole spelling) := by
  rcases Chain.splits_written h with ⟨raw, hraw, hle, hwhole⟩
  rw [hchain.length_rest_eq hraw] at hle hwhole
  exact ⟨hle, hwhole⟩

end ListingFilter
