import ListingFilter.Stream.Source
import Mathlib.Data.List.Basic

/-!
# Encoding — what a source gives out

A source gives out items, characters and faults, until it ends (`Source.items`). Every item takes up
the first of the octets that are left, at least one, so there are only finitely many, and together
they take up all octets (`Source.flatMap_items`).

The first octet of a character says how many there are. So a character is read from its octets
whatever follows them (`decodeFirst?_encode_append`), and nothing is read before the last of them is
there (`decodeFirst?_eq_none_of_prefix`). Hence the items of the octets of a text are its characters
(`Source.items_utf8`).
-/

namespace ListingFilter

/-! ## One character -/

/-- The octets of a character: the first says how many there are, and together they carry its code
point. -/
theorem exists_leadOctet? (char : Char) :
    ∃ lead tail bits, String.utf8EncodeChar char = lead :: tail ∧
      leadOctet? lead = some (tail.length + 1, bits) ∧
      tail.foldl (fun n octet => n * 0x40 + octet.toNat % 0x40) bits = char.toNat := by
  have hmax : char.toNat < 0x110000 := by
    rcases char.valid with h | h <;> simp only [Char.toNat] <;> omega
  have hval : char.val.toNat = char.toNat := rfl
  unfold String.utf8EncodeChar
  simp only [hval]
  generalize char.toNat = n at *
  split
  · -- one octet
    have hbits : n % 2 ^ 8 = n := Nat.mod_eq_of_lt (by omega)
    refine ⟨_, _, n, rfl, ?_, rfl⟩
    simp only [leadOctet?, UInt8.toNat_ofNat', hbits]
    rw [if_pos (by omega)]
    rfl
  · split
    · -- two octets
      have hbits : (n / 64 % 32 + 192) % 2 ^ 8 % 0x20 = n / 64 := by omega
      refine ⟨_, _, n / 64, rfl, ?_, ?_⟩
      · simp only [leadOctet?, UInt8.toNat_ofNat']
        rw [if_neg (by omega), if_neg (by omega), if_pos (by omega), hbits]
        rfl
      · simp only [List.foldl_cons, List.foldl_nil, UInt8.toNat_ofNat']
        omega
    · split
      · -- three octets
        have hbits : (n / 4096 % 16 + 224) % 2 ^ 8 % 0x10 = n / 4096 := by omega
        refine ⟨_, _, n / 4096, rfl, ?_, ?_⟩
        · simp only [leadOctet?, UInt8.toNat_ofNat']
          rw [if_neg (by omega), if_neg (by omega), if_neg (by omega), if_pos (by omega), hbits]
          rfl
        · simp only [List.foldl_cons, List.foldl_nil, UInt8.toNat_ofNat']
          omega
      · -- four octets
        have hbits : (n / 262144 % 8 + 240) % 2 ^ 8 % 0x08 = n / 262144 := by omega
        refine ⟨_, _, n / 262144, rfl, ?_, ?_⟩
        · simp only [leadOctet?, UInt8.toNat_ofNat']
          rw [if_neg (by omega), if_neg (by omega), if_neg (by omega), if_neg (by omega),
            if_pos (by omega), hbits]
          rfl
        · simp only [List.foldl_cons, List.foldl_nil, UInt8.toNat_ofNat']
          omega

/-- A character is read from its octets, whatever follows them. -/
theorem decodeFirst?_encode_append (char : Char) (rest : List UInt8) :
    decodeFirst? (String.utf8EncodeChar char ++ rest) = some (char, rest) := by
  rcases exists_leadOctet? char with ⟨lead, tail, bits, hencode, hlead, hbits⟩
  have htake : (tail ++ rest).take tail.length = tail := List.take_left
  have hdrop : (tail ++ rest).drop tail.length = rest := List.drop_left
  rw [hencode, List.cons_append]
  simp only [decodeFirst?, hlead, Nat.add_sub_cancel, htake, hdrop, hbits, Char.ofNat_toNat, hencode,
    if_true]

/-- No character is read from only a part of the octets of one. -/
theorem decodeFirst?_eq_none_of_prefix {char : Char} {held : List UInt8}
    (hstart : held <+: String.utf8EncodeChar char)
    (hlt : held.length < (String.utf8EncodeChar char).length) : decodeFirst? held = none := by
  by_contra hsome
  rcases Option.ne_none_iff_exists'.1 hsome with ⟨⟨other, rest⟩, hother⟩
  have hheld := eq_encode_append_of_decodeFirst? hother
  rcases exists_leadOctet? char with ⟨lead, tail, bits, hencode, hlead, -⟩
  rcases exists_leadOctet? other with ⟨lead', tail', bits', hencode', hlead', -⟩
  -- both characters begin with the same octet, so they have equally many
  rw [hheld, hencode, hencode', List.cons_append, List.cons_prefix_cons] at hstart
  rw [← hstart.1, hlead', Option.some.injEq, Prod.mk.injEq] at hlead
  have hlength := congrArg List.length hheld
  simp only [hencode, hencode', List.length_append, List.length_cons] at hlength hlt
  omega

theorem decodeUpTo_of_eq_none {octets : List UInt8} (h : decodeFirst? octets = none) (limit : Nat) :
    decodeUpTo limit octets = ([], octets) := by
  cases limit with
  | zero => rfl
  | succ limit => simp only [decodeUpTo, h]

theorem undecodable_of_eq_none {octets : List UInt8} (h : decodeFirst? octets = none) :
    undecodable octets = octets := by
  rw [undecodable, decodeUpTo_of_eq_none h]

theorem isUtf8_encode (char : Char) : isUtf8 (String.utf8EncodeChar char) := by
  rcases exists_leadOctet? char with ⟨lead, tail, bits, hencode, -, -⟩
  have hlength : (String.utf8EncodeChar char).length = tail.length + 1 := congrArg List.length hencode
  have hread := decodeFirst?_encode_append char []
  rw [List.append_nil] at hread
  have hend : decodeFirst? [] = none := rfl
  simp only [isUtf8, undecodable, hlength, decodeUpTo, hread, decodeUpTo_of_eq_none hend,
    List.isEmpty_nil]

namespace Source

/-! ## Characters -/

/-- The first octets of a character give nothing before the last one is read. -/
theorem settle?_eq_none_of_prefix {char : Char} {held : List UInt8}
    (hstart : held <+: String.utf8EncodeChar char)
    (hlt : held.length < (String.utf8EncodeChar char).length) : settle? held = none := by
  have hnone := decodeFirst?_eq_none_of_prefix hstart hlt
  -- there are too few of them to be given up
  have hfew : ¬ (undecodable held).length ≥ 4 := by
    have hfour := char.utf8Size_le_four
    rw [String.length_utf8EncodeChar] at hlt
    rw [undecodable_of_eq_none hnone]
    omega
  rw [settle?, hnone, if_neg hfew]
  split <;> rfl

theorem settle?_encode (char : Char) :
    settle? (String.utf8EncodeChar char) = some (.ok char, []) := by
  have hread := decodeFirst?_encode_append char []
  rw [List.append_nil] at hread
  rw [settle?, if_pos (isUtf8_encode char), hread]
  rfl

/-- A character is given out once its last octet is read. -/
theorem nextOf_encode {char : Char} {held behind : List UInt8}
    (h : held ++ behind = String.utf8EncodeChar char) (unread : List UInt8) :
    nextOf held (behind ++ unread) = (some (.ok char), ⟨[], unread⟩) := by
  induction behind generalizing held with
  | nil =>
    rw [List.append_nil] at h
    cases unread <;> simp only [List.nil_append, nextOf, h, settle?_encode]
  | cons octet behind ih =>
    have hstart : held <+: String.utf8EncodeChar char := ⟨octet :: behind, h⟩
    have hlt : held.length < (String.utf8EncodeChar char).length := by
      rw [← h, List.length_append, List.length_cons]
      omega
    simp only [List.cons_append, nextOf, settle?_eq_none_of_prefix hstart hlt]
    apply ih
    rw [List.append_assoc, List.singleton_append, h]

/-! ## Octets -/

/-- What a source gives out: a character or a fault. -/
abbrev Item := Except StreamFault Char

/-- The octets that an item takes up. -/
def octets : Item → List UInt8
  | .ok char => String.utf8EncodeChar char
  | .error fault => fault.octets

/-- The octets that have not been given out. -/
def left (source : Source) : List UInt8 :=
  source.held ++ source.unread

theorem fst_giveUp_ne_nil {held : List UInt8} (h : held ≠ []) : (giveUp held).1 ≠ [] := by
  cases held with
  | nil => exact absurd rfl h
  | cons octet rest =>
    rw [giveUp]
    split
    · exact List.cons_ne_nil octet []
    · exact List.cons_ne_nil octet _

/-- An item takes up the first octets at hand, at least one. -/
theorem octets_of_settle? {held rest : List UInt8} {item : Item}
    (h : settle? held = some (item, rest)) : octets item ++ rest = held ∧ octets item ≠ [] := by
  unfold settle? at h
  split at h
  · rcases Option.map_eq_some_iff.1 h with ⟨⟨char, behind⟩, hread, hsame⟩
    cases hsame
    rcases exists_leadOctet? char with ⟨lead, tail, bits, hencode, -⟩
    refine ⟨(eq_encode_append_of_decodeFirst? hread).symm, ?_⟩
    simp [octets, hencode]
  · split at h
    · rename_i hfour
      cases h
      refine ⟨giveUp_append held, fst_giveUp_ne_nil ?_⟩
      intro hnil
      rw [hnil] at hfour
      exact absurd hfour (by decide)
    · cases h

theorem nextOf_cases (held unread : List UInt8) :
    (∃ item rest, nextOf held unread = (some item, rest) ∧
      octets item ++ rest.left = held ++ unread ∧ octets item ≠ []) ∨
    held ++ unread = [] ∧ nextOf held unread = (none, ⟨[], []⟩) := by
  fun_induction nextOf held unread with
  | case1 held item rest hsettle =>
    rcases octets_of_settle? hsettle with ⟨hjoin, hne⟩
    refine .inl ⟨item, _, rfl, ?_, hne⟩
    simpa [left] using hjoin
  | case2 held hsettle =>
    -- the octets at hand at the end make up no character
    cases held with
    | nil => exact .inr ⟨rfl, rfl⟩
    | cons octet held => exact .inl ⟨_, _, rfl, rfl, List.cons_ne_nil octet held⟩
  | case3 held octet unread item rest hsettle =>
    rcases octets_of_settle? hsettle with ⟨hjoin, hne⟩
    refine .inl ⟨item, _, rfl, ?_, hne⟩
    rw [left, ← List.append_assoc, hjoin]
  | case4 held octet unread hsettle ih => simpa using ih

/-- The next item takes up the first octets that are left, at least one; without octets there is no
next item. -/
theorem next_cases (source : Source) :
    (∃ item rest, source.next = (some item, rest) ∧ octets item ++ rest.left = source.left ∧
      octets item ≠ []) ∨
    source.left = [] ∧ source.next = (none, ⟨[], []⟩) :=
  nextOf_cases source.held source.unread

/-! ## Items -/

theorem length_left_lt {source rest : Source} {item : Item} (h : source.next = (some item, rest)) :
    rest.left.length < source.left.length := by
  rcases source.next_cases with ⟨item', rest', hnext, hjoin, hne⟩ | ⟨-, hnext⟩
  · rw [hnext] at h
    cases h
    have hpos := List.length_pos_of_ne_nil hne
    rw [← hjoin, List.length_append]
    omega
  · rw [hnext] at h
    cases h

/-- All that the source gives out until it ends. -/
def items (source : Source) : List Item :=
  match _h : source.next with
  | (none, _) => []
  | (some item, rest) => item :: rest.items
termination_by source.left.length
decreasing_by exact length_left_lt _h

theorem items_of_next_eq_none {source rest : Source} (h : source.next = (none, rest)) :
    source.items = [] := by
  rw [items]
  split
  · rfl
  · simp_all

theorem items_of_next_eq_some {source rest : Source} {item : Item}
    (h : source.next = (some item, rest)) : source.items = item :: rest.items := by
  rw [items]
  split
  · simp_all
  · simp_all

/-- No octet is lost, used twice or out of order. -/
theorem flatMap_items (source : Source) : source.items.flatMap octets = source.left := by
  induction source using items.induct with
  | case1 source rest h =>
    rcases source.next_cases with ⟨item, rest', hnext, -⟩ | ⟨hleft, -⟩
    · rw [hnext] at h
      cases h
    · rw [items_of_next_eq_none h, hleft]
      rfl
  | case2 source item rest h ih =>
    rcases source.next_cases with ⟨item', rest', hnext, hjoin, -⟩ | ⟨-, hnext⟩
    · rw [hnext] at h
      cases h
      rw [items_of_next_eq_some hnext, List.flatMap_cons, ih, hjoin]
    · rw [hnext] at h
      cases h

end Source

/-- The octets of a text. -/
def Text.utf8 (text : Text) : List UInt8 :=
  text.flatMap String.utf8EncodeChar

/-- Of the octets of a text, a source gives out the characters of the text. -/
theorem Source.items_utf8 (text : Text) : (ofOctets text.utf8).items = text.map .ok := by
  induction text with
  | nil => exact items_of_next_eq_none rfl
  | cons c rest ih =>
    have hnext : (ofOctets (Text.utf8 (c :: rest))).next =
        (some (.ok c), ofOctets (Text.utf8 rest)) :=
      nextOf_encode (List.nil_append _) (Text.utf8 rest)
    rw [items_of_next_eq_some hnext, ih, List.map_cons]

end ListingFilter
