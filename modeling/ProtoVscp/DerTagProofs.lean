import ProtoVscp.BerTlvProofs

/-! # What the writers of tags and lengths write

    `ber_fetch_tag` and `ber_fetch_length` read back what `ber_tlv_tag_serialize`
    and `der_tlv_length_serialize` write, except lengths so large that the reader
    refuses them (`ber_fetch_length_serialize`).  A tag that has been read, in
    whatever octets it came, is written in no more of them
    (`ber_fetch_tag_rewrite`). -/

namespace ProtoVscp

open SelfDelimiting

/-! ## Bits of an octet -/

private theorem and_0x7F (x : Nat) : x &&& 0x7F = x % 128 := Nat.and_two_pow_sub_one_eq_mod x 7

theorem and_0x80 (x : Nat) : x &&& 0x80 = 0 ↔ x / 128 % 2 = 0 := by
  have h := Nat.and_two_pow x 7
  rw [Nat.testBit_eq_decide_div_mod_eq] at h
  rw [show (0x80 : Nat) = 2 ^ 7 from rfl, h]
  by_cases hbit : x / 2 ^ 7 % 2 = 1
  · rw [decide_eq_true hbit, Bool.toNat_true]
    omega
  · rw [decide_eq_false hbit, Bool.toNat_false]
    omega

private theorem shiftLeft_or {x : Nat} (k v : Nat) (h : x < 2 ^ k) :
    (v <<< k) ||| x = v * 2 ^ k + x := by
  rw [← Nat.shiftLeft_add_eq_or_of_lt h, Nat.shiftLeft_eq]

/-- Seven bits behind the bits read so far. -/
private theorem shiftLeft_or_mod (v x : Nat) : (v <<< 7) ||| (x % 128) = v * 128 + x % 128 :=
  shiftLeft_or 7 v (Nat.mod_lt x (Nat.zero_lt_succ _))

private theorem or_0x80 {x : Nat} (h : x < 128) : 0x80 ||| x = 128 + x :=
  shiftLeft_or 7 1 h

/-! ## Tags -/

/-- What the loop that counts octets leaves out is zero. -/
private theorem shiftRight_required {v : Nat} (s n : Nat) (hv : v < 2 ^ (s * (n + 1))) :
    v >>> (s * (1 + ((List.range n).takeWhile
      (fun k => decide (v >>> (s * (k + 1)) ≠ 0))).length)) = 0 := by
  have hle := (List.takeWhile_prefix (l := List.range n)
    (fun k => decide (v >>> (s * (k + 1)) ≠ 0))).length_le
  rw [List.length_range] at hle
  by_cases hall : ((List.range n).takeWhile
      (fun k => decide (v >>> (s * (k + 1)) ≠ 0))).length = n
  · rw [hall, Nat.add_comm 1 n, Nat.shiftRight_eq_div_pow, Nat.div_eq_of_lt hv]
  · rw [List.takeWhile_eq_take_findIdx_not, List.length_take, List.length_range] at hle hall ⊢
    have hlt : List.findIdx (fun a => !decide (v >>> (s * (a + 1)) ≠ 0)) (List.range n)
        < (List.range n).length := by
      rw [List.length_range]
      omega
    have hstop := List.findIdx_getElem (w := hlt)
    rw [List.getElem_range] at hstop
    rw [List.length_range] at hlt
    rw [Nat.min_eq_left (Nat.le_of_lt hlt), Nat.add_comm 1]
    simpa using hstop

/-- The loop of `ber_fetch_tag`, called with the part of the number in front of
    the octets that follow. -/
private theorem fetchTagLoop_tagOctets (tclass : Nat) {tval : Nat} (h : tval < 2 ^ 30)
    (t : ByteStream) : ∀ k : Nat,
      fetchTagLoop tclass (tval >>> (7 * (k + 1))) (tagOctets tval k ++ t)
        = some ((tval <<< 2) ||| tclass, k + 1) := by
  intro k
  induction k with
  | zero =>
      have hoct : (UInt8.ofNat (tval &&& 0x7F)).toNat = tval % 128 := by
        rw [and_0x7F, UInt8.toNat_ofNat']
        omega
      have hlast : ¬ (tval % 128 &&& 0x80 ≠ 0) := by
        rw [not_not, and_0x80]
        omega
      have hval : ((tval >>> 7) <<< 7) ||| (tval % 128) = tval := by
        rw [shiftLeft_or_mod, Nat.shiftRight_eq_div_pow]
        omega
      rw [tagOctets, List.cons_append, fetchTagLoop, hoct, if_neg hlast]
      rw [Nat.mul_one, hval]
  | succ k ih =>
      have hoct : (UInt8.ofNat (0x80 ||| ((tval >>> (7 * (k + 1))) &&& 0x7F))).toNat
          = 128 + tval >>> (7 * (k + 1)) % 128 := by
        rw [and_0x7F, or_0x80 (Nat.mod_lt _ (by decide)), UInt8.toNat_ofNat']
        omega
      have hmore : 128 + tval >>> (7 * (k + 1)) % 128 &&& 0x80 ≠ 0 := by
        rw [ne_eq, and_0x80]
        omega
      have hval : ((tval >>> (7 * (k + 1 + 1))) <<< 7) |||
          ((128 + tval >>> (7 * (k + 1)) % 128) &&& 0x7F) = tval >>> (7 * (k + 1)) := by
        rw [and_0x7F, shiftLeft_or_mod, Nat.mul_succ 7 (k + 1),
          Nat.shiftRight_add, Nat.shiftRight_eq_div_pow _ 7]
        omega
      have hspare : ¬ ((tval >>> (7 * (k + 1))) >>> 23 ≠ 0) := by
        rw [not_not, ← Nat.shiftRight_add, Nat.shiftRight_eq_div_pow]
        refine Nat.div_eq_of_lt (Nat.lt_of_lt_of_le h (Nat.pow_le_pow_right (by decide) ?_))
        omega
      rw [tagOctets, List.cons_append, fetchTagLoop, hoct, if_pos hmore, hval, if_neg hspare, ih]
      rfl

/-- The first octet of a tag: two bits of class, a bit that tells a constructed
    value, and five bits. -/
private theorem firstOctet {tclass low : Nat} (constructed : Bool) (hclass : tclass < 4)
    (hlow : low < 32) :
    (if constructed then UInt8.ofNat ((tclass <<< 6) ||| low) ||| 0x20
      else UInt8.ofNat ((tclass <<< 6) ||| low)).toNat
      = tclass * 64 + (if constructed then 32 else 0) + low := by
  have hplain : (UInt8.ofNat ((tclass <<< 6) ||| low)).toNat = tclass * 64 + low := by
    rw [shiftLeft_or 6 tclass (Nat.lt_trans hlow (by decide)), UInt8.toNat_ofNat']
    omega
  cases constructed with
  | false =>
      rw [if_neg Bool.false_ne_true, if_neg Bool.false_ne_true, hplain]
      rfl
  | true =>
      have hor : (tclass <<< 6) ||| low = tclass * 64 + low :=
        shiftLeft_or 6 tclass (Nat.lt_trans hlow (by decide))
      rw [if_pos rfl, if_pos rfl, UInt8.toNat_or, hplain, ← hor, Nat.or_assoc, Nat.or_comm low]
      have hbit : (UInt8.toNat 0x20) ||| low = 32 + low := shiftLeft_or 5 1 hlow
      rw [hbit, shiftLeft_or 6 tclass (by omega), Nat.add_assoc]
      rfl

/-- The octet is a tag of its own when its low bits are not all set. -/
private theorem ber_fetch_tag_short {oct : UInt8} {tclass c low : Nat} (t : ByteStream)
    (hoct : oct.toNat = tclass * 64 + c + low) (hc : c = 0 ∨ c = 32) (hlow : low ≤ 30) :
    ber_fetch_tag (oct :: t) = some ((low <<< 2) ||| tclass, 1) := by
  have hval : oct.toNat &&& 0x1F = low := by
    have hmod := Nat.and_two_pow_sub_one_eq_mod oct.toNat 5
    rw [show (0x1F : Nat) = 2 ^ 5 - 1 from rfl, hmod, hoct]
    omega
  have hclass : oct.toNat >>> 6 = tclass := by
    rw [Nat.shiftRight_eq_div_pow, hoct]
    omega
  rw [ber_fetch_tag, hval, hclass, if_pos (by omega)]

/-- The octet in front of the octets of a larger number. -/
private theorem ber_fetch_tag_long {oct : UInt8} {tclass c : Nat} (t : ByteStream)
    (hoct : oct.toNat = tclass * 64 + c + 31) (hc : c = 0 ∨ c = 32) :
    ber_fetch_tag (oct :: t) = (fetchTagLoop tclass 0 t).map fun r => (r.1, r.2 + 1) := by
  have hval : oct.toNat &&& 0x1F = 0x1F := by
    have hmod := Nat.and_two_pow_sub_one_eq_mod oct.toNat 5
    rw [show (0x1F : Nat) = 2 ^ 5 - 1 from rfl, hmod, hoct]
    omega
  have hclass : oct.toNat >>> 6 = tclass := by
    rw [Nat.shiftRight_eq_div_pow, hoct]
    omega
  rw [ber_fetch_tag, hval, hclass, if_neg (not_not.mpr rfl)]

private theorem constructed_of_octet {oct : UInt8} {tclass low : Nat} (constructed : Bool)
    (t : ByteStream) (hoct : oct.toNat = tclass * 64 + (if constructed then 32 else 0) + low)
    (hlow : low < 32) : BER_TLV_CONSTRUCTED (oct :: t) = constructed := by
  have hbit : (oct &&& 0x20).toNat = oct.toNat / 32 % 2 * 32 := by
    have h := Nat.and_two_pow oct.toNat 5
    rw [Nat.testBit_eq_decide_div_mod_eq] at h
    rw [UInt8.toNat_and, show UInt8.toNat 0x20 = 2 ^ 5 from rfl, h]
    by_cases hodd : oct.toNat / 2 ^ 5 % 2 = 1
    · rw [decide_eq_true hodd, Bool.toNat_true]
      omega
    · rw [decide_eq_false hodd, Bool.toNat_false]
      omega
  rw [BER_TLV_CONSTRUCTED]
  cases constructed with
  | false =>
      rw [if_neg Bool.false_ne_true] at hoct
      refine decide_eq_false (not_not.mpr (UInt8.toNat_inj.mp ?_))
      rw [hbit, hoct]
      show _ = 0
      omega
  | true =>
      rw [if_pos rfl] at hoct
      refine decide_eq_true fun hzero => ?_
      have hnone := congrArg UInt8.toNat hzero
      rw [hbit, hoct] at hnone
      change _ = 0 at hnone
      omega

private theorem modifyHead_cons (constructed : Bool) (oct : UInt8) (rest : ByteStream) :
    (if constructed then (oct :: rest).modifyHead (· ||| 0x20) else oct :: rest)
      = (if constructed then oct ||| 0x20 else oct) :: rest := by
  cases constructed with
  | false => rfl
  | true => rfl

private theorem constructedBit (constructed : Bool) :
    (if constructed then 32 else 0) = 0 ∨ (if constructed then 32 else 0) = 32 := by
  cases constructed with
  | false => exact Or.inl rfl
  | true => exact Or.inr rfl

private theorem tagOctets_length (tval k : Nat) : (tagOctets tval k).length = k + 1 := by
  induction k with
  | zero => rfl
  | succ k ih => rw [tagOctets, List.length_cons, ih]

/-- A tag that fits an `unsigned` is written as octets that are read back as it,
    with or without the bit of a constructed value. -/
theorem isTag_serialize {tag : Nat} (h : tag < ber_tlv_tag_max) (constructed : Bool) :
    IsTag (tag, constructed)
      (if constructed then (ber_tlv_tag_serialize tag).modifyHead (· ||| 0x20)
        else ber_tlv_tag_serialize tag) := by
  have hclass : tag &&& 0x3 = tag % 4 := Nat.and_two_pow_sub_one_eq_mod tag 2
  have hval : tag >>> 2 = tag / 4 := Nat.shiftRight_eq_div_pow tag 2
  have hmod : tag % 4 < 4 := Nat.mod_lt tag (by omega)
  have hwhole : ((tag / 4) <<< 2) ||| (tag % 4) = tag := by
    have hor := shiftLeft_or 2 (tag / 4) hmod
    rw [hor]
    omega
  have hlt : tag / 4 < 2 ^ 30 := Nat.div_lt_of_lt_mul h
  rw [ber_tlv_tag_serialize, hclass, hval]
  by_cases hshort : tag / 4 ≤ 30
  · have hoct := firstOctet constructed hmod (show tag / 4 < 32 by omega)
    simp only [if_pos hshort, modifyHead_cons]
    refine ⟨?_, constructed_of_octet constructed [] hoct (show tag / 4 < 32 by omega)⟩
    rw [Exactly, ber_fetch_tag_short [] hoct (constructedBit constructed) hshort, hwhole]
    rfl
  · have hoct := firstOctet constructed hmod (show 31 < 32 by omega)
    simp only [if_neg hshort, modifyHead_cons]
    refine ⟨?_, constructed_of_octet constructed _ hoct (by omega)⟩
    have hstart : (tag / 4) >>> (7 * (requiredTagSize (tag / 4) - 1 + 1)) = 0 := by
      have hzero := shiftRight_required 7 4 (Nat.lt_trans hlt (by decide))
      rw [requiredTagSize, Nat.add_sub_cancel_left, Nat.add_comm _ 1]
      exact hzero
    have hloop := fetchTagLoop_tagOctets (tag % 4) hlt [] (requiredTagSize (tag / 4) - 1)
    rw [hstart, List.append_nil, hwhole] at hloop
    rw [Exactly, ber_fetch_tag_long _ hoct (constructedBit constructed), hloop,
      List.length_cons, tagOctets_length]
    rfl

/-! ## Lengths -/

/-- The loop of `ber_fetch_length`, called with the part of the length in front of
    the octets that follow. -/
private theorem fetchLengthLoop_octets {len : Nat} (h : len < ber_tlv_len_max)
    (t : ByteStream) : ∀ k : Nat,
      fetchLengthLoop k (len >>> (8 * k))
        ((List.range k).reverse.map (fun k => UInt8.ofNat (len >>> (8 * k))) ++ t)
        = some len := by
  intro k
  induction k with
  | zero => rfl
  | succ k ih =>
      have hoct : (UInt8.ofNat (len >>> (8 * k))).toNat = len >>> (8 * k) % 256 :=
        UInt8.toNat_ofNat'
      have hval : ((len >>> (8 * (k + 1))) <<< 8) ||| (len >>> (8 * k) % 256)
          = len >>> (8 * k) := by
        have hor := shiftLeft_or 8 (len >>> (8 * (k + 1)))
          (Nat.mod_lt (len >>> (8 * k)) (show 2 ^ 8 > 0 by omega))
        rw [show (256 : Nat) = 2 ^ 8 from rfl, hor, Nat.mul_succ, Nat.shiftRight_add,
          Nat.shiftRight_eq_div_pow _ 8]
        omega
      have hfits : ¬ (ber_tlv_len_max ≤ len >>> (8 * k) ∨
          ((len >>> (8 * k)) >>> 56 ≠ 0 ∧ k + 1 > 1)) := by
        rintro (hbig | ⟨htop, hk⟩)
        · have hle : len >>> (8 * k) ≤ len := by
            rw [Nat.shiftRight_eq_div_pow]
            exact Nat.div_le_self _ _
          omega
        · rw [← Nat.shiftRight_add, Nat.shiftRight_eq_div_pow] at htop
          refine htop (Nat.div_eq_of_lt (Nat.lt_of_lt_of_le h ?_))
          exact Nat.pow_le_pow_right (by omega) (by omega)
      rw [List.range_succ, List.reverse_append, List.reverse_singleton, List.singleton_append,
        List.map_cons, List.cons_append, fetchLengthLoop, hoct, hval, if_neg hfits, ih]

theorem requiredSize_bounds (len : Nat) : 1 ≤ requiredSize len ∧ requiredSize len ≤ 8 := by
  have hle := (List.takeWhile_prefix (l := List.range 7)
    (fun k => decide (len >>> (8 * (k + 1)) ≠ 0))).length_le
  rw [List.length_range] at hle
  rw [requiredSize]
  omega

/-- **A length that fits a `ssize_t` is read back as it, unless it is within 1024
    of the largest: then the reader refuses what the writer has written.** -/
theorem ber_fetch_length_serialize {len : Nat} (h : len < ber_tlv_len_max) (constr : Bool)
    (t : ByteStream) :
    ber_fetch_length constr (der_tlv_length_serialize len ++ t)
      = if ber_tlv_len_max ≤ len + 1024 then none
        else some (some len, (der_tlv_length_serialize len).length) := by
  rw [der_tlv_length_serialize]
  by_cases hshort : len ≤ 127
  · have hoct : (UInt8.ofNat len).toNat = len := by
      rw [UInt8.toNat_ofNat']
      omega
    have hbit : UInt8.ofNat len &&& 0x80 = 0 := by
      refine UInt8.toNat_inj.mp ?_
      rw [UInt8.toNat_and, hoct]
      exact (and_0x80 len).mpr (by omega)
    have hfits : ¬ ber_tlv_len_max ≤ len + 1024 := by
      rw [ber_tlv_len_max]
      omega
    rw [if_pos hshort, if_neg hfits, List.singleton_append, ber_fetch_length, if_pos hbit, hoct]
    rfl
  · obtain ⟨hone, height⟩ := requiredSize_bounds len
    have hoct : (UInt8.ofNat (0x80 ||| requiredSize len)).toNat = 128 + requiredSize len := by
      rw [or_0x80 (by omega), UInt8.toNat_ofNat']
      omega
    have hbit : ¬ UInt8.ofNat (0x80 ||| requiredSize len) &&& 0x80 = 0 := by
      intro hzero
      have hnat := congrArg UInt8.toNat hzero
      rw [UInt8.toNat_and, hoct] at hnat
      have hbit := (and_0x80 _).mp hnat
      omega
    have hindef : ¬ (constr = true ∧ UInt8.ofNat (0x80 ||| requiredSize len) = 0x80) := by
      rintro ⟨-, h80⟩
      have hnat := congrArg UInt8.toNat h80
      rw [hoct] at hnat
      change _ = 128 at hnat
      omega
    have hff : ¬ UInt8.ofNat (0x80 ||| requiredSize len) = 0xff := by
      intro hff
      have hnat := congrArg UInt8.toNat hff
      rw [hoct] at hnat
      change _ = 255 at hnat
      omega
    have hcount : (UInt8.ofNat (0x80 ||| requiredSize len)).toNat &&& 0x7F
        = requiredSize len := by
      rw [hoct, and_0x7F]
      omega
    have hstart : len >>> (8 * requiredSize len) = 0 :=
      shiftRight_required 8 7 (Nat.lt_trans h (Nat.pow_lt_pow_right (by omega) (by omega)))
    have hloop := fetchLengthLoop_octets h t (requiredSize len)
    rw [hstart] at hloop
    rw [if_neg hshort, List.cons_append, ber_fetch_length, if_neg hbit, if_neg hindef,
      if_neg hff, hcount, hloop]
    simp only [List.length_cons, List.length_map, List.length_reverse, List.length_range]

/-- **`der_write_TL` writes a tag and a length that are read back.** -/
theorem isTL_der_write_TL {tag len : Nat} (htag : tag < ber_tlv_tag_max)
    (hlen : len + 1024 < ber_tlv_len_max) (constructed : Bool) :
    IsTL ⟨tag, constructed, some len⟩ (der_write_TL tag len constructed) := by
  refine isTL_iff.mpr ⟨_, der_tlv_length_serialize len, ?_, isTag_serialize htag constructed, ?_⟩
  · cases constructed with
    | false => rfl
    | true =>
        have hne := (isTag_serialize htag false).ne_nil
        show List.modifyHead _ (ber_tlv_tag_serialize tag ++ _) = _
        cases hser : ber_tlv_tag_serialize tag with
        | nil => exact absurd hser hne
        | cons oct rest => rfl
  · have hread := ber_fetch_length_serialize (Nat.lt_of_le_of_lt (Nat.le_add_right len 1024) hlen)
      constructed []
    rw [List.append_nil, if_neg (Nat.not_le.mpr hlen)] at hread
    exact hread

/-- A tag of three octets and a length of three. -/
theorem isTL_der_write_TL_long :
    IsTL ⟨807, true, some 300⟩ (der_write_TL 807 300 true) :=
  isTL_der_write_TL (by decide) (by decide) true

/-- A value behind a tag of one octet, as the encoders write it. -/
theorem isTL_octet {oct : UInt8} {tag : ber_tlv_tag_t} {constr : Bool} {len : Nat}
    (hoct : IsTag (tag, constr) [oct]) (hlen : len + 1024 < ber_tlv_len_max) :
    IsTL ⟨tag, constr, some len⟩ (oct :: der_tlv_length_serialize len) := by
  refine isTL_iff.mpr ⟨[oct], der_tlv_length_serialize len, rfl, hoct, ?_⟩
  have hread := ber_fetch_length_serialize (Nat.lt_of_le_of_lt (Nat.le_add_right len 1024) hlen)
    constr []
  rw [List.append_nil, if_neg (Nat.not_le.mpr hlen)] at hread
  exact hread

/-! ## A tag that has been read -/

private theorem fetchTagLoop_bound {tclass : Nat} (hclass : tclass < 4) :
    ∀ (b : ByteStream) (val tag n : Nat), val < 2 ^ 23 →
      fetchTagLoop tclass val b = some (tag, n) →
        1 ≤ n ∧ tag / 4 < (val + 1) * 128 ^ n ∧ tag / 4 < 2 ^ 30 ∧ tag % 4 = tclass := by
  intro b
  induction b with
  | nil =>
      intro val tag n _ h
      cases h
  | cons oct rest ih =>
      intro val tag n hval h
      rw [fetchTagLoop] at h
      by_cases hmore : oct.toNat &&& 0x80 ≠ 0
      · rw [if_pos hmore] at h
        by_cases hbig : ((val <<< 7) ||| (oct.toNat &&& 0x7F)) >>> 23 ≠ 0
        · rw [if_pos hbig] at h
          cases h
        · rw [if_neg hbig, Option.map_eq_some_iff] at h
          obtain ⟨⟨tag', m⟩, hrest, heq⟩ := h
          obtain ⟨rfl, rfl⟩ := Prod.mk.inj heq
          rw [not_not, and_0x7F, shiftLeft_or_mod, Nat.shiftRight_eq_div_pow] at hbig
          rw [and_0x7F, shiftLeft_or_mod] at hrest
          have hnext : val * 128 + oct.toNat % 128 < 2 ^ 23 :=
            (Nat.div_eq_zero_iff_lt (by omega)).mp hbig
          obtain ⟨-, hval', hspare, hcls⟩ := ih _ _ _ hnext hrest
          refine ⟨Nat.succ_pos m, ?_, hspare, hcls⟩
          calc tag' / 4 < (val * 128 + oct.toNat % 128 + 1) * 128 ^ m := hval'
            _ ≤ ((val + 1) * 128) * 128 ^ m := Nat.mul_le_mul_right _ (by omega)
            _ = (val + 1) * 128 ^ (m + 1) := by rw [Nat.mul_assoc, Nat.pow_succ']
      · rw [if_neg hmore] at h
        obtain ⟨rfl, rfl⟩ := Prod.mk.inj (Option.some.inj h)
        have hlow := oct.toNat_lt
        rw [not_not, and_0x80] at hmore
        have hoct : oct.toNat % 128 = oct.toNat := Nat.mod_eq_of_lt (by omega)
        have hor := shiftLeft_or 2 ((val <<< 7) ||| oct.toNat) hclass
        rw [← hoct, shiftLeft_or_mod, hoct] at hor ⊢
        rw [hor, Nat.pow_one]
        omega

private theorem requiredTagSize_le {tval m : Nat} (hm : 1 ≤ m) (h : tval < 128 ^ m) :
    requiredTagSize tval ≤ m := by
  rw [requiredTagSize]
  by_cases hle : ((List.range 4).takeWhile
      (fun k => decide (tval >>> (7 * (k + 1)) ≠ 0))).length ≤ m - 1
  · omega
  · -- the round that looks at bit 7 * m would not have gone on
    have hlt := Nat.not_le.mp hle
    have hmem := List.mem_takeWhile_imp (List.getElem_mem hlt)
    have hget := (List.takeWhile_prefix (l := List.range 4)
      (fun k => decide (tval >>> (7 * (k + 1)) ≠ 0))).getElem hlt
    rw [hget, List.getElem_range, Nat.sub_add_cancel hm, decide_eq_true_iff,
      Nat.shiftRight_eq_div_pow, Nat.pow_mul] at hmem
    exact absurd (Nat.div_eq_of_lt h) hmem

/-- **A tag that has been read fits an `unsigned`, and is written again in octets
    that are read as the same tag and are no more than it came in.** -/
theorem ber_fetch_tag_rewrite {b : ByteStream} {tag n : Nat}
    (h : ber_fetch_tag b = some (tag, n)) (t : ByteStream) :
    tag < ber_tlv_tag_max ∧
      ber_fetch_tag (ber_tlv_tag_serialize tag ++ t)
        = some (tag, (ber_tlv_tag_serialize tag).length) ∧
      (ber_tlv_tag_serialize tag).length ≤ n := by
  have hsize : tag < ber_tlv_tag_max ∧ (ber_tlv_tag_serialize tag).length ≤ n := by
    have hval : tag >>> 2 = tag / 4 := Nat.shiftRight_eq_div_pow tag 2
    rw [ber_tlv_tag_serialize, hval]
    cases b with
    | nil => cases h
    | cons oct rest =>
        have hlow := oct.toNat_lt
        have hclass : oct.toNat >>> 6 < 4 := by
          rw [Nat.shiftRight_eq_div_pow]
          omega
        have hmod : oct.toNat &&& 0x1F = oct.toNat % 32 :=
          Nat.and_two_pow_sub_one_eq_mod oct.toNat 5
        rw [ber_fetch_tag, hmod] at h
        by_cases hshort : oct.toNat % 32 ≠ 0x1F
        · rw [if_pos hshort] at h
          obtain ⟨rfl, rfl⟩ := Prod.mk.inj (Option.some.inj h)
          have hor := shiftLeft_or 2 (oct.toNat % 32) hclass
          have hle : (oct.toNat % 32 * 2 ^ 2 + oct.toNat >>> 6) / 4 ≤ 30 := by omega
          rw [hor, ber_tlv_tag_max]
          simp only [if_pos hle]
          exact ⟨by omega, Nat.le_refl 1⟩
        · rw [if_neg hshort, Option.map_eq_some_iff] at h
          obtain ⟨⟨tag', m⟩, hrest, heq⟩ := h
          obtain ⟨rfl, rfl⟩ : tag' = tag ∧ m + 1 = n := Prod.mk.inj heq
          obtain ⟨hm, hbound, hspare, -⟩ :=
            fetchTagLoop_bound hclass _ _ _ _ (Nat.two_pow_pos 23) hrest
          refine ⟨?_, ?_⟩
          · rw [ber_tlv_tag_max]
            omega
          · by_cases hone : tag' / 4 ≤ 30
            · rw [if_pos hone]
              exact Nat.succ_le_succ (Nat.zero_le m)
            · rw [Nat.zero_add, Nat.one_mul] at hbound
              have hreq := requiredTagSize_le hm hbound
              rw [if_neg hone, List.length_cons, tagOctets_length]
              omega
  exact ⟨hsize.1, ber_fetch_tag_stable.complete (isTag_serialize hsize.1 false).1 t, hsize.2⟩

/-- Three octets with a leading group of zeros, written again in one. -/
theorem ber_fetch_tag_rewrite_zeros :
    6 < ber_tlv_tag_max ∧ ber_fetch_tag (ber_tlv_tag_serialize 6 ++ [0x05]) = some (6, 1) ∧
      1 ≤ 3 := by
  have hread : ber_fetch_tag [0x9F, 0x80, 0x01] = some (6, 3) := rfl
  exact ber_fetch_tag_rewrite hread [0x05]

end ProtoVscp
