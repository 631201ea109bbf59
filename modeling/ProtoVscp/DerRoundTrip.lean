import ProtoVscp.DerTagProofs
import ProtoVscp.TcapGrammar

/-! # What is encoded is decoded again

    An INTEGER is written in two's complement with the superfluous octets left out,
    and the contents that are read as a number are those that are written for it,
    whatever superfluous octets they have (`asn_INTEGER2long_eq_some`).  An End of
    Invokes is read back exactly when each parameter in it is a value
    (`end_read_back_iff`), as the ConnectArg of a reply is. -/

namespace ProtoVscp

open SelfDelimiting

/-! ## Two's complement -/

/-- Octets behind the number `l`, most significant first. -/
def valueBehind (l : Int) (b : ByteStream) : Int := b.foldl (fun l oct => l * 256 + oct.toNat) l

/-- What the sign of the first octet stands for. -/
def signOf (oct : UInt8) : Int := if oct >>> 7 ≠ 0 then -1 else 0

/-- The number that octets are in two's complement. -/
def twosComplement : ByteStream → Int
  | [] => 0
  | oct :: rest => valueBehind (signOf oct) (oct :: rest)

theorem signOf_eq (oct : UInt8) : signOf oct = if 128 ≤ oct.toNat then -1 else 0 := by
  have hshift : (oct >>> 7).toNat = oct.toNat / 128 := by
    rw [UInt8.toNat_shiftRight]
    exact Nat.shiftRight_eq_div_pow _ 7
  rw [signOf]
  by_cases hbit : 128 ≤ oct.toNat
  · have hne : oct >>> 7 ≠ 0 := by
      intro h0
      rw [h0] at hshift
      have hlt := oct.toNat_lt
      change 0 = _ at hshift
      omega
    rw [if_pos hne, if_pos hbit]
  · have heq : ¬ oct >>> 7 ≠ 0 := by
      rw [not_not, ← UInt8.toNat_inj, hshift]
      exact Nat.div_eq_of_lt (Nat.not_le.mp hbit)
    rw [if_neg heq, if_neg hbit]

theorem valueBehind_eq (l : Int) (b : ByteStream) :
    ∃ v : Int, valueBehind l b = l * 256 ^ b.length + v ∧ 0 ≤ v ∧ v < 256 ^ b.length := by
  induction b generalizing l with
  | nil => exact ⟨0, by rw [valueBehind]; simp, le_refl 0, Int.one_pos⟩
  | cons oct rest ih =>
      obtain ⟨v, hv, hpos, hlt⟩ := ih (l * 256 + oct.toNat)
      have hlow := oct.toNat_lt
      refine ⟨oct.toNat * 256 ^ rest.length + v, ?_, by positivity, ?_⟩
      · rw [valueBehind, List.foldl_cons]
        refine hv.trans ?_
        rw [List.length_cons]
        ring
      · calc (oct.toNat : Int) * 256 ^ rest.length + v
            < oct.toNat * 256 ^ rest.length + 256 ^ rest.length := Int.add_lt_add_left hlt _
          _ = (oct.toNat + 1) * 256 ^ rest.length := by ring
          _ ≤ 256 * 256 ^ rest.length := by gcongr; omega
          _ = 256 ^ (oct :: rest).length := by rw [List.length_cons]; ring

/-- Numbers behind each other are told apart. -/
theorem valueBehind_inj {a b : ByteStream} (hlen : a.length = b.length) {l l' : Int}
    (h : valueBehind l a = valueBehind l' b) : l = l' ∧ a = b := by
  induction a generalizing b l l' with
  | nil =>
      obtain rfl := List.eq_nil_of_length_eq_zero hlen.symm
      exact ⟨h, rfl⟩
  | cons x xs ih =>
      cases b with
      | nil => cases hlen
      | cons y ys =>
          -- the last octets agree first, and leave the same number in front
          obtain ⟨hbehind, rfl⟩ := ih (Nat.succ.inj hlen) h
          have hx := x.toNat_lt
          have hy := y.toNat_lt
          change l * 256 + (x.toNat : Int) = l' * 256 + y.toNat at hbehind
          obtain ⟨rfl, hsame⟩ : l = l' ∧ x.toNat = y.toNat := by omega
          exact ⟨rfl, by rw [UInt8.toNat_inj.mp hsame]⟩

/-- The first octet and its sign. -/
def leading (oct : UInt8) : Int := signOf oct * 256 + oct.toNat

theorem leading_bounds (oct : UInt8) : -128 ≤ leading oct ∧ leading oct < 128 := by
  have hlow := oct.toNat_lt
  rw [leading, signOf_eq]
  by_cases hbit : 128 ≤ oct.toNat
  · rw [if_pos hbit]
    omega
  · rw [if_neg hbit]
    omega

theorem twosComplement_bounds (oct : UInt8) (rest : ByteStream) :
    -(128 * 256 ^ rest.length) ≤ twosComplement (oct :: rest) ∧
      twosComplement (oct :: rest) < 128 * 256 ^ rest.length := by
  obtain ⟨hlow, hhigh⟩ := leading_bounds oct
  obtain ⟨v, hv, hpos, hlt⟩ := valueBehind_eq (leading oct) rest
  have htc : twosComplement (oct :: rest) = leading oct * 256 ^ rest.length + v := hv
  have hM : (0 : Int) < 256 ^ rest.length := by positivity
  rw [htc]
  constructor
  · nlinarith
  · nlinarith

/-! ## Superfluous octets -/

/-- The octet `b₀` in front of `b₁` is superfluous. -/
def Skips (b₀ b₁ : UInt8) : Prop :=
  (b₀ = 0x00 ∧ b₁ &&& 0x80 = 0) ∨ (b₀ = 0xff ∧ b₁ &&& 0x80 ≠ 0)

/-- It stands for the sign of `b₁`. -/
theorem skips_iff {b₀ b₁ : UInt8} : Skips b₀ b₁ ↔ leading b₀ = signOf b₁ := by
  have hlow := b₀.toNat_lt
  have hlow' := b₁.toNat_lt
  have hbit : b₁ &&& 0x80 = 0 ↔ ¬ 128 ≤ b₁.toNat := by
    rw [← UInt8.toNat_inj, UInt8.toNat_and]
    refine (and_0x80 b₁.toNat).trans ?_
    omega
  have hzero : b₀ = 0x00 ↔ b₀.toNat = 0 := UInt8.toNat_inj.symm
  have hones : b₀ = 0xff ↔ b₀.toNat = 255 := UInt8.toNat_inj.symm
  rw [Skips, ne_eq, hbit, hzero, hones, leading, signOf_eq, signOf_eq]
  by_cases h₀ : 128 ≤ b₀.toNat
  · by_cases h₁ : 128 ≤ b₁.toNat
    · rw [if_pos h₀, if_pos h₁]
      omega
    · rw [if_pos h₀, if_neg h₁]
      omega
  · by_cases h₁ : 128 ≤ b₁.toNat
    · rw [if_neg h₀, if_pos h₁]
      omega
    · rw [if_neg h₀, if_neg h₁]
      omega

theorem canonicalize_cons (b₀ b₁ : UInt8) (rest : ByteStream) :
    (Skips b₀ b₁ ∧ canonicalize (b₀ :: b₁ :: rest) = canonicalize (b₁ :: rest)) ∨
      (¬ Skips b₀ b₁ ∧ canonicalize (b₀ :: b₁ :: rest) = b₀ :: b₁ :: rest) := by
  by_cases hskip : Skips b₀ b₁
  · exact Or.inl ⟨hskip, by rw [canonicalize]; exact if_pos hskip⟩
  · exact Or.inr ⟨hskip, by rw [canonicalize]; exact if_neg hskip⟩

/-- A superfluous octet stands for nothing but the sign. -/
theorem twosComplement_canonicalize (b : ByteStream) :
    twosComplement (canonicalize b) = twosComplement b := by
  induction b with
  | nil => rfl
  | cons b₀ rest ih =>
      cases rest with
      | nil => rfl
      | cons b₁ rest =>
          rcases canonicalize_cons b₀ b₁ rest with ⟨hskip, heq⟩ | ⟨-, heq⟩
          · rw [heq, ih]
            show valueBehind (signOf b₁) (b₁ :: rest) = valueBehind (leading b₀) (b₁ :: rest)
            rw [skips_iff.mp hskip]
          · rw [heq]

/-- Octets none of which is superfluous. -/
def Canonical : ByteStream → Prop
  | [] => False
  | [_] => True
  | b₀ :: b₁ :: _ => ¬ Skips b₀ b₁

theorem canonicalize_canonical {b : ByteStream} (h : b ≠ []) : Canonical (canonicalize b) := by
  induction b with
  | nil => exact absurd rfl h
  | cons b₀ rest ih =>
      cases rest with
      | nil => trivial
      | cons b₁ rest =>
          rcases canonicalize_cons b₀ b₁ rest with ⟨-, heq⟩ | ⟨hskip, heq⟩
          · rw [heq]
            exact ih (List.cons_ne_nil _ _)
          · rw [heq]
            exact hskip

/-- A number that needs the first of its octets is beyond the range of the others. -/
theorem twosComplement_beyond {b₀ b₁ : UInt8} (rest : ByteStream) (h : ¬ Skips b₀ b₁) :
    twosComplement (b₀ :: b₁ :: rest) < -(128 * 256 ^ rest.length) ∨
      128 * 256 ^ rest.length ≤ twosComplement (b₀ :: b₁ :: rest) := by
  obtain ⟨v, hv, hpos, hlt⟩ := valueBehind_eq (leading b₀ * 256 + b₁.toNat) rest
  have htc : twosComplement (b₀ :: b₁ :: rest)
      = (leading b₀ * 256 + b₁.toNat) * 256 ^ rest.length + v := hv
  have hM : (0 : Int) < 256 ^ rest.length := by positivity
  have hlow := b₁.toNat_lt
  rw [skips_iff, signOf_eq] at h
  -- the first two octets alone are beyond one octet
  have hout : leading b₀ * 256 + b₁.toNat ≤ -129 ∨ 128 ≤ leading b₀ * 256 + b₁.toNat := by
    by_cases hbit : 128 ≤ b₁.toNat
    · rw [if_pos hbit] at h
      omega
    · rw [if_neg hbit] at h
      omega
  rw [htc]
  rcases hout with hneg | hpos'
  · exact Or.inl (by nlinarith)
  · exact Or.inr (by nlinarith)

/-- A number has the octets of one length only. -/
private theorem length_le_of_twosComplement {a b : ByteStream} (ha : Canonical a)
    (hb : Canonical b) (h : twosComplement a = twosComplement b) : a.length ≤ b.length := by
  by_contra hlen
  cases b with
  | nil => exact hb
  | cons y ys =>
      cases a with
      | nil => exact ha
      | cons b₀ rest =>
          cases rest with
          | nil =>
              rw [List.length_cons, List.length_cons, List.length_nil] at hlen
              omega
          | cons b₁ rest =>
              -- the longer number is out of the range of the shorter one
              obtain ⟨hge, hlt⟩ := twosComplement_bounds y ys
              rw [List.length_cons, List.length_cons, List.length_cons] at hlen
              have hpow : (256 : Int) ^ ys.length ≤ 256 ^ rest.length :=
                pow_le_pow_right₀ (by norm_num) (by omega)
              rw [← h] at hge hlt
              rcases twosComplement_beyond rest ha with hout | hout
              · omega
              · omega

theorem Canonical.eq {a b : ByteStream} (ha : Canonical a) (hb : Canonical b)
    (h : twosComplement a = twosComplement b) : a = b := by
  have hlen := Nat.le_antisymm (length_le_of_twosComplement ha hb h)
    (length_le_of_twosComplement hb ha h.symm)
  cases a with
  | nil => exact absurd ha id
  | cons x xs =>
      cases b with
      | nil => exact absurd hb id
      | cons y ys => exact (valueBehind_inj hlen h).2

/-! ## INTEGER -/

/-- One round of the loop of `asn_INTEGER2long`. -/
private theorem shiftIn (l : Int) (oct : UInt8) :
    (Int64.ofInt l <<< 8) ||| oct.toUInt64.toInt64 = Int64.ofInt (l * 256 + oct.toNat) := by
  have hlow := oct.toNat_lt
  refine Int64.toBitVec_inj.mp (BitVec.eq_of_toNat_eq ?_)
  have hshift : (Int64.ofInt l <<< 8).toBitVec.toNat = ((l % 2 ^ 56).toNat) <<< 8 := by
    show ((BitVec.ofInt 64 l) <<< 8).toNat = _
    rw [BitVec.toNat_shiftLeft, BitVec.toNat_ofInt, Nat.shiftLeft_eq, Nat.shiftLeft_eq]
    omega
  have hoct : oct.toUInt64.toInt64.toBitVec.toNat = oct.toNat := rfl
  -- eight zeros are shifted in, so the or is a sum
  rw [Int64.toBitVec_or, BitVec.toNat_or, hshift, hoct, ← Nat.shiftLeft_add_eq_or_of_lt hlow,
    Nat.shiftLeft_eq]
  show _ = (BitVec.ofInt 64 (l * 256 + oct.toNat)).toNat
  rw [BitVec.toNat_ofInt]
  omega

/-- Octets that fit a `long` are read in two's complement. -/
theorem asn_INTEGER2long_of_fits {b : ByteStream} (h : b.length ≤ 8) :
    asn_INTEGER2long b = some (Int64.ofInt (twosComplement b)) := by
  have hfold : ∀ (b : ByteStream) (l : Int),
      List.foldl (fun (l : Int64) (oct : UInt8) => (l <<< 8) ||| oct.toUInt64.toInt64)
        (Int64.ofInt l) b = Int64.ofInt (valueBehind l b) := by
    intro b
    induction b with
    | nil => exact fun _ => rfl
    | cons oct rest ih =>
        intro l
        rw [List.foldl_cons, shiftIn, ih]
        rfl
  have hshort : ¬ b.length > 8 := Nat.not_lt.mpr h
  rw [asn_INTEGER2long]
  simp only [if_neg hshort]
  cases b with
  | nil => rfl
  | cons oct rest =>
      have hsign : (if oct >>> 7 ≠ 0 then (-1 : Int64) else 0) = Int64.ofInt (signOf oct) := by
        rw [signOf]
        by_cases hbit : oct >>> 7 ≠ 0
        · rw [if_pos hbit, if_pos hbit]
          rfl
        · rw [if_neg hbit, if_neg hbit]
          rfl
      simp only [hsign, hfold]
      rfl

theorem canonicalize_length_le (b : ByteStream) : (canonicalize b).length ≤ b.length := by
  cases b with
  | nil => exact Nat.le_refl 0
  | cons oct rest => exact (canonicalize_length oct rest).2

/-- Superfluous octets do not count. -/
theorem asn_INTEGER2long_eq (b : ByteStream) :
    asn_INTEGER2long b
      = if (canonicalize b).length > 8 then none else some (Int64.ofInt (twosComplement b)) := by
  by_cases hlong : b.length > 8
  · rw [asn_INTEGER2long]
    simp only [if_pos hlong]
    by_cases hmore : (canonicalize b).length > 8
    · rw [if_pos hmore, if_pos hmore]
    · have hread := asn_INTEGER2long_of_fits (Nat.not_lt.mp hmore)
      rw [asn_INTEGER2long] at hread
      simp only [if_neg hmore] at hread
      rw [if_neg hmore, if_neg hmore, ← twosComplement_canonicalize b]
      exact hread
  · have hfits := Nat.not_lt.mp hlong
    rw [asn_INTEGER2long_of_fits hfits,
      if_neg (Nat.not_lt.mpr (Nat.le_trans (canonicalize_length_le b) hfits))]

/-- The octets of `v` in front of the last `m`, and the next of them. -/
theorem nextOctet (v : Int) (m : Nat) :
    v / 256 ^ (m + 1) * 256 + v / 256 ^ m % 256 = v / 256 ^ m := by
  rw [Int.pow_succ, ← Int.ediv_ediv_of_nonneg (by positivity)]
  omega

/-- A `long` and its octets differ by the sign. -/
theorem toInt_eq_octets (native : Int64) :
    native.toInt = native.toUInt64.toNat + (native.toInt / 2 ^ 64) * 2 ^ 64 := by
  have hlt := native.toUInt64.toNat_lt
  have hint : native.toInt
      = if 2 * native.toUInt64.toNat < 2 ^ 64 then (native.toUInt64.toNat : Int)
        else native.toUInt64.toNat - ((2 ^ 64 : Nat) : Int) :=
    BitVec.toInt_eq_toNat_cond native.toBitVec
  by_cases hsmall : 2 * native.toUInt64.toNat < 2 ^ 64
  · rw [if_pos hsmall] at hint
    omega
  · rw [if_neg hsmall] at hint
    omega

theorem nativeOctet (native : Int64) {m : Nat} (hm : m < 8) :
    ((native.toUInt64 >>> UInt64.ofNat (8 * m)).toUInt8.toNat : Int)
      = native.toInt / 256 ^ m % 256 := by
  have hk : (UInt64.ofNat (8 * m)).toNat % 64 = 8 * m := by
    rw [UInt64.toNat_ofNat']
    omega
  have hshift : (native.toUInt64 >>> UInt64.ofNat (8 * m)).toUInt8.toNat
      = native.toUInt64.toNat / 256 ^ m % 256 := by
    rw [UInt64.toNat_toUInt8, UInt64.toNat_shiftRight, hk, Nat.shiftRight_eq_div_pow, Nat.pow_mul]
  have hpow : (2 : Int) ^ 64 = 256 * 256 ^ (7 - m) * 256 ^ m := by
    rw [← Int.pow_succ', ← Int.pow_add, show 7 - m + 1 + m = 8 by omega]
    rfl
  rw [hshift, toInt_eq_octets native, hpow, ← Int.mul_assoc,
    Int.add_mul_ediv_right _ _ (by positivity), Int.mul_comm 256, ← Int.mul_assoc,
    Int.add_mul_emod_self_right, Int.natCast_emod, Int.natCast_ediv, Int.natCast_pow]
  rfl

theorem twosComplement_nativeOctets (native : Int64) :
    twosComplement (nativeOctets native) = native.toInt := by
  have hoctets : nativeOctets native = (List.range 8).reverse.map fun m =>
      (native.toUInt64 >>> UInt64.ofNat (8 * m)).toUInt8 := rfl
  have hfold : ∀ m, m ≤ 8 → valueBehind (native.toInt / 256 ^ m)
      ((List.range m).reverse.map fun m =>
        (native.toUInt64 >>> UInt64.ofNat (8 * m)).toUInt8) = native.toInt := by
    intro m
    induction m with
    | zero => exact fun _ => Int.ediv_one _
    | succ m ih =>
        intro hm
        rw [List.range_succ, List.reverse_append, List.reverse_singleton, List.singleton_append,
          List.map_cons, valueBehind, List.foldl_cons, nativeOctet native (by omega), nextOctet]
        exact ih (by omega)
  have hsign : signOf ((native.toUInt64 >>> UInt64.ofNat (8 * 7)).toUInt8)
      = native.toInt / 256 ^ 8 := by
    have hlast := nativeOctet native (show 7 < 8 by omega)
    have hlow := native.le_toInt
    have hhigh := native.toInt_lt
    rw [signOf_eq]
    by_cases hneg : native.toInt < 0
    · rw [if_pos (by omega)]
      omega
    · rw [if_neg (by omega)]
      omega
  have hwhole := hfold 8 (Nat.le_refl 8)
  rw [← hsign, ← hoctets] at hwhole
  exact hwhole

/-- What is written of a `long` is read back as it. -/
theorem asn_INTEGER2long_canonicalize (native : Int64) :
    asn_INTEGER2long (canonicalize (nativeOctets native)) = some native := by
  have hlen : (canonicalize (nativeOctets native)).length ≤ 8 := (integerSize_bounds native).2
  rw [asn_INTEGER2long_of_fits hlen, twosComplement_canonicalize, twosComplement_nativeOctets,
    Int64.ofInt_toInt]

/-- **The contents that are read as `l`**: none, for 0, and those that are what is
    written for `l` once their superfluous octets are left out. -/
theorem asn_INTEGER2long_eq_some {b : ByteStream} {l : Int64} :
    asn_INTEGER2long b = some l ↔
      (b = [] ∧ l = 0) ∨ (b ≠ [] ∧ canonicalize b = canonicalize (nativeOctets l)) := by
  cases b with
  | nil =>
      have hnil : asn_INTEGER2long [] = some 0 := rfl
      rw [hnil, Option.some.injEq]
      constructor
      · intro h
        exact Or.inl ⟨rfl, h.symm⟩
      · rintro (⟨-, rfl⟩ | ⟨hne, -⟩)
        · rfl
        · exact absurd rfl hne
  | cons oct rest =>
      have hne := List.cons_ne_nil oct rest
      constructor
      · intro h
        rw [asn_INTEGER2long_eq] at h
        by_cases hmore : (canonicalize (oct :: rest)).length > 8
        · rw [if_pos hmore] at h
          cases h
        · rw [if_neg hmore] at h
          refine Or.inr ⟨hne, ?_⟩
          refine (canonicalize_canonical hne).eq (canonicalize_canonical (List.cons_ne_nil _ _)) ?_
          rw [← Option.some.inj h, twosComplement_canonicalize (nativeOctets _),
            twosComplement_nativeOctets]
          have hcanon := canonicalize_canonical hne
          have hval := twosComplement_canonicalize (oct :: rest)
          cases hc : canonicalize (oct :: rest) with
          | nil =>
              rw [hc] at hcanon
              exact absurd hcanon id
          | cons x xs =>
              obtain ⟨hge, hlt⟩ := twosComplement_bounds x xs
              rw [hc, List.length_cons] at hmore
              have hpow : (256 : Int) ^ xs.length ≤ 256 ^ 7 :=
                pow_le_pow_right₀ (by norm_num) (by omega)
              rw [hc] at hval
              rw [Int64.toInt_ofInt_of_le (by omega) (by omega), hval]
      · rintro (⟨h0, -⟩ | ⟨-, hsame⟩)
        · exact absurd h0 hne
        · have hlen : ¬ (canonicalize (oct :: rest)).length > 8 := by
            rw [hsame]
            exact Nat.not_lt.mpr (integerSize_bounds l).2
          rw [asn_INTEGER2long_eq, if_neg hlen, ← twosComplement_canonicalize, hsame,
            twosComplement_canonicalize, twosComplement_nativeOctets, Int64.ofInt_toInt]

/-! ## Values -/

/-- A length that is read back. -/
def ReadableLength (len : Nat) : Prop := len + 1024 < ber_tlv_len_max

theorem ReadableLength.le {m n : Nat} (h : ReadableLength n) (hle : m ≤ n) : ReadableLength m :=
  Nat.lt_of_le_of_lt (Nat.add_le_add_right hle 1024) h

theorem lt_der_write_TLV (oct : UInt8) (c : ByteStream) :
    c.length < (der_write_TLV oct c).length := by
  rw [der_write_TLV, List.length_cons, List.length_append]
  omega

theorem ReadableLength.contents {oct : UInt8} {c : ByteStream}
    (h : ReadableLength (der_write_TLV oct c).length) : ReadableLength c.length :=
  h.le (Nat.le_of_lt (lt_der_write_TLV oct c))

section Values

variable {oct : UInt8} {tag : ber_tlv_tag_t}

theorem isPrimitive_der {c : ByteStream} (hoct : IsTag (tag, false) [oct]) (h : ReadableLength c.length) :
    IsPrimitive (Is tag) c (der_write_TLV oct c) :=
  ⟨tag, oct :: der_tlv_length_serialize c.length, isTL_octet hoct h, rfl, rfl⟩

theorem isConstructed_der {es : List ByteStream} (hoct : IsTag (tag, true) [oct])
    (h : ReadableLength es.flatten.length) :
    IsConstructed (Is tag) es (der_write_TLV oct es.flatten) :=
  .definite (isTL_octet hoct h) rfl

theorem isInteger_der (hoct : IsTag (tag, false) [oct]) (native : Int64) :
    IsInteger tag native (NativeInteger_encode_der oct native) := by
  have hsize := (integerSize_bounds native).2
  refine ⟨_, isPrimitive_der hoct ?_, asn_INTEGER2long_canonicalize native⟩
  show integerSize native + 1024 < 2 ^ 63
  omega

theorem isNested_primitive {c : ByteStream} (hoct : IsTag (tag, false) [oct])
    (h : ReadableLength c.length) : IsNested (der_write_TLV oct c) := by
  rw [der_write_TLV, ← List.cons_append]
  exact .primitive (isTL_octet hoct h)

theorem isNested_constructed {es : List ByteStream} (hoct : IsTag (tag, true) [oct])
    (h : ReadableLength es.flatten.length) (hes : ∀ e ∈ es, IsNested e) :
    IsNested (der_write_TLV oct es.flatten) := by
  rw [der_write_TLV, ← List.cons_append]
  exact .definite (isTL_octet hoct h) hes

end Values

/-! ## Invokes -/

theorem isTag_integer : IsTag (ASN_TAG_CLASS_UNIVERSAL ||| (2 <<< 2), false) [0x02] := ⟨rfl, rfl⟩

theorem isTag_oid : IsTag (ASN_TAG_CLASS_UNIVERSAL ||| (6 <<< 2), false) [0x06] := ⟨rfl, rfl⟩

theorem isTag_invoke : IsTag (ASN_TAG_CLASS_CONTEXT ||| (1 <<< 2), true) [0xA1] := ⟨rfl, rfl⟩

theorem isOperation_der {op : OPERATION} (h : ReadableLength (OPERATION_encode_der op).length) :
    IsOperation op (OPERATION_encode_der op) := by
  cases op with
  | PR_localValue localValue => exact isInteger_der isTag_integer localValue
  | PR_globalValue globalValue =>
      exact isPrimitive_der isTag_oid h.contents

/-- A parameter that has been read is a value. -/
theorem Opt.isNested {k : Option ByteStream} {qs : List ByteStream} (h : Opt IsParameter k qs) :
    ∀ p, k = some p → IsNested p := by
  rintro p rfl
  cases h with
  | present hx =>
      obtain ⟨rfl, hx⟩ := hx
      exact hx

/-- **An Invoke is read back exactly when its parameter is a value.** -/
theorem invoke_read_back_iff {v : Invoke} (h : ReadableLength (Invoke_encode_der v).length) :
    Exactly (CHOICE_decode_ber asn_DEF_Component) (.PR_invoke v) (Invoke_encode_der v) ↔
      ∀ p, v.parameter = some p → IsNested p := by
  rw [component_invoke]
  constructor
  · rintro ⟨es, -, i, l, ls, o, qs, -, -, -, -, hparameter⟩
    exact hparameter.isNested
  · intro hnested
    have hcontents : Invoke_encode_der v = der_write_TLV 0xA1
        (NativeInteger_encode_der 0x02 v.invokeID :: OPERATION_encode_der v.opCode ::
          v.parameter.toList).flatten := by
      rw [Invoke_encode_der, List.flatten_cons, List.flatten_cons, List.append_assoc]
      cases v.parameter with
      | none => rfl
      | some p => rw [Option.toList, List.flatten_singleton]; rfl
    rw [hcontents] at h ⊢
    have hfits := h.contents
    refine ⟨_, isConstructed_der isTag_invoke hfits, _, none, [], _, v.parameter.toList, rfl,
      isInteger_der isTag_integer _, .absent, isOperation_der (hfits.le ?_), ?_⟩
    · rw [List.flatten_cons, List.flatten_cons, List.length_append, List.length_append]
      omega
    · cases hp : v.parameter with
      | none => exact .absent
      | some p => exact .present ⟨rfl, hnested p hp⟩

/-! ## End -/

theorem isTag_end : IsTag (ASN_TAG_CLASS_APPLICATION ||| (4 <<< 2), true) [0x64] := ⟨rfl, rfl⟩

theorem isTag_dtid : IsTag (ASN_TAG_CLASS_APPLICATION ||| (9 <<< 2), false) [0x49] := ⟨rfl, rfl⟩

theorem isTag_components : IsTag (ASN_TAG_CLASS_APPLICATION ||| (12 <<< 2), true) [0x6C] :=
  ⟨rfl, rfl⟩

theorem isString_der {tag : ber_tlv_tag_t} {oct : UInt8} {c : ByteStream}
    (hoct : IsTag (tag, false) [oct]) (h : ReadableLength c.length) :
    IsString (asn_DEF_tagged tag) 0 (Is tag) (some c) (der_write_TLV oct c) := by
  rw [der_write_TLV, ← List.cons_append]
  exact .primitive (isTL_octet hoct h) rfl

theorem mem_flatMap_length_le {α : Type} {f : α → ByteStream} {l : List α} {x : α} (h : x ∈ l) :
    (f x).length ≤ (l.flatMap f).length := by
  obtain ⟨s, t, rfl⟩ := List.append_of_mem h
  rw [List.flatMap_append, List.flatMap_cons, List.length_append, List.length_append]
  omega

theorem exists_of_forall₂ {α β : Type} {R : α → β → Prop} {xs : List α} {ys : List β}
    (h : List.Forall₂ R xs ys) {x : α} (hx : x ∈ xs) : ∃ y, R x y := by
  induction h with
  | nil => cases hx
  | cons hr _ ih =>
      rcases List.mem_cons.mp hx with rfl | hx
      · exact ⟨_, hr⟩
      · exact ih hx

/-- **An End of Invokes is read back exactly when each of their parameters is a
    value**, whatever follows it. -/
theorem end_read_back_iff {dtid : OCTET_STRING} {invokes : List Invoke} (heap : Nat → UInt8)
    (h : ReadableLength (End_encode_der dtid invokes).length) (t : ByteStream) :
    TCMessage_decode_ber heap (End_encode_der dtid invokes ++ t)
        = some (.PR_end { dtid := allocate heap (some dtid.value)
                          components := some (invokes.map .PR_invoke) },
            (End_encode_der dtid invokes).length) ↔
      ∀ v ∈ invokes, ∀ p, v.parameter = some p → IsNested p := by
  have hcontents : End_encode_der dtid invokes = der_write_TLV 0x64
      [der_write_TLV 0x49 dtid.value,
        der_write_TLV 0x6C (invokes.map Invoke_encode_der).flatten].flatten := by
    rw [End_encode_der, List.flatMap_def, List.flatten_cons, List.flatten_singleton]
  have hfits : ReadableLength (der_write_TLV 0x49 dtid.value
      ++ der_write_TLV 0x6C (invokes.flatMap Invoke_encode_der)).length :=
    h.contents
  rw [List.length_append] at hfits
  have hdtid := (hfits.le (Nat.le_add_right _ _)).contents
  have hinvokes := (hfits.le (Nat.le_add_left _ _)).contents
  have hone : ∀ v ∈ invokes, ReadableLength (Invoke_encode_der v).length :=
    fun v hv => hinvokes.le (mem_flatMap_length_le hv)
  have hstable := (TCMessage_decode_ber_decodesNested heap).stable
  constructor
  · intro hrun v hv
    have hexact := ((hstable _ _ _).mp hrun).2
    rw [List.take_left] at hexact
    obtain ⟨k, es, -, ⟨o, d, ps, qs, -, -, -, hqs⟩, -⟩ := tcMessage_end.mp hexact
    cases hqs with
    | present hp =>
        obtain ⟨cs, -, hall⟩ := hp
        obtain ⟨e, he⟩ := exists_of_forall₂ (List.forall₂_map_left_iff.mp hall) hv
        obtain ⟨es, -, i, l, ls, o, qs, -, -, -, -, hparameter⟩ := component_invoke.mp he
        exact hparameter.isNested
  · intro hnested
    have hall : List.Forall₂ (Exactly (CHOICE_decode_ber asn_DEF_Component))
        (invokes.map .PR_invoke) (invokes.map Invoke_encode_der) := by
      rw [List.forall₂_map_left_iff, List.forall₂_map_right_iff, List.forall₂_same]
      exact fun v hv => (invoke_read_back_iff (hone v hv)).mpr (hnested v hv)
    have hexact : Exactly (TCMessage_decode_ber heap) (.PR_end
        { dtid := allocate heap (some dtid.value), components := some (invokes.map .PR_invoke) })
        (End_encode_der dtid invokes) := by
      rw [tcMessage_end, hcontents]
      refine ⟨some dtid.value, _, isConstructed_der isTag_end ?_, ?_, rfl⟩
      · rw [List.flatten_cons, List.flatten_singleton, List.length_append, ← List.flatMap_def]
        exact hfits
      · rw [List.flatMap_def] at hinvokes
        exact ⟨_, none, [], _, rfl, isString_der isTag_dtid hdtid, .absent,
          .present ⟨_, isConstructed_der isTag_components hinvokes, hall⟩⟩
    exact hstable.complete hexact t

/-! ## ConnectArg -/

/-- The members of a ConnectArg that are written. -/
def ConnectArg.members (a : ConnectArg) : List ByteStream :=
  der_write_TLV 0xA0 (a.destinationRoutingAddress.map (der_write_TLV 0x04)).flatten ::
    ((a.cutAndPaste.map (NativeInteger_encode_der 0x83)).toList
      ++ (a.callingPartyNumber.map (der_write_TLV 0x9B)).toList)

theorem ConnectArg_encode_der_eq (a : ConnectArg) :
    ConnectArg_encode_der a = der_write_TLV 0x30 a.members.flatten := by
  rw [ConnectArg_encode_der, ConnectArg.members, List.flatten_cons, List.flatten_append,
    ← List.append_assoc, List.flatMap_def]
  cases a.cutAndPaste with
  | none =>
      cases a.callingPartyNumber with
      | none => rfl
      | some st => rw [Option.map_some, Option.toList, List.flatten_singleton]; rfl
  | some native =>
      cases a.callingPartyNumber with
      | none => rw [Option.map_some, Option.toList, List.flatten_singleton]; rfl
      | some st =>
          rw [Option.map_some, Option.map_some, Option.toList, Option.toList,
            List.flatten_singleton, List.flatten_singleton]

theorem mem_flatten_length_le {es : List ByteStream} {e : ByteStream} (h : e ∈ es) :
    e.length ≤ es.flatten.length := by
  have hle := mem_flatMap_length_le (f := id) h
  rw [List.flatMap_id] at hle
  exact hle

/-- **A ConnectArg is written as a value**, made of values. -/
theorem connectArg_isNested {a : ConnectArg} (h : ReadableLength (ConnectArg_encode_der a).length) :
    IsNested (ConnectArg_encode_der a) := by
  rw [ConnectArg_encode_der_eq] at h ⊢
  have hfits := h.contents
  have hsequence : IsTag (ASN_TAG_CLASS_UNIVERSAL ||| (16 <<< 2), true) [0x30] := ⟨rfl, rfl⟩
  have hchoice : IsTag (ASN_TAG_CLASS_CONTEXT ||| (0 <<< 2), true) [0xA0] := ⟨rfl, rfl⟩
  have hstring : IsTag (ASN_TAG_CLASS_UNIVERSAL ||| (4 <<< 2), false) [0x04] := ⟨rfl, rfl⟩
  have hcut : IsTag (ASN_TAG_CLASS_CONTEXT ||| (3 <<< 2), false) [0x83] := ⟨rfl, rfl⟩
  have hcalling : IsTag (ASN_TAG_CLASS_CONTEXT ||| (27 <<< 2), false) [0x9B] := ⟨rfl, rfl⟩
  refine isNested_constructed hsequence hfits fun e he => ?_
  have helement := hfits.le (mem_flatten_length_le he)
  rcases List.mem_cons.mp he with rfl | he
  · have hinside := helement.contents
    refine isNested_constructed hchoice hinside fun e he => ?_
    have hone := hinside.le (mem_flatten_length_le he)
    obtain ⟨st, -, rfl⟩ := List.mem_map.mp he
    exact isNested_primitive hstring hone.contents
  · rcases List.mem_append.mp he with he | he
    · obtain ⟨native, -, rfl⟩ := Option.map_eq_some_iff.mp (Option.mem_toList.mp he)
      exact isNested_primitive hcut helement.contents
    · obtain ⟨st, -, rfl⟩ := Option.map_eq_some_iff.mp (Option.mem_toList.mp he)
      exact isNested_primitive hcalling helement.contents

end ProtoVscp
