import ProtoVscp.SccpProofs

/-! # UDT parameters: where the length octets and the pointers agree

    A pointer of a UDT message locates the length octet of a parameter, and the
    length octet says how many octets of it follow.  `decodeSccp` reads the
    pointers only, so it finds the parameters exactly when each of them fills
    its range (`honours_lengths_iff`).  `encodeSccp` writes both, each cut to
    one octet, so what it writes can be read back exactly when the sizes fit
    (`encodes_uncorrupted_iff`). -/

namespace ProtoVscp

open CheckedLoops SccpMessage

/-! ## Parameters -/

/-- The length octet that the pointer at position `k` locates. -/
def lengthAt (p : ByteStream) (k : Nat) : Nat := pointerAt p (k + pointerAt p k)

/-- The octets that length octet delimits. -/
def parameterAt (p : ByteStream) (k : Nat) : ByteStream :=
  slice p (k + pointerAt p k + 1) (lengthAt p k)

/-- The parameter of the pointer at `k` lies inside the message and is `x`. -/
def Delimits (p : ByteStream) (k : Nat) (x : ByteStream) : Prop :=
  k + pointerAt p k + lengthAt p k < p.length ∧ parameterAt p k = x

instance (p : ByteStream) (k : Nat) (x : ByteStream) : Decidable (Delimits p k x) :=
  inferInstanceAs (Decidable (_ ∧ _))

theorem pointerAt_lt (p : ByteStream) (k : Nat) : pointerAt p k < 256 :=
  UInt8.toNat_lt _

/-- A delimited parameter is as long as its length octet says. -/
theorem Delimits.length_eq {p x : ByteStream} {k : Nat} (h : Delimits p k x) :
    x.length = lengthAt p k := by
  obtain ⟨hin, rfl⟩ := h
  exact slice_length (by omega)

/-- A valid UDT message: each of its three pointers locates a length octet
    inside the message, followed by that many octets. -/
structure ValidUdt (p : ByteStream) : Prop where
  udt : p[0]? = some 0x09
  called : 2 + pointerAt p 2 + lengthAt p 2 < p.length
  calling : 3 + pointerAt p 3 + lengthAt p 3 < p.length
  data : 4 + pointerAt p 4 + lengthAt p 4 < p.length

/-! ## Decoding -/

private theorem slice_dropLast {p : ByteStream} {lo n : Nat} (h : lo + n ≤ p.length) :
    (slice p lo n).dropLast = slice p lo (n - 1) := by
  rw [List.dropLast_eq_take, slice_length h]
  simp only [slice]
  rw [List.take_take, Nat.min_eq_left (by omega)]

/-- Slices from one position agree when they are equally long. -/
private theorem slice_eq_iff {p : ByteStream} {lo n m : Nat} (hn : lo + n ≤ p.length)
    (hm : lo + m ≤ p.length) : slice p lo n = slice p lo m ↔ n = m := by
  constructor
  · intro h
    have := congrArg List.length h
    rwa [slice_length hn, slice_length hm] at this
  · rintro rfl
    rfl

/-- A cut that starts where the parameter of the pointer at `k` does is that
    parameter when it is as long. -/
private theorem cut_eq_parameter_iff {p : ByteStream} {k n : Nat}
    (hn : k + pointerAt p k + 1 + n ≤ p.length)
    (hin : k + pointerAt p k + lengthAt p k < p.length) :
    slice p (pointerAt p k + (k + 1)) n = parameterAt p k ↔ lengthAt p k = n := by
  rw [parameterAt, show k + pointerAt p k + 1 = pointerAt p k + (k + 1) by omega,
    slice_eq_iff (by omega) (by omega)]
  exact eq_comm

/-- **The length octets are honoured**: the message is accepted and cut into the
    three parameters; the addresses carry one octet more, which is ignored. -/
def HonoursLengths (p : ByteStream) : Prop :=
  ∃ m d, ofBytes p = .ok m ∧ m.valid = true ∧ m.decodeSccp = .ok d ∧
    d.getCalledPartyAddress.dropLast = parameterAt p 2 ∧
    d.getCallingPartyAddress.dropLast = parameterAt p 3 ∧
    d.getData = parameterAt p 4

/-- The three parameters fill their ranges: each address reaches up to the
    length octet of the next parameter (none, when that does not stand behind),
    and the data up to the end. -/
structure FillsRanges (p : ByteStream) : Prop where
  called : lengthAt p 2 = pointerAt p 3 - pointerAt p 2
  calling : lengthAt p 3 = pointerAt p 4 - pointerAt p 3
  data : 5 + pointerAt p 4 + lengthAt p 4 = p.length

/-- What `decodeSccp` makes of a valid UDT message. -/
private theorem decode_valid {p : ByteStream} (h : ValidUdt p) :
    ofBytes p = .ok (fresh .VALID p) ∧ (fresh .VALID p).decodeSccp = .ok (cutAt p) := by
  have hcalled := h.called
  have hcalling := h.calling
  have hdata := h.data
  constructor
  · cases p with
    | nil => exact nomatch h.udt
    | cons x rest =>
        have hx : x = 0x09 := by simpa using h.udt
        rw [sccp_ofBytes_cons, hx]
        rfl
  · exact decodeSccp_eq_ok.mpr ⟨⟨by omega, by omega, by omega⟩, rfl⟩

/-- **Which valid UDT messages are cut as their length octets say.** -/
theorem honours_lengths_iff {p : ByteStream} (h : ValidUdt p) :
    HonoursLengths p ↔ FillsRanges p := by
  obtain ⟨hof, hdec⟩ := decode_valid h
  have hcalled := h.called
  have hcalling := h.calling
  have hdata := h.data
  -- each cut starts where the parameter does, so only the ends can differ
  have hcut2 : (cutAt p).getCalledPartyAddress.dropLast = parameterAt p 2 ↔
      lengthAt p 2 = pointerAt p 3 - pointerAt p 2 := by
    show (slice p (pointerAt p 2 + 3) _).dropLast = _ ↔ _
    rw [slice_dropLast (by omega), cut_eq_parameter_iff (by omega) hcalled]
    omega
  have hcut3 : (cutAt p).getCallingPartyAddress.dropLast = parameterAt p 3 ↔
      lengthAt p 3 = pointerAt p 4 - pointerAt p 3 := by
    show (slice p (pointerAt p 3 + 4) _).dropLast = _ ↔ _
    rw [slice_dropLast (by omega), cut_eq_parameter_iff (by omega) hcalling]
    omega
  have hcut4 : (cutAt p).getData = parameterAt p 4 ↔
      5 + pointerAt p 4 + lengthAt p 4 = p.length := by
    show slice p (pointerAt p 4 + 5) _ = _ ↔ _
    rw [cut_eq_parameter_iff (by omega) hdata]
    omega
  constructor
  · rintro ⟨m, d, hm, -, hd, h2, h3, h4⟩
    rw [hof] at hm
    rw [← Except.ok.inj hm, hdec] at hd
    rw [← Except.ok.inj hd] at h2 h3 h4
    exact ⟨hcut2.mp h2, hcut3.mp h3, hcut4.mp h4⟩
  · rintro ⟨h2, h3, h4⟩
    exact ⟨_, _, hof, rfl, hdec, hcut2.mpr h2, hcut3.mpr h3, hcut4.mpr h4⟩

theorem honours_lengths_iff_contiguous :
    HonoursLengths (udt 0x00 [0x42, 0x06] [0x42, 0x08] [0x62, 0x00]) ↔
      FillsRanges (udt 0x00 [0x42, 0x06] [0x42, 0x08] [0x62, 0x00]) :=
  honours_lengths_iff ⟨by decide, by decide, by decide, by decide⟩

/-- A valid UDT message with two octets behind its data. -/
def trailedUdt : ByteStream :=
  udt 0x00 [0x42, 0x06] [0x42, 0x08] [0x62, 0x00] ++ [0xAA, 0xBB]

/-- The octets behind the data are taken for data. -/
theorem trailedUdt_miscut : ValidUdt trailedUdt ∧ ¬ HonoursLengths trailedUdt := by
  refine ⟨⟨by decide, by decide, by decide, by decide⟩, ?_⟩
  rintro ⟨m, d, hm, -, hd, -, -, hdata⟩
  have hof : ofBytes trailedUdt = .ok (fresh .VALID trailedUdt) := rfl
  have hcut : (fresh .VALID trailedUdt).decodeSccp = .ok (cutAt trailedUdt) := rfl
  rw [hof] at hm
  rw [← Except.ok.inj hm, hcut] at hd
  rw [← Except.ok.inj hd] at hdata
  exact absurd hdata (by decide)

/-! ## Encoding -/

/-- **A UDT message that carries `A`, `B` and `D`**: its pointers and length
    octets delimit exactly these, and `D` ends where the message does. -/
structure CarriesParameters (r A B D : ByteStream) : Prop where
  called : Delimits r 2 A
  calling : Delimits r 3 B
  data : Delimits r 4 D
  ends : 5 + pointerAt r 4 + lengthAt r 4 = r.length

private theorem octet_toNat {n : Nat} (h : n ≤ 255) : (UInt8.ofNat n).toNat = n := by
  rw [UInt8.toNat_ofNat']
  omega

/-- An octet of a message behind a prefix of it. -/
private theorem pointerAt_append (xs : ByteStream) (x : UInt8) (ys : ByteStream) :
    pointerAt (xs ++ x :: ys) xs.length = x.toNat := by
  rw [pointerAt, List.getElem?_append_right (Nat.le_refl _), Nat.sub_self]
  rfl

/-- A parameter behind a prefix of the message. -/
private theorem parameter_append {xs x ys : ByteStream} {k : Nat} (hx : x.length ≤ 255)
    (hk : k + pointerAt (xs ++ UInt8.ofNat x.length :: (x ++ ys)) k = xs.length) :
    Delimits (xs ++ UInt8.ofNat x.length :: (x ++ ys)) k x ∧
      lengthAt (xs ++ UInt8.ofNat x.length :: (x ++ ys)) k = x.length := by
  have hlength : lengthAt (xs ++ UInt8.ofNat x.length :: (x ++ ys)) k = x.length := by
    rw [lengthAt, hk, pointerAt_append, octet_toNat hx]
  refine ⟨⟨?_, ?_⟩, hlength⟩
  · rw [hk, hlength, List.length_append, List.length_cons, List.length_append]
    omega
  · rw [parameterAt, hk, hlength, slice_append_right]
    show slice (x ++ ys) 0 x.length = x
    exact slice_append_left x ys

/-- A contiguous UDT message whose sizes fit their octets carries its
    parameters. -/
theorem udt_carries (c : UInt8) {A B D : ByteStream} (hAB : A.length + B.length + 3 ≤ 255)
    (hD : D.length ≤ 255) : CarriesParameters (udt c A B D) A B D := by
  have h3 : pointerAt (udt c A B D) 3 = A.length + 3 := octet_toNat (by omega)
  have h4 : pointerAt (udt c A B D) 4 = A.length + B.length + 3 := octet_toNat hAB
  have hlen := udt_length c A B D
  -- the message, cut in front of each length octet
  have hcalled : udt c A B D
      = [0x09, c, 0x03, UInt8.ofNat (A.length + 3), UInt8.ofNat (A.length + B.length + 3)]
        ++ UInt8.ofNat A.length :: (A ++ ([UInt8.ofNat B.length] ++ B
          ++ [UInt8.ofNat D.length] ++ D)) := by
    simp [udt]
  have hcalling : udt c A B D
      = ([0x09, c, 0x03, UInt8.ofNat (A.length + 3), UInt8.ofNat (A.length + B.length + 3),
          UInt8.ofNat A.length] ++ A)
        ++ UInt8.ofNat B.length :: (B ++ ([UInt8.ofNat D.length] ++ D)) := by
    simp [udt]
  have hdata : udt c A B D
      = ([0x09, c, 0x03, UInt8.ofNat (A.length + 3), UInt8.ofNat (A.length + B.length + 3),
          UInt8.ofNat A.length] ++ A ++ [UInt8.ofNat B.length] ++ B)
        ++ UInt8.ofNat D.length :: (D ++ []) := by
    simp [udt]
  have hA : Delimits (udt c A B D) 2 A := by
    rw [hcalled]
    exact (parameter_append (by omega) rfl).1
  have hB : Delimits (udt c A B D) 3 B := by
    rw [hcalling] at h3 ⊢
    refine (parameter_append (by omega) ?_).1
    rw [h3, List.length_append]
    show 3 + (A.length + 3) = 6 + A.length
    omega
  have hDD : Delimits (udt c A B D) 4 D ∧ lengthAt (udt c A B D) 4 = D.length := by
    rw [hdata] at h4 ⊢
    refine parameter_append hD ?_
    rw [h4]
    simp
    omega
  exact ⟨hA, hB, hDD.1, by rw [h4, hDD.2, hlen]; omega⟩

/-- The size of what `encodeSccp` gives. -/
theorem encodeSccp_length {t c g r : ByteStream} (h : encodeSccp t c g = .ok r) :
    r.length = 8 + (UInt32.ofNat c.length - 1).toNat + (UInt32.ofNat g.length - 1).toNat
      + t.length % 4294967296 := by
  rw [encodeSccp] at h
  simp only [bind_eq_ok] at h
  obtain ⟨m₁, h₁, m₂, h₂, h₃⟩ := h
  have h₁ := copyRange_length h₁
  have h₂ := copyRange_length h₂
  have h₃ := copyRange_length h₃
  rw [UInt32.toNat_ofNat'] at h₃
  simp only [List.length_append, List.length_cons, List.length_nil] at h₁ h₂ h₃
  omega

/-- `encodeSccp` never gives the empty stream. -/
theorem encodeSccp_ne_nil {t c g r : ByteStream} (h : encodeSccp t c g = .ok r) : r ≠ [] := by
  rintro rfl
  have hlen := encodeSccp_length h
  rw [List.length_nil] at hlen
  omega

/-- `encodeSccp` gives nothing to send, or a message that carries what it was
    given, the addresses without their last octet. -/
def EncodesUncorrupted (t c g : ByteStream) : Prop :=
  ∃ r, encodeSccp t c g = .ok r ∧ (r = [] ∨ CarriesParameters r c.dropLast g.dropLast t)

/-- **When the UDT is not corrupt**: the data pointer, which is the largest of
    the three, and the length of the data fit an octet. -/
theorem encodes_uncorrupted_iff {t c g : ByteStream} (hc : c ≠ []) (hg : g ≠ []) :
    EncodesUncorrupted t c g ↔ c.length + g.length ≤ 254 ∧ t.length ≤ 255 := by
  obtain ⟨C, x, rfl⟩ := List.eq_nil_or_concat c |>.resolve_left hc
  obtain ⟨G, y, rfl⟩ := List.eq_nil_or_concat g |>.resolve_left hg
  simp only [List.concat_eq_append, List.length_append, List.length_singleton,
    EncodesUncorrupted, List.dropLast_concat]
  constructor
  · rintro ⟨r, hr, hnil | hcarries⟩
    · exact absurd hnil (encodeSccp_ne_nil hr)
    · -- what a length octet delimits is at most 255 octets long, so no size wrapped
      have hC : C.length < 256 := hcarries.called.length_eq ▸ pointerAt_lt _ _
      have hG : G.length < 256 := hcarries.calling.length_eq ▸ pointerAt_lt _ _
      have ht : t.length < 256 := hcarries.data.length_eq ▸ pointerAt_lt _ _
      have hudt := encodeSccp_eq G C x y t (by omega) (by omega) (by omega)
      rw [hr] at hudt
      have hends := hcarries.ends
      have hptr := pointerAt_lt r 4
      rw [← hcarries.data.length_eq, Except.ok.inj hudt, udt_length] at hends
      rw [Except.ok.inj hudt] at hptr
      omega
  · rintro ⟨hsum, ht⟩
    exact ⟨_, encodeSccp_eq G C x y t (by omega) (by omega) (by omega),
      Or.inr (udt_carries 0x00 (by omega) ht)⟩

theorem encodes_uncorrupted_iff_short :
    EncodesUncorrupted [0x64, 0x00] [0x42, 0x06, 0x02] [0x42, 0x08, 0x02] ↔
      [(0x42 : UInt8), 0x06, 0x02].length + [(0x42 : UInt8), 0x08, 0x02].length ≤ 254 ∧
        [(0x64 : UInt8), 0x00].length ≤ 255 :=
  encodes_uncorrupted_iff (List.cons_ne_nil _ _) (List.cons_ne_nil _ _)

/-- 256 octets of TCAP get the length octet 0. -/
theorem tcap_of_256_octets_corrupt :
    ¬ EncodesUncorrupted (List.replicate 256 0x00) [0x42, 0x06, 0x02] [0x42, 0x08, 0x02] := by
  rintro ⟨r, hr, hnil | hcarries⟩
  · exact absurd hnil (encodeSccp_ne_nil hr)
  · have hlength := hcarries.data.length_eq
    rw [List.length_replicate] at hlength
    have hlt : lengthAt r 4 < 256 := pointerAt_lt _ _
    omega

end ProtoVscp
