import ProtoVscp.M3uaFramingProofs

/-! # Encoding DATA, and what decoding gives back

    `encodeMsg` lays out twenty octets of header, routing context and parameter
    header, the six label streams, the SCCP message and zero padding
    (`encodeMsg_layout`).  It writes the parameter length into one octet, and
    `decodePayload` searches the user data it has just copied for further tags,
    so a message comes back whole exactly when it is short and holds no octet
    pair the search would take for a tag (`data_round_trip_iff`).  The header
    holds its length in four octets, of which the constructor reads the last one
    (`header_length_iff`). -/

namespace ProtoVscp

open CheckedLoops SkipScan TagLength M3UAmessage

/-! ## Octets of 32-bit words -/

/-- One octet of a word: shift it down and mask it. -/
theorem shiftOctet_toNat (t k : UInt32) (hk : k.toNat < 32) :
    ((t >>> k) &&& 0xff).toUInt8.toNat = t.toNat / 2 ^ k.toNat % 256 := by
  have hand : ∀ n : Nat, n &&& 255 = n % 256 := fun n =>
    Nat.and_two_pow_sub_one_eq_mod n 8
  simp only [UInt32.toNat_toUInt8, UInt32.toNat_and, UInt32.toNat_shiftRight]
  rw [show (0xff : UInt32).toNat = 255 from rfl, hand, Nat.mod_eq_of_lt hk,
    Nat.shiftRight_eq_div_pow]
  omega

/-- The padding fills up to the next multiple of four. -/
theorem padding_eq (dataLen : UInt32) :
    padding dataLen = List.replicate ((4 - dataLen.toNat % 4) % 4) 0x00 := by
  have hmod : (dataLen % 4).toNat = dataLen.toNat % 4 := rfl
  have hle : dataLen % 4 ≤ 4 := by
    rw [UInt32.le_iff_toNat_le, hmod]
    show _ ≤ 4
    omega
  have hsub : (4 - dataLen % 4).toNat = 4 - dataLen.toNat % 4 := by
    rw [UInt32.toNat_sub_of_le _ _ hle, hmod]
    rfl
  rw [padding]
  by_cases h : dataLen.toNat % 4 = 0
  · rw [h]
    refine if_neg ?_
    rw [UInt32.lt_iff_toNat_lt, hsub, h]
    decide
  · have hround : (4 - dataLen.toNat % 4) % 4 = 4 - dataLen.toNat % 4 := by omega
    rw [hround, ← hsub]
    refine if_pos ?_
    rw [UInt32.lt_iff_toNat_lt, hsub]
    show _ < 4
    omega

/-! ## The layout -/

/-- The twenty octets in front of the routing label. -/
def dataHead (tlvLength dataLen : UInt32) : ByteStream :=
  commonHeader 0x01 0x01 tlvLength
    ++ (routingContext ++ [0x02, 0x10, 0x00, (dataLen + 4).toUInt8])

theorem dataHead_length (tlvLength dataLen : UInt32) :
    (dataHead tlvLength dataLen).length = 20 := rfl

private theorem frame_eq (t d : UInt32) (s opc dpc si ni mp sls : ByteStream) :
    commonHeader 0x01 0x01 t
        ++ (routingContext ++ [0x02, 0x10, 0x00, (d + 4).toUInt8]
          ++ opc ++ dpc ++ si ++ ni ++ mp ++ sls ++ s ++ padding d)
      = dataHead t d
          ++ (opc ++ dpc ++ si ++ ni ++ mp ++ sls ++ (s ++ padding d)) := by
  simp only [dataHead, List.append_assoc]

/-- **The layout of an encoded DATA message**, or nothing when all streams are
    empty (their total size, as an `unsigned int`, is zero). -/
theorem encodeMsg_layout (s opc dpc si ni mp sls : ByteStream) :
    encodeMsg s opc dpc si ni mp sls = [] ∨
      ∃ tlvLength dataLen, encodeMsg s opc dpc si ni mp sls
        = dataHead tlvLength dataLen
          ++ (opc ++ dpc ++ si ++ ni ++ mp ++ sls ++ (s ++ padding dataLen)) := by
  by_cases h : UInt32.ofNat (s.length + opc.length + dpc.length + si.length
      + ni.length + mp.length + sls.length) = 0
  · exact Or.inl (if_pos h)
  · exact Or.inr ⟨_, _, (if_neg h).trans (frame_eq ..)⟩

/-- The total size of the streams `encodeMsg` is given. -/
def dataSize (s opc dpc si ni mp sls : ByteStream) : Nat :=
  s.length + opc.length + dpc.length + si.length + ni.length + mp.length + sls.length

/-- **The message `encodeMsg` lays out**, unless the size of its streams is zero
    as an `unsigned int`. -/
theorem encodeMsg_eq {s opc dpc si ni mp sls : ByteStream}
    (h : UInt32.ofNat (dataSize s opc dpc si ni mp sls) ≠ 0) :
    encodeMsg s opc dpc si ni mp sls
      = dataHead
          (UInt32.ofNat (12 + dataSize s opc dpc si ni mp sls
            + (padding (UInt32.ofNat (dataSize s opc dpc si ni mp sls))).length))
          (UInt32.ofNat (dataSize s opc dpc si ni mp sls))
        ++ (opc ++ dpc ++ si ++ ni ++ mp ++ sls
          ++ (s ++ padding (UInt32.ofNat (dataSize s opc dpc si ni mp sls)))) := by
  have hlen : (routingContext ++ [0x02, 0x10, 0x00,
        (UInt32.ofNat (dataSize s opc dpc si ni mp sls) + 4).toUInt8]
      ++ opc ++ dpc ++ si ++ ni ++ mp ++ sls ++ s
      ++ padding (UInt32.ofNat (dataSize s opc dpc si ni mp sls))).length
      = 12 + dataSize s opc dpc si ni mp sls
        + (padding (UInt32.ofNat (dataSize s opc dpc si ni mp sls))).length := by
    simp only [List.length_append, List.length_cons, List.length_nil, routingContext,
      dataSize]
    omega
  rw [← hlen]
  exact (if_neg h).trans (frame_eq ..)

/-- An encoded message is a multiple of four octets long. -/
theorem encodeMsg_length {s opc dpc si ni mp sls : ByteStream}
    (h : UInt32.ofNat (dataSize s opc dpc si ni mp sls) ≠ 0) :
    (encodeMsg s opc dpc si ni mp sls).length
      = 20 + (dataSize s opc dpc si ni mp sls + 3) / 4 * 4 := by
  have hmod : (UInt32.ofNat (dataSize s opc dpc si ni mp sls)).toNat % 4
      = dataSize s opc dpc si ni mp sls % 4 := by
    rw [UInt32.toNat_ofNat']
    omega
  rw [encodeMsg_eq h]
  simp only [List.length_append, dataHead_length, padding_eq, List.length_replicate, hmod]
  simp only [dataSize]
  omega

/-! ## The frame -/

/-- The 32-bit word at position `i`, most significant octet first. -/
def longWord (b : ByteStream) (i : Nat) : Nat := word b i * 65536 + word b (i + 2)

/-- The four length octets of the common header hold the total length. -/
theorem longWord_commonHeader (c t : UInt8) (tlvLength : UInt32) (rest : ByteStream) :
    longWord (commonHeader c t tlvLength ++ rest) 4 = (tlvLength + 8).toNat := by
  have hlt : (tlvLength + 8).toNat < 2 ^ 32 := UInt32.toNat_lt _
  have h24 := shiftOctet_toNat (tlvLength + 8) 24 (by decide)
  have h16 := shiftOctet_toNat (tlvLength + 8) 16 (by decide)
  have h8 := shiftOctet_toNat (tlvLength + 8) 8 (by decide)
  have h0 := shiftOctet_toNat (tlvLength + 8) 0 (by decide)
  have hzero : (tlvLength + 8) >>> 0 = tlvLength + 8 := UInt32.shiftRight_zero
  rw [hzero] at h0
  rw [show (24 : UInt32).toNat = 24 from rfl] at h24
  rw [show (16 : UInt32).toNat = 16 from rfl] at h16
  rw [show (8 : UInt32).toNat = 8 from rfl] at h8
  rw [show (0 : UInt32).toNat = 0 from rfl] at h0
  simp only [longWord, word, commonHeader, List.cons_append, List.getElem?_cons_succ,
    List.getElem?_cons_zero, Option.getD_some, h24, h16, h8, h0]
  omega

/-- **The frame of a DATA message**: the common header of class 1 and type 1,
    the routing context, the Protocol Data parameter and at most three octets
    of padding; the size is a multiple of four, and the header says it. -/
def Framed (s opc dpc si ni mp sls r : ByteStream) : Prop :=
  ∃ header len₀ len₁ z,
    r = header ++ routingContext ++ [0x02, 0x10] ++ [len₀, len₁] ++ opc ++ dpc ++ si
      ++ ni ++ mp ++ sls ++ s ++ z ∧
    header.length = 8 ∧ header.take 4 = [0x01, 0x00, 0x01, 0x01] ∧
    z.length < 4 ∧ (∀ x ∈ z, x = 0x00) ∧
    r.length % 4 = 0 ∧ longWord r 4 = r.length

/-- A message whose streams are not all empty is framed. -/
theorem encodeMsg_framed {s opc dpc si ni mp sls : ByteStream}
    (h : dataSize s opc dpc si ni mp sls < 2 ^ 32 - 32)
    (hpos : 0 < dataSize s opc dpc si ni mp sls) :
    Framed s opc dpc si ni mp sls (encodeMsg s opc dpc si ni mp sls) := by
  have htoNat : (UInt32.ofNat (dataSize s opc dpc si ni mp sls)).toNat
      = dataSize s opc dpc si ni mp sls := by
    rw [UInt32.toNat_ofNat']
    exact Nat.mod_eq_of_lt (by omega)
  have hne : UInt32.ofNat (dataSize s opc dpc si ni mp sls) ≠ 0 := by
    intro hzero
    rw [hzero, show (0 : UInt32).toNat = 0 from rfl] at htoNat
    omega
  have hlength := encodeMsg_length hne
  have hpad := padding_eq (UInt32.ofNat (dataSize s opc dpc si ni mp sls))
  rw [htoNat] at hpad
  refine ⟨commonHeader 0x01 0x01 (UInt32.ofNat (12 + dataSize s opc dpc si ni mp sls
      + (padding (UInt32.ofNat (dataSize s opc dpc si ni mp sls))).length)), 0x00,
    (UInt32.ofNat (dataSize s opc dpc si ni mp sls) + 4).toUInt8,
    padding (UInt32.ofNat (dataSize s opc dpc si ni mp sls)), ?_, rfl, rfl, ?_, ?_, ?_, ?_⟩
  · rw [encodeMsg_eq hne, dataHead]
    simp only [List.append_assoc, List.cons_append, List.nil_append]
  · rw [hpad, List.length_replicate]
    omega
  · rw [hpad]
    exact fun x hx => (List.mem_replicate.mp hx).2
  · omega
  · -- the total length fits 32 bits, so the header octets lose nothing
    have htotal : (UInt32.ofNat (12 + dataSize s opc dpc si ni mp sls
        + (padding (UInt32.ofNat (dataSize s opc dpc si ni mp sls))).length) + 8).toNat
        = 20 + (dataSize s opc dpc si ni mp sls + 3) / 4 * 4 := by
      rw [hpad, List.length_replicate, UInt32.toNat_add, UInt32.toNat_ofNat',
        show (8 : UInt32).toNat = 8 from rfl]
      omega
    rw [hlength, ← htotal, encodeMsg_eq hne, dataHead, List.append_assoc]
    exact longWord_commonHeader ..

/-- **Framing and padding of outgoing DATA.** -/
theorem encodeMsg_framing (s opc dpc si ni mp sls : ByteStream)
    (h : dataSize s opc dpc si ni mp sls < 2 ^ 32 - 32) :
    (dataSize s opc dpc si ni mp sls = 0 → encodeMsg s opc dpc si ni mp sls = []) ∧
      (0 < dataSize s opc dpc si ni mp sls →
        Framed s opc dpc si ni mp sls (encodeMsg s opc dpc si ni mp sls)) := by
  refine ⟨fun hzero => if_pos ?_, encodeMsg_framed h⟩
  show UInt32.ofNat (dataSize s opc dpc si ni mp sls) = 0
  rw [hzero]
  rfl

theorem encodeMsg_framing_sampleLabel :
    Framed [0x09, 0x00, 0x03] sampleLabel.opc sampleLabel.dpc [sampleLabel.si]
      [sampleLabel.ni] [sampleLabel.mp] [sampleLabel.sls]
      (encodeMsg [0x09, 0x00, 0x03] sampleLabel.opc sampleLabel.dpc [sampleLabel.si]
        [sampleLabel.ni] [sampleLabel.mp] [sampleLabel.sls]) :=
  (encodeMsg_framing [0x09, 0x00, 0x03] sampleLabel.opc sampleLabel.dpc [sampleLabel.si]
    [sampleLabel.ni] [sampleLabel.mp] [sampleLabel.sls] (by decide)).2 (by decide)

/-! ## The length octets as the constructor reads them -/

/-- An octet has no bit in common with a mask whose lowest octet is zero. -/
private theorem octet_and_eq_zero (b : UInt8) {mask : UInt32} (hmask : mask.toNat % 2 ^ 8 = 0) :
    b.toUInt32 &&& mask = 0 := by
  have hlt : b.toNat < 2 ^ 8 := UInt8.toNat_lt b
  apply UInt32.toNat_inj.mp
  rw [UInt32.toNat_and, UInt8.toNat_toUInt32]
  calc b.toNat &&& mask.toNat
      = (b.toNat &&& mask.toNat) % 2 ^ 8 :=
        (Nat.mod_eq_of_lt (Nat.lt_of_le_of_lt Nat.and_le_left hlt)).symm
    _ = b.toNat % 2 ^ 8 &&& mask.toNat % 2 ^ 8 := Nat.and_mod_two_pow
    _ = 0 := by rw [hmask, Nat.and_zero]

/-- The mask of the lowest octet keeps it. -/
private theorem octet_and_low (b : UInt8) : b.toUInt32 &&& 0x000000ff = b.toUInt32 := by
  have hlt : b.toNat < 2 ^ 8 := UInt8.toNat_lt b
  apply UInt32.toNat_inj.mp
  rw [UInt32.toNat_and, UInt8.toNat_toUInt32]
  exact (Nat.and_two_pow_sub_one_eq_mod b.toNat 8).trans (Nat.mod_eq_of_lt hlt)

/-- **The constructor reads the last length octet only**: the other three are
    masked where they have no bits. -/
theorem messageLength_eq (v r c t b4 b5 b6 b7 : UInt8) (rest : ByteStream) :
    ∃ l, messageLength (v :: r :: c :: t :: b4 :: b5 :: b6 :: b7 :: rest) = .ok l ∧
      l.toInt = b7.toNat := by
  have hlt : b7.toNat < 256 := UInt8.toNat_lt b7
  refine ⟨_, rfl, ?_⟩
  rw [octet_and_eq_zero b4 rfl, octet_and_eq_zero b5 rfl, octet_and_eq_zero b6 rfl,
    octet_and_low, UInt32.zero_or, UInt32.zero_or, UInt32.zero_or]
  have hword : b7.toUInt32.toBitVec.toNat = b7.toNat := UInt8.toNat_toUInt32 b7
  rw [← Int32.toInt_toBitVec, UInt32.toBitVec_toInt32,
    BitVec.toInt_eq_toNat_of_lt (by omega), hword]

/-- The header that `commonHeader` writes, read by the constructor. -/
theorem messageLength_commonHeader (c t : UInt8) (tlvLength : UInt32) (rest : ByteStream) :
    ∃ l, messageLength (commonHeader c t tlvLength ++ rest) = .ok l ∧
      l.toInt = ((tlvLength + 8).toNat % 256 : Nat) := by
  obtain ⟨l, hl, hint⟩ := messageLength_eq 0x01 0x00 c t
    (((tlvLength + 8) >>> 24) &&& 0xff).toUInt8 (((tlvLength + 8) >>> 16) &&& 0xff).toUInt8
    (((tlvLength + 8) >>> 8) &&& 0xff).toUInt8 ((tlvLength + 8) &&& 0xff).toUInt8 rest
  refine ⟨l, hl, ?_⟩
  have hoctet := shiftOctet_toNat (tlvLength + 8) 0 (by decide)
  rw [UInt32.shiftRight_zero, show (0 : UInt32).toNat = 0 from rfl, Nat.pow_zero,
    Nat.div_one] at hoctet
  rw [hint, hoctet]

/-- A message of a common header and its parameters. -/
def headed (c t : UInt8) (parameters : ByteStream) : ByteStream :=
  commonHeader c t (UInt32.ofNat parameters.length) ++ parameters

theorem headed_length (c t : UInt8) (parameters : ByteStream) :
    (headed c t parameters).length = parameters.length + 8 := by
  rw [headed, List.length_append, Nat.add_comm]
  rfl

/-- The length read from the header of a message, in general. -/
theorem messageLength_headed (c t : UInt8) (parameters : ByteStream) :
    ∃ l, messageLength (headed c t parameters) = .ok l ∧
      l.toInt = ((parameters.length + 8) % 256 : Nat) := by
  obtain ⟨l, hl, hint⟩ :=
    messageLength_commonHeader c t (UInt32.ofNat parameters.length) parameters
  have hmod : (UInt32.ofNat parameters.length + 8).toNat % 256
      = (parameters.length + 8) % 256 := by
    rw [UInt32.toNat_add, UInt32.toNat_ofNat', show (8 : UInt32).toNat = 8 from rfl]
    omega
  rw [hmod] at hint
  exact ⟨l, hl, hint⟩

/-- **The header length is read as it was written**: the constructor accepts
    the message, and the length it computes is that of the message. -/
def HeaderLengthKept (c t : UInt8) (parameters : ByteStream) : Prop :=
  ofBytes (headed c t parameters) = .ok (fresh (typeOf c t) (headed c t parameters)) ∧
    ∃ l, messageLength (headed c t parameters) = .ok l ∧
      l.toInt = parameters.length + 8 ∧ l.toInt = (headed c t parameters).length

/-- **Which header lengths are read as they were written**: those of one octet,
    whatever the class and the type. -/
theorem header_length_iff {c t : UInt8} (hknown : typeOf c t ≠ .UNKNOWN)
    (parameters : ByteStream) :
    HeaderLengthKept c t parameters ↔ parameters.length + 8 ≤ 255 := by
  obtain ⟨l, hl, hint⟩ := messageLength_headed c t parameters
  constructor
  · rintro ⟨-, l', hl', hlen, -⟩
    rw [hl] at hl'
    rw [← Except.ok.inj hl', hint] at hlen
    omega
  · intro hshort
    rw [Nat.mod_eq_of_lt (by omega)] at hint
    refine ⟨?_, l, hl, by omega, ?_⟩
    · rw [ofBytes_eq]
      exact congrArg Except.ok (if_pos ⟨rfl, hknown⟩)
    · rw [hint, headed_length]

theorem header_length_iff_routingContext :
    HeaderLengthKept 0x04 0x03 routingContext ∧
      ¬ HeaderLengthKept 0x04 0x03 (routingContext ++ List.replicate 240 0x00) := by
  have hknown : typeOf 0x04 0x03 ≠ .UNKNOWN := by decide
  refine ⟨(header_length_iff hknown routingContext).mpr (by decide), fun h => ?_⟩
  have hlen := (header_length_iff hknown _).mp h
  rw [List.length_append, List.length_replicate] at hlen
  exact absurd hlen (by decide)

/-- A DATA message of 256 octets is read as one of none. -/
theorem headed_256_read_as_0 :
    typeOf 0x01 0x01 ≠ .UNKNOWN ∧ (List.replicate 248 (0x00 : UInt8)).length + 8 < 2 ^ 31 ∧
      (headed 0x01 0x01 (List.replicate 248 0x00)).length = 256 ∧
      messageLength (headed 0x01 0x01 (List.replicate 248 0x00)) = .ok 0 ∧
      ¬ HeaderLengthKept 0x01 0x01 (List.replicate 248 0x00) := by
  have hread : messageLength (headed 0x01 0x01 (List.replicate 248 0x00)) = .ok 0 := by
    obtain ⟨l, hl, hint⟩ := messageLength_headed 0x01 0x01 (List.replicate 248 0x00)
    rw [List.length_replicate] at hint
    rw [hl, Int32.toInt_inj.mp (show l.toInt = (0 : Int32).toInt from hint)]
  refine ⟨by decide, by rw [List.length_replicate]; decide, ?_, hread, ?_⟩
  · rw [headed_length, List.length_replicate]
  · rintro ⟨-, l, hl, hlen, -⟩
    rw [hread] at hl
    rw [← Except.ok.inj hl, List.length_replicate] at hlen
    exact absurd hlen (by decide)

/-! ## Messages with a whole routing label -/

/-- `encodeMsg` on a user message and a routing label. -/
def encodeData (s : ByteStream) (l : RoutingLabel) : ByteStream :=
  encodeMsg s l.opc l.dpc [l.si] [l.ni] [l.mp] [l.sls]

/-- **DATA round trip**: the encoded message is classified `TM_DATA`, and after
    decoding the payload and the six label fields are what was encoded. -/
def DataRoundTrips (s : ByteStream) (l : RoutingLabel) : Prop :=
  ∃ m d, ofBytes (encodeData s l) = .ok m ∧ m.M3UAtype = .TM_DATA ∧
    m.decodePayload = .ok d ∧ d.getPayload = s ∧
    d.opc = l.opc ∧ d.dpc = l.dpc ∧ d.si = [l.si] ∧ d.ni = [l.ni] ∧
    d.mp = [l.mp] ∧ d.sls = [l.sls]

/-- The user message fits the one length octet, no octet pair `02 10` stands in
    it from its second octet on, and it does not end in `02` unless padding
    follows it. -/
structure CarriedWhole (s : ByteStream) : Prop where
  short : s.length ≤ 239
  pairs : ∀ k, 1 ≤ k → hasTag s k = false
  last : s.length % 4 = 0 → s.getLast? ≠ some 0x02

section EncodeData

variable (s : ByteStream) (l : RoutingLabel)

/-- The size of the Protocol Data, as the encoder computes it. -/
private def dataLenOf : UInt32 := UInt32.ofNat (s.length + 12)

private def tlvLengthOf : UInt32 :=
  UInt32.ofNat (24 + s.length + (padding (dataLenOf s)).length)

private theorem dataLenOf_toNat (hlen : 16 + s.length ≤ 65535) :
    (dataLenOf s).toNat = s.length + 12 := by
  rw [dataLenOf]
  rw [UInt32.toNat_ofNat']
  exact Nat.mod_eq_of_lt (by omega)

private theorem encodeData_eq (hlen : 16 + s.length ≤ 65535) :
    encodeData s l = dataHead (tlvLengthOf s) (dataLenOf s)
      ++ (l.bytes ++ (s ++ padding (dataLenOf s))) := by
  have hsum : s.length + l.opc.length + l.dpc.length + [l.si].length
      + [l.ni].length + [l.mp].length + [l.sls].length = s.length + 12 := by
    simp only [l.opc_length, l.dpc_length, List.length_singleton]
  have hne : dataLenOf s ≠ 0 := by
    intro h
    have := dataLenOf_toNat s hlen
    rw [h, show (0 : UInt32).toNat = 0 from rfl] at this
    omega
  have hmsg : (routingContext ++ [0x02, 0x10, 0x00, (dataLenOf s + 4).toUInt8]
      ++ l.opc ++ l.dpc ++ [l.si] ++ [l.ni] ++ [l.mp] ++ [l.sls] ++ s
      ++ padding (dataLenOf s)).length
      = 24 + s.length + (padding (dataLenOf s)).length := by
    simp only [List.length_append, l.opc_length, l.dpc_length, List.length_cons,
      List.length_nil, routingContext]
  have hframe : encodeData s l
      = commonHeader 0x01 0x01 (tlvLengthOf s)
        ++ (routingContext ++ [0x02, 0x10, 0x00, (dataLenOf s + 4).toUInt8]
          ++ l.opc ++ l.dpc ++ [l.si] ++ [l.ni] ++ [l.mp] ++ [l.sls] ++ s
          ++ padding (dataLenOf s)) := by
    rw [encodeData, encodeMsg, tlvLengthOf]
    rw [hsum, ← hmsg]
    exact if_neg hne
  rw [hframe, frame_eq]
  simp only [RoutingLabel.bytes, List.append_assoc, List.cons_append,
    List.nil_append]

private theorem padding_length (hlen : 16 + s.length ≤ 65535) :
    (padding (dataLenOf s)).length = (4 - s.length % 4) % 4 := by
  rw [padding_eq, List.length_replicate, dataLenOf_toNat s hlen]
  omega

private theorem encodeData_length (hlen : 16 + s.length ≤ 65535) :
    (encodeData s l).length = 32 + s.length + (4 - s.length % 4) % 4 := by
  rw [encodeData_eq s l hlen]
  simp only [List.length_append, dataHead_length, l.bytes_length,
    padding_length s hlen]
  omega

private theorem encodeData_isData (hlen : 16 + s.length ≤ 65535) :
    IsData (encodeData s l) := by
  refine ⟨?_, ?_, ?_, ?_⟩
  · rw [encodeData_length s l hlen]; omega
  · rw [encodeData_eq s l hlen]; rfl
  · rw [encodeData_eq s l hlen]; rfl
  · rw [encodeData_eq s l hlen]; rfl

private theorem encodeData_hasTag (hlen : 16 + s.length ≤ 65535) :
    hasTag (encodeData s l) 16 = true := by
  rw [encodeData_eq s l hlen]
  rfl

private theorem encodeData_lengthOctet (hlen : 16 + s.length ≤ 65535) :
    lengthOctet (encodeData s l) 16 = (16 + s.length) % 256 := by
  have hget : (encodeData s l)[16 + 3]? = some (dataLenOf s + 4).toUInt8 := by
    rw [encodeData_eq s l hlen]
    rfl
  rw [lengthOctet, hget, Option.getD_some, UInt32.toNat_toUInt8, UInt32.toNat_add,
    dataLenOf_toNat s hlen, show (4 : UInt32).toNat = 4 from rfl]
  omega

private theorem encodeData_windowFits (hlen : 16 + s.length ≤ 65535) :
    WindowFits (encodeData s l) 16 := by
  have h1 := encodeData_length s l hlen
  have h2 := encodeData_lengthOctet s l hlen
  refine ⟨by omega, by omega⟩

private theorem encodeData_labelAt (hlen : 16 + s.length ≤ 65535) :
    LabelAt (encodeData s l) 16 l := by
  rw [encodeData_eq s l hlen]
  exact labelAt_of_split l rfl

/-- What stands behind the routing label. -/
private theorem encodeData_behind (hlen : 16 + s.length ≤ 65535) (k : Nat) :
    (encodeData s l)[32 + k]? = (s ++ padding (dataLenOf s))[k]? := by
  have hhead : (dataHead (tlvLengthOf s) (dataLenOf s) ++ l.bytes).length = 32 := by
    rw [List.length_append, dataHead_length, l.bytes_length]
  rw [encodeData_eq s l hlen, ← List.append_assoc, ← hhead,
    getElem?_append_right_add]

/-- The user data of a message that fits the length octet. -/
private theorem encodeData_userData (hshort : s.length ≤ 239) :
    userDataAt (encodeData s l) 16 = s := by
  have hlen : 16 + s.length ≤ 65535 := by omega
  have hhead : (dataHead (tlvLengthOf s) (dataLenOf s) ++ l.bytes).length = 32 := by
    rw [List.length_append, dataHead_length, l.bytes_length]
  have hcount : lengthOctet (encodeData s l) 16 - 16 = s.length := by
    rw [encodeData_lengthOctet s l hlen]
    omega
  have hstart : 16 + 16 = (dataHead (tlvLengthOf s) (dataLenOf s) ++ l.bytes).length + 0 := by
    rw [hhead]
  rw [userDataAt, hcount, encodeData_eq s l hlen, ← List.append_assoc, hstart,
    slice_append_right, slice_append_left]

/-- Zero octets behind a stream add no tag to it. -/
theorem hasTag_append_zeros (n k : Nat) :
    hasTag (s ++ List.replicate n 0x00) k = hasTag s k := by
  by_cases hk : k + 1 < s.length
  · rw [hasTag, hasTag, List.getElem?_append_left (by omega),
      List.getElem?_append_left hk]
  · have hnone : s[k + 1]? = none := List.getElem?_eq_none (by omega)
    have hpad : (s ++ List.replicate n (0x00 : UInt8))[k + 1]? ≠ some 0x10 := by
      rw [List.getElem?_append_right (by omega), List.getElem?_replicate]
      split <;> decide
    rw [hasTag, hasTag, hnone]
    cases hp : (s ++ List.replicate n (0x00 : UInt8))[k + 1]? with
    | none => simp
    | some x =>
        rw [hp] at hpad
        simp at hpad
        simp [hpad]

private theorem encodeData_hasTag_behind (hlen : 16 + s.length ≤ 65535) (k : Nat) :
    hasTag (encodeData s l) (32 + k) = hasTag s k := by
  rw [hasTag, encodeData_behind s l hlen, Nat.add_assoc,
    encodeData_behind s l hlen]
  show hasTag (s ++ padding (dataLenOf s)) k = hasTag s k
  rw [padding_eq]
  exact hasTag_append_zeros s _ k

/-- In front of the parameter only the octets of the total length vary. -/
private theorem no_tag_in_header {a b c e : UInt8} {rest : ByteStream}
    (ha : a ≠ 0x02) (hb : b ≠ 0x02) (hc : c ≠ 0x02) :
    ∀ j, hasTag ([0x01, 0x00, 0x01, 0x01, a, b, c, e]
      ++ (routingContext ++ 0x02 :: rest)) j = true → 16 ≤ j := by
  intro j hj
  match j with
  | 0 | 1 | 2 | 3 | 8 | 9 | 10 | 11 | 12 | 13 | 14 | 15 => exact Bool.noConfusion hj
  | 7 => simp [hasTag, routingContext] at hj
  | 4 => simp [hasTag, ha] at hj
  | 5 => simp [hasTag, hb] at hj
  | 6 => simp [hasTag, hc] at hj
  | n + 16 => exact Nat.le_add_left 16 n

/-- With a short user message no tag stands in front of the parameter: the
    total length has no octet `02` but its last. -/
private theorem encodeData_no_tag_before (hshort : s.length ≤ 239) :
    ∀ j, hasTag (encodeData s l) j = true → 16 ≤ j := by
  have hlen : 16 + s.length ≤ 65535 := by omega
  -- below 512 the upper octets of the total length are 0 or 1
  have htlv : (tlvLengthOf s + 8).toNat < 512 := by
    rw [tlvLengthOf]
    rw [padding_length s hlen, UInt32.toNat_add, UInt32.toNat_ofNat',
      show (8 : UInt32).toNat = 8 from rfl]
    omega
  have hoctet : ∀ k : UInt32, k.toNat < 32 → 8 ≤ k.toNat →
      (((tlvLengthOf s + 8) >>> k) &&& 0xff).toUInt8 ≠ 0x02 := by
    intro k hk hk8 heq
    have hval := congrArg UInt8.toNat heq
    rw [shiftOctet_toNat _ _ hk, show (0x02 : UInt8).toNat = 2 from rfl] at hval
    have hpow : 2 ^ 8 ≤ 2 ^ k.toNat := Nat.pow_le_pow_right (by omega) hk8
    have hdiv : (tlvLengthOf s + 8).toNat / 2 ^ k.toNat < 2 :=
      Nat.div_lt_of_lt_mul (by omega)
    rw [Nat.mod_eq_of_lt (by omega)] at hval
    omega
  rw [encodeData_eq s l hlen]
  exact no_tag_in_header (hoctet 24 (by decide) (by decide))
    (hoctet 16 (by decide) (by decide)) (hoctet 8 (by decide) (by decide))

/-- The last octet of the message, when no padding follows the user data. -/
private theorem encodeData_getLast (hlen : 16 + s.length ≤ 65535) :
    (33 < (encodeData s l).length → (encodeData s l).getLast? ≠ some 0x02) ↔
      (s.length % 4 = 0 → s.getLast? ≠ some 0x02) := by
  have hpad : padding (dataLenOf s)
      = List.replicate ((4 - s.length % 4) % 4) 0x00 := by
    rw [padding_eq, dataLenOf_toNat s hlen]
    congr 1
    omega
  have htotal := encodeData_length s l hlen
  by_cases hmod : s.length % 4 = 0
  · -- without padding the message ends where the user data does
    have hnil : padding (dataLenOf s) = [] := by rw [hpad, hmod]; rfl
    cases hs : s.getLast? with
    | none =>
        have : s = [] := List.getLast?_eq_none_iff.mp hs
        subst this
        simp at htotal
        simp [htotal]
    | some x =>
        have hlast : (encodeData s l).getLast? = some x := by
          rw [encodeData_eq s l hlen, hnil, List.append_nil, ← List.append_assoc,
            List.getLast?_append, hs]
          rfl
        have hpos : 0 < s.length := by
          cases s with
          | nil => exact nomatch hs
          | cons a t => exact Nat.succ_pos _
        have h33 : 33 < (encodeData s l).length := by omega
        simp [hlast, h33, hmod]
  · -- with padding the message ends in 00
    have hlast : (encodeData s l).getLast? = some 0x00 := by
      rw [encodeData_eq s l hlen, hpad, ← List.append_assoc, ← List.append_assoc,
        List.getLast?_append, List.getLast?_replicate, if_neg (by omega)]
      rfl
    simp [hlast, hmod]

/-- The scan of an encoded message with a short user message. -/
private theorem encodeData_scan_iff (hshort : s.length ≤ 239) :
    (ScanSafe (encodeData s l) ∧ tagHits (encodeData s l) = [16]) ↔
      CarriedWhole s := by
  have hlen : 16 + s.length ≤ 65535 := by omega
  rw [scan_single_iff (encodeData_hasTag s l hlen) (encodeData_windowFits s l hlen),
    encodeData_getLast s l hlen]
  constructor
  · rintro ⟨htags, hlast⟩
    refine ⟨hshort, ?_, hlast⟩
    intro k hk
    cases ht : hasTag s k with
    | false => rfl
    | true =>
        rw [← encodeData_hasTag_behind s l hlen] at ht
        have := (htags (32 + k) ht).2
        omega
  · rintro ⟨-, hpairs, hlast⟩
    refine ⟨?_, hlast⟩
    intro j hj
    refine ⟨encodeData_no_tag_before s l hshort j hj, ?_⟩
    by_cases hin : j ≤ 32
    · exact hin
    · -- a pair behind the window is one of the user data
      obtain ⟨k, rfl⟩ : ∃ k, j = 32 + k := ⟨j - 32, by omega⟩
      rw [encodeData_hasTag_behind s l hlen, hpairs k (by omega)] at hj
      exact nomatch hj

end EncodeData

/-- A message that comes back was read through one window, behind which at most
    239 octets of user data stand. -/
theorem single_hit_of_roundTrips {s : ByteStream} {l : RoutingLabel}
    (hlen : 16 + s.length ≤ 65535) (h : DataRoundTrips s l) :
    ScanSafe (encodeData s l) ∧ s.length ≤ 239 ∧
      ∃ p, tagHits (encodeData s l) = [p] := by
  have hdata := encodeData_isData s l hlen
  obtain ⟨m, d, hm, -, hd, hpayload, hopc, -⟩ := h
  have hrun : (ofBytes (encodeData s l) >>= decodePayload) = .ok d := by
    rw [hm]; exact hd
  obtain ⟨hsafe, hcollect⟩ := (receive_data hdata d).mp hrun
  -- four octets of OPC leave room for one hit only
  obtain ⟨p, hp⟩ : ∃ p, tagHits (encodeData s l) = [p] := by
    have hcount := opc_length_of_safe hsafe (tagHits (encodeData s l)) (fun _ h => h)
    have hfour : ((tagHits (encodeData s l)).flatMap
        (opcAt (encodeData s l))).length = 4 := by
      rw [← l.opc_length, ← hopc, hcollect, collect_fresh_opc]
    exact List.length_eq_one_iff.mp (by omega)
  refine ⟨hsafe, ?_, p, hp⟩
  rw [hp, collect_singleton] at hcollect
  have hpay : s = userDataAt (encodeData s l) p := by
    conv_lhs => rw [← hpayload, hcollect]
    rfl
  have hoctet : lengthOctet (encodeData s l) p < 256 := UInt8.toNat_lt _
  have hle : (userDataAt (encodeData s l) p).length
      ≤ lengthOctet (encodeData s l) p - 16 := List.length_take_le ..
  rw [← hpay] at hle
  omega

/-- A message that comes back is carried whole. -/
theorem carriedWhole_of_roundTrips {s : ByteStream} {l : RoutingLabel}
    (hlen : 16 + s.length ≤ 65535) (h : DataRoundTrips s l) : CarriedWhole s := by
  have htag := encodeData_hasTag s l hlen
  obtain ⟨hsafe, hshort, p, hp⟩ := single_hit_of_roundTrips hlen h
  -- the one hit covers the tag at 16, and no tag stands before that
  have h16 : p = 16 := by
    have hlt : 16 < (encodeData s l).length := by
      rw [encodeData_length s l hlen]; omega
    obtain ⟨q, hq, hle, -⟩ := exists_hit_near 16 hlt htag
    rw [show hits (hasTag (encodeData s l)) 16 (encodeData s l).length = [p] from hp,
      List.mem_singleton] at hq
    have hpm : p ∈ tagHits (encodeData s l) := by
      rw [hp]; exact List.mem_singleton.mpr rfl
    have := encodeData_no_tag_before s l hshort p (mem_hits.mp hpm).2
    omega
  exact (encodeData_scan_iff s l hshort).mp ⟨hsafe, h16 ▸ hp⟩

/-- A message that is carried whole comes back. -/
theorem CarriedWhole.roundTrips {s : ByteStream} (hwhole : CarriedWhole s) (l : RoutingLabel) :
    DataRoundTrips s l := by
  have hlen : 16 + s.length ≤ 65535 := by
    have hshort := hwhole.short
    omega
  have hlabel := encodeData_labelAt s l hlen
  obtain ⟨hsafe, hhits⟩ := (encodeData_scan_iff s l hwhole.short).mpr hwhole
  have hrun : (fresh .TM_DATA (encodeData s l)).decodePayload
      = .ok (collect (encodeData s l) (fresh .TM_DATA (encodeData s l)) [16]) :=
    (decodePayload_eq_ok rfl).mpr ⟨hsafe, by rw [← hhits]; rfl⟩
  refine ⟨_, _, ofBytes_of_isData (encodeData_isData s l hlen), rfl, hrun, ?_⟩
  rw [collect_singleton]
  exact ⟨encodeData_userData s l hwhole.short, hlabel.opc, hlabel.dpc, hlabel.si,
    hlabel.ni, hlabel.mp, hlabel.sls⟩

/-- **The exact domain of the DATA round trip.** -/
theorem data_round_trip_iff (s : ByteStream) (l : RoutingLabel)
    (hlen : 16 + s.length ≤ 65535) : DataRoundTrips s l ↔ CarriedWhole s := by
  constructor
  · intro h
    exact carriedWhole_of_roundTrips hlen h
  · intro hwhole
    exact hwhole.roundTrips l

theorem data_round_trip_iff_udt :
    DataRoundTrips [0x09, 0x00, 0x03] sampleLabel ↔
      CarriedWhole [0x09, 0x00, 0x03] :=
  data_round_trip_iff _ sampleLabel (by decide)

/-- 240 octets of user data do not fit the one length octet, which becomes 0. -/
theorem data_of_240_octets_lost :
    16 + (List.replicate 240 0x00 : ByteStream).length ≤ 65535 ∧
      ¬ DataRoundTrips (List.replicate 240 0x00) sampleLabel := by
  have hlen : (List.replicate 240 0x00 : ByteStream).length = 240 :=
    List.length_replicate ..
  refine ⟨by rw [hlen]; decide, ?_⟩
  intro h
  have hshort := (single_hit_of_roundTrips (by rw [hlen]; decide) h).2.1
  rw [hlen] at hshort
  exact absurd hshort (by decide)

end ProtoVscp
