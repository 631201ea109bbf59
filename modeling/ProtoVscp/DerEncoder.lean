import ProtoVscp.Asn1c

/-! # The DER encoders

    What `der_encode` writes for the two values the program encodes, a
    `ConnectArg` and an `End` of Invokes: `der_write_tags` of `der_encoder.c`
    and `ber_tlv_length.c`, and the type encoders with the tags of the generated
    descriptors.  Every type on the way has one tag of one octet. -/

namespace ProtoVscp

/-! ## Tag and length -/

/-- The loop of `der_tlv_length_serialize` that counts the octets of a length. -/
def requiredSize (len : Nat) : Nat :=
  1 + ((List.range 7).takeWhile (fun k => len >>> (8 * (k + 1)) ≠ 0)).length

/-- `der_tlv_length_serialize` -/
def der_tlv_length_serialize (len : Nat) : ByteStream :=
  if len ≤ 127 then [UInt8.ofNat len]
  else
    UInt8.ofNat (0x80 ||| requiredSize len) ::
      (List.range (requiredSize len)).reverse.map (fun k => UInt8.ofNat (len >>> (8 * k)))

/-- `der_write_TL`, and the contents behind it. -/
def der_write_TLV (tag : UInt8) (contents : ByteStream) : ByteStream :=
  tag :: (der_tlv_length_serialize contents.length ++ contents)

/-- The octets of a value with `len` octets of contents. -/
def tlvSize (len : Nat) : Nat :=
  if len ≤ 127 then len + 2 else len + 2 + requiredSize len

theorem der_tlv_length_serialize_length (len : Nat) :
    (der_tlv_length_serialize len).length + len + 1 = tlvSize len := by
  rw [der_tlv_length_serialize, tlvSize]
  by_cases hshort : len ≤ 127
  · rw [if_pos hshort, if_pos hshort, List.length_singleton]
    omega
  · rw [if_neg hshort, if_neg hshort, List.length_cons, List.length_map,
      List.length_reverse, List.length_range]
    omega

theorem der_write_TLV_length (tag : UInt8) (contents : ByteStream) :
    (der_write_TLV tag contents).length = tlvSize contents.length := by
  rw [← der_tlv_length_serialize_length, der_write_TLV, List.length_cons, List.length_append]

/-! ## INTEGER -/

/-- The octets of `native`, most significant first. -/
def nativeOctets (native : Int64) : ByteStream :=
  [(56 : UInt64), 48, 40, 32, 24, 16, 8, 0].map fun k => (native.toUInt64 >>> k).toUInt8

/-- The loop of `INTEGER_encode_der` that skips superfluous leading octets. -/
def canonicalize : ByteStream → ByteStream
  | b₀ :: b₁ :: rest =>
      if (b₀ = 0x00 ∧ b₁ &&& 0x80 = 0) ∨ (b₀ = 0xff ∧ b₁ &&& 0x80 ≠ 0) then
        canonicalize (b₁ :: rest)
      else b₀ :: b₁ :: rest
  | buf => buf

/-- `NativeInteger_encode_der` -/
def NativeInteger_encode_der (tag : UInt8) (native : Int64) : ByteStream :=
  der_write_TLV tag (canonicalize (nativeOctets native))

/-- The octets of contents of an INTEGER. -/
def integerSize (native : Int64) : Nat := (canonicalize (nativeOctets native)).length

/-- Contents of an INTEGER have one octet at least, and no more than a `long`. -/
theorem canonicalize_length (b : UInt8) (rest : ByteStream) :
    1 ≤ (canonicalize (b :: rest)).length ∧
      (canonicalize (b :: rest)).length ≤ rest.length + 1 := by
  induction rest generalizing b with
  | nil => exact ⟨Nat.le_refl 1, Nat.le_refl 1⟩
  | cons b₁ rest ih =>
      rw [canonicalize]
      by_cases hskip : (b = 0x00 ∧ b₁ &&& 0x80 = 0) ∨ (b = 0xff ∧ b₁ &&& 0x80 ≠ 0)
      · rw [if_pos hskip, List.length_cons]
        exact ⟨(ih b₁).1, Nat.le_succ_of_le (ih b₁).2⟩
      · rw [if_neg hskip, List.length_cons, List.length_cons]
        omega

theorem integerSize_bounds (native : Int64) : 1 ≤ integerSize native ∧ integerSize native ≤ 8 :=
  canonicalize_length _ _

theorem NativeInteger_encode_der_length (tag : UInt8) (native : Int64) :
    (NativeInteger_encode_der tag native).length = integerSize native + 2 := by
  have hsize := integerSize_bounds native
  rw [NativeInteger_encode_der, der_write_TLV_length]
  exact if_pos (show integerSize native ≤ 127 by omega)

/-! ## `ConnectArg` -/

/-- `SEQUENCE_encode_der` on a `ConnectArg`: the absent members are skipped. -/
def ConnectArg_encode_der (sptr : ConnectArg) : ByteStream :=
  der_write_TLV 0x30
    (der_write_TLV 0xA0 (sptr.destinationRoutingAddress.flatMap (der_write_TLV 0x04))
      ++ (match sptr.cutAndPaste with
          | none => []
          | some native => NativeInteger_encode_der 0x83 native)
      ++ (match sptr.callingPartyNumber with
          | none => []
          | some st => der_write_TLV 0x9B st))

/-! ## `End` -/

/-- `CHOICE_encode_der` on an `OPERATION` -/
def OPERATION_encode_der : OPERATION → ByteStream
  | .PR_localValue localValue => NativeInteger_encode_der 0x02 localValue
  | .PR_globalValue globalValue => der_write_TLV 0x06 globalValue

/-- `SEQUENCE_encode_der` on the `Invoke` of a `Component`; the parameter is
    copied as it is. -/
def Invoke_encode_der (sptr : Invoke) : ByteStream :=
  der_write_TLV 0xA1 (NativeInteger_encode_der 0x02 sptr.invokeID
    ++ OPERATION_encode_der sptr.opCode ++ sptr.parameter.getD [])

/-- `CHOICE_encode_der` on the `End` of a `TCMessage`. -/
def End_encode_der (dtid : OCTET_STRING) (invokes : List Invoke) : ByteStream :=
  der_write_TLV 0x64 (der_write_TLV 0x49 dtid.value
    ++ der_write_TLV 0x6C (invokes.flatMap Invoke_encode_der))

/-- The codecs encode the two values as the support code does. -/
structure Asn1c.EncodesDer (asn : Asn1c) : Prop where
  connectArg : ∀ a, asn.encodeConnectArg a = ConnectArg_encode_der a
  end_ : ∀ dtid invokes,
    asn.encodeTCMessage (.PR_end { dtid := dtid, components := some (invokes.map .PR_invoke) })
      = End_encode_der dtid invokes

/-- The Invoke of a component that is one. -/
def Component.invoke? : Component → Option Invoke
  | .PR_invoke invoke => some invoke
  | _ => none

/-- `CHOICE_encode_der` on a `TCMessage`: of the alternatives only an End has its
    members here. -/
def TCMessage_encode_der : TCMessage → ByteStream
  | .PR_end end_ =>
      End_encode_der end_.dtid ((end_.components.getD []).filterMap Component.invoke?)
  | _ => []

/-- The codecs of two decoders and of the encoders above. -/
def Asn1c.ofDecoders (decodeTCMessage : ByteStream → Option TCMessage)
    (decodeInitialDPArg : ByteStream → Option InitialDPArg) : Asn1c where
  decodeTCMessage := decodeTCMessage
  decodeInitialDPArg := decodeInitialDPArg
  encodeTCMessage := TCMessage_encode_der
  encodeConnectArg := ConnectArg_encode_der

theorem ofDecoders_encodesDer (decodeTCMessage : ByteStream → Option TCMessage)
    (decodeInitialDPArg : ByteStream → Option InitialDPArg) :
    (Asn1c.ofDecoders decodeTCMessage decodeInitialDPArg).EncodesDer where
  connectArg _ := rfl
  end_ dtid invokes := by
    have hinvokes : (invokes.map Component.PR_invoke).filterMap Component.invoke?
        = invokes := by
      rw [List.filterMap_map]
      exact List.filterMap_some
    show End_encode_der dtid ((invokes.map Component.PR_invoke).filterMap _) = _
    rw [hinvokes]

end ProtoVscp
