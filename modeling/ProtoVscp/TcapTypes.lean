import ProtoVscp.BerDecoder
import ProtoVscp.DerEncoder

/-! # The types of `tcap.asn` and `INAP_DEF.asn`

    The generated descriptors that decide what the program receives, each under
    the name of its C file, and the decoders of a `TCMessage` and an
    `InitialDPArg` made of them.  A member that the program never reads is
    decoded and dropped. -/

namespace ProtoVscp

/-! ## Tags and members -/

abbrev ASN_TAG_CLASS_UNIVERSAL : ber_tlv_tag_t := 0
abbrev ASN_TAG_CLASS_APPLICATION : ber_tlv_tag_t := 1
abbrev ASN_TAG_CLASS_CONTEXT : ber_tlv_tag_t := 2
abbrev ASN_TAG_CLASS_PRIVATE : ber_tlv_tag_t := 3

/-- `ATF_NOFLAGS` and `ATF_POINTER`: a member whose value goes into `set`. -/
def asn_MBR {α σ : Type} (optional : Nat) (tag : ber_tlv_tag_t) (d : ber_type_decoder_f α)
    (set : α → σ → σ) : asn_TYPE_member σ where
  optional := optional
  tag := tag
  open_type := false
  ber_decoder := store d set

/-- A member that nothing reads. -/
def asn_MBR_unread {α σ : Type} (optional : Nat) (tag : ber_tlv_tag_t)
    (d : ber_type_decoder_f α) : asn_TYPE_member σ :=
  asn_MBR optional tag d fun _ st => st

/-- `ATF_OPEN_TYPE | ATF_POINTER` -/
def asn_MBR_open {α σ : Type} (optional : Nat) (d : ber_type_decoder_f α) (set : α → σ → σ) :
    asn_TYPE_member σ where
  optional := optional
  tag := noTag
  open_type := true
  ber_decoder := store d set

/-- A decoder whose value is wrapped, in an alternative of a CHOICE or in a buffer. -/
def wrap {α β : Type} (d : ber_type_decoder_f α) (f : α → β) : ber_type_decoder_f β :=
  fun ptr => (d ptr).map fun r => (f r.1, r.2)

/-! ## Strings -/

/-- The loop of `APPEND` that doubles the size until there is room. -/
def roundUp : Nat → Nat → Nat → Nat
  | 0, _ns, _ => _ns
  | fuel + 1, _ns, _es => if _ns ≤ _es then roundUp fuel (2 * _ns) _es else _ns

/-- The octets that `APPEND` has allocated for a string of `size` octets. -/
def allocated (size : Nat) : Nat := roundUp size 16 size

theorem roundUp_gt : ∀ (fuel _ns _es : Nat), 0 < _ns → _es < _ns + fuel →
    _es < roundUp fuel _ns _es := by
  intro fuel
  induction fuel with
  | zero => exact fun _ns _es _ h => h
  | succ fuel ih =>
      intro _ns _es hpos h
      rw [roundUp]
      by_cases hle : _ns ≤ _es
      · rw [if_pos hle]
        exact ih _ _ (by omega) (by omega)
      · rw [if_neg hle]
        omega

theorem le_roundUp : ∀ (fuel _ns _es : Nat), _ns ≤ roundUp fuel _ns _es := by
  intro fuel
  induction fuel with
  | zero => exact fun _ns _es => Nat.le_refl _ns
  | succ fuel ih =>
      intro _ns _es
      rw [roundUp]
      by_cases hle : _ns ≤ _es
      · rw [if_pos hle]
        have := ih (2 * _ns) _es
        omega
      · rw [if_neg hle]

theorem lt_allocated (size : Nat) : size < allocated size :=
  roundUp_gt size 16 size (by omega) (by omega)

/-- A string as `APPEND` leaves it: the octets, a null octet, and behind it what the
    memory held before, `heap`.  Where nothing was appended `buf` is null. -/
def allocate (heap : Nat → UInt8) : Option ByteStream → OCTET_STRING
  | none => { buf := [], size := 0, size_le := Nat.le_refl 0 }
  | some value =>
      { buf := value ++ 0 ::
          (List.range (allocated value.length - value.length - 1)).map fun k =>
            heap (value.length + 1 + k)
        size := value.length
        size_le := by
          rw [List.length_append]
          exact Nat.le_add_right _ _ }

/-- A type made of OCTET STRING by an IMPLICIT tag. -/
def asn_DEF_tagged (tag : ber_tlv_tag_t) : asn_OCTET_STRING where
  tags := [tag]
  all_tags := [tag, ASN_TAG_CLASS_UNIVERSAL ||| (4 <<< 2)]
  subvariant := .ASN_OSUBV_STR

def asn_DEF_OrigTransactionID := asn_DEF_tagged (ASN_TAG_CLASS_APPLICATION ||| (8 <<< 2))
def asn_DEF_DestTransactionID := asn_DEF_tagged (ASN_TAG_CLASS_APPLICATION ||| (9 <<< 2))
def asn_DEF_DialoguePortion := asn_DEF_tagged (ASN_TAG_CLASS_APPLICATION ||| (11 <<< 2))

/-- A type that is an OCTET STRING. -/
def asn_DEF_plain : asn_OCTET_STRING where
  tags := [ASN_TAG_CLASS_UNIVERSAL ||| (4 <<< 2)]
  all_tags := [ASN_TAG_CLASS_UNIVERSAL ||| (4 <<< 2)]
  subvariant := .ASN_OSUBV_STR

def asn_DEF_CalledPartyNumber := asn_DEF_plain
def asn_DEF_CallingPartyNumber := asn_DEF_plain

/-- `asn_DEF_Parameter` -/
def asn_DEF_Parameter := asn_DEF_ANY

/-! ## Integers -/

/-- `NativeInteger_decode_ber` behind the tag of INTEGER: `InvokeIdType`,
    `ServiceKey`, and the problems and errors. -/
def Integer_decode_ber (tag_mode : Int) : ber_type_decoder_f Int64 :=
  NativeInteger_decode_ber [ASN_TAG_CLASS_UNIVERSAL ||| (2 <<< 2)] tag_mode

/-! ## Components -/

/-- `asn_DEF_OPERATION` -/
def asn_DEF_OPERATION : asn_CHOICE OPERATION where
  elements :=
    [wrap (Integer_decode_ber 0) .PR_localValue,
     wrap (ber_decode_primitive [ASN_TAG_CLASS_UNIVERSAL ||| (6 <<< 2)] 0) .PR_globalValue]
  tag2el :=
    [(ASN_TAG_CLASS_UNIVERSAL ||| (2 <<< 2), 0), (ASN_TAG_CLASS_UNIVERSAL ||| (6 <<< 2), 1)]

/-- An `Invoke` as `CALLOC` gives it; the choice in `opCode` has yet to be made. -/
def Invoke.zero : Invoke where
  invokeID := 0
  opCode := .PR_localValue 0
  parameter := none

/-- `asn_DEF_Invoke` -/
def asn_DEF_Invoke : asn_SEQUENCE Invoke where
  tags := [ASN_TAG_CLASS_UNIVERSAL ||| (16 <<< 2)]
  elements :=
    [asn_MBR 0 (ASN_TAG_CLASS_UNIVERSAL ||| (2 <<< 2)) (Integer_decode_ber 0)
       fun x st => { st with invokeID := x },
     asn_MBR_unread 1 (ASN_TAG_CLASS_CONTEXT ||| (0 <<< 2)) (Integer_decode_ber (-1)),
     asn_MBR 0 noTag (CHOICE_decode_ber asn_DEF_OPERATION) fun x st => { st with opCode := x },
     asn_MBR_open 1 (OCTET_STRING_decode_ber asn_DEF_Parameter 0)
       fun x st => { st with parameter := x }]
  tag2el :=
    [(ASN_TAG_CLASS_UNIVERSAL ||| (2 <<< 2), 0), (ASN_TAG_CLASS_UNIVERSAL ||| (2 <<< 2), 2),
     (ASN_TAG_CLASS_UNIVERSAL ||| (6 <<< 2), 2), (ASN_TAG_CLASS_CONTEXT ||| (0 <<< 2), 1)]
  ext_after := -1
  ext_before := -1

/-- `asn_DEF_resultretres_3` -/
def asn_DEF_resultretres : asn_SEQUENCE Unit where
  tags := [ASN_TAG_CLASS_UNIVERSAL ||| (16 <<< 2)]
  elements :=
    [asn_MBR_unread 0 noTag (CHOICE_decode_ber asn_DEF_OPERATION),
     asn_MBR_open 1 (OCTET_STRING_decode_ber asn_DEF_Parameter 0) fun _ st => st]
  tag2el :=
    [(ASN_TAG_CLASS_UNIVERSAL ||| (2 <<< 2), 0), (ASN_TAG_CLASS_UNIVERSAL ||| (6 <<< 2), 0)]
  ext_after := -1
  ext_before := -1

/-- `asn_DEF_ReturnResult` -/
def asn_DEF_ReturnResult : asn_SEQUENCE Unit where
  tags := [ASN_TAG_CLASS_UNIVERSAL ||| (16 <<< 2)]
  elements :=
    [asn_MBR_unread 0 (ASN_TAG_CLASS_UNIVERSAL ||| (2 <<< 2)) (Integer_decode_ber 0),
     asn_MBR_unread 1 (ASN_TAG_CLASS_UNIVERSAL ||| (16 <<< 2))
       (SEQUENCE_decode_ber asn_DEF_resultretres () 0)]
  tag2el :=
    [(ASN_TAG_CLASS_UNIVERSAL ||| (2 <<< 2), 0), (ASN_TAG_CLASS_UNIVERSAL ||| (16 <<< 2), 1)]
  ext_after := -1
  ext_before := -1

/-- `asn_DEF_ErrorCode` -/
def asn_DEF_ErrorCode : asn_CHOICE Int64 where
  elements := [Integer_decode_ber (-1), Integer_decode_ber (-1)]
  tag2el :=
    [(ASN_TAG_CLASS_PRIVATE ||| (19 <<< 2), 0), (ASN_TAG_CLASS_PRIVATE ||| (20 <<< 2), 1)]

/-- `asn_DEF_ReturnError` -/
def asn_DEF_ReturnError : asn_SEQUENCE Unit where
  tags := [ASN_TAG_CLASS_UNIVERSAL ||| (16 <<< 2)]
  elements :=
    [asn_MBR_unread 0 (ASN_TAG_CLASS_UNIVERSAL ||| (2 <<< 2)) (Integer_decode_ber 0),
     asn_MBR_unread 0 noTag (CHOICE_decode_ber asn_DEF_ErrorCode),
     asn_MBR_open 1 (OCTET_STRING_decode_ber asn_DEF_Parameter 0) fun _ st => st]
  tag2el :=
    [(ASN_TAG_CLASS_UNIVERSAL ||| (2 <<< 2), 0), (ASN_TAG_CLASS_PRIVATE ||| (19 <<< 2), 1),
     (ASN_TAG_CLASS_PRIVATE ||| (20 <<< 2), 1)]
  ext_after := -1
  ext_before := -1

/-- `asn_DEF_invokeIDRej_2`; a NULL is decoded as a BOOLEAN. -/
def asn_DEF_invokeIDRej : asn_CHOICE Unit where
  elements :=
    [wrap (Integer_decode_ber 0) fun _ => (),
     wrap (BOOLEAN_decode_ber [ASN_TAG_CLASS_UNIVERSAL ||| (5 <<< 2)] 0) fun _ => ()]
  tag2el :=
    [(ASN_TAG_CLASS_UNIVERSAL ||| (2 <<< 2), 0), (ASN_TAG_CLASS_UNIVERSAL ||| (5 <<< 2), 1)]

/-- `asn_DEF_problem_5` -/
def asn_DEF_problem : asn_CHOICE Int64 where
  elements :=
    [Integer_decode_ber (-1), Integer_decode_ber (-1), Integer_decode_ber (-1),
     Integer_decode_ber (-1)]
  tag2el :=
    [(ASN_TAG_CLASS_CONTEXT ||| (0 <<< 2), 0), (ASN_TAG_CLASS_CONTEXT ||| (1 <<< 2), 1),
     (ASN_TAG_CLASS_CONTEXT ||| (2 <<< 2), 2), (ASN_TAG_CLASS_CONTEXT ||| (3 <<< 2), 3)]

/-- `asn_DEF_Reject` -/
def asn_DEF_Reject : asn_SEQUENCE Unit where
  tags := [ASN_TAG_CLASS_UNIVERSAL ||| (16 <<< 2)]
  elements :=
    [asn_MBR_unread 0 noTag (CHOICE_decode_ber asn_DEF_invokeIDRej),
     asn_MBR_unread 0 noTag (CHOICE_decode_ber asn_DEF_problem)]
  tag2el :=
    [(ASN_TAG_CLASS_UNIVERSAL ||| (2 <<< 2), 0), (ASN_TAG_CLASS_UNIVERSAL ||| (5 <<< 2), 0),
     (ASN_TAG_CLASS_CONTEXT ||| (0 <<< 2), 1), (ASN_TAG_CLASS_CONTEXT ||| (1 <<< 2), 1),
     (ASN_TAG_CLASS_CONTEXT ||| (2 <<< 2), 1), (ASN_TAG_CLASS_CONTEXT ||| (3 <<< 2), 1)]
  ext_after := -1
  ext_before := -1

/-- `asn_DEF_Component` -/
def asn_DEF_Component : asn_CHOICE Component where
  elements :=
    [wrap (SEQUENCE_decode_ber asn_DEF_Invoke Invoke.zero (-1)) .PR_invoke,
     wrap (SEQUENCE_decode_ber asn_DEF_ReturnResult () (-1)) fun _ => .PR_returnResultLast,
     wrap (SEQUENCE_decode_ber asn_DEF_ReturnError () (-1)) fun _ => .PR_returnError,
     wrap (SEQUENCE_decode_ber asn_DEF_Reject () (-1)) fun _ => .PR_reject,
     wrap (SEQUENCE_decode_ber asn_DEF_ReturnResult () (-1)) fun _ => .PR_returnResultNotLast]
  tag2el :=
    [(ASN_TAG_CLASS_CONTEXT ||| (1 <<< 2), 0), (ASN_TAG_CLASS_CONTEXT ||| (2 <<< 2), 1),
     (ASN_TAG_CLASS_CONTEXT ||| (3 <<< 2), 2), (ASN_TAG_CLASS_CONTEXT ||| (4 <<< 2), 3),
     (ASN_TAG_CLASS_CONTEXT ||| (7 <<< 2), 4)]

/-- `ComponentPortion_decode_ber` -/
def ComponentPortion_decode_ber : ber_type_decoder_f (List Component) :=
  SET_OF_decode_ber noTag (CHOICE_decode_ber asn_DEF_Component)
    [ASN_TAG_CLASS_APPLICATION ||| (12 <<< 2)] 0

/-! ## Messages -/

section TCMessage

variable (heap : Nat → UInt8)

/-- `OrigTransactionID_decode_ber` and `DestTransactionID_decode_ber` -/
def TransactionID_decode_ber (td : asn_OCTET_STRING) : ber_type_decoder_f OCTET_STRING :=
  wrap (OCTET_STRING_decode_ber td 0) (allocate heap)

/-- `asn_DEF_Begin` -/
def asn_DEF_Begin : asn_SEQUENCE Begin where
  tags := [ASN_TAG_CLASS_UNIVERSAL ||| (16 <<< 2)]
  elements :=
    [asn_MBR 0 (ASN_TAG_CLASS_APPLICATION ||| (8 <<< 2))
       (TransactionID_decode_ber heap asn_DEF_OrigTransactionID)
       fun x st => { st with otid := x },
     asn_MBR_unread 2 (ASN_TAG_CLASS_APPLICATION ||| (11 <<< 2))
       (OCTET_STRING_decode_ber asn_DEF_DialoguePortion 0),
     asn_MBR 1 (ASN_TAG_CLASS_APPLICATION ||| (12 <<< 2)) ComponentPortion_decode_ber
       fun x st => { st with components := some x }]
  tag2el :=
    [(ASN_TAG_CLASS_APPLICATION ||| (8 <<< 2), 0), (ASN_TAG_CLASS_APPLICATION ||| (11 <<< 2), 1),
     (ASN_TAG_CLASS_APPLICATION ||| (12 <<< 2), 2)]
  ext_after := -1
  ext_before := -1

/-- `asn_DEF_End` -/
def asn_DEF_End : asn_SEQUENCE End where
  tags := [ASN_TAG_CLASS_UNIVERSAL ||| (16 <<< 2)]
  elements :=
    [asn_MBR 0 (ASN_TAG_CLASS_APPLICATION ||| (9 <<< 2))
       (TransactionID_decode_ber heap asn_DEF_DestTransactionID)
       fun x st => { st with dtid := x },
     asn_MBR_unread 2 (ASN_TAG_CLASS_APPLICATION ||| (11 <<< 2))
       (OCTET_STRING_decode_ber asn_DEF_DialoguePortion 0),
     asn_MBR 1 (ASN_TAG_CLASS_APPLICATION ||| (12 <<< 2)) ComponentPortion_decode_ber
       fun x st => { st with components := some x }]
  tag2el :=
    [(ASN_TAG_CLASS_APPLICATION ||| (9 <<< 2), 0), (ASN_TAG_CLASS_APPLICATION ||| (11 <<< 2), 1),
     (ASN_TAG_CLASS_APPLICATION ||| (12 <<< 2), 2)]
  ext_after := -1
  ext_before := -1

/-- `asn_DEF_Continue` -/
def asn_DEF_Continue : asn_SEQUENCE Unit where
  tags := [ASN_TAG_CLASS_UNIVERSAL ||| (16 <<< 2)]
  elements :=
    [asn_MBR_unread 0 (ASN_TAG_CLASS_APPLICATION ||| (8 <<< 2))
       (OCTET_STRING_decode_ber asn_DEF_OrigTransactionID 0),
     asn_MBR_unread 0 (ASN_TAG_CLASS_APPLICATION ||| (9 <<< 2))
       (OCTET_STRING_decode_ber asn_DEF_DestTransactionID 0),
     asn_MBR_unread 2 (ASN_TAG_CLASS_APPLICATION ||| (11 <<< 2))
       (OCTET_STRING_decode_ber asn_DEF_DialoguePortion 0),
     asn_MBR_unread 1 (ASN_TAG_CLASS_APPLICATION ||| (12 <<< 2)) ComponentPortion_decode_ber]
  tag2el :=
    [(ASN_TAG_CLASS_APPLICATION ||| (8 <<< 2), 0), (ASN_TAG_CLASS_APPLICATION ||| (9 <<< 2), 1),
     (ASN_TAG_CLASS_APPLICATION ||| (11 <<< 2), 2), (ASN_TAG_CLASS_APPLICATION ||| (12 <<< 2), 3)]
  ext_after := -1
  ext_before := -1

/-- `asn_DEF_Unidirectional` -/
def asn_DEF_Unidirectional : asn_SEQUENCE Unit where
  tags := [ASN_TAG_CLASS_UNIVERSAL ||| (16 <<< 2)]
  elements :=
    [asn_MBR_unread 1 (ASN_TAG_CLASS_APPLICATION ||| (11 <<< 2))
       (OCTET_STRING_decode_ber asn_DEF_DialoguePortion 0),
     asn_MBR_unread 0 (ASN_TAG_CLASS_APPLICATION ||| (12 <<< 2)) ComponentPortion_decode_ber]
  tag2el :=
    [(ASN_TAG_CLASS_APPLICATION ||| (11 <<< 2), 0), (ASN_TAG_CLASS_APPLICATION ||| (12 <<< 2), 1)]
  ext_after := -1
  ext_before := -1

/-- `asn_DEF_Reason` -/
def asn_DEF_Reason : asn_CHOICE Unit where
  elements :=
    [wrap (NativeInteger_decode_ber [ASN_TAG_CLASS_APPLICATION ||| (10 <<< 2)] 0) fun _ => (),
     wrap (OCTET_STRING_decode_ber asn_DEF_DialoguePortion 0) fun _ => ()]
  tag2el :=
    [(ASN_TAG_CLASS_APPLICATION ||| (10 <<< 2), 0), (ASN_TAG_CLASS_APPLICATION ||| (11 <<< 2), 1)]

/-- `asn_DEF_Abort` -/
def asn_DEF_Abort : asn_SEQUENCE Unit where
  tags := [ASN_TAG_CLASS_UNIVERSAL ||| (16 <<< 2)]
  elements :=
    [asn_MBR_unread 0 (ASN_TAG_CLASS_APPLICATION ||| (9 <<< 2))
       (OCTET_STRING_decode_ber asn_DEF_DestTransactionID 0),
     asn_MBR_unread 1 noTag (CHOICE_decode_ber asn_DEF_Reason)]
  tag2el :=
    [(ASN_TAG_CLASS_APPLICATION ||| (9 <<< 2), 0), (ASN_TAG_CLASS_APPLICATION ||| (10 <<< 2), 1),
     (ASN_TAG_CLASS_APPLICATION ||| (11 <<< 2), 1)]
  ext_after := -1
  ext_before := -1

/-- A `Begin_t` and an `End_t` as `CALLOC` gives them. -/
def Begin.zero : Begin where
  otid := allocate heap none
  components := none

def End.zero : End where
  dtid := allocate heap none
  components := none

/-- `asn_DEF_TCMessage` -/
def asn_DEF_TCMessage : asn_CHOICE TCMessage where
  elements :=
    [wrap (SEQUENCE_decode_ber asn_DEF_Unidirectional () (-1)) fun _ => .PR_unidirectional,
     wrap (SEQUENCE_decode_ber (asn_DEF_Begin heap) (Begin.zero heap) (-1)) .PR_begin,
     wrap (SEQUENCE_decode_ber (asn_DEF_End heap) (End.zero heap) (-1)) .PR_end,
     wrap (SEQUENCE_decode_ber asn_DEF_Continue () (-1)) fun _ => .PR_continue,
     wrap (SEQUENCE_decode_ber asn_DEF_Abort () (-1)) fun _ => .PR_abort]
  tag2el :=
    [(ASN_TAG_CLASS_APPLICATION ||| (1 <<< 2), 0), (ASN_TAG_CLASS_APPLICATION ||| (2 <<< 2), 1),
     (ASN_TAG_CLASS_APPLICATION ||| (4 <<< 2), 2), (ASN_TAG_CLASS_APPLICATION ||| (5 <<< 2), 3),
     (ASN_TAG_CLASS_APPLICATION ||| (7 <<< 2), 4)]

/-- `asn_DEF_TCMessage.ber_decoder` -/
def TCMessage_decode_ber : ber_type_decoder_f TCMessage :=
  CHOICE_decode_ber (asn_DEF_TCMessage heap)

end TCMessage

/-! ## `InitialDPArg` -/

/-- An `InitialDPArg_t` as it is decoded: a party number is a pointer to a string,
    and the buffer of the string may be null. -/
structure InitialDPArg_t where
  serviceKey : Int64
  calledPartyNumber : Option (Option ByteStream)
  callingPartyNumber : Option (Option ByteStream)
  deriving DecidableEq

/-- The structure as `CALLOC` gives it. -/
def InitialDPArg_t.zero : InitialDPArg_t where
  serviceKey := 0
  calledPartyNumber := none
  callingPartyNumber := none

/-- `asn_DEF_InitialDPArg`; anything may follow the last member. -/
def asn_DEF_InitialDPArg : asn_SEQUENCE InitialDPArg_t where
  tags := [ASN_TAG_CLASS_UNIVERSAL ||| (16 <<< 2)]
  elements :=
    [asn_MBR 0 (ASN_TAG_CLASS_CONTEXT ||| (0 <<< 2)) (Integer_decode_ber (-1))
       fun x st => { st with serviceKey := x },
     asn_MBR 2 (ASN_TAG_CLASS_CONTEXT ||| (2 <<< 2))
       (OCTET_STRING_decode_ber asn_DEF_CalledPartyNumber (-1))
       fun x st => { st with calledPartyNumber := some x },
     asn_MBR 1 (ASN_TAG_CLASS_CONTEXT ||| (3 <<< 2))
       (OCTET_STRING_decode_ber asn_DEF_CallingPartyNumber (-1))
       fun x st => { st with callingPartyNumber := some x }]
  tag2el :=
    [(ASN_TAG_CLASS_CONTEXT ||| (0 <<< 2), 0), (ASN_TAG_CLASS_CONTEXT ||| (2 <<< 2), 1),
     (ASN_TAG_CLASS_CONTEXT ||| (3 <<< 2), 2)]
  ext_after := 2
  ext_before := 4

/-- `InitialDPArg_decode_ber` -/
def InitialDPArg_decode_ber : ber_type_decoder_f InitialDPArg_t :=
  SEQUENCE_decode_ber asn_DEF_InitialDPArg InitialDPArg_t.zero 0

/-- The argument as the program reads it: a string without a buffer is printed as
    an empty one. -/
def InitialDPArg_t.asInitialDPArg (st : InitialDPArg_t) : InitialDPArg where
  serviceKey := st.serviceKey
  calledPartyNumber := st.calledPartyNumber.map (·.getD [])
  callingPartyNumber := st.callingPartyNumber.map (·.getD [])

/-- **The codecs decode as the support code does.**  What the memory holds behind a
    transaction identifier may differ from message to message. -/
structure Asn1c.DecodesBer (asn : Asn1c) : Prop where
  tcMessage : ∀ b, ∃ heap, asn.decodeTCMessage b = (TCMessage_decode_ber heap b).map Prod.fst
  initialDPArg : ∀ b, asn.decodeInitialDPArg b
    = (InitialDPArg_decode_ber b).map fun r => r.1.asInitialDPArg

/-- The codecs of the support code, with `heap` behind every transaction
    identifier. -/
def Asn1c.ofHeap (heap : Nat → UInt8) : Asn1c :=
  .ofDecoders (fun b => (TCMessage_decode_ber heap b).map Prod.fst)
    fun b => (InitialDPArg_decode_ber b).map fun r => r.1.asInitialDPArg

theorem ofHeap_decodesBer (heap : Nat → UInt8) : (Asn1c.ofHeap heap).DecodesBer where
  tcMessage _ := ⟨heap, rfl⟩
  initialDPArg _ := rfl

theorem ofHeap_encodesDer (heap : Nat → UInt8) : (Asn1c.ofHeap heap).EncodesDer :=
  ofDecoders_encodesDer _ _

end ProtoVscp
