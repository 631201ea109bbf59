import ProtoVscp.OctetStringProofs
import ProtoVscp.ConstructedProofs
import ProtoVscp.TcapTypes

/-! # What the generated decoders accept

    Every descriptor is sound, so that every decoder takes one value off the
    buffer.  That of a `TCMessage` decodes all that is in the value, that of an
    `InitialDPArg` skips extensions. -/

namespace ProtoVscp

open SelfDelimiting

/-! ## Sound descriptors -/

/-- A finite check for `EocSafe`. -/
def eocCheck {σ : Type} (td : asn_SEQUENCE σ) : Bool :=
  (List.range td.elements.length).all fun edx =>
    match td.elements[edx]? with
    | none => true
    | some elm => td.mayEnd edx elm.optional ||
        ((td.nextMember edx elm.optional 0).isNone && !td.IN_EXTENSION_GROUP (edx + elm.optional))

theorem eocSafe_of_check {σ : Type} {td : asn_SEQUENCE σ} (h : eocCheck td = true) :
    EocSafe td := by
  intro edx elm helm hend
  have hlt : edx < td.elements.length := (List.getElem?_eq_some_iff.mp helm).1
  have hedx := List.all_eq_true.mp h edx (List.mem_range.mpr hlt)
  simp only [helm, hend, Bool.false_or, Bool.and_eq_true, Bool.not_eq_true'] at hedx
  exact ⟨Option.isNone_iff_eq_none.mp hedx.1, hedx.2⟩

theorem wrap_decodesNested {α β : Type} {d : ber_type_decoder_f α} (h : DecodesNested d)
    (f : α → β) : DecodesNested (wrap d f) := h.map f

section Member

variable {α σ : Type} {d : ber_type_decoder_f α} {optional : Nat} {tag : ber_tlv_tag_t}
  {set : α → σ → σ}

theorem DecodesNested.mbr (h : DecodesNested d) :
    DecodesNested (asn_MBR optional tag d set).ber_decoder := h.map set

theorem DecodesNested.unread (h : DecodesNested d) :
    DecodesNested (asn_MBR_unread optional tag d : asn_TYPE_member σ).ber_decoder := h.mbr

theorem DecodesNested.openType (h : DecodesNested d) :
    DecodesNested (asn_MBR_open optional d set).ber_decoder := h.map set

end Member

theorem integer_decodesNested : DecodesNested (Integer_decode_ber 0) :=
  decodesNested_of (NativeInteger_decode_ber_recognises (.own _) (List.cons_ne_nil _ _))
    fun h => h.elim fun _ h => h.1.isNested

theorem integer_implicit_decodesNested : DecodesNested (Integer_decode_ber (-1)) :=
  decodesNested_of (NativeInteger_decode_ber_recognises (.implicit _) (List.cons_ne_nil _ _))
    fun h => h.elim fun _ h => h.1.isNested

theorem parameter_decodesNested : DecodesNested (OCTET_STRING_decode_ber asn_DEF_Parameter 0) :=
  OCTET_STRING_decode_ber_decodesNested .any

theorem tagged_decodesNested (tag : ber_tlv_tag_t) :
    DecodesNested (OCTET_STRING_decode_ber (asn_DEF_tagged tag) 0) :=
  OCTET_STRING_decode_ber_decodesNested (.own tag)

theorem OPERATION_decodesNested : DecodesNested (CHOICE_decode_ber asn_DEF_OPERATION) := by
  have hglobal : DecodesNested (ber_decode_primitive [ASN_TAG_CLASS_UNIVERSAL ||| (6 <<< 2)] 0) :=
    decodesNested_of (ber_decode_primitive_recognises (.own _) (List.cons_ne_nil _ _))
      IsPrimitive.isNested
  exact CHOICE_decode_ber_decodesNested (List.forall_mem_cons.mpr
    ⟨wrap_decodesNested integer_decodesNested _,
      List.forall_mem_singleton.mpr (wrap_decodesNested hglobal _)⟩)

theorem asn_DEF_Invoke_nested : NestedDescriptor asn_DEF_Invoke where
  decodesNested := List.forall_mem_cons.mpr ⟨integer_decodesNested.mbr, List.forall_mem_cons.mpr
    ⟨integer_implicit_decodesNested.unread, List.forall_mem_cons.mpr ⟨OPERATION_decodesNested.mbr,
      List.forall_mem_singleton.mpr parameter_decodesNested.openType⟩⟩⟩
  eocSafe := eocSafe_of_check rfl
  noExtensions := rfl

theorem asn_DEF_resultretres_nested : NestedDescriptor asn_DEF_resultretres where
  decodesNested := List.forall_mem_cons.mpr ⟨OPERATION_decodesNested.unread,
    List.forall_mem_singleton.mpr parameter_decodesNested.openType⟩
  eocSafe := eocSafe_of_check rfl
  noExtensions := rfl

theorem asn_DEF_ReturnResult_nested : NestedDescriptor asn_DEF_ReturnResult where
  decodesNested := List.forall_mem_cons.mpr ⟨integer_decodesNested.unread,
    List.forall_mem_singleton.mpr
      ((SEQUENCE_decode_ber_decodesNested asn_DEF_resultretres_nested (.own _)
        (List.cons_ne_nil _ _)).unread)⟩
  eocSafe := eocSafe_of_check rfl
  noExtensions := rfl

theorem asn_DEF_ReturnError_nested : NestedDescriptor asn_DEF_ReturnError where
  decodesNested := by
    have herror : DecodesNested (CHOICE_decode_ber asn_DEF_ErrorCode) :=
      CHOICE_decode_ber_decodesNested (List.forall_mem_cons.mpr ⟨integer_implicit_decodesNested,
        List.forall_mem_singleton.mpr integer_implicit_decodesNested⟩)
    exact List.forall_mem_cons.mpr ⟨integer_decodesNested.unread, List.forall_mem_cons.mpr
      ⟨herror.unread, List.forall_mem_singleton.mpr parameter_decodesNested.openType⟩⟩
  eocSafe := eocSafe_of_check rfl
  noExtensions := rfl

theorem asn_DEF_Reject_nested : NestedDescriptor asn_DEF_Reject where
  decodesNested := by
    have hnull : DecodesNested (BOOLEAN_decode_ber [ASN_TAG_CLASS_UNIVERSAL ||| (5 <<< 2)] 0) :=
      decodesNested_of (BOOLEAN_decode_ber_recognises (.own _) (List.cons_ne_nil _ _))
        fun h => h.elim fun _ h => h.1.isNested
    have hid : DecodesNested (CHOICE_decode_ber asn_DEF_invokeIDRej) :=
      CHOICE_decode_ber_decodesNested (List.forall_mem_cons.mpr
        ⟨wrap_decodesNested integer_decodesNested _,
          List.forall_mem_singleton.mpr (wrap_decodesNested hnull _)⟩)
    have hproblem : DecodesNested (CHOICE_decode_ber asn_DEF_problem) := by
      refine CHOICE_decode_ber_decodesNested fun d hd => ?_
      rw [List.eq_of_mem_replicate (show d ∈ List.replicate 4 (Integer_decode_ber (-1)) from hd)]
      exact integer_implicit_decodesNested
    exact List.forall_mem_cons.mpr ⟨hid.unread, List.forall_mem_singleton.mpr hproblem.unread⟩
  eocSafe := eocSafe_of_check rfl
  noExtensions := rfl

/-- An alternative that is a SEQUENCE with an IMPLICIT tag. -/
theorem implicit_decodesNested {α σ : Type} {td : asn_SEQUENCE σ} {tag : ber_tlv_tag_t}
    (htd : NestedDescriptor td) (htags : td.tags = [tag]) (zero : σ) (f : σ → α) :
    DecodesNested (wrap (SEQUENCE_decode_ber td zero (-1)) f) := by
  refine wrap_decodesNested
    (SEQUENCE_decode_ber_decodesNested htd (P := fun _ => True) ?_ ?_) f
  · rw [htags]
    exact .implicit tag
  · rw [htags]
    exact List.cons_ne_nil _ _

theorem Component_alternatives : ∀ d ∈ asn_DEF_Component.elements, DecodesNested d :=
  List.forall_mem_cons.mpr
    ⟨implicit_decodesNested asn_DEF_Invoke_nested rfl _ _, List.forall_mem_cons.mpr
      ⟨implicit_decodesNested asn_DEF_ReturnResult_nested rfl _ _,
        List.forall_mem_cons.mpr
          ⟨implicit_decodesNested asn_DEF_ReturnError_nested rfl _ _,
            List.forall_mem_cons.mpr
              ⟨implicit_decodesNested asn_DEF_Reject_nested rfl _ _,
                List.forall_mem_singleton.mpr
                  (implicit_decodesNested asn_DEF_ReturnResult_nested rfl _ _)⟩⟩⟩⟩

theorem Component_decodesNested : DecodesNested (CHOICE_decode_ber asn_DEF_Component) :=
  CHOICE_decode_ber_decodesNested Component_alternatives

theorem ComponentPortion_decodesNested : DecodesNested ComponentPortion_decode_ber :=
  SET_OF_decode_ber_decodesNested Component_decodesNested (.own _) (List.cons_ne_nil _ _)

section Messages

variable (heap : Nat → UInt8)

theorem asn_DEF_Begin_nested : NestedDescriptor (asn_DEF_Begin heap) where
  decodesNested := List.forall_mem_cons.mpr ⟨(wrap_decodesNested (tagged_decodesNested _) _).mbr,
    List.forall_mem_cons.mpr ⟨(tagged_decodesNested _).unread,
      List.forall_mem_singleton.mpr ComponentPortion_decodesNested.mbr⟩⟩
  eocSafe := eocSafe_of_check rfl
  noExtensions := rfl

theorem asn_DEF_End_nested : NestedDescriptor (asn_DEF_End heap) where
  decodesNested := List.forall_mem_cons.mpr ⟨(wrap_decodesNested (tagged_decodesNested _) _).mbr,
    List.forall_mem_cons.mpr ⟨(tagged_decodesNested _).unread,
      List.forall_mem_singleton.mpr ComponentPortion_decodesNested.mbr⟩⟩
  eocSafe := eocSafe_of_check rfl
  noExtensions := rfl

theorem asn_DEF_Continue_nested : NestedDescriptor asn_DEF_Continue where
  decodesNested := List.forall_mem_cons.mpr ⟨(tagged_decodesNested _).unread,
    List.forall_mem_cons.mpr ⟨(tagged_decodesNested _).unread, List.forall_mem_cons.mpr
      ⟨(tagged_decodesNested _).unread,
        List.forall_mem_singleton.mpr ComponentPortion_decodesNested.unread⟩⟩⟩
  eocSafe := eocSafe_of_check rfl
  noExtensions := rfl

theorem asn_DEF_Unidirectional_nested : NestedDescriptor asn_DEF_Unidirectional where
  decodesNested := List.forall_mem_cons.mpr ⟨(tagged_decodesNested _).unread,
    List.forall_mem_singleton.mpr ComponentPortion_decodesNested.unread⟩
  eocSafe := eocSafe_of_check rfl
  noExtensions := rfl

theorem asn_DEF_Abort_nested : NestedDescriptor asn_DEF_Abort where
  decodesNested := by
    have hcause : DecodesNested
        (NativeInteger_decode_ber [ASN_TAG_CLASS_APPLICATION ||| (10 <<< 2)] 0) :=
      decodesNested_of (NativeInteger_decode_ber_recognises (.own _) (List.cons_ne_nil _ _))
        fun h => h.elim fun _ h => h.1.isNested
    have hreason : DecodesNested (CHOICE_decode_ber asn_DEF_Reason) :=
      CHOICE_decode_ber_decodesNested (List.forall_mem_cons.mpr ⟨wrap_decodesNested hcause _,
        List.forall_mem_singleton.mpr (wrap_decodesNested (tagged_decodesNested _) _)⟩)
    exact List.forall_mem_cons.mpr ⟨(tagged_decodesNested _).unread,
      List.forall_mem_singleton.mpr hreason.unread⟩
  eocSafe := eocSafe_of_check rfl
  noExtensions := rfl

theorem TCMessage_alternatives : ∀ d ∈ (asn_DEF_TCMessage heap).elements, DecodesNested d :=
  List.forall_mem_cons.mpr
    ⟨implicit_decodesNested asn_DEF_Unidirectional_nested rfl _ _,
      List.forall_mem_cons.mpr
        ⟨implicit_decodesNested (asn_DEF_Begin_nested heap) rfl _ _,
          List.forall_mem_cons.mpr
            ⟨implicit_decodesNested (asn_DEF_End_nested heap) rfl _ _,
              List.forall_mem_cons.mpr
                ⟨implicit_decodesNested asn_DEF_Continue_nested rfl _ _,
                  List.forall_mem_singleton.mpr
                    (implicit_decodesNested asn_DEF_Abort_nested rfl _ _)⟩⟩⟩⟩

/-- **The decoder of a `TCMessage` takes one value off the buffer**, which is made of
    values all the way down and decides what it makes of the buffer. -/
theorem TCMessage_decode_ber_decodesNested : DecodesNested (TCMessage_decode_ber heap) :=
  CHOICE_decode_ber_decodesNested (TCMessage_alternatives heap)

end Messages

theorem party_decodesNested : DecodesNested (OCTET_STRING_decode_ber asn_DEF_plain (-1)) :=
  OCTET_STRING_decode_ber_decodesNested (.implicit _)

theorem asn_DEF_InitialDPArg_sound : SoundDescriptor asn_DEF_InitialDPArg where
  decodesTlv := List.forall_mem_cons.mpr ⟨integer_implicit_decodesNested.mbr.toDecodesTlv,
    List.forall_mem_cons.mpr ⟨party_decodesNested.mbr.toDecodesTlv,
      List.forall_mem_singleton.mpr party_decodesNested.mbr.toDecodesTlv⟩⟩
  eocSafe := eocSafe_of_check rfl

/-- **The decoder of an `InitialDPArg` takes one value off the buffer.** -/
theorem InitialDPArg_decode_ber_decodesTlv : DecodesTlv InitialDPArg_decode_ber :=
  SEQUENCE_decode_ber_decodesTlv asn_DEF_InitialDPArg_sound (.own _) (List.cons_ne_nil _ _)

end ProtoVscp
