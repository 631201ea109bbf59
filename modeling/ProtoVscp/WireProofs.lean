import ProtoVscp.AnswerProofs
import ProtoVscp.DerRoundTrip

/-! # The server on the wire

    With the codecs of the support code in place of the parameter `Asn1c`, what the
    main loop does with a message is told by its octets.  The TCAP layer faults on
    two kinds of Begin (`tcap_fault_wire_iff`), a Begin with a dialogue portion as
    other stacks write it is dropped (`structured_dialogue_dropped`), and the
    requests that are answered are spelled out element by element
    (`replies_wire_iff`). -/

namespace ProtoVscp

open SelfDelimiting CheckedLoops M3UAmessage

/-! ## One way to take a value apart -/

/-- A value is constructed of one list of values. -/
theorem IsConstructed.unique {P Q : ber_tlv_tag_t → Prop} {es es' : List ByteStream}
    {p : ByteStream} (h : IsConstructed P es p) (h' : IsConstructed Q es' p)
    (hes : ∀ e ∈ es, IsTlv e) (hes' : ∀ e ∈ es', IsTlv e) : es = es' := by
  have hflat : es.flatten = es'.flatten → es = es' := by
    intro heq
    refine skipTlv_recognises.flatten_inj ?_ heq (fun e he => ⟨(), hes e he⟩)
      fun e he => ⟨(), hes' e he⟩
    rintro - p hp rfl
    exact absurd hp.two_le (by decide)
  cases h with
  | @definite tag hdr hTL _ =>
      -- the headers are the same, and so is the form of the length
      generalize hp : hdr ++ es.flatten = p at h'
      cases h' with
      | definite hTL' _ =>
          obtain ⟨-, -, hrest⟩ := fetchTL_stable.front_inj hTL hTL' hp
          exact hflat hrest
      | indefinite hTL' _ _ =>
          rw [List.append_assoc] at hp
          obtain ⟨hsame, -⟩ := fetchTL_stable.front_inj hTL hTL' hp
          cases hsame
  | @indefinite tag hdr hTL _ _ =>
      generalize hp : hdr ++ es.flatten ++ [0, 0] = p at h'
      rw [List.append_assoc] at hp
      cases h' with
      | definite hTL' _ =>
          obtain ⟨hsame, -⟩ := fetchTL_stable.front_inj hTL hTL' hp
          cases hsame
      | indefinite hTL' _ _ =>
          rw [List.append_assoc] at hp
          obtain ⟨-, -, hrest⟩ := fetchTL_stable.front_inj hTL hTL' hp
          exact hflat (List.append_cancel_right hrest)

theorem IsConstructed.header {P : ber_tlv_tag_t → Prop} {es : List ByteStream} {p : ByteStream}
    (h : IsConstructed P es p) :
    ∃ tag len hdr c, p = hdr ++ c ∧ IsTL ⟨tag, true, len⟩ hdr ∧ P tag := by
  cases h with
  | definite hTL hP => exact ⟨_, _, _, _, rfl, hTL, hP⟩
  | indefinite hTL hP _ => exact ⟨_, _, _, _, List.append_assoc .., hTL, hP⟩

theorem IsConstructed.not_primitive {P : ber_tlv_tag_t → Prop} {es : List ByteStream} {a : TL}
    {hdr c : ByteStream} (h : IsConstructed P es (hdr ++ c)) (hTL : IsTL a hdr) :
    a.constr = true := by
  obtain ⟨tag, len, hdr', c', heq, hTL', -⟩ := h.header
  obtain ⟨rfl, -, -⟩ := fetchTL_stable.front_inj hTL hTL' heq
  rfl

section Strings

variable {td : asn_OCTET_STRING} {tag_mode : Int}

/-- A segment that is constructed is made of segments. -/
theorem Segments.inside {level : Nat} {k : Option ByteStream} {e : ByteStream}
    {P : ber_tlv_tag_t → Prop} {es : List ByteStream} (h : Segments td tag_mode level k [e])
    (he : IsConstructed P es e) (hes : ∀ e ∈ es, IsTlv e) :
    ∃ k', Segments td tag_mode (level + 1) k' es := by
  cases h with
  | primitive hTL _ _ => exact absurd (he.not_primitive hTL) Bool.false_ne_true
  | definite hTL _ hes' _ =>
      have hsame : IsConstructed (fun _ => True) _ _ := .definite hTL trivial
      rw [he.unique hsame hes fun e he => (hes'.isNested e he).isTlv]
      exact ⟨_, hes'⟩
  | indefinite hTL _ hes' heoc _ =>
      have hsame : IsConstructed (fun _ => True) _ _ := .indefinite hTL trivial heoc
      rw [he.unique hsame hes fun e he => (hes'.isNested e he).isTlv]
      exact ⟨_, hes'⟩

/-- A string that is constructed is made of segments. -/
theorem IsString.inside {P Q : ber_tlv_tag_t → Prop} {k : Option ByteStream} {p : ByteStream}
    {es : List ByteStream} (h : IsString td tag_mode P k p) (hp : IsConstructed Q es p)
    (hes : ∀ e ∈ es, IsTlv e) : ∃ k', Segments td tag_mode 1 k' es := by
  cases h with
  | primitive hTL _ => exact absurd (hp.not_primitive hTL) Bool.false_ne_true
  | constructed _ _ hseg => exact hseg.inside hp hes

/-- And its first segment has the tag that segments are to have. -/
theorem Segments.head_tag {level : Nat} {k : Option ByteStream} {x : ByteStream}
    {xs : List ByteStream} (h : Segments td tag_mode level k (x :: xs)) :
    ∃ tag, HasTag tag x ∧ SegmentTag td level tag := by
  obtain ⟨ke, k', hx, -, -⟩ := h.cons_inv
  obtain ⟨tl, hdr, rest, rfl, hTL, htag, -, -⟩ := hx.element
  exact ⟨tl.tag, hTL.hasTag rest, htag⟩

end Strings

/-! ## Begin -/

/-- The octets `data` begin with a Begin that has the transaction identifier `k` and
    the components `cs`. -/
def HasBegin (k : Option ByteStream) (cs : Option (List Component)) (data : ByteStream) : Prop :=
  ∃ p t es, data = p ++ t ∧ IsConstructed (Is (ASN_TAG_CLASS_APPLICATION ||| (2 <<< 2))) es p ∧
    IsDialogue (ASN_TAG_CLASS_APPLICATION ||| (8 <<< 2)) k cs es

theorem decodes_begin_iff {heap : Nat → UInt8} {data : ByteStream} {b : Begin} :
    (TCMessage_decode_ber heap data).map Prod.fst = some (.PR_begin b) ↔
      ∃ k, HasBegin k b.components data ∧ b.otid = allocate heap k := by
  have hstable := (TCMessage_decode_ber_decodesNested heap).stable
  constructor
  · intro h
    obtain ⟨⟨m, n⟩, hrun, rfl⟩ := Option.map_eq_some_iff.mp h
    obtain ⟨p, t, rfl, -, hp⟩ := hstable.split hrun
    obtain ⟨k, es, hes, hk, hotid⟩ := tcMessage_begin.mp hp
    exact ⟨k, ⟨p, t, es, rfl, hes, hk⟩, hotid⟩
  · rintro ⟨k, ⟨p, t, es, rfl, hes, hk⟩, hotid⟩
    rw [hstable.complete (tcMessage_begin.mpr ⟨k, es, hes, hk, hotid⟩) t]
    rfl

/-- Four octets are allocated for every transaction identifier that has a buffer. -/
theorem four_le_allocate (heap : Nat → UInt8) (k : Option ByteStream) :
    4 ≤ (allocate heap k).buf.length ↔ k ≠ none := by
  cases k with
  | none => exact iff_of_false (show ¬ 4 ≤ 0 by decide) fun h => h rfl
  | some value =>
      have hsize := le_roundUp value.length 16 value.length
      have hlt := lt_allocated value.length
      refine iff_of_true ?_ (Option.some_ne_none value)
      rw [allocate, List.length_append, List.length_cons, List.length_map, List.length_range]
      rw [allocated] at hlt ⊢
      omega

/-- **On which messages the TCAP layer faults**: a Begin whose transaction identifier
    is a constructed string without contents, and a Begin without components.  Either
    has a null pointer read. -/
theorem tcap_fault_wire_iff {asn : Asn1c} (hdec : asn.DecodesBer) {data : ByteStream}
    {fault : Fault} :
    TcapMessage.ofBytes asn data = .error fault ↔
      ((∃ cs, HasBegin none cs data) ∨ ∃ c, HasBegin (some c) none data) ∧
        fault = .nullDeref := by
  obtain ⟨heap, hheap⟩ := hdec.tcMessage data
  rw [tcap_ofBytes_eq_error, hheap]
  constructor
  · rintro ⟨b, hb, hfault⟩
    obtain ⟨k, hbegin, hotid⟩ := decodes_begin_iff.mp hb
    rw [hotid] at hfault
    rcases hfault with ⟨hlt, rfl⟩ | ⟨hle, hnone, rfl⟩
    · have hk : k = none := by
        by_contra hk
        exact absurd ((four_le_allocate heap k).mpr hk) (Nat.not_le.mpr hlt)
      rw [hk] at hbegin ⊢
      exact ⟨Or.inl ⟨_, hbegin⟩, rfl⟩
    · obtain ⟨c, rfl⟩ := Option.ne_none_iff_exists'.mp ((four_le_allocate heap k).mp hle)
      rw [hnone] at hbegin
      exact ⟨Or.inr ⟨c, hbegin⟩, rfl⟩
  · rintro ⟨⟨cs, hbegin⟩ | ⟨c, hbegin⟩, rfl⟩
    · refine ⟨⟨allocate heap none, cs⟩, decodes_begin_iff.mpr ⟨none, hbegin, rfl⟩, Or.inl ⟨?_, rfl⟩⟩
      exact Nat.not_le.mp (mt (four_le_allocate heap none).mp (not_not.mpr rfl))
    · exact ⟨⟨allocate heap (some c), none⟩, decodes_begin_iff.mpr ⟨some c, hbegin, rfl⟩,
        Or.inr ⟨(four_le_allocate heap (some c)).mpr (Option.some_ne_none c), rfl, rfl⟩⟩

/-- A Begin that carries its identifier only is one of them. -/
theorem tcap_fault_wire_iff_bare : ∃ c, HasBegin (some c) none bareBeginOctets := by
  have hrun : TcapMessage.ofBytes (Asn1c.ofHeap fun _ => 0) bareBeginOctets = .error .nullDeref :=
    rfl
  rcases ((tcap_fault_wire_iff (ofHeap_decodesBer _)).mp hrun).1 with ⟨cs, hnull⟩ | hbegin
  · -- its identifier has four octets
    let b : Begin := ⟨allocate (fun _ => 0) none, cs⟩
    have hread : (TCMessage_decode_ber (fun _ => 0) bareBeginOctets).map Prod.fst
        = some (.PR_begin b) := decodes_begin_iff.mpr ⟨none, hnull, rfl⟩
    have hfour : (TCMessage_decode_ber (fun _ => 0) bareBeginOctets).map Prod.fst
        = some (.PR_begin bareBegin) := rfl
    rw [hfour] at hread
    have hotid := congrArg Begin.otid (TCMessage.PR_begin.inj (Option.some.inj hread))
    exact absurd (congrArg OCTET_STRING.size hotid) (show 4 ≠ 0 by decide)
  · exact hbegin

/-- **A TCAP message is one value**, made of values all the way down, and what stands
    behind it in the data of the UDT message is not looked at. -/
theorem tcap_message_front {heap : Nat → UInt8} {b : ByteStream} {m : TCMessage} {n : Nat}
    (h : TCMessage_decode_ber heap b = some (m, n)) :
    n ≤ b.length ∧ IsNested (b.take n) ∧
      ∀ t, TCMessage_decode_ber heap (b.take n ++ t) = some (m, n) :=
  (TCMessage_decode_ber_decodesNested heap).front h

theorem tcap_message_front_bare :
    8 ≤ (bareBeginOctets ++ [0xFF]).length ∧ IsNested bareBeginOctets ∧
      ∀ t, TCMessage_decode_ber (fun _ => 0) (bareBeginOctets ++ t)
        = some (.PR_begin ⟨allocate (fun _ => 0) (some [0x11, 0x22, 0x33, 0x44]), none⟩, 8) :=
  tcap_message_front (b := bareBeginOctets ++ [0xFF]) rfl

/-! ## The dialogue portion -/

theorem IsComponentPortion.isTlv {cs : List Component} {p : ByteStream}
    (h : IsComponentPortion cs p) : IsTlv p := by
  obtain ⟨es, hes, hall⟩ := h
  refine hes.isTlv ?_
  clear hes
  induction hall with
  | nil => exact List.forall_mem_nil _
  | cons hc _ ih => exact List.forall_mem_cons.mpr ⟨Component_decodesNested.isTlv hc, ih⟩

theorem Opt.forall {α : Type} {R : α → ByteStream → Prop} {Q : ByteStream → Prop} {o : Option α}
    {ps : List ByteStream} (h : Opt R o ps) (hR : ∀ {x p}, R x p → Q p) : ∀ p ∈ ps, Q p := by
  cases h with
  | absent => exact List.forall_mem_nil _
  | present hx => exact List.forall_mem_singleton.mpr (hR hx)

theorem IsDialogue.isTlv {t₀ : ber_tlv_tag_t} {k : Option ByteStream}
    {cs : Option (List Component)} {es : List ByteStream} (h : IsDialogue t₀ k cs es) :
    ∀ e ∈ es, IsTlv e := by
  obtain ⟨o, d, ps, qs, rfl, ho, hps, hqs⟩ := h
  refine List.forall_mem_cons.mpr ⟨ho.isNested.isTlv, ?_⟩
  rw [List.forall_mem_append]
  exact ⟨hps.forall fun hp => hp.isNested.isTlv, hqs.forall IsComponentPortion.isTlv⟩

/-- A TCMessage with the tag of a Begin is one. -/
theorem decodes_begin_of_tag {heap : Nat → UInt8} {m : TCMessage} {p : ByteStream}
    (h : Exactly (TCMessage_decode_ber heap) m p)
    (htag : HasTag (ASN_TAG_CLASS_APPLICATION ||| (2 <<< 2)) p) : ∃ b, m = .PR_begin b := by
  rw [TCMessage_decode_ber, choice_exactly (TCMessage_alternatives heap) TCMessage_tags] at h
  obtain ⟨t2m, hmem, d, hd, hfield⟩ := h
  have hsame := hfield.1.unique htag
  simp only [asn_DEF_TCMessage, List.mem_cons, List.not_mem_nil, or_false] at hmem
  rcases hmem with rfl | rfl | rfl | rfl | rfl
  · exact absurd hsame (by decide)
  · obtain rfl := Option.some.inj hd
    obtain ⟨st, es, -, -, hy⟩ := (field_sequence (asn_DEF_Begin_nested heap).sound rfl).mp hfield
    exact ⟨st, hy.symm⟩
  · exact absurd hsame (by decide)
  · exact absurd hsame (by decide)
  · exact absurd hsame (by decide)

/-- **A Begin whose dialogue portion is structured as other stacks write it**, with
    anything but another [APPLICATION 11] inside the [APPLICATION 11]. -/
structure StructuredDialogue (data : ByteStream) : Prop where
  begin_ : ∃ p t o d qs x xs, data = p ++ t ∧
    IsConstructed (Is (ASN_TAG_CLASS_APPLICATION ||| (2 <<< 2))) (o :: d :: qs) p ∧
    (∀ e ∈ o :: d :: qs, IsTlv e) ∧
    IsConstructed (Is (ASN_TAG_CLASS_APPLICATION ||| (11 <<< 2))) (x :: xs) d ∧
    (∀ e ∈ x :: xs, IsTlv e) ∧ ¬ HasTag (ASN_TAG_CLASS_APPLICATION ||| (11 <<< 2)) x

/-- It is not decoded. -/
theorem StructuredDialogue.refused {data : ByteStream} (h : StructuredDialogue data)
    (heap : Nat → UInt8) : TCMessage_decode_ber heap data = none := by
  obtain ⟨p, t, o, d, qs, x, xs, rfl, hp, hes, hd, hxs, hx⟩ := h.begin_
  rw [Option.eq_none_iff_forall_ne_some]
  rintro ⟨m, n⟩ hrun
  obtain ⟨p', t', heq, -, hm⟩ := (TCMessage_decode_ber_decodesNested heap).stable.split hrun
  obtain ⟨-, rfl, -⟩ := skipTlv_recognises.front_inj (x := ()) (y := ()) (hp.isTlv hes)
    ((TCMessage_decode_ber_decodesNested heap).isTlv hm) heq
  -- it would be a Begin of the same elements
  obtain ⟨⟨otid, cs⟩, rfl⟩ := decodes_begin_of_tag hm (isConstructed_iff.mp hp).1
  obtain ⟨k, es, hes', hdialogue, -⟩ := tcMessage_begin.mp hm
  obtain rfl := hp.unique hes' hes hdialogue.isTlv
  obtain ⟨o', d', ps, qs', hsplit, -, hps, hqs⟩ := hdialogue
  obtain ⟨-, hsplit⟩ := List.cons.inj hsplit
  have htag := (isConstructed_iff.mp hd).1
  change Opt IsComponentPortion cs qs' at hqs
  cases hps with
  | present hdialogue =>
      -- its first segment would have the tag of the dialogue portion again
      obtain ⟨rfl, -⟩ := List.cons.inj hsplit
      obtain ⟨k', hseg⟩ := hdialogue.inside hd hxs
      obtain ⟨tag, hxtag, hsegment⟩ := hseg.head_tag
      have hsame : tag = ASN_TAG_CLASS_APPLICATION ||| (11 <<< 2) := hsegment
      exact hx (hsame ▸ hxtag)
  | absent =>
      cases hqs with
      | absent => cases hsplit
      | present hcomponents =>
          obtain ⟨rfl, -⟩ := List.cons.inj hsplit
          obtain ⟨es, hes, -⟩ := hcomponents
          exact absurd (htag.unique (isConstructed_iff.mp hes).1) (by decide)

/-! ## Messages without effect -/

section Dropped

variable {env : Env} {dataTxt : DataTxt} {b : ByteStream}

/-- A message whose TCAP message leaves the constructor as it was. -/
private theorem handleMessage_of_empty (hcuts : Cuts b)
    (htcap : TcapMessage.ofBytes env.asn (cutAt (udtIn b)).getData = .ok TcapMessage.empty)
    (hnil : env.asn.decodeInitialDPArg [] = none) :
    handleMessage env dataTxt b = .ok ([], dataTxt) := by
  have hinap : InapMessage.ofBytes env.asn env.files TcapMessage.empty.operationLocalCode
      TcapMessage.empty.parameterData dataTxt = .ok (InapMessage.empty, dataTxt) := by
    have hcode : TcapMessage.empty.operationLocalCode = 0 := rfl
    have hdata : TcapMessage.empty.parameterData = [] := rfl
    rw [InapMessage.ofBytes, if_pos hcode, InapMessage.decodeInitialDP, hdata, hnil]
  have hnext : nextInvokeId TcapMessage.empty.invokeId = .ok 0 := rfl
  rw [handleMessage_of_isData hcuts.isData, handleData, decodeRequest_of_cuts hcuts, requestOf, htcap,
    ok_bind, hnext, ok_bind, hinap]
  rfl

/-- **A message without a Begin has no effect**, whatever else it carries. -/
theorem no_begin_dropped (hdec : env.asn.DecodesBer) (hcuts : Cuts b)
    (h : ∀ k cs, ¬ HasBegin k cs (cutAt (udtIn b)).getData) :
    handleMessage env dataTxt b = .ok ([], dataTxt) := by
  obtain ⟨heap, hheap⟩ := hdec.tcMessage (cutAt (udtIn b)).getData
  refine handleMessage_of_empty hcuts ?_ ?_
  · rw [TcapMessage.ofBytes]
    cases hm : env.asn.decodeTCMessage (cutAt (udtIn b)).getData with
    | none => rfl
    | some m =>
        cases m with
        | PR_begin begin_ =>
            rw [hheap] at hm
            obtain ⟨k, hbegin, -⟩ := decodes_begin_iff.mp hm
            exact absurd hbegin (h k _)
        | PR_unidirectional => rfl
        | PR_end _ => rfl
        | PR_continue => rfl
        | PR_abort => rfl
  · rw [hdec.initialDPArg]
    rfl

/-- **Nor has a Begin with a structured dialogue portion.** -/
theorem structured_dialogue_dropped (hdec : env.asn.DecodesBer) (hcuts : Cuts b)
    (h : StructuredDialogue (cutAt (udtIn b)).getData) :
    handleMessage env dataTxt b = .ok ([], dataTxt) := by
  refine no_begin_dropped hdec hcuts fun k cs hbegin => ?_
  have hrun : (TCMessage_decode_ber (fun _ => 0) (cutAt (udtIn b)).getData).map Prod.fst
      = some (.PR_begin ⟨allocate (fun _ => 0) k, cs⟩) :=
    decodes_begin_iff.mpr ⟨k, hbegin, rfl⟩
  rw [h.refused] at hrun
  cases hrun

end Dropped

/-- The codecs of the support code, and a database that holds `text`. -/
def wireEnv (text : CString) : Env where
  asn := .ofHeap fun _ => 0
  files := filesOk
  sqlite := fun _ => .ROW (some text)

/-- A Begin whose dialogue portion is an EXTERNAL. -/
def externalBegin : ByteStream :=
  tlv 0x62 (tlv 0x48 [0x11, 0x22, 0x33, 0x44] ++ tlv 0x6B (tlv 0x28 (tlv 0x06 [0x00])))

def externalRequest : ByteStream :=
  encodeData (udt 0x00 [0x42, 0x06] [0x42, 0x08] externalBegin) sampleLabel

theorem externalRequest_cuts : Cuts externalRequest where
  isData := by decide
  scanSafe := by decide
  isUdt := rfl
  inside := ⟨by decide, by decide⟩

theorem externalBegin_structured : StructuredDialogue externalBegin where
  begin_ := by
    have hbegin : IsTL ⟨ASN_TAG_CLASS_APPLICATION ||| (2 <<< 2), true, some 13⟩ [0x62, 0x0D] := rfl
    have hotid : IsTL ⟨ASN_TAG_CLASS_APPLICATION ||| (8 <<< 2), false, some 4⟩ [0x48, 0x04] := rfl
    have hdialogue : IsTL ⟨ASN_TAG_CLASS_APPLICATION ||| (11 <<< 2), true, some 5⟩ [0x6B, 0x05] := rfl
    have hexternal : IsTL ⟨ASN_TAG_CLASS_UNIVERSAL ||| (8 <<< 2), true, some 3⟩ [0x28, 0x03] := rfl
    have htag : ¬ HasTag (ASN_TAG_CLASS_APPLICATION ||| (11 <<< 2)) (tlv 0x28 (tlv 0x06 [0x00])) := by
      rintro ⟨tl, h⟩
      cases h
    have ho : IsTlv (tlv 0x48 [0x11, 0x22, 0x33, 0x44]) := .definite hotid rfl
    have hx : IsTlv (tlv 0x28 (tlv 0x06 [0x00])) := .definite hexternal rfl
    have hd : IsConstructed (Is (ASN_TAG_CLASS_APPLICATION ||| (11 <<< 2)))
        [tlv 0x28 (tlv 0x06 [0x00])] (tlv 0x6B (tlv 0x28 (tlv 0x06 [0x00]))) :=
      @IsConstructed.definite _ [_] _ [0x6B, 0x05] hdialogue rfl
    have hp : IsConstructed (Is (ASN_TAG_CLASS_APPLICATION ||| (2 <<< 2)))
        [tlv 0x48 [0x11, 0x22, 0x33, 0x44], tlv 0x6B (tlv 0x28 (tlv 0x06 [0x00]))] externalBegin :=
      @IsConstructed.definite _ [_, _] _ [0x62, 0x0D] hbegin rfl
    have hxs := List.forall_mem_singleton.mpr hx
    exact ⟨externalBegin, [], _, _, [], _, [], (List.append_nil _).symm, hp,
      List.forall_mem_cons.mpr ⟨ho, List.forall_mem_singleton.mpr (hd.isTlv hxs)⟩, hd, hxs, htag⟩

theorem structured_dialogue_dropped_external :
    handleMessage (wireEnv "555".toList) none externalRequest = .ok ([], none) :=
  structured_dialogue_dropped (ofHeap_decodesBer _) externalRequest_cuts externalBegin_structured

/-! ## Requests -/

/-- An InitialDPArg that names the called party number `o`, right behind its service
    key. -/
def NamesNumber (o w : ByteStream) : Prop :=
  ∃ l k m s n qs xs,
    IsConstructed (Is (ASN_TAG_CLASS_UNIVERSAL ||| (16 <<< 2))) (s :: n :: (qs ++ xs)) w ∧
      IsInteger (ASN_TAG_CLASS_CONTEXT ||| (0 <<< 2)) l s ∧
      IsParty (ASN_TAG_CLASS_CONTEXT ||| (2 <<< 2)) k n ∧ k.getD [] = o ∧
      Opt (IsParty (ASN_TAG_CLASS_CONTEXT ||| (3 <<< 2))) m qs ∧
      (m = none → FirstIsNot (ASN_TAG_CLASS_CONTEXT ||| (3 <<< 2)) xs) ∧ ∀ e ∈ xs, IsTlv e

theorem namesNumber_iff {o w : ByteStream} :
    NamesNumber o w ↔ ∃ st es,
      IsConstructed (Is (ASN_TAG_CLASS_UNIVERSAL ||| (16 <<< 2))) es w ∧ IsInitialDPArg st es ∧
        st.asInitialDPArg.calledPartyNumber = some o := by
  constructor
  · rintro ⟨l, k, m, s, n, qs, xs, hw, hs, hn, rfl, hqs, hfirst, hxs⟩
    refine ⟨⟨l, some k, m⟩, _, hw, ⟨s, [n], qs, xs, rfl, hs, .present hn, hqs, ?_, hfirst, hxs⟩, rfl⟩
    intro hno
    cases hno
  · rintro ⟨⟨l, called, m⟩, es, hw, ⟨s, ps, qs, xs, rfl, hs, hps, hqs, -, hfirst, hxs⟩, ho⟩
    obtain ⟨k, rfl, hk⟩ : ∃ k, called = some k ∧ k.getD [] = o := Option.map_eq_some_iff.mp ho
    cases hps with
    | present hn => exact ⟨l, k, m, s, _, qs, xs, hw, hs, hn, hk, hqs, hfirst, hxs⟩

/-- The number that is read out of a parameter. -/
theorem decodes_number_iff {asn : Asn1c} (hdec : asn.DecodesBer) {o w : ByteStream}
    (hw : IsTlv w) :
    (∃ arg, asn.decodeInitialDPArg w = some arg ∧ arg.calledPartyNumber = some o) ↔
      NamesNumber o w := by
  rw [namesNumber_iff, hdec.initialDPArg]
  constructor
  · rintro ⟨arg, harg, ho⟩
    obtain ⟨⟨st, n⟩, hrun, rfl⟩ := Option.map_eq_some_iff.mp harg
    obtain ⟨p, t, heq, -, es, hp, hes⟩ := InitialDPArg_decode_ber_recognises.split hrun
    -- a value is followed by nothing in the value that it begins
    have hexact := InitialDPArg_decode_ber_recognises.exactly_iff.mpr ⟨es, hp, hes⟩
    have hfront : w ++ [] = p ++ t := by rw [List.append_nil, heq]
    obtain ⟨-, rfl, -⟩ := skipTlv_recognises.front_inj (x := ()) (y := ()) hw
      (InitialDPArg_decode_ber_decodesTlv.isTlv hexact) hfront
    exact ⟨st, es, hp, hes, ho⟩
  · rintro ⟨st, es, hp, hes, ho⟩
    have hrun := InitialDPArg_decode_ber_recognises.exactly_iff.mpr ⟨es, hp, hes⟩
    exact ⟨_, Option.map_eq_some_iff.mpr ⟨_, hrun, rfl⟩, ho⟩

/-- **A call for the number `o`**: a Begin with the transaction identifier `c` and one
    component, the Invoke `v` of an operation that is taken for InitialDP, whose
    parameter `w` names the number. -/
structure CallsFor (data c : ByteStream) (v : Invoke) (w o : ByteStream) : Prop where
  begin_ : HasBegin (some c) (some [.PR_invoke v]) data
  code : localCodeOf v.opCode = 0
  parameter : v.parameter = some w
  number : NamesNumber o w

theorem HasBegin.isTlv_parameter {k : Option ByteStream} {v : Invoke} {data w : ByteStream}
    (h : HasBegin k (some [.PR_invoke v]) data) (hw : v.parameter = some w) : IsTlv w := by
  obtain ⟨p, t, es, -, -, o, d, ps, qs, -, -, -, hqs⟩ := h
  cases hqs with
  | present hp =>
      obtain ⟨cs, -, hall⟩ := hp
      obtain ⟨e, he⟩ := exists_of_forall₂ hall (List.mem_singleton_self _)
      obtain ⟨es, -, i, l, ls, o, qs, -, -, -, -, hparameter⟩ := component_invoke.mp he
      exact (hparameter.isNested w hw).isTlv

/-- What the TCAP layer makes of a call. -/
def tcapOf (t : Int32) (v : Invoke) (w : ByteStream) : TcapMessage where
  m_operationLocalCode := 0
  m_transactionId := t
  m_invokeId := v.invokeID.toInt32
  m_parameterData := w

section Requests

variable {env : Env} {dataTxt : DataTxt} {b : ByteStream} {heap : Nat → UInt8}

/-- **The calls that are read off the wire.** -/
theorem calls_wire_iff (hdec : env.asn.DecodesBer)
    (hheap : env.asn.decodeTCMessage (cutAt (udtIn b)).getData
      = (TCMessage_decode_ber heap (cutAt (udtIn b)).getData).map Prod.fst)
    {tcap : TcapMessage} {o : ByteStream} :
    Calls env b tcap o ↔ Cuts b ∧ ∃ c v w t, CallsFor (cutAt (udtIn b)).getData c v w o ∧
      v.invokeID.toInt32 ≠ Int32.maxValue ∧
      TcapMessage.transactionIdOf (allocate heap (some c)) = .ok t ∧ tcap = tcapOf t v w := by
  constructor
  · intro h
    obtain ⟨arg, harg, ho⟩ := h.number
    -- an empty parameter is decoded to nothing, so an Invoke has brought it
    have hne : tcap.parameterData ≠ [] := by
      intro hnil
      rw [hnil, hdec.initialDPArg] at harg
      cases harg
    obtain ⟨begin_, v, hbegin, hcomp, hparameter, hcode⟩ := ofBytes_parameterData h.decoded hne
    obtain ⟨t, ht, htcap⟩ := (ofBytes_invoke hbegin hcomp).mp h.decoded
    rw [hheap] at hbegin
    obtain ⟨k, hwire, hotid⟩ := decodes_begin_iff.mp hbegin
    rw [hotid] at ht
    rw [hcomp] at hwire
    obtain ⟨c, rfl⟩ := Option.ne_none_iff_exists'.mp
      ((four_le_allocate heap k).mp (transactionIdOf_isOk.mp ⟨t, ht⟩))
    rw [takeInvoke_eq, if_pos hcode, hparameter, hcode] at htcap
    refine ⟨h.toCuts, c, v, tcap.parameterData, t, ⟨hwire, hcode, hparameter, ?_⟩, ?_, ht, htcap⟩
    · exact (decodes_number_iff hdec (hwire.isTlv_parameter hparameter)).mp ⟨arg, harg, ho⟩
    · have hid := h.invokeId
      rw [htcap] at hid
      exact hid
  · rintro ⟨hcuts, c, v, w, t, hcall, hmax, ht, rfl⟩
    have hbegin := decodes_begin_iff.mpr
      (show ∃ k, HasBegin k (Begin.mk (allocate heap (some c)) (some [.PR_invoke v])).components _ ∧
        (Begin.mk (allocate heap (some c)) (some [.PR_invoke v])).otid = allocate heap k from
        ⟨some c, hcall.begin_, rfl⟩)
    rw [← hheap] at hbegin
    refine ⟨⟨hcuts, (ofBytes_invoke hbegin rfl).mpr ⟨t, ht, ?_⟩⟩, hmax, rfl, ?_⟩
    · rw [takeInvoke_eq, if_pos hcall.code, hcall.parameter, hcall.code]
      rfl
    · exact (decodes_number_iff hdec (hcall.begin_.isTlv_parameter hcall.parameter)).mpr hcall.number

/-- **A request that is answered**, as it stands on the wire, and what is asked of the
    files, the database and the send buffer. -/
structure AnsweredRequest (env : Env) (b c : ByteStream) (v : Invoke) (w o : ByteStream)
    (newNum : CString) : Prop extends Cuts b where
  call : CallsFor (cutAt (udtIn b)).getData c v w o
  invokeId : v.invokeID.toInt32 ≠ Int32.maxValue
  fopen : env.files.fopen = true
  open_ : env.files.open_ = true
  digits : 3 ≤ o.length ∧ o.length ≤ 16
  found : Database.find env.sqlite (addressSignals o).dropLast = .ok newNum
  newNum_ne : newNum ≠ []
  ascending : Ascending b
  fits : replySize b (v.invokeID.toInt32 + 1) newNum ≤ 1004

/-- **The requests that are answered, element by element, and their replies.**  `heap`
    is what the memory holds behind the transaction identifier. -/
theorem replies_wire_iff (hder : env.asn.EncodesDer) (hdec : env.asn.DecodesBer)
    (dataTxt : DataTxt) (b : ByteStream) :
    ∃ heap : Nat → UInt8, ∀ s, Replies env dataTxt b s ↔
      ∃ c v w o newNum t, AnsweredRequest env b c v w o newNum ∧
        TcapMessage.transactionIdOf (allocate heap (some c)) = .ok t ∧
        s = replyTo b (tcapOf t v w) newNum := by
  obtain ⟨heap, hheap⟩ := hdec.tcMessage (cutAt (udtIn b)).getData
  refine ⟨heap, fun s => ?_⟩
  rw [replies_iff hder]
  constructor
  · rintro ⟨tcap, o, newNum, hgets, hasc, hsize, rfl⟩
    obtain ⟨hcuts, c, v, w, t, hcall, hmax, ht, rfl⟩ := (calls_wire_iff hdec hheap).mp hgets.toCalls
    exact ⟨c, v, w, o, newNum, t, ⟨hcuts, hcall, hmax, hgets.fopen, hgets.open_, hgets.digits,
      hgets.found, hgets.newNum_ne, hasc, hsize⟩, ht, rfl⟩
  · rintro ⟨c, v, w, o, newNum, t, h, ht, rfl⟩
    have hcalls := (calls_wire_iff hdec hheap).mpr ⟨h.toCuts, c, v, w, t, h.call, h.invokeId, ht, rfl⟩
    exact ⟨_, o, newNum, ⟨⟨hcalls, h.fopen, h.open_, h.digits⟩, h.found, h.newNum_ne⟩, h.ascending,
      h.fits, rfl⟩

end Requests

theorem wireEnv_replies :
    Replies (wireEnv "555".toList) none plainExchange.request plainExchange.reply :=
  ⟨[plainExchange.reply], none, rfl, List.mem_singleton.mpr rfl, by decide⟩

theorem replies_wire_iff_plain : ∃ heap c v w o newNum t,
    AnsweredRequest (wireEnv "555".toList) plainExchange.request c v w o newNum ∧
      TcapMessage.transactionIdOf (allocate heap (some c)) = .ok t ∧
      plainExchange.reply = replyTo plainExchange.request (tcapOf t v w) newNum := by
  have hder : (wireEnv "555".toList).asn.EncodesDer := ofHeap_encodesDer _
  have hdec : (wireEnv "555".toList).asn.DecodesBer := ofHeap_decodesBer _
  obtain ⟨heap, hwire⟩ := replies_wire_iff hder hdec none plainExchange.request
  exact ⟨heap, (hwire plainExchange.reply).mp wireEnv_replies⟩

/-! ## The End of a reply -/

/-- The End of a reply, as it is read. -/
def endRead (heap : Nat → UInt8) (tcap : TcapMessage) (newNum : CString) : End where
  dtid := allocate heap (some
    [TcapMessage.idOctet tcap.transactionId 0, TcapMessage.idOctet tcap.transactionId 8,
      TcapMessage.idOctet tcap.transactionId 16, TcapMessage.idOctet tcap.transactionId 24])
  components := some [.PR_invoke (connectInvoke tcap newNum)]

/-- **The End of a reply is read back as it stands**, whatever follows it: the four
    octets of the transaction identifier, and the Invoke with its Connect. -/
theorem endTo_read_back (heap : Nat → UInt8) {tcap : TcapMessage} {newNum : CString}
    (h : ReadableLength (endTo tcap newNum).length) (t : ByteStream) :
    TCMessage_decode_ber heap (endTo tcap newNum ++ t)
      = some (.PR_end (endRead heap tcap newNum), (endTo tcap newNum).length) := by
  have hmembers := h.contents
  rw [List.length_append] at hmembers
  have hinvoke := (hmembers.le (Nat.le_add_left _ _)).contents
  rw [List.flatMap_singleton] at hinvoke
  have hparameter := hinvoke.contents
  rw [List.length_append] at hparameter
  refine (end_read_back_iff heap h t).mpr fun v hv p hp => ?_
  obtain rfl := List.mem_singleton.mp hv
  obtain rfl := Option.some.inj hp
  exact connectArg_isNested (hparameter.le (Nat.le_add_left _ _))

end ProtoVscp
