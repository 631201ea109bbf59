import ProtoVscp.DerEncoder
import ProtoVscp.QueryProofs
import ProtoVscp.UdtParameterProofs

/-! # The sizes of a reply

    The reply is assembled from what the pointers of the request cut out of it
    and what the database returned, and no layer checks a size.  The addresses
    handed to `encodeSccp` are non-empty, and its sizes do not wrap, exactly when
    the pointers of the request ascend (`no_underflow_iff`).  The reply fits the
    buffer of `sendMsg` exactly when the sum of all its parts does
    (`send_buffer_iff`). -/

namespace ProtoVscp

open CheckedLoops M3UAmessage SccpMessage

/-- The main loop answers `b`: it has decoded the request `q` and got the number
    `newNum`, and goes on to `encodeSccp`. -/
structure Answers (env : Env) (dataTxt : DataTxt) (b : ByteStream) (q : Request)
    (newNum : CString) : Prop where
  requests : Requests env dataTxt b q
  found : Database.find env.sqlite q.inapMsg.getCalledPartyNumber = .ok newNum
  newNum_ne : newNum ≠ []

/-- The UDT message in a DATA message: the user data behind every position taken
    for a tag. -/
def udtIn (b : ByteStream) : ByteStream := (tagHits b).flatMap (userDataAt b)

section Requests

variable {env : Env} {dataTxt : DataTxt} {b : ByteStream} {q : Request}

/-- The UDT message is cut inside its bounds. -/
theorem Requests.cut (h : Requests env dataTxt b q) :
    RangesInside (udtIn b) ∧ q.incomingSccp = cutAt (udtIn b) := by
  obtain ⟨dataTxt', hreq⟩ := h.decoded
  obtain ⟨-, ⟨sccp, hsccp, hvalid, hcut⟩, -⟩ := decodeRequest_some hreq
  obtain ⟨-, rfl⟩ := sccp_ofBytes_valid hsccp hvalid
  have hpayload : q.incomingM3uaMsg.getPayload = udtIn b := by
    rw [h.m3ua.2, collect_fresh_getPayload, udtIn]
  rw [hpayload] at hcut
  exact decodeSccp_eq_ok.mp hcut

end Requests

/-! ## The address sizes -/

/-- **No length underflow** in `encodeSccp`: `size() - 1` is one less than the
    size of each address, and the copy loops stay inside the vectors, whatever
    the TCAP message. -/
structure NoUnderflow (calledAdd callingAdd : ByteStream) : Prop where
  calledSize : (UInt32.ofNat calledAdd.length - 1).toNat + 1 = calledAdd.length
  callingSize : (UInt32.ofNat callingAdd.length - 1).toNat + 1 = callingAdd.length
  copies : ∀ tcapMsg, ∃ r, encodeSccp tcapMsg calledAdd callingAdd = .ok r

/-- `size() - 1` of a vector whose size is an `unsigned int` wraps when the
    vector is empty only. -/
theorem size_sub_one {x : ByteStream} (h : x.length < 4294967296) :
    (UInt32.ofNat x.length - 1).toNat + 1 = x.length ↔ x ≠ [] := by
  cases x with
  | nil => exact iff_of_false (by decide) (fun h => h rfl)
  | cons b rest =>
      refine iff_of_true ?_ (List.cons_ne_nil b rest)
      rw [List.length_cons] at h ⊢
      rw [UInt32.ofNat_add]
      show (UInt32.ofNat rest.length + 1 - 1).toNat + 1 = _
      rw [UInt32.add_sub_cancel, UInt32.toNat_ofNat', Nat.mod_eq_of_lt (by omega)]

/-- Sizes that do not wrap keep every copy loop inside its vector. -/
theorem encodeSccp_isOk {c g : ByteStream}
    (hc : (UInt32.ofNat c.length - 1).toNat + 1 = c.length)
    (hg : (UInt32.ofNat g.length - 1).toNat + 1 = g.length) (t : ByteStream) :
    ∃ r, encodeSccp t c g = .ok r := by
  have ht : (UInt32.ofNat t.length).toNat ≤ t.length := by
    rw [UInt32.toNat_ofNat']
    exact Nat.mod_le _ _
  rw [encodeSccp]
  simp only [copyRange_eq]
  rw [if_pos (Or.inr (by omega)), ok_bind, if_pos (Or.inr (by omega)), ok_bind,
    if_pos (Or.inr ht)]
  exact ⟨_, rfl⟩

theorem noUnderflow_iff {c g : ByteStream} (hc : c.length < 4294967296)
    (hg : g.length < 4294967296) : NoUnderflow c g ↔ c ≠ [] ∧ g ≠ [] := by
  constructor
  · intro h
    exact ⟨(size_sub_one hc).mp h.calledSize, (size_sub_one hg).mp h.callingSize⟩
  · rintro ⟨hcne, hgne⟩
    have h1 := (size_sub_one hc).mpr hcne
    have h2 := (size_sub_one hg).mpr hgne
    exact ⟨h1, h2, encodeSccp_isOk h1 h2⟩

/-- The addresses that are cut out of a message, by its pointers. -/
theorem cut_address_length {p : ByteStream} (h : RangesInside p) :
    (cutAt p).getCalledPartyAddress.length = pointerAt p 3 + 1 - pointerAt p 2 ∧
      (cutAt p).getCallingPartyAddress.length = pointerAt p 4 + 1 - pointerAt p 3 := by
  obtain ⟨hlen, hcalled, hcalling⟩ := h
  constructor
  · show (slice p (pointerAt p 2 + 3) _).length = _
    rw [slice_range_length hcalled]
    omega
  · show (slice p (pointerAt p 3 + 4) _).length = _
    rw [slice_range_length hcalling]
    omega

/-- The addresses cut out of a request are not empty when its pointers ascend. -/
theorem Requests.ascending {env : Env} {dataTxt : DataTxt} {b : ByteStream} {q : Request}
    (h : Requests env dataTxt b q) :
    NoUnderflow q.incomingSccp.getCallingPartyAddress q.incomingSccp.getCalledPartyAddress ↔
      pointerAt (udtIn b) 2 ≤ pointerAt (udtIn b) 3 ∧
        pointerAt (udtIn b) 3 ≤ pointerAt (udtIn b) 4 := by
  obtain ⟨hin, hcut⟩ := h.cut
  obtain ⟨hcalled, hcalling⟩ := cut_address_length hin
  have h3 := pointerAt_lt (udtIn b) 3
  have h4 := pointerAt_lt (udtIn b) 4
  rw [hcut, noUnderflow_iff (by omega) (by omega), ← List.length_pos_iff,
    ← List.length_pos_iff, hcalled, hcalling]
  omega

/-- **Which answers make no size underflow**: those to requests whose called
    party address does not stand behind the calling one, and that not behind the
    data. -/
theorem no_underflow_iff {env : Env} {dataTxt : DataTxt} {b : ByteStream} {q : Request}
    {newNum : CString} (h : Answers env dataTxt b q newNum) :
    NoUnderflow q.incomingSccp.getCallingPartyAddress q.incomingSccp.getCalledPartyAddress ↔
      pointerAt (udtIn b) 2 ≤ pointerAt (udtIn b) 3 ∧
        pointerAt (udtIn b) 3 ≤ pointerAt (udtIn b) 4 :=
  h.requests.ascending

theorem plainExchange_answers :
    ∃ q, Answers plainExchange.env none plainExchange.request q "555".toList :=
  ⟨_, ⟨by decide, ⟨none, rfl⟩, List.cons_ne_nil _ _⟩, rfl, List.cons_ne_nil _ _⟩

theorem no_underflow_iff_plain :
    ∃ q, Answers plainExchange.env none plainExchange.request q "555".toList ∧
      (NoUnderflow q.incomingSccp.getCallingPartyAddress
          q.incomingSccp.getCalledPartyAddress ↔
        pointerAt (udtIn plainExchange.request) 2 ≤ pointerAt (udtIn plainExchange.request) 3 ∧
          pointerAt (udtIn plainExchange.request) 3
            ≤ pointerAt (udtIn plainExchange.request) 4) := by
  obtain ⟨q, hq⟩ := plainExchange_answers
  exact ⟨q, hq, no_underflow_iff hq⟩

/-- The request with the calling party address in front of the called one. -/
def swappedRequest : ByteStream :=
  encodeData ([0x09, 0x00, 0x06, 0x02, 0x07, 0x02, 0x42, 0x08, 0x02, 0x42, 0x06,
    UInt8.ofNat plainExchange.beginOctets.length] ++ plainExchange.beginOctets) sampleLabel

/-- It leaves an empty called party address, and `encodeSccp` reads past it. -/
theorem swappedRequest_underflows :
    ∃ q, Answers plainExchange.env none swappedRequest q "555".toList ∧
      ¬ NoUnderflow q.incomingSccp.getCallingPartyAddress
          q.incomingSccp.getCalledPartyAddress ∧
      handleMessage plainExchange.env none swappedRequest = .error .outOfBounds := by
  refine ⟨_, ⟨⟨by decide, ⟨none, rfl⟩, List.cons_ne_nil _ _⟩, rfl, List.cons_ne_nil _ _⟩,
    ?_, ?_⟩
  · intro h
    exact absurd h.callingSize (by decide)
  · rfl

/-! ## The send buffer -/

/-- The main loop passes `r` to `sendMsg`. -/
structure PassesToSend (env : Env) (dataTxt : DataTxt) (b : ByteStream) (q : Request)
    (newNum : CString) (r : ByteStream) : Prop where
  answers : Answers env dataTxt b q newNum
  built : buildReply env q = .ok r
  ne_nil : r ≠ []

/-- What `sendMsg` makes of it. -/
theorem PassesToSend.overruns {env : Env} {dataTxt : DataTxt} {b : ByteStream}
    {q : Request} {newNum : CString} {r : ByteStream}
    (h : PassesToSend env dataTxt b q newNum r) (hlong : 1024 < r.length) :
    handleMessage env dataTxt b = .error .outOfBounds := by
  have hdata := h.answers.requests.isData
  obtain ⟨dataTxt', hreq⟩ := h.answers.requests.decoded
  rw [handleMessage_of_isData hdata, handleData, hreq]
  simp only [ok_bind, h.built]
  rw [if_neg (show ¬ r.length = 0 by omega), sendMsg, if_pos hlong, error_bind]

/-- The octets of a `ConnectArg` for a text of `n` octets. -/
def connectSize (n : Nat) : Nat := tlvSize (tlvSize (tlvSize n) + 3)

/-- The octets of the End of a reply, with `i` octets of invoke identifier. -/
def endSize (i n : Nat) : Nat := tlvSize (6 + tlvSize (tlvSize (i + 5 + connectSize n)))

/-- **The octets of a reply behind its head**: twelve of label for every position
    taken for a tag, eight of SCCP, the two addresses, and the End, whose size is
    an `unsigned int`. -/
def replySize (b : ByteStream) (invokeID : Int32) (newNum : CString) : Nat :=
  12 * (tagHits b).length + 8 + (pointerAt (udtIn b) 4 - pointerAt (udtIn b) 2)
    + endSize (integerSize invokeID.toInt64) (InapMessage.c_str newNum).length % 4294967296

/-- The same for any End `t`, whatever the encoder makes of it. -/
def replySizeOf (b t : ByteStream) : Nat :=
  12 * (tagHits b).length + 8 + (pointerAt (udtIn b) 4 - pointerAt (udtIn b) 2)
    + t.length % 4294967296

/-- The End of the reply to a number `newNum`. -/
def replyEnd (env : Env) (invokeID transactionId : Int32) (newNum : CString) : ByteStream :=
  TcapMessage.end_ env.asn invokeID transactionId (InapMessage.encodeConnect env.asn newNum)

section Sizes

variable {asn : Asn1c}

theorem encodeConnect_length (hder : asn.EncodesDer) (newNum : CString) :
    (InapMessage.encodeConnect asn newNum).length
      = connectSize (InapMessage.c_str newNum).length := by
  have hcut : (NativeInteger_encode_der 0x83 0).length = 3 := by decide
  rw [InapMessage.encodeConnect, hder.connectArg, ConnectArg_encode_der]
  simp only [der_write_TLV_length, List.length_append, List.flatMap_singleton, hcut,
    List.length_nil, Nat.add_zero, connectSize]

theorem end_length (hder : asn.EncodesDer) (invokeID transactionId : Int32)
    (resultData : ByteStream) :
    (TcapMessage.end_ asn invokeID transactionId resultData).length
      = tlvSize (6 + tlvSize (tlvSize
          (integerSize invokeID.toInt64 + 5 + resultData.length))) := by
  have hop : (OPERATION_encode_der (.PR_localValue 0x14)).length = 3 := by decide
  have hdtid : ∀ o : OCTET_STRING, o.value.length = 4 →
      (der_write_TLV 0x49 o.value).length = 6 := by
    intro o ho
    rw [der_write_TLV_length, ho, tlvSize, if_pos (by decide)]
  rw [TcapMessage.end_, TcapMessage.endOf]
  rw [show ∀ i : Invoke, [Component.PR_invoke i] = [i].map .PR_invoke from fun _ => rfl,
    hder.end_, End_encode_der, der_write_TLV_length, List.length_append, hdtid _ rfl,
    der_write_TLV_length, List.flatMap_singleton, Invoke_encode_der, der_write_TLV_length,
    List.length_append, List.length_append, NativeInteger_encode_der_length, hop,
    Option.getD_some]

theorem replySizeOf_replyEnd {env : Env} (hder : env.asn.EncodesDer) (b : ByteStream)
    (invokeID transactionId : Int32) (newNum : CString) :
    replySizeOf b (replyEnd env invokeID transactionId newNum) = replySize b invokeID newNum := by
  rw [replySizeOf, replyEnd, end_length hder, encodeConnect_length hder, replySize, endSize]

end Sizes

/-- An address that is copied without a fault is not empty. -/
theorem encodeSccp_addresses {t c g r : ByteStream} (h : encodeSccp t c g = .ok r) :
    c ≠ [] ∧ g ≠ [] := by
  have hempty : ∀ out r' : ByteStream,
      copyRange Fault.outOfBounds ([] : ByteStream) 0 (UInt32.ofNat 0 - 1).toNat out
        ≠ .ok r' := by
    intro out r' hr'
    rw [copyRange_eq, if_neg (by decide)] at hr'
    cases hr'
  rw [encodeSccp] at h
  simp only [bind_eq_ok] at h
  obtain ⟨m₁, h₁, m₂, h₂, -⟩ := h
  constructor
  · rintro rfl
    exact hempty _ _ h₁
  · rintro rfl
    exact hempty _ _ h₂

/-- The size of the streams `encodeMsg` is given for a reply. -/
def replyDataSize (q : Request) (sccp : ByteStream) : Nat :=
  dataSize sccp q.incomingM3uaMsg.opc q.incomingM3uaMsg.dpc q.incomingM3uaMsg.si
    q.incomingM3uaMsg.ni q.incomingM3uaMsg.mp q.incomingM3uaMsg.sls

/-- The label fields of a request are four octets, or one, for every position
    taken for a tag. -/
theorem Requests.label_size {env : Env} {dataTxt : DataTxt} {b : ByteStream} {q : Request}
    (h : Requests env dataTxt b q) (sccp : ByteStream) :
    replyDataSize q sccp = sccp.length + 12 * (tagHits b).length := by
  obtain ⟨hsafe, hm3ua⟩ := h.m3ua
  have hfield : ∀ off n, off + n ≤ 16 →
      ((tagHits b).flatMap (fun p => slice b (p + off) n)).length = n * (tagHits b).length :=
    fun off n hoff => field_length_of_safe hsafe hoff _ (fun _ hp => hp)
  have hopc : ((tagHits b).flatMap (opcAt b)).length = _ := hfield 4 4 (by decide)
  have hdpc : ((tagHits b).flatMap (dpcAt b)).length = _ := hfield 8 4 (by decide)
  have hsi : ((tagHits b).flatMap (siAt b)).length = _ := hfield 12 1 (by decide)
  have hni : ((tagHits b).flatMap (niAt b)).length = _ := hfield 13 1 (by decide)
  have hmp : ((tagHits b).flatMap (mpAt b)).length = _ := hfield 14 1 (by decide)
  have hsls : ((tagHits b).flatMap (slsAt b)).length = _ := hfield 15 1 (by decide)
  rw [replyDataSize, hm3ua]
  show sccp.length + ((tagHits b).flatMap (opcAt b)).length
    + ((tagHits b).flatMap (dpcAt b)).length + ((tagHits b).flatMap (siAt b)).length
    + ((tagHits b).flatMap (niAt b)).length + ((tagHits b).flatMap (mpAt b)).length
    + ((tagHits b).flatMap (slsAt b)).length = _
  omega

section Reply

variable {env : Env} {dataTxt : DataTxt} {b : ByteStream} {q : Request} {newNum : CString}

/-- **The size of what a reply is made of.** -/
theorem Answers.replyDataSize_eq (h : Answers env dataTxt b q newNum) {sccp : ByteStream}
    (henc : encodeReply env q newNum = .ok sccp) :
    replyDataSize q sccp
      = replySizeOf b (replyEnd env q.invokeID q.incomingTcap.transactionId newNum) := by
  obtain ⟨hin, hcut⟩ := h.requests.cut
  -- the addresses are not empty, so the pointers ascend and no size wraps
  rw [encodeReply] at henc
  have hlen := encodeSccp_length henc
  obtain ⟨hc, hg⟩ := encodeSccp_addresses henc
  obtain ⟨hcalled, hcalling⟩ := cut_address_length hin
  have h3 := pointerAt_lt (udtIn b) 3
  have h4 := pointerAt_lt (udtIn b) 4
  rw [hcut] at hc hg hlen
  have hcsize := (size_sub_one (by omega)).mpr hc
  have hgsize := (size_sub_one (by omega)).mpr hg
  have hcpos := List.length_pos_iff.mpr hc
  have hgpos := List.length_pos_iff.mpr hg
  rw [h.requests.label_size, hlen, replySizeOf, replyEnd]
  omega

/-- **The size of a reply.** -/
theorem PassesToSend.length_eq {r : ByteStream} (h : PassesToSend env dataTxt b q newNum r) :
    r.length = 20
      + (replySizeOf b (replyEnd env q.invokeID q.incomingTcap.transactionId newNum) + 3)
        / 4 * 4 := by
  obtain ⟨newNum', sccp, -, hfind, henc, hr⟩ := buildReply_run h.built h.ne_nil
  rw [h.answers.found] at hfind
  obtain rfl := Except.ok.inj hfind
  have hne : UInt32.ofNat (replyDataSize q sccp) ≠ 0 := by
    intro hzero
    exact h.ne_nil (hr.trans (if_pos hzero))
  have hlen := encodeMsg_length hne
  rw [← hr] at hlen
  exact hlen.trans (by rw [← h.answers.replyDataSize_eq henc]; rfl)

/-- Behind `encodeSccp` only `encodeMsg` is left to do. -/
theorem Answers.built (h : Answers env dataTxt b q newNum) {sccp : ByteStream}
    (henc : encodeReply env q newNum = .ok sccp) :
    buildReply env q = .ok (encodeMsg sccp q.incomingM3uaMsg.opc q.incomingM3uaMsg.dpc
      q.incomingM3uaMsg.si q.incomingM3uaMsg.ni q.incomingM3uaMsg.mp
      q.incomingM3uaMsg.sls) := by
  have hnum : ¬ q.inapMsg.getCalledPartyNumber.isEmpty = true := by
    rw [List.isEmpty_iff]
    exact h.requests.called
  have hnew : ¬ newNum.isEmpty = true := by
    rw [List.isEmpty_iff]
    exact h.newNum_ne
  have hsccp : ¬ sccp.length = 0 := fun h0 =>
    encodeSccp_ne_nil henc (List.eq_nil_of_length_eq_zero h0)
  rw [buildReply, if_neg hnum, h.found, ok_bind, if_neg hnew, henc, ok_bind, if_neg hsccp]

/-- An answer reaches `sendMsg` when no size wraps on the way. -/
theorem Answers.passes (h : Answers env dataTxt b q newNum)
    (hasc : NoUnderflow q.incomingSccp.getCallingPartyAddress
      q.incomingSccp.getCalledPartyAddress)
    (hsize : replySizeOf b (replyEnd env q.invokeID q.incomingTcap.transactionId newNum)
      % 4294967296 ≠ 0) :
    ∃ r, PassesToSend env dataTxt b q newNum r := by
  obtain ⟨sccp, henc⟩ : ∃ sccp, encodeReply env q newNum = .ok sccp := hasc.copies _
  have hne : UInt32.ofNat (replyDataSize q sccp) ≠ 0 := by
    intro hzero
    have hnat := congrArg UInt32.toNat hzero
    rw [h.replyDataSize_eq henc, UInt32.toNat_ofNat'] at hnat
    exact hsize hnat
  have hlen := encodeMsg_length hne
  refine ⟨_, h, h.built henc, ?_⟩
  intro hnil
  rw [hnil, List.length_nil] at hlen
  omega

end Reply

/-- **Which replies fit the send buffer.** -/
theorem send_buffer_iff {env : Env} {dataTxt : DataTxt} {b : ByteStream} {q : Request}
    {newNum : CString} {r : ByteStream} (hder : env.asn.EncodesDer)
    (h : PassesToSend env dataTxt b q newNum r) :
    r.length ≤ 1024 ↔ replySize b q.invokeID newNum ≤ 1004 := by
  rw [h.length_eq, replySizeOf_replyEnd hder]
  omega

/-! ### Long numbers -/

/-- The codecs at `plainExchange`, and a database that holds `text`. -/
def textEnv (text : CString) : Env where
  asn := .ofDecoders plainExchange.env.asn.decodeTCMessage
    plainExchange.env.asn.decodeInitialDPArg
  files := filesOk
  sqlite := fun _ => .ROW (some text)

/-- Every text is answered to `plainExchange.request`, when it is not too long to
    be measured. -/
theorem textEnv_passes (text : CString) (hne : text ≠ []) (hnul : '\x00' ∉ text)
    (hsize : replySize plainExchange.request 2 text < 4294967296) :
    ∃ q r, PassesToSend (textEnv text) none plainExchange.request q text r ∧
      q.invokeID = 2 := by
  have hfound : ∀ fNum, Database.find (textEnv text).sqlite fNum = .ok text := by
    intro fNum
    have hwhole : text.takeWhile (· ≠ '\x00') = text :=
      List.takeWhile_eq_self_iff.mpr fun c hc =>
        decide_eq_true fun h => hnul (h ▸ hc)
    exact congrArg Except.ok hwhole
  obtain ⟨q, hanswers, hid⟩ : ∃ q, Answers (textEnv text) none plainExchange.request q text ∧
      q.invokeID = 2 :=
    ⟨_, ⟨⟨by decide, ⟨none, rfl⟩, List.cons_ne_nil _ _⟩, hfound _, hne⟩, rfl⟩
  have hasc := hanswers.requests.ascending.mpr (by decide)
  obtain ⟨r, hr⟩ := hanswers.passes hasc (by
    rw [replySizeOf_replyEnd (ofDecoders_encodesDer _ _), hid, Nat.mod_eq_of_lt hsize, replySize]
    omega)
  exact ⟨q, r, hr, hid⟩

theorem send_buffer_iff_plain :
    ∃ q r, PassesToSend (textEnv "555".toList) none plainExchange.request q "555".toList r ∧
      (r.length ≤ 1024 ↔
        replySize plainExchange.request q.invokeID "555".toList ≤ 1004) := by
  obtain ⟨q, r, hr, -⟩ := textEnv_passes "555".toList (List.cons_ne_nil _ _)
    (by decide) (by decide)
  exact ⟨q, r, hr, send_buffer_iff (ofDecoders_encodesDer _ _) hr⟩

/-- A thousand digits. -/
def longNumber : CString := List.replicate 1000 '5'

theorem longNumber_replySize : replySize plainExchange.request 2 longNumber = 1063 := by
  have htext : (InapMessage.c_str longNumber).length = 1000 := by
    rw [InapMessage.c_str, longNumber, List.length_map, List.takeWhile_replicate_eq_filter,
      List.filter_replicate_of_pos (by decide), List.length_replicate]
  rw [replySize, htext]
  decide

/-- They do not fit the buffer. -/
theorem longNumber_overruns :
    ∃ q r, (textEnv longNumber).asn.EncodesDer ∧
      PassesToSend (textEnv longNumber) none plainExchange.request q longNumber r ∧
      ¬ r.length ≤ 1024 ∧
      handleMessage (textEnv longNumber) none plainExchange.request = .error .outOfBounds := by
  have hsize := longNumber_replySize
  obtain ⟨q, r, hr, hid⟩ := textEnv_passes longNumber (List.cons_ne_nil _ _)
    (fun h => absurd (List.eq_of_mem_replicate h) (by decide)) (by omega)
  have hder := ofDecoders_encodesDer plainExchange.env.asn.decodeTCMessage
    plainExchange.env.asn.decodeInitialDPArg
  have hlen := hr.length_eq
  rw [replySizeOf_replyEnd hder, hid, hsize] at hlen
  exact ⟨q, r, hder, hr, by omega, hr.overruns (by omega)⟩

end ProtoVscp
