import ProtoVscp.EncodeMsgProofs
import ProtoVscp.EventLoop
import ProtoVscp.MainLoop

/-! # One message in the main loop

    A message makes the server do one of three things, told apart by its header
    (`handleMessage_cases`), and what it sends is one message or none
    (`handleMessage_sent`).  `data.txt` has no part in that
    (`handleMessage_agree`). -/

namespace ProtoVscp

open CheckedLoops EventLoop M3UAmessage

/-! ## Headers -/

/-- A message of version 1 with the given class and type. -/
def HasHeader (msgClass msgType : UInt8) (b : ByteStream) : Prop :=
  8 ≤ b.length ∧ b[0]? = some 0x01 ∧ b[2]? = some msgClass ∧ b[3]? = some msgType

instance (msgClass msgType : UInt8) (b : ByteStream) :
    Decidable (HasHeader msgClass msgType b) :=
  inferInstanceAs (Decidable (_ ∧ _))

abbrev IsAspUp : ByteStream → Prop := HasHeader 0x03 0x01
abbrev IsAspActive : ByteStream → Prop := HasHeader 0x04 0x01
abbrev IsAspUpAck : ByteStream → Prop := HasHeader 0x03 0x04
abbrev IsAspActiveAck : ByteStream → Prop := HasHeader 0x04 0x03

theorem isData_iff_header {b : ByteStream} : IsData b ↔ HasHeader 0x01 0x01 b := Iff.rfl

/-- A message has one header. -/
theorem HasHeader.unique {c t c' t' : UInt8} {b : ByteStream} (h : HasHeader c t b)
    (h' : HasHeader c' t' b) : c = c' ∧ t = t' := by
  obtain ⟨-, -, hc, ht⟩ := h
  obtain ⟨-, -, hc', ht'⟩ := h'
  rw [hc] at hc'
  rw [ht] at ht'
  exact ⟨Option.some.inj hc', Option.some.inj ht'⟩

/-- What the receiving constructor makes of a message, by its header. -/
theorem ofBytes_header (b : ByteStream) :
    (∃ c t, HasHeader c t b ∧ typeOf c t ≠ .UNKNOWN ∧ ofBytes b = .ok (fresh (typeOf c t) b))
      ∨ (ofBytes b = .ok empty ∧ ∀ c t, HasHeader c t b → typeOf c t = .UNKNOWN) := by
  rw [ofBytes_eq]
  match b with
  | [] | [_] | [_, _] | [_, _, _] | [_, _, _, _] | [_, _, _, _, _] | [_, _, _, _, _, _]
  | [_, _, _, _, _, _, _] =>
      exact Or.inr ⟨rfl, fun c t h => absurd h.1 (by simp)⟩
  | v :: r :: c :: t :: b4 :: b5 :: b6 :: b7 :: rest =>
      by_cases hcond : v = 0x01 ∧ typeOf c t ≠ .UNKNOWN
      · refine Or.inl ⟨c, t, ⟨by simp, by simp [hcond.1], rfl, rfl⟩, hcond.2, ?_⟩
        simp only [if_pos hcond]
      · refine Or.inr ⟨by simp only [if_neg hcond], ?_⟩
        rintro c' t' ⟨-, hv, hc, ht⟩
        by_contra hknown
        apply hcond
        rw [← Option.some.inj hc, ← Option.some.inj ht] at hknown
        exact ⟨Option.some.inj hv, hknown⟩

/-! ## One message -/

/-- What `aspUP` and `aspACTIVE` give to `sctp_sendmsg`. -/
def aspUpSent : Sent := { msg := aspUP, ppid := 3, stream_no := 0 }
def aspActiveSent : Sent := { msg := aspACTIVE, ppid := 3, stream_no := 0 }

/-- **The specification of one iteration on a message**: ASP Up Ack and DATA are
    answered, and every other message is left alone. -/
theorem handleMessage_eq (env : Env) (dataTxt : DataTxt) (b : ByteStream) :
    handleMessage env dataTxt b
      = if IsAspUpAck b then .ok ([aspActiveSent], dataTxt)
        else if IsData b then handleData env dataTxt (fresh .TM_DATA b)
        else .ok ([], dataTxt) := by
  rw [handleMessage]
  rcases ofBytes_header b with ⟨c, t, hhead, hknown, hof⟩ | ⟨hof, hunknown⟩
  · have hcode := headerOf_typeOf hknown
    have hother : ∀ c' t', (c', t') ≠ (c, t) → ¬ HasHeader c' t' b := by
      intro c' t' hne h
      obtain ⟨h1, h2⟩ := h.unique hhead
      exact hne (by rw [h1, h2])
    rw [hof, ok_bind, if_neg (show ¬ _ from fun h => by simp [valid, fresh, hknown] at h)]
    rw [show (fresh (typeOf c t) b).M3UAtype = typeOf c t from rfl]
    cases htype : typeOf c t with
    | UNKNOWN => exact absurd htype hknown
    | ASPSM_ASPUP_ACK =>
        rw [htype] at hcode
        obtain ⟨rfl, rfl⟩ := Prod.mk.inj (Option.some.inj hcode)
        rw [if_pos hhead]
        rfl
    | TM_DATA =>
        rw [htype] at hcode
        obtain ⟨rfl, rfl⟩ := Prod.mk.inj (Option.some.inj hcode)
        rw [if_neg (hother _ _ (by decide)), if_pos (isData_iff_header.mpr hhead)]
    | MGMT_NTFY | ASPTM_ASPAC_ACK =>
        rw [htype] at hcode
        obtain ⟨rfl, rfl⟩ := Prod.mk.inj (Option.some.inj hcode)
        rw [if_neg (hother _ _ (by decide)),
          if_neg (mt isData_iff_header.mp (hother _ _ (by decide)))]
  · rw [hof, ok_bind, if_pos (show empty.valid = false from rfl),
      if_neg (fun h => absurd (hunknown _ _ h) (by decide)),
      if_neg (fun h => absurd (hunknown _ _ (isData_iff_header.mp h)) (by decide))]

theorem handleMessage_of_isData {b : ByteStream} (h : IsData b) (env : Env)
    (dataTxt : DataTxt) :
    handleMessage env dataTxt b = handleData env dataTxt (fresh .TM_DATA b) := by
  have hack : ¬ IsAspUpAck b := by
    intro hack
    exact absurd (hack.unique (isData_iff_header.mp h)).1 (by decide)
  rw [handleMessage_eq, if_neg hack, if_pos h]

/-- **The three things the server does with a message**, in any environment. -/
theorem handleMessage_cases (b : ByteStream) :
    (IsAspUpAck b ∧ ∀ env dataTxt, handleMessage env dataTxt b = .ok ([aspActiveSent], dataTxt))
      ∨ (IsData b ∧ ∀ env dataTxt,
          handleMessage env dataTxt b = handleData env dataTxt (fresh .TM_DATA b))
      ∨ (¬ IsAspUpAck b ∧ ¬ IsData b ∧ ∀ env dataTxt,
          handleMessage env dataTxt b = .ok ([], dataTxt)) := by
  by_cases hack : IsAspUpAck b
  · refine Or.inl ⟨hack, fun env dataTxt => ?_⟩
    rw [handleMessage_eq, if_pos hack]
  · by_cases hdata : IsData b
    · exact Or.inr (Or.inl ⟨hdata, handleMessage_of_isData hdata⟩)
    · refine Or.inr (Or.inr ⟨hack, hdata, fun env dataTxt => ?_⟩)
      rw [handleMessage_eq, if_neg hack, if_neg hdata]

/-! ## The stages of a DATA message -/

/-- **The stages of a decoded request.** -/
theorem decodeRequest_some {env : Env} {dataTxt dataTxt' : DataTxt} {m : M3UAmessage}
    {q : Request} (h : decodeRequest env dataTxt m = .ok (some q, dataTxt')) :
    m.decodePayload = .ok q.incomingM3uaMsg ∧
      (∃ sccp, SccpMessage.ofBytes q.incomingM3uaMsg.getPayload = .ok sccp ∧
        sccp.valid = true ∧ sccp.decodeSccp = .ok q.incomingSccp) ∧
      TcapMessage.ofBytes env.asn q.incomingSccp.getData = .ok q.incomingTcap ∧
      nextInvokeId q.incomingTcap.invokeId = .ok q.invokeID ∧
      InapMessage.ofBytes env.asn env.files q.incomingTcap.operationLocalCode
        q.incomingTcap.parameterData dataTxt = .ok (q.inapMsg, dataTxt') := by
  rw [decodeRequest] at h
  rw [bind_eq_ok] at h
  obtain ⟨m3ua, hm3ua, h⟩ := h
  rw [bind_eq_ok] at h
  obtain ⟨sccp, hsccp, h⟩ := h
  by_cases hvalid : sccp.valid = true
  · simp only [if_pos hvalid, bind_eq_ok] at h
    obtain ⟨cut, hcut, tcap, htcap, invokeID, hinvoke, ⟨inap, d⟩, hinap, h⟩ := h
    obtain ⟨hq, hd⟩ := ok_pair_inj h
    rw [← Option.some.inj hq, ← hd]
    exact ⟨hm3ua, ⟨sccp, hsccp, hvalid, hcut⟩, htcap, hinvoke, hinap⟩
  · rw [if_neg hvalid] at h
    have := (ok_pair_inj h).1
    exact nomatch this

theorem sendMsg_msg {m : ByteStream} {p : UInt8} {n : UInt16} {s : Sent}
    (h : sendMsg m p n = .ok s) : s.msg = m := by
  rw [sendMsg] at h
  by_cases hlen : m.length > 1024
  · rw [if_pos hlen] at h; exact nomatch h
  · rw [if_neg hlen] at h
    rw [← Except.ok.inj h]

/-- **The specification of `buildReply`** when it gives a stream to send. -/
theorem buildReply_run {env : Env} {q : Request} {r : ByteStream}
    (h : buildReply env q = .ok r) (hr : r ≠ []) :
    ∃ newNum sccpStream, q.inapMsg.getCalledPartyNumber ≠ [] ∧
      Database.find env.sqlite q.inapMsg.getCalledPartyNumber = .ok newNum ∧
      encodeReply env q newNum = .ok sccpStream ∧
      r = M3UAmessage.encodeMsg sccpStream q.incomingM3uaMsg.opc q.incomingM3uaMsg.dpc
        q.incomingM3uaMsg.si q.incomingM3uaMsg.ni q.incomingM3uaMsg.mp
        q.incomingM3uaMsg.sls := by
  have hnil : ∀ {x : ByteStream}, (Except.ok [] : Outcome ByteStream) = .ok x → x = [] :=
    fun hx => (Except.ok.inj hx).symm
  rw [buildReply] at h
  by_cases hcpn : q.inapMsg.getCalledPartyNumber.isEmpty
  · rw [if_pos hcpn] at h
    exact absurd (hnil h) hr
  rw [if_neg hcpn, bind_eq_ok] at h
  obtain ⟨newNum, hfind, h⟩ := h
  by_cases hnew : newNum.isEmpty
  · rw [if_pos hnew] at h
    exact absurd (hnil h) hr
  rw [if_neg hnew, bind_eq_ok] at h
  obtain ⟨sccpStream, henc, h⟩ := h
  by_cases hsccp : sccpStream.length = 0
  · rw [if_pos hsccp] at h
    exact absurd (hnil h) hr
  rw [if_neg hsccp] at h
  exact ⟨newNum, sccpStream, fun h0 => hcpn (by rw [h0]; rfl), hfind, henc,
    (Except.ok.inj h).symm⟩

/-- What `encodeMsg` gives is a DATA message. -/
theorem encodeMsg_isData {sccp opc dpc si ni mp sls : ByteStream}
    (h : encodeMsg sccp opc dpc si ni mp sls ≠ []) :
    IsData (encodeMsg sccp opc dpc si ni mp sls) := by
  rcases encodeMsg_layout sccp opc dpc si ni mp sls with hnil | ⟨t, d, hlayout⟩
  · exact absurd hnil h
  · rw [hlayout]
    refine ⟨?_, rfl, rfl, rfl⟩
    rw [List.length_append, dataHead_length]
    omega

/-- **What a DATA message makes the server send**: nothing, or the one message
    that was built for its request. -/
theorem handleData_cases {env : Env} {dataTxt dataTxt' : DataTxt} {m : M3UAmessage}
    {sent : List Sent} (h : handleData env dataTxt m = .ok (sent, dataTxt')) :
    sent = [] ∨ ∃ q s, decodeRequest env dataTxt m = .ok (some q, dataTxt') ∧
      buildReply env q = .ok s.msg ∧ s.msg ≠ [] ∧ sent = [s] := by
  rw [handleData, bind_eq_ok] at h
  obtain ⟨⟨q, d⟩, hreq, h⟩ := h
  cases q with
  | none => exact Or.inl (ok_pair_inj h).1.symm
  | some q =>
      simp only [bind_eq_ok] at h
      obtain ⟨r, hbuild, h⟩ := h
      by_cases hlen : r.length = 0
      · rw [if_pos hlen] at h
        exact Or.inl (ok_pair_inj h).1.symm
      · rw [if_neg hlen, bind_eq_ok] at h
        obtain ⟨s, hsend, h⟩ := h
        obtain ⟨hsent, rfl⟩ := ok_pair_inj h
        obtain rfl := sendMsg_msg hsend
        exact Or.inr ⟨q, s, hreq, hbuild, fun h0 => hlen (by rw [h0]; rfl), hsent.symm⟩

/-- A DATA message is answered by what is built for it, if that fits the buffer. -/
theorem handleData_sends {env : Env} {dataTxt : DataTxt} {m : M3UAmessage} {s : Sent} :
    (∃ sent dataTxt', handleData env dataTxt m = .ok (sent, dataTxt') ∧ s ∈ sent) ↔
      ∃ q dataTxt', decodeRequest env dataTxt m = .ok (some q, dataTxt') ∧
        buildReply env q = .ok s.msg ∧ s.msg ≠ [] ∧ s.msg.length ≤ 1024 ∧
        s.ppid = SCTP_PID_M3UA ∧ s.stream_no = 1 := by
  constructor
  · rintro ⟨sent, dataTxt', h, hs⟩
    rw [handleData, bind_eq_ok] at h
    obtain ⟨⟨q, d⟩, hreq, h⟩ := h
    cases q with
    | none =>
        rw [← (ok_pair_inj h).1] at hs
        exact absurd hs List.not_mem_nil
    | some q =>
        simp only [bind_eq_ok] at h
        obtain ⟨r, hbuild, h⟩ := h
        by_cases hlen : r.length = 0
        · rw [if_pos hlen] at h
          rw [← (ok_pair_inj h).1] at hs
          exact absurd hs List.not_mem_nil
        · rw [if_neg hlen, bind_eq_ok] at h
          obtain ⟨s', hsend, h⟩ := h
          obtain ⟨rfl, rfl⟩ := ok_pair_inj h
          obtain rfl := List.mem_singleton.mp hs
          rw [sendMsg] at hsend
          by_cases hlong : r.length > 1024
          · rw [if_pos hlong] at hsend
            cases hsend
          · rw [if_neg hlong] at hsend
            obtain rfl := Except.ok.inj hsend
            exact ⟨q, d, hreq, hbuild, fun h0 => hlen (congrArg List.length h0),
              Nat.le_of_not_lt hlong, rfl, rfl⟩
  · rintro ⟨q, dataTxt', hreq, hbuild, hne, hlen, hppid, hstream⟩
    refine ⟨[s], dataTxt', ?_, List.mem_singleton_self s⟩
    have hpos : ¬ s.msg.length = 0 := fun h0 => hne (List.eq_nil_of_length_eq_zero h0)
    have hsend : sendMsg s.msg SCTP_PID_M3UA 1 = .ok s := by
      rw [sendMsg, if_neg (Nat.not_lt.mpr hlen), ← hppid, ← hstream]
    rw [handleData, hreq, ok_bind]
    simp only [hbuild, ok_bind, if_neg hpos, hsend]

/-- A DATA message is answered by one DATA message or not at all. -/
theorem handleData_sent {env : Env} {dataTxt dataTxt' : DataTxt} {m : M3UAmessage}
    {sent : List Sent} (h : handleData env dataTxt m = .ok (sent, dataTxt')) :
    sent = [] ∨ ∃ s, sent = [s] ∧ IsData s.msg := by
  rcases handleData_cases h with hnil | ⟨q, s, -, hbuild, hne, hsent⟩
  · exact Or.inl hnil
  · obtain ⟨newNum, sccpStream, -, -, -, hr⟩ := buildReply_run hbuild hne
    refine Or.inr ⟨s, hsent, ?_⟩
    rw [hr] at hne ⊢
    exact encodeMsg_isData hne

/-- What one message makes the server send: an ASP Active for an ASP Up Ack, at
    most one DATA message for a DATA message, and else nothing. -/
theorem handleMessage_sent {env : Env} {d d' : DataTxt} {b : ByteStream}
    {sent : List Sent} (h : handleMessage env d b = .ok (sent, d')) :
    (IsAspUpAck b ∧ sent = [aspActiveSent]) ∨
      (IsData b ∧ ∃ s, sent = [s] ∧ IsData s.msg) ∨ sent = [] := by
  rcases handleMessage_cases b with ⟨hack, hrun⟩ | ⟨hdata, hrun⟩ | ⟨-, -, hrun⟩
  · rw [hrun] at h
    exact Or.inl ⟨hack, (ok_pair_inj h).1.symm⟩
  · rw [hrun] at h
    rcases handleData_sent h with hnil | hone
    · exact Or.inr (Or.inr hnil)
    · exact Or.inr (Or.inl ⟨hdata, hone⟩)
  · rw [hrun] at h
    exact Or.inr (Or.inr (ok_pair_inj h).1.symm)

/-! ## `data.txt` -/

/-- `data.txt` is written before it is read, so what it held does not matter. -/
theorem inap_agree (asn : Asn1c) (files : Files) (code : Int32) (bytes : ByteStream)
    (d d' : DataTxt) :
    Agree (InapMessage.ofBytes asn files code bytes d)
      (InapMessage.ofBytes asn files code bytes d') := by
  rw [InapMessage.ofBytes, InapMessage.ofBytes]
  by_cases hcode : code = 0
  · rw [if_pos hcode, if_pos hcode, InapMessage.decodeInitialDP,
      InapMessage.decodeInitialDP]
    cases asn.decodeInitialDPArg bytes with
    | none => exact agree_ok _ _ _
    | some arg =>
        simp only
        by_cases hnum : arg.calledPartyNumber.isNone
        · rw [if_pos hnum, if_pos hnum]
          exact agree_ok _ _ _
        · rw [if_neg hnum, if_neg hnum]
          exact Agree.refl _
  · rw [if_neg hcode, if_neg hcode]
    exact agree_ok _ _ _

theorem decodeRequest_agree (env : Env) (m : M3UAmessage) (d d' : DataTxt) :
    Agree (decodeRequest env d m) (decodeRequest env d' m) := by
  rw [decodeRequest, decodeRequest]
  refine agree_bind _ fun m3ua => agree_bind _ fun sccp => ?_
  by_cases hvalid : sccp.valid = true
  · rw [if_pos hvalid, if_pos hvalid]
    refine agree_bind _ fun cut => agree_bind _ fun tcap => agree_bind _ fun invokeID => ?_
    exact (inap_agree ..).bind fun _ _ _ => agree_ok _ _ _
  · rw [if_neg hvalid, if_neg hvalid]
    exact agree_ok _ _ _

theorem handleData_agree (env : Env) (m : M3UAmessage) (d d' : DataTxt) :
    Agree (handleData env d m) (handleData env d' m) := by
  rw [handleData, handleData]
  refine (decodeRequest_agree ..).bind ?_
  intro q s t
  cases q with
  | none => exact agree_ok _ _ _
  | some q =>
      refine agree_bind _ fun r => ?_
      by_cases hlen : r.length = 0
      · rw [if_pos hlen, if_pos hlen]
        exact agree_ok _ _ _
      · rw [if_neg hlen, if_neg hlen]
        exact agree_bind _ fun s => agree_ok _ _ _

/-- **What is sent for a message does not depend on `data.txt`.** -/
theorem handleMessage_agree (env : Env) (b : ByteStream) (d d' : DataTxt) :
    Agree (handleMessage env d b) (handleMessage env d' b) := by
  rcases handleMessage_cases b with ⟨-, hrun⟩ | ⟨-, hrun⟩ | ⟨-, -, hrun⟩
  · rw [hrun, hrun]
    exact agree_ok _ _ _
  · rw [hrun, hrun]
    exact handleData_agree ..
  · rw [hrun, hrun]
    exact agree_ok _ _ _

end ProtoVscp
