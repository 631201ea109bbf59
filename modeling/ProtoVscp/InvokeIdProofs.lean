import ProtoVscp.ReplyProofs

/-! # The invoke identifier of the reply

    The identifier of a request is a `long` that the constructor narrows to an
    `int`; `main` adds one to it and `end` widens the sum again
    (`carriesEnd_invokeId`).  The addition overflows for the greatest `int`,
    whether or not there will be a reply (`handleMessage_overflow_iff`), and
    nothing looks at the range of `InvokeIdType`. -/

namespace ProtoVscp

open CheckedLoops SkipScan M3UAmessage

/-! ## The addition -/

/-- The checked addition is exact. -/
theorem nextInvokeId_eq_ok {i j : Int32} :
    nextInvokeId i = .ok j ↔ j.toInt = i.toInt + 1 := by
  have hlo := Int32.le_toInt i
  have hhi := Int32.toInt_lt i
  have hmax : (Int32.maxValue).toInt = 2 ^ 31 - 1 := rfl
  rw [nextInvokeId]
  by_cases h : i = Int32.maxValue
  · have hj := Int32.toInt_lt j
    rw [if_pos h, h, hmax]
    refine iff_of_false (fun h0 => nomatch h0) ?_
    omega
  · have hne : i.toInt ≠ 2 ^ 31 - 1 := fun h0 => h (Int32.toInt_inj.mp (h0.trans hmax.symm))
    have hsum : (i + 1).toInt = i.toInt + 1 := by
      rw [Int32.toInt_add, show (1 : Int32).toInt = 1 from rfl]
      exact Int.bmod_eq_of_le (by omega) (by omega)
    rw [if_neg h, Except.ok.injEq, ← Int32.toInt_inj, hsum]
    exact eq_comm

theorem nextInvokeId_overflow {i : Int32} :
    nextInvokeId i = .error .signedOverflow ↔ i = Int32.maxValue := by
  rw [nextInvokeId]
  by_cases h : i = Int32.maxValue
  · simp [h]
  · simp [h]

/-! ## The other stages do not overflow -/

private theorem outOfBounds_ne : Fault.outOfBounds ≠ .signedOverflow := by decide

private theorem octetAt_avoids (b : ByteStream) (i : Nat) :
    Avoids .signedOverflow (octetAt b i) :=
  avoids_readAt outOfBounds_ne b i

private theorem decodePayload_avoids (m : M3UAmessage) :
    Avoids .signedOverflow m.decodePayload := by
  have htag : ∀ i, Avoids .signedOverflow (isProtocolDataTag m.m_msg i) := by
    intro i
    rw [isProtocolDataTag]
    refine (octetAt_avoids _ _).bind fun b => avoids_ite ?_ (avoids_ok _)
    exact (octetAt_avoids _ _).bind fun c => avoids_ok _
  have htake : ∀ i s, Avoids .signedOverflow (takeProtocolData m.m_msg i s) := by
    intro i s
    rw [takeProtocolData]
    refine (octetAt_avoids _ _).bind fun len => ?_
    refine (avoids_readRange outOfBounds_ne _ _ _ _ _ _).bind fun t => ?_
    exact avoids_readRange outOfBounds_ne _ _ _ _ _ _
  rw [decodePayload]
  refine avoids_ite (avoids_ok _) (avoids_forUntil (fun i s => ?_) _ _ _)
  rw [scanRound]
  refine (htag i).bind fun hit => avoids_ite ?_ (avoids_ok _)
  exact (htake i s).bind fun t => avoids_ok _

private theorem sccp_ofBytes_avoids (p : ByteStream) :
    Avoids .signedOverflow (SccpMessage.ofBytes p) :=
  (octetAt_avoids _ _).bind fun _ => avoids_ite (avoids_ok _) (avoids_ok _)

private theorem decodeSccp_avoids (m : SccpMessage) :
    Avoids .signedOverflow m.decodeSccp := by
  rw [SccpMessage.decodeSccp]
  refine (octetAt_avoids _ _).bind fun called => (octetAt_avoids _ _).bind fun calling =>
    (octetAt_avoids _ _).bind fun data => ?_
  refine (avoids_copyRange outOfBounds_ne _ _ _ _).bind fun calledAddress => ?_
  refine (avoids_copyRange outOfBounds_ne _ _ _ _).bind fun callingAddress => ?_
  exact (avoids_copyRange outOfBounds_ne _ _ _ _).bind fun payload => avoids_ok _

private theorem tcap_ofBytes_avoids (asn : Asn1c) (data : ByteStream) :
    Avoids .signedOverflow (TcapMessage.ofBytes asn data) := by
  have hid : ∀ otid, Avoids .signedOverflow (TcapMessage.transactionIdOf otid) := by
    intro otid
    rw [TcapMessage.transactionIdOf]
    refine avoids_ite (avoids_error (by decide)) ?_
    exact (octetAt_avoids _ _).bind fun b0 => (octetAt_avoids _ _).bind fun b1 =>
      (octetAt_avoids _ _).bind fun b2 => (octetAt_avoids _ _).bind fun b3 => avoids_ok _
  have hbegin : ∀ begin_ m, Avoids .signedOverflow (TcapMessage.takeBegin begin_ m) := by
    intro begin_ m
    rw [TcapMessage.takeBegin]
    refine (hid _).bind fun t => ?_
    cases begin_.components with
    | none => exact avoids_error (by decide)
    | some components =>
        cases components with
        | nil => exact avoids_ok _
        | cons component rest =>
            cases rest with
            | nil => cases component <;> exact avoids_ok _
            | cons => exact avoids_ok _
  rw [TcapMessage.ofBytes]
  cases asn.decodeTCMessage data with
  | none => exact avoids_ok _
  | some msg =>
      cases msg with
      | PR_unidirectional | PR_end _ | PR_continue | PR_abort => exact avoids_ok _
      | PR_begin begin_ => exact hbegin begin_ _

private theorem inap_ofBytes_avoids (asn : Asn1c) (files : Files) (code : Int32)
    (bytes : ByteStream) (d : DataTxt) :
    Avoids .signedOverflow (InapMessage.ofBytes asn files code bytes d) := by
  rw [InapMessage.ofBytes]
  refine avoids_ite ?_ (avoids_ok _)
  cases hdec : asn.decodeInitialDPArg bytes with
  | none =>
      rw [InapMessage.decodeInitialDP, hdec]
      exact avoids_ok _
  | some arg =>
      cases hcpn : arg.calledPartyNumber with
      | none =>
          rw [InapMessage.decodeInitialDP, hdec]
          simp only [hcpn, Option.isNone_none, if_true]
          exact avoids_ok _
      | some o =>
          rw [decodeInitialDP_eq hdec hcpn]
          refine avoids_ite (avoids_ite (avoids_ite ?_ ?_) ?_) ?_
          · exact avoids_ok _
          · exact avoids_error (by decide)
          · exact avoids_ok _
          · exact avoids_error (by decide)

private theorem sendMsg_avoids (m : ByteStream) (p : UInt8) (n : UInt16) :
    Avoids .signedOverflow (sendMsg m p n) :=
  avoids_ite (avoids_error outOfBounds_ne) (avoids_ok _)

private theorem encodeSccp_avoids (t c g : ByteStream) :
    Avoids .signedOverflow (SccpMessage.encodeSccp t c g) := by
  rw [SccpMessage.encodeSccp]
  refine (avoids_copyRange outOfBounds_ne _ _ _ _).bind fun called => ?_
  refine (avoids_copyRange outOfBounds_ne _ _ _ _).bind fun calling => ?_
  exact avoids_copyRange outOfBounds_ne _ _ _ _

private theorem find_avoids (sqlite : CString → Sqlite) (number : CString) :
    Avoids .signedOverflow (Database.find sqlite number) := by
  rw [Database.find]
  cases sqlite (Database.sql number) with
  | PREPARE_ERROR | DONE | STEP_ERROR => exact avoids_ok _
  | ROW text =>
      cases text with
      | none => exact avoids_error (by decide)
      | some transNum => exact avoids_ok _

private theorem buildReply_avoids (env : Env) (q : Request) :
    Avoids .signedOverflow (buildReply env q) := by
  rw [buildReply]
  refine avoids_ite (avoids_ok _) ((find_avoids _ _).bind fun newNum => ?_)
  refine avoids_ite (avoids_ok _) (Avoids.bind ?_ fun sccpStream => ?_)
  · exact encodeSccp_avoids _ _ _
  · exact avoids_ite (avoids_ok _) (avoids_ok _)

/-! ## Where the addition overflows -/

private theorem decodeRequest_overflow_iff {env : Env} {dataTxt : DataTxt} {m : M3UAmessage} :
    decodeRequest env dataTxt m = .error .signedOverflow ↔
      ∃ m3ua sccp cut tcap, m.decodePayload = .ok m3ua ∧
        SccpMessage.ofBytes m3ua.getPayload = .ok sccp ∧ sccp.valid = true ∧
        sccp.decodeSccp = .ok cut ∧ TcapMessage.ofBytes env.asn cut.getData = .ok tcap ∧
        tcap.invokeId = Int32.maxValue := by
  rw [decodeRequest]
  rw [(decodePayload_avoids m).bind_eq_error]
  refine exists_congr fun m3ua => ?_
  rw [(sccp_ofBytes_avoids _).bind_eq_error]
  simp only [exists_and_left]
  refine and_congr_right fun _ => exists_congr fun sccp => and_congr_right fun _ => ?_
  by_cases hvalid : sccp.valid = true
  · rw [if_pos hvalid, (decodeSccp_avoids sccp).bind_eq_error]
    simp only [hvalid, true_and]
    refine exists_congr fun cut => and_congr_right fun _ => ?_
    rw [(tcap_ofBytes_avoids _ _).bind_eq_error]
    refine exists_congr fun tcap => and_congr_right fun _ => ?_
    rw [bind_eq_error_of_avoids, nextInvokeId_overflow]
    exact fun invokeID => (inap_ofBytes_avoids _ _ _ _ _).bind fun inap => avoids_ok _
  · rw [if_neg hvalid]
    refine iff_of_false (avoids_ok _) ?_
    rintro ⟨h, -⟩
    exact hvalid h

private theorem handleData_overflow_iff {env : Env} {dataTxt : DataTxt} {m : M3UAmessage} :
    handleData env dataTxt m = .error .signedOverflow ↔
      decodeRequest env dataTxt m = .error .signedOverflow := by
  rw [handleData]
  rw [bind_eq_error_of_avoids]
  rintro ⟨q, d⟩
  cases q with
  | none => exact avoids_ok _
  | some q =>
      refine (buildReply_avoids env q).bind fun m3uaStream => avoids_ite (avoids_ok _) ?_
      exact (sendMsg_avoids _ _ _).bind fun s => avoids_ok _

/-- **Which messages run into the overflow**: those whose TCAP message leaves the
    greatest `int` as its invoke identifier. -/
theorem handleMessage_overflow_iff {env : Env} {dataTxt : DataTxt} {b : ByteStream} :
    handleMessage env dataTxt b = .error .signedOverflow ↔
      ∃ data tcap, sccpUserData b = .ok data ∧ TcapMessage.ofBytes env.asn data = .ok tcap ∧
        tcap.invokeId = Int32.maxValue := by
  constructor
  · intro h
    rcases handleMessage_cases b with ⟨-, hrun⟩ | ⟨hb, hrun⟩ | ⟨-, -, hrun⟩
    · rw [hrun] at h
      exact absurd h (avoids_ok _)
    · rw [hrun, handleData_overflow_iff, decodeRequest_overflow_iff] at h
      obtain ⟨m, sccp, cut, tcap, hm, hsccp, hvalid, hcut, htcap, hmax⟩ := h
      exact ⟨cut.getData, tcap,
        sccpUserData_eq_ok.mpr ⟨hb, m, sccp, cut, hm, hsccp, hvalid, hcut, rfl⟩, htcap, hmax⟩
    · rw [hrun] at h
      exact absurd h (avoids_ok _)
  · rintro ⟨data, tcap, hdata, htcap, hmax⟩
    obtain ⟨hb, m, sccp, cut, hm, hsccp, hvalid, hcut, rfl⟩ := sccpUserData_eq_ok.mp hdata
    rw [handleMessage_of_isData hb, handleData_overflow_iff, decodeRequest_overflow_iff]
    exact ⟨m, sccp, cut, tcap, hm, hsccp, hvalid, hcut, htcap, hmax⟩

/-! ## The identifier of the End -/

section Invoke

variable {env : Env} {dataTxt : DataTxt} {b data : ByteStream} {begin_ : Begin}
  {invoke : Invoke}

/-- The constructor narrows the identifier. -/
private theorem ofBytes_invokeId
    (hbegin : env.asn.decodeTCMessage data = some (.PR_begin begin_))
    (hcomp : begin_.components = some [.PR_invoke invoke]) {tcap : TcapMessage}
    (h : TcapMessage.ofBytes env.asn data = .ok tcap) :
    tcap.invokeId.toInt = invoke.invokeID.toInt.bmod (2 ^ 32) := by
  obtain ⟨t, -, rfl⟩ := (ofBytes_invoke hbegin hcomp).mp h
  rw [takeInvoke_eq]
  exact Int64.toInt_toInt32 _

/-- **The identifier a reply carries**: that of the request, narrowed to an
    `int`, and one more. -/
theorem carriesEnd_invokeId {s : Sent} {e : End} (h : CarriesEnd env dataTxt b s e)
    (hdata : sccpUserData b = .ok data)
    (hbegin : env.asn.decodeTCMessage data = some (.PR_begin begin_))
    (hcomp : begin_.components = some [.PR_invoke invoke]) :
    ∃ answer, e.components = some [.PR_invoke answer] ∧
      answer.invokeID.toInt = invoke.invokeID.toInt.bmod (2 ^ 32) + 1 := by
  obtain ⟨q, newNum, sccpStream, hrun, rfl, -⟩ := h
  obtain ⟨htcap, hnext⟩ := hrun.tcap hdata
  refine ⟨_, rfl, ?_⟩
  rw [Int32.toInt_toInt64, nextInvokeId_eq_ok.mp hnext, ofBytes_invokeId hbegin hcomp htcap]

/-- A request runs into the overflow when its identifier is the greatest `int`
    modulo 2^32, and the constructor gets past its transaction identifier. -/
theorem overflow_iff_invokeId (hdata : sccpUserData b = .ok data)
    (hbegin : env.asn.decodeTCMessage data = some (.PR_begin begin_))
    (hcomp : begin_.components = some [.PR_invoke invoke]) :
    handleMessage env dataTxt b = .error .signedOverflow ↔
      4 ≤ begin_.otid.buf.length ∧ invoke.invokeID.toInt % 2 ^ 32 = 2 ^ 31 - 1 := by
  have hmax : ∀ tcap, TcapMessage.ofBytes env.asn data = .ok tcap →
      (tcap.invokeId = Int32.maxValue ↔ invoke.invokeID.toInt % 2 ^ 32 = 2 ^ 31 - 1) := by
    intro tcap htcap
    have hnarrow := ofBytes_invokeId hbegin hcomp htcap
    rw [← Int32.toInt_inj, hnarrow, show (Int32.maxValue).toInt = 2 ^ 31 - 1 from rfl,
      Int.bmod_def]
    omega
  rw [handleMessage_overflow_iff]
  constructor
  · rintro ⟨data', tcap, hdata', htcap, hid⟩
    rw [hdata] at hdata'
    rw [← Except.ok.inj hdata'] at htcap
    obtain ⟨t, ht, -⟩ := (ofBytes_invoke hbegin hcomp).mp htcap
    exact ⟨transactionIdOf_isOk.mp ⟨t, ht⟩, (hmax tcap htcap).mp hid⟩
  · rintro ⟨hbuf, hid⟩
    obtain ⟨t, ht⟩ := transactionIdOf_isOk.mpr hbuf
    have htcap := (ofBytes_invoke hbegin hcomp).mpr ⟨t, ht, rfl⟩
    exact ⟨data, _, hdata, htcap, (hmax _ htcap).mpr hid⟩

end Invoke

end ProtoVscp
