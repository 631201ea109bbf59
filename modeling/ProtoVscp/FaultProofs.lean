import ProtoVscp.InvokeIdProofs
import ProtoVscp.ReplySizeProofs
import ProtoVscp.ServerRunProofs

/-! # How the server stops

    Nothing catches an exception of the main loop, so a message that has one
    thrown ends the process; undefined behaviour is counted as its end too.
    `Stops` lists the ways there are, stage by stage, each by what the message,
    the codecs, the file system and the database hold; `handleMessage_fault_iff`
    says that there is no other way, and `main_fault_iff` which fault a whole run
    ends in. -/

namespace ProtoVscp

open CheckedLoops SkipScan EventLoop M3UAmessage

/-! ## The faults of the stages -/

/-- A read past the end is the only fault of `decodePayload`. -/
private theorem decodePayload_fault {m : M3UAmessage} {fault : Fault}
    (h : m.decodePayload = .error fault) : fault = .outOfBounds := by
  refine eq_of_avoids (fun e he => ?_) h
  have hread : ∀ i, Avoids e (octetAt m.m_msg i) := avoids_readAt he.symm m.m_msg
  have htag : ∀ i, Avoids e (isProtocolDataTag m.m_msg i) := by
    intro i
    rw [isProtocolDataTag]
    exact (hread i).bind fun b => avoids_ite
      ((hread (i + 1)).bind fun c => avoids_ok _) (avoids_ok _)
  have htake : ∀ i s, Avoids e (takeProtocolData m.m_msg i s) := by
    intro i s
    rw [takeProtocolData]
    refine (hread (i + 3)).bind fun len => ?_
    exact (avoids_readRange he.symm _ _ _ _ _ _).bind fun t =>
      avoids_readRange he.symm _ _ _ _ _ _
  rw [decodePayload]
  refine avoids_ite (avoids_ok _) (avoids_forUntil (fun i s => ?_) _ _ _)
  rw [scanRound]
  exact (htag i).bind fun hit => avoids_ite ((htake i s).bind fun t => avoids_ok _)
    (avoids_ok _)

/-- The search faults when it leaves the message. -/
private theorem decodePayload_eq_error {b : ByteStream} {fault : Fault} :
    (fresh .TM_DATA b).decodePayload = .error fault ↔
      ¬ ScanSafe b ∧ fault = .outOfBounds := by
  constructor
  · intro h
    refine ⟨fun hsafe => ?_, decodePayload_fault h⟩
    have hok := (decodePayload_eq_ok (m := fresh .TM_DATA b) rfl).mpr ⟨hsafe, rfl⟩
    rw [hok] at h
    cases h
  · rintro ⟨hnotSafe, rfl⟩
    cases hrun : (fresh .TM_DATA b).decodePayload with
    | error fault => rw [decodePayload_fault hrun]
    | ok m => exact absurd ((decodePayload_eq_ok rfl).mp hrun).1 hnotSafe

/-- The constructor of the SCCP layer needs an octet. -/
private theorem sccp_ofBytes_eq_error {p : ByteStream} {fault : Fault} :
    SccpMessage.ofBytes p = .error fault ↔ p = [] ∧ fault = .outOfBounds := by
  cases p with
  | nil =>
      show Except.error Fault.outOfBounds = _ ↔ _
      rw [Except.error.injEq]
      exact ⟨fun h => ⟨rfl, h.symm⟩, fun h => h.2.symm⟩
  | cons x rest =>
      rw [sccp_ofBytes_cons]
      refine iff_of_false (fun h => ?_) (fun h => List.cons_ne_nil _ _ h.1)
      cases h

private theorem decodeSccp_fault {m : SccpMessage} {fault : Fault}
    (h : m.decodeSccp = .error fault) : fault = .outOfBounds := by
  refine eq_of_avoids (fun e he => ?_) h
  have hread : ∀ i, Avoids e (octetAt m.m_msg i) := avoids_readAt he.symm m.m_msg
  have hcopy : ∀ lo hi out, Avoids e (copyRange Fault.outOfBounds m.m_msg lo hi out) :=
    avoids_copyRange he.symm m.m_msg
  rw [SccpMessage.decodeSccp]
  refine (hread 2).bind fun called => (hread 3).bind fun calling =>
    (hread 4).bind fun data => ?_
  exact (hcopy _ _ _).bind fun calledAddress => (hcopy _ _ _).bind fun callingAddress =>
    (hcopy _ _ _).bind fun payload => avoids_ok _

/-- Pointers that lead outside are the only fault of the cutting. -/
private theorem decodeSccp_eq_error {p : ByteStream} {fault : Fault} :
    (SccpMessage.fresh .VALID p).decodeSccp = .error fault ↔
      ¬ RangesInside p ∧ fault = .outOfBounds := by
  constructor
  · intro h
    refine ⟨fun hin => ?_, decodeSccp_fault h⟩
    rw [decodeSccp_eq_ok.mpr ⟨hin, rfl⟩] at h
    cases h
  · rintro ⟨hout, rfl⟩
    cases hrun : (SccpMessage.fresh .VALID p).decodeSccp with
    | error fault => rw [decodeSccp_fault hrun]
    | ok cut => exact absurd (decodeSccp_eq_ok.mp hrun).1 hout

/-- The fault at a transaction identifier for which fewer than four octets are
    allocated: `otid.buf` is null, or read past its end. -/
def otidFault (otid : OCTET_STRING) : Fault :=
  if otid.buf = [] then .nullDeref else .outOfBounds

private theorem transactionIdOf_eq_error {otid : OCTET_STRING} {fault : Fault} :
    TcapMessage.transactionIdOf otid = .error fault ↔
      otid.buf.length < 4 ∧ fault = otidFault otid := by
  have hfault : ∀ {e}, TcapMessage.transactionIdOf otid = .error e → e = otidFault otid := by
    refine fun h => eq_of_avoids (fun e he => ?_) h
    rw [otidFault] at he
    rw [TcapMessage.transactionIdOf]
    by_cases hnil : otid.buf = []
    · rw [if_pos hnil] at he ⊢
      exact avoids_error he.symm
    · rw [if_neg hnil] at he ⊢
      have hread : ∀ i, Avoids e (octetAt otid.buf i) := avoids_readAt he.symm otid.buf
      exact (hread 0).bind fun b0 => (hread 1).bind fun b1 => (hread 2).bind fun b2 =>
        (hread 3).bind fun b3 => avoids_ok _
  cases hrun : TcapMessage.transactionIdOf otid with
  | ok t =>
      have hlen := transactionIdOf_isOk.mp ⟨t, hrun⟩
      exact iff_of_false (avoids_ok t) (by omega)
  | error e =>
      have hlen : otid.buf.length < 4 := by
        by_contra hge
        obtain ⟨t, ht⟩ := transactionIdOf_isOk.mpr (Nat.le_of_not_lt hge)
        rw [hrun] at ht
        cases ht
      rw [hfault hrun, Except.error.injEq]
      exact ⟨fun h => ⟨hlen, h.symm⟩, fun h => h.2.symm⟩

/-- A Begin stops the constructor when its transaction identifier was allocated
    less than four octets, or it has no component portion. -/
private theorem takeBegin_eq_error {begin_ : Begin} {m : TcapMessage} {fault : Fault} :
    TcapMessage.takeBegin begin_ m = .error fault ↔
      begin_.otid.buf.length < 4 ∧ fault = otidFault begin_.otid ∨
        4 ≤ begin_.otid.buf.length ∧ begin_.components = none ∧ fault = .nullDeref := by
  rw [TcapMessage.takeBegin, bind_eq_error, transactionIdOf_eq_error]
  refine or_congr_right ?_
  cases hcomp : begin_.components with
  | none =>
      rw [← transactionIdOf_isOk]
      constructor
      · rintro ⟨t, ht, h⟩
        exact ⟨⟨t, ht⟩, rfl, (Except.error.inj h).symm⟩
      · rintro ⟨⟨t, ht⟩, -, rfl⟩
        exact ⟨t, ht, rfl⟩
  | some components =>
      refine iff_of_false ?_ (fun h => absurd h.2.1 (Option.some_ne_none _))
      rintro ⟨t, ht, h⟩
      have hok : TcapMessage.takeBegin begin_ m = .ok _ :=
        takeBegin_eq_ok.mpr ⟨t, components, ht, hcomp, rfl⟩
      rw [TcapMessage.takeBegin, ht, ok_bind, hcomp, h] at hok
      cases hok

/-- The constructor of the TCAP layer stops at a Begin only. -/
theorem tcap_ofBytes_eq_error {asn : Asn1c} {data : ByteStream} {fault : Fault} :
    TcapMessage.ofBytes asn data = .error fault ↔
      ∃ begin_, asn.decodeTCMessage data = some (.PR_begin begin_) ∧
        (begin_.otid.buf.length < 4 ∧ fault = otidFault begin_.otid ∨
          4 ≤ begin_.otid.buf.length ∧ begin_.components = none ∧ fault = .nullDeref) := by
  simp only [← takeBegin_eq_error (m := TcapMessage.empty)]
  rw [TcapMessage.ofBytes]
  cases asn.decodeTCMessage data with
  | none =>
      refine iff_of_false (avoids_ok _) ?_
      rintro ⟨begin_, h, -⟩
      cases h
  | some msg =>
      constructor
      · intro h
        cases msg with
        | PR_unidirectional | PR_end _ | PR_continue | PR_abort => exact absurd h (avoids_ok _)
        | PR_begin begin_ => exact ⟨begin_, rfl, h⟩
      · rintro ⟨begin_, hbegin, h⟩
        rw [Option.some.inj hbegin]
        exact h

/-- The constructor of the INAP layer stops at an InitialDP with a called number:
    when `data.txt` cannot be written, and when it can be read back and the number
    is too short or too long. -/
private theorem inap_ofBytes_eq_error {asn : Asn1c} {files : Files} {code : Int32}
    {bytes : ByteStream} {dataTxt : DataTxt} {fault : Fault} :
    InapMessage.ofBytes asn files code bytes dataTxt = .error fault ↔
      code = 0 ∧ ∃ arg o, asn.decodeInitialDPArg bytes = some arg ∧
        arg.calledPartyNumber = some o ∧
        (files.fopen = false ∧ fault = .nullDeref ∨
          files.fopen = true ∧ files.open_ = true ∧ ¬ (3 ≤ o.length ∧ o.length ≤ 16) ∧
            fault = .outOfRange) := by
  rw [InapMessage.ofBytes]
  by_cases hcode : code = 0
  · rw [if_pos hcode]
    cases hdec : asn.decodeInitialDPArg bytes with
    | none =>
        rw [InapMessage.decodeInitialDP, hdec]
        refine iff_of_false (avoids_ok _) ?_
        rintro ⟨-, arg, o, h, -⟩
        cases h
    | some arg =>
        cases hcpn : arg.calledPartyNumber with
        | none =>
            rw [InapMessage.decodeInitialDP, hdec]
            simp only [hcpn, Option.isNone_none, if_true]
            refine iff_of_false (avoids_ok _) ?_
            rintro ⟨-, arg', o, h, h', -⟩
            rw [← Option.some.inj h, hcpn] at h'
            cases h'
        | some o =>
            have hone : ∀ P : ByteStream → Prop, (code = 0 ∧ ∃ arg' o', some arg = some arg' ∧
                arg'.calledPartyNumber = some o' ∧ P o') ↔ P o := by
              intro P
              constructor
              · rintro ⟨-, arg', o', h, h', hP⟩
                rw [← Option.some.inj h, hcpn] at h'
                rw [Option.some.inj h']
                exact hP
              · exact fun hP => ⟨hcode, arg, o, rfl, hcpn, hP⟩
            rw [hone, decodeInitialDP_eq hdec hcpn]
            cases files.fopen
            · simp only [Bool.false_eq_true, if_false, Except.error.injEq, true_and,
                false_and, or_false]
              exact eq_comm
            · cases files.open_
              · simp
              · by_cases hlen : 3 ≤ o.length ∧ o.length ≤ 16
                · simp [hlen]
                · simp only [hlen, if_true, if_false, Except.error.injEq, not_false_eq_true,
                    true_and, Bool.true_eq_false, false_and, false_or]
                  exact eq_comm
  · rw [if_neg hcode]
    exact iff_of_false (avoids_ok _) (fun h => hcode h.1)

private theorem find_eq_error {sqlite : CString → Sqlite} {number : CString}
    {fault : Fault} :
    Database.find sqlite number = .error fault ↔
      sqlite (Database.sql number) = .ROW none ∧ fault = .logicError := by
  rw [Database.find]
  cases sqlite (Database.sql number) with
  | PREPARE_ERROR | DONE | STEP_ERROR =>
      exact iff_of_false (avoids_ok _) (fun h => by cases h.1)
  | ROW text =>
      cases text with
      | none =>
          rw [Except.error.injEq]
          exact ⟨fun h => ⟨rfl, h.symm⟩, fun h => h.2.symm⟩
      | some transNum => exact iff_of_false (avoids_ok _) (fun h => by cases h.1)

private theorem encodeSccp_fault {t c g : ByteStream} {fault : Fault}
    (h : SccpMessage.encodeSccp t c g = .error fault) : fault = .outOfBounds := by
  refine eq_of_avoids (fun e he => ?_) h
  have hcopy : ∀ (xs : ByteStream) lo hi out,
      Avoids e (copyRange Fault.outOfBounds xs lo hi out) := avoids_copyRange he.symm
  rw [SccpMessage.encodeSccp]
  exact (hcopy _ _ _ _).bind fun called => (hcopy _ _ _ _).bind fun calling => hcopy _ _ _ _

/-! ## How far a message gets -/

/-- The UDT message in `b` is found and cut. -/
structure Cuts (b : ByteStream) : Prop where
  isData : IsData b
  scanSafe : ScanSafe b
  isUdt : (udtIn b)[0]? = some 0x09
  inside : RangesInside (udtIn b)

/-- The TCAP message of `b` is decoded to `tcap`. -/
structure Reads (env : Env) (b : ByteStream) (tcap : TcapMessage) : Prop extends Cuts b where
  decoded : TcapMessage.ofBytes env.asn (cutAt (udtIn b)).getData = .ok tcap

/-- It calls InitialDP with the called party number `o`. -/
structure Calls (env : Env) (b : ByteStream) (tcap : TcapMessage) (o : ByteStream) : Prop
    extends Reads env b tcap where
  invokeId : tcap.invokeId ≠ Int32.maxValue
  code : tcap.operationLocalCode = 0
  number : ∃ arg, env.asn.decodeInitialDPArg tcap.parameterData = some arg ∧
    arg.calledPartyNumber = some o

/-- The number comes back out of `data.txt`. -/
structure Asks (env : Env) (b : ByteStream) (tcap : TcapMessage) (o : ByteStream) : Prop
    extends Calls env b tcap o where
  fopen : env.files.fopen = true
  open_ : env.files.open_ = true
  digits : 3 ≤ o.length ∧ o.length ≤ 16

/-- The database translates it to `newNum`. -/
structure Gets (env : Env) (b : ByteStream) (tcap : TcapMessage) (o : ByteStream)
    (newNum : CString) : Prop extends Asks env b tcap o where
  found : Database.find env.sqlite (addressSignals o).dropLast = .ok newNum
  newNum_ne : newNum ≠ []

/-- The called party address does not stand behind the calling one, nor that behind
    the data. -/
def Ascending (b : ByteStream) : Prop :=
  pointerAt (udtIn b) 2 ≤ pointerAt (udtIn b) 3 ∧ pointerAt (udtIn b) 3 ≤ pointerAt (udtIn b) 4

/-- **The ways a message stops the server.**  Each constructor is one fault of
    one stage, and says how far the message gets. -/
inductive Stops (env : Env) (b : ByteStream) : Fault → Prop where
  | scan : IsData b → ¬ ScanSafe b → Stops env b .outOfBounds
  | noUserData : IsData b → ScanSafe b → udtIn b = [] → Stops env b .outOfBounds
  | pointers : IsData b → ScanSafe b → (udtIn b)[0]? = some 0x09 →
      ¬ RangesInside (udtIn b) → Stops env b .outOfBounds
  | otid {begin_ : Begin} : Cuts b →
      env.asn.decodeTCMessage (cutAt (udtIn b)).getData = some (.PR_begin begin_) →
      begin_.otid.buf.length < 4 → Stops env b (otidFault begin_.otid)
  | components {begin_ : Begin} : Cuts b →
      env.asn.decodeTCMessage (cutAt (udtIn b)).getData = some (.PR_begin begin_) →
      4 ≤ begin_.otid.buf.length → begin_.components = none → Stops env b .nullDeref
  | invokeId {tcap : TcapMessage} : Reads env b tcap → tcap.invokeId = Int32.maxValue →
      Stops env b .signedOverflow
  | fopen {tcap : TcapMessage} {o : ByteStream} : Calls env b tcap o →
      env.files.fopen = false → Stops env b .nullDeref
  | digits {tcap : TcapMessage} {o : ByteStream} : Calls env b tcap o →
      env.files.fopen = true → env.files.open_ = true →
      ¬ (3 ≤ o.length ∧ o.length ≤ 16) → Stops env b .outOfRange
  | nullText {tcap : TcapMessage} {o : ByteStream} : Asks env b tcap o →
      env.sqlite (Database.sql (addressSignals o).dropLast) = .ROW none →
      Stops env b .logicError
  | addresses {tcap : TcapMessage} {o : ByteStream} {newNum : CString} :
      Gets env b tcap o newNum → ¬ Ascending b → Stops env b .outOfBounds
  | overrun {tcap : TcapMessage} {o : ByteStream} {newNum : CString} :
      Gets env b tcap o newNum → Ascending b →
      1004 < replySize b (tcap.invokeId + 1) newNum →
      replySize b (tcap.invokeId + 1) newNum % 4294967296 ≠ 0 → Stops env b .outOfBounds

/-! ## Up to the TCAP message -/

/-- The object of the SCCP layer that is valid. -/
private theorem sccp_ofBytes_udt {p : ByteStream} (h : p[0]? = some 0x09) :
    SccpMessage.ofBytes p = .ok (SccpMessage.fresh .VALID p) := by
  cases p with
  | nil => cases h
  | cons x rest =>
      have hx : x = 0x09 := Option.some.inj h
      rw [sccp_ofBytes_cons, hx]
      rfl

/-- The part of `decodeRequest` behind the UDT message. -/
def requestOf (env : Env) (dataTxt : DataTxt) (b : ByteStream) :
    Outcome (Option Request × DataTxt) := do
  let tcap ← TcapMessage.ofBytes env.asn (cutAt (udtIn b)).getData
  let invokeID ← nextInvokeId tcap.invokeId
  let (inapMsg, dataTxt) ← InapMessage.ofBytes env.asn env.files
    tcap.operationLocalCode tcap.parameterData dataTxt
  .ok (some
    { incomingM3uaMsg := collect b (fresh .TM_DATA b) (tagHits b)
      incomingSccp := cutAt (udtIn b)
      incomingTcap := tcap
      invokeID := invokeID
      inapMsg := inapMsg }, dataTxt)

theorem decodeRequest_of_cuts {b : ByteStream} (h : Cuts b) (env : Env)
    (dataTxt : DataTxt) :
    decodeRequest env dataTxt (fresh .TM_DATA b) = requestOf env dataTxt b := by
  have hscan : (fresh .TM_DATA b).decodePayload
      = .ok (collect b (fresh .TM_DATA b) (tagHits b)) :=
    (decodePayload_eq_ok rfl).mpr ⟨h.scanSafe, rfl⟩
  have hcut : (SccpMessage.fresh .VALID (udtIn b)).decodeSccp = .ok (cutAt (udtIn b)) :=
    decodeSccp_eq_ok.mpr ⟨h.inside, rfl⟩
  have hvalid : (SccpMessage.fresh .VALID (udtIn b)).valid = true := rfl
  rw [decodeRequest, hscan, ok_bind, collect_fresh_getPayload]
  show (SccpMessage.ofBytes (udtIn b) >>= _) = _
  rw [sccp_ofBytes_udt h.isUdt, ok_bind, if_pos hvalid, hcut]
  rfl

/-- What becomes of a DATA message whose UDT message is not cut. -/
private theorem decodeRequest_of_not_cuts {b : ByteStream} (hb : IsData b) (h : ¬ Cuts b)
    (env : Env) (dataTxt : DataTxt) {fault : Fault} :
    decodeRequest env dataTxt (fresh .TM_DATA b) = .error fault ↔
      fault = .outOfBounds ∧ (¬ ScanSafe b ∨ ScanSafe b ∧ udtIn b = [] ∨
        ScanSafe b ∧ (udtIn b)[0]? = some 0x09 ∧ ¬ RangesInside (udtIn b)) := by
  rw [decodeRequest, bind_eq_error, decodePayload_eq_error]
  by_cases hsafe : ScanSafe b
  · have hscan : (fresh .TM_DATA b).decodePayload
        = .ok (collect b (fresh .TM_DATA b) (tagHits b)) :=
      (decodePayload_eq_ok rfl).mpr ⟨hsafe, rfl⟩
    simp only [hsafe, not_true_eq_false, false_and, false_or, true_and, hscan,
      Except.ok.injEq, exists_eq_left', collect_fresh_getPayload]
    show (SccpMessage.ofBytes (udtIn b) >>= _) = _ ↔ _
    rw [bind_eq_error, sccp_ofBytes_eq_error]
    by_cases hudt : (udtIn b)[0]? = some 0x09
    · have hout : ¬ RangesInside (udtIn b) := fun hin => h ⟨hb, hsafe, hudt, hin⟩
      have hne : udtIn b ≠ [] := by
        intro h0
        rw [h0] at hudt
        cases hudt
      have hvalid : (SccpMessage.fresh .VALID (udtIn b)).valid = true := rfl
      have hcut : (SccpMessage.fresh .VALID (udtIn b)).decodeSccp = .error .outOfBounds :=
        decodeSccp_eq_error.mpr ⟨hout, rfl⟩
      simp only [hne, hudt, hout, false_and, false_or, sccp_ofBytes_udt hudt,
        Except.ok.injEq, exists_eq_left', if_pos hvalid, hcut, error_bind,
        Except.error.injEq, not_false_eq_true, and_self, and_true]
      exact eq_comm
    · simp only [hudt, false_and, or_false]
      rw [and_comm]
      refine or_iff_left ?_
      rintro ⟨sccp, hsccp, herr⟩
      by_cases hvalid : sccp.valid = true
      · exact hudt (sccp_ofBytes_valid hsccp hvalid).1
      · rw [if_neg hvalid] at herr
        exact avoids_ok _ herr
  · simp only [hsafe, not_false_eq_true, true_and, false_and, or_false, and_true]
    refine or_iff_left ?_
    rintro ⟨m, hm, -⟩
    exact hsafe ((decodePayload_eq_ok rfl).mp hm).1

/-! ## From the TCAP message to the number -/

private theorem nextInvokeId_eq_error {i : Int32} {fault : Fault} :
    nextInvokeId i = .error fault ↔ i = Int32.maxValue ∧ fault = .signedOverflow := by
  rw [nextInvokeId]
  by_cases h : i = Int32.maxValue
  · rw [if_pos h, Except.error.injEq]
    exact ⟨fun h0 => ⟨h, h0.symm⟩, fun h0 => h0.2.symm⟩
  · rw [if_neg h]
    exact iff_of_false (avoids_ok _) (fun h0 => h h0.1)

private theorem nextInvokeId_of_ne {i : Int32} (h : i ≠ Int32.maxValue) :
    nextInvokeId i = .ok (i + 1) := by
  rw [nextInvokeId, if_neg h]

private theorem requestOf_eq_error {env : Env} {dataTxt : DataTxt} {b : ByteStream}
    {fault : Fault} :
    requestOf env dataTxt b = .error fault ↔
      TcapMessage.ofBytes env.asn (cutAt (udtIn b)).getData = .error fault ∨
        ∃ tcap, TcapMessage.ofBytes env.asn (cutAt (udtIn b)).getData = .ok tcap ∧
          (tcap.invokeId = Int32.maxValue ∧ fault = .signedOverflow ∨
            tcap.invokeId ≠ Int32.maxValue ∧
              InapMessage.ofBytes env.asn env.files tcap.operationLocalCode
                tcap.parameterData dataTxt = .error fault) := by
  rw [requestOf, bind_eq_error]
  refine or_congr_right (exists_congr fun tcap => and_congr_right fun _ => ?_)
  rw [bind_eq_error, nextInvokeId_eq_error]
  refine or_congr_right ?_
  by_cases hmax : tcap.invokeId = Int32.maxValue
  · refine iff_of_false ?_ (fun h => h.1 hmax)
    rintro ⟨i, hi, -⟩
    rw [nextInvokeId, if_pos hmax] at hi
    cases hi
  · simp only [nextInvokeId_of_ne hmax, Except.ok.injEq, exists_eq_left', ne_eq, hmax,
      not_false_eq_true, true_and]
    exact bind_eq_error_of_avoids fun r => avoids_ok _

/-- The files a number needs to come back out of `data.txt`. -/
private theorem inap_files {asn : Asn1c} {files : Files} {code : Int32} {bytes : ByteStream}
    {dataTxt dataTxt' : DataTxt} {m : InapMessage}
    (h : InapMessage.ofBytes asn files code bytes dataTxt = .ok (m, dataTxt'))
    (hnum : m.getCalledPartyNumber ≠ []) :
    code = 0 ∧ files.fopen = true ∧ files.open_ = true := by
  obtain ⟨arg, o, hdec, hcpn, -⟩ := inap_number h hnum
  have hempty : ∀ {d : DataTxt}, (Except.ok (InapMessage.empty, d)
      : Outcome (InapMessage × DataTxt)) ≠ .ok (m, dataTxt') := by
    intro d h0
    apply hnum
    rw [← (ok_pair_inj h0).1]
    rfl
  rw [InapMessage.ofBytes] at h
  by_cases hcode : code = 0
  · rw [if_pos hcode, decodeInitialDP_eq hdec hcpn] at h
    refine ⟨hcode, ?_⟩
    cases hfopen : files.fopen with
    | false =>
        rw [hfopen] at h
        cases h
    | true =>
        rw [hfopen, if_pos rfl] at h
        cases hopen : files.open_ with
        | false =>
            rw [hopen, if_neg (by decide)] at h
            exact absurd h hempty
        | true => exact ⟨rfl, rfl⟩
  · rw [if_neg hcode] at h
    exact absurd h hempty

section Requests

variable {env : Env} {dataTxt : DataTxt} {b : ByteStream}

/-- The UDT message of a request is cut. -/
theorem Requests.cuts {q : Request} (h : Requests env dataTxt b q) : Cuts b := by
  obtain ⟨dataTxt', hreq⟩ := h.decoded
  obtain ⟨-, ⟨sccp, hsccp, hvalid, -⟩, -⟩ := decodeRequest_some hreq
  obtain ⟨hsafe, hm3ua⟩ := h.m3ua
  rw [hm3ua, collect_fresh_getPayload] at hsccp
  exact ⟨h.isData, hsafe, (sccp_ofBytes_valid hsccp hvalid).1, h.cut.1⟩

/-- A request that asks for a number asks for the digits of an InitialDP. -/
theorem Requests.asks {q : Request} (h : Requests env dataTxt b q) :
    ∃ o, Asks env b q.incomingTcap o ∧
      q.inapMsg.getCalledPartyNumber = (addressSignals o).dropLast ∧
      q.invokeID = q.incomingTcap.invokeId + 1 := by
  obtain ⟨dataTxt', hreq⟩ := h.decoded
  obtain ⟨-, -, htcap, hnext, hinap⟩ := decodeRequest_some hreq
  obtain ⟨arg, o, hdec, hcpn, hlo, hhi, hnum⟩ := inap_number hinap h.called
  obtain ⟨hcode, hfopen, hopen⟩ := inap_files hinap h.called
  rw [h.cut.2] at htcap
  have hmax : q.incomingTcap.invokeId ≠ Int32.maxValue := by
    intro hmax
    rw [nextInvokeId_overflow.mpr hmax] at hnext
    cases hnext
  rw [nextInvokeId_of_ne hmax] at hnext
  exact ⟨o, ⟨⟨⟨h.cuts, htcap⟩, hmax, hcode, arg, hdec, hcpn⟩, hfopen, hopen, hlo, hhi⟩,
    hnum, (Except.ok.inj hnext).symm⟩

/-- And the digits of an InitialDP are asked for. -/
theorem Asks.requests {tcap : TcapMessage} {o : ByteStream} (h : Asks env b tcap o)
    (dataTxt : DataTxt) :
    ∃ q, Requests env dataTxt b q ∧ q.incomingTcap = tcap ∧
      q.invokeID = tcap.invokeId + 1 ∧
      q.inapMsg.getCalledPartyNumber = (addressSignals o).dropLast := by
  obtain ⟨arg, hdec, hcpn⟩ := h.number
  have hne : (addressSignals o).dropLast ≠ [] := by
    intro h0
    have hlen := congrArg List.length h0
    rw [dropLast_addressSignals_length, List.length_nil] at hlen
    have := h.digits.1
    omega
  have hrun : requestOf env dataTxt b = .ok (some
      { incomingM3uaMsg := collect b (fresh .TM_DATA b) (tagHits b)
        incomingSccp := cutAt (udtIn b)
        incomingTcap := tcap
        invokeID := tcap.invokeId + 1
        inapMsg :=
          { InapMessage.empty with
            rawNum := calledLine o
            strCpn := (addressSignals o).dropLast } },
      if env.files.remove then none else some (asn_fprint arg)) := by
    rw [requestOf, h.decoded, ok_bind, nextInvokeId_of_ne h.invokeId, ok_bind,
      InapMessage.ofBytes, if_pos h.code, decodeInitialDP_eq hdec hcpn, if_pos h.fopen,
      if_pos h.open_, if_pos h.digits]
    rfl
  rw [← decodeRequest_of_cuts h.toCuts] at hrun
  exact ⟨_, ⟨h.isData, ⟨_, hrun⟩, hne⟩, rfl, rfl, rfl⟩

end Requests

/-! ## From the number to the reply -/

section Reply

variable {env : Env} {dataTxt : DataTxt} {b : ByteStream} {q : Request} {newNum : CString}
  {fault : Fault}

/-- The SCCP message of a reply is encoded when the pointers ascend. -/
theorem Requests.encodes (h : Requests env dataTxt b q) (newNum : CString) :
    Ascending b ↔ ∃ sccp, encodeReply env q newNum = .ok sccp := by
  constructor
  · intro hasc
    exact (h.ascending.mpr hasc).copies _
  · rintro ⟨sccp, henc⟩
    obtain ⟨hc, hg⟩ := encodeSccp_addresses henc
    obtain ⟨hin, hcut⟩ := h.cut
    obtain ⟨hcalled, hcalling⟩ := cut_address_length hin
    rw [hcut, ← List.length_pos_iff] at hc hg
    rw [Ascending]
    omega

/-- Behind the number a request stops at the database, or at its addresses. -/
private theorem Requests.buildReply_eq_error (h : Requests env dataTxt b q) :
    buildReply env q = .error fault ↔
      env.sqlite (Database.sql q.inapMsg.getCalledPartyNumber) = .ROW none ∧
          fault = .logicError ∨
        (∃ newNum, Answers env dataTxt b q newNum) ∧ ¬ Ascending b ∧ fault = .outOfBounds := by
  have hnum : ¬ q.inapMsg.getCalledPartyNumber.isEmpty = true := by
    rw [List.isEmpty_iff]
    exact h.called
  rw [buildReply, if_neg hnum, bind_eq_error, find_eq_error]
  refine or_congr_right ?_
  constructor
  · rintro ⟨newNum, hfound, herr⟩
    by_cases hnew : newNum.isEmpty = true
    · rw [if_pos hnew] at herr
      exact absurd herr (avoids_ok _)
    · rw [if_neg hnew, bind_eq_error_of_avoids (fun sccp => avoids_ite (avoids_ok _)
        (avoids_ok _))] at herr
      refine ⟨⟨newNum, h, hfound, fun h0 => hnew (List.isEmpty_iff.mpr h0)⟩, ?_,
        encodeSccp_fault herr⟩
      rintro hasc
      obtain ⟨sccp, henc⟩ := (h.encodes newNum).mp hasc
      rw [henc] at herr
      cases herr
  · rintro ⟨⟨newNum, hanswers⟩, hasc, rfl⟩
    have hnew : ¬ newNum.isEmpty = true := by
      rw [List.isEmpty_iff]
      exact hanswers.newNum_ne
    refine ⟨newNum, hanswers.found, ?_⟩
    rw [if_neg hnew]
    cases henc : encodeReply env q newNum with
    | ok sccp => exact absurd ((h.encodes newNum).mpr ⟨sccp, henc⟩) hasc
    | error fault =>
        rw [encodeSccp_fault henc]
        rfl

/-- What reaches `sendMsg` answers a request, and its size has not wrapped to 0. -/
theorem Requests.passes (h : Requests env dataTxt b q) {r : ByteStream}
    (hbuild : buildReply env q = .ok r) (hr : r ≠ []) :
    ∃ newNum, PassesToSend env dataTxt b q newNum r ∧
      replySizeOf b (replyEnd env q.invokeID q.incomingTcap.transactionId newNum)
        % 4294967296 ≠ 0 := by
  obtain ⟨newNum, sccp, -, hfound, henc, hmsg⟩ := buildReply_run hbuild hr
  have hnew : newNum ≠ [] := by
    rintro rfl
    have hnum : ¬ q.inapMsg.getCalledPartyNumber.isEmpty = true := by
      rw [List.isEmpty_iff]
      exact h.called
    rw [buildReply, if_neg hnum, hfound, ok_bind,
      if_pos (show ([] : CString).isEmpty = true from rfl)] at hbuild
    exact hr (Except.ok.inj hbuild).symm
  have hanswers : Answers env dataTxt b q newNum := ⟨h, hfound, hnew⟩
  refine ⟨newNum, ⟨hanswers, hbuild, hr⟩, ?_⟩
  intro hzero
  apply hr
  rw [hmsg]
  refine if_pos ?_
  show UInt32.ofNat (replyDataSize q sccp) = 0
  rw [hanswers.replyDataSize_eq henc, ← UInt32.toNat_inj, UInt32.toNat_ofNat']
  exact hzero

/-- And such an answer does reach it. -/
theorem Gets.passes {tcap : TcapMessage} {o : ByteStream} (h : Gets env b tcap o newNum)
    (hasc : Ascending b)
    (hsize : replySizeOf b (replyEnd env (tcap.invokeId + 1) tcap.transactionId newNum)
      % 4294967296 ≠ 0) (dataTxt : DataTxt) :
    ∃ q r, PassesToSend env dataTxt b q newNum r ∧ q.incomingTcap = tcap ∧
      q.invokeID = tcap.invokeId + 1 := by
  obtain ⟨q, hq, rfl, hid, hnum⟩ := h.requests dataTxt
  have hfound := h.found
  rw [← hnum] at hfound
  rw [← hid] at hsize
  obtain ⟨r, hr⟩ := Answers.passes ⟨hq, hfound, h.newNum_ne⟩ (hq.ascending.mpr hasc) hsize
  exact ⟨q, r, hr, rfl, hid⟩

/-- How far a message has got that is answered. -/
theorem Answers.gets (h : Answers env dataTxt b q newNum) :
    q.invokeID = q.incomingTcap.invokeId + 1 ∧ ∃ o, Gets env b q.incomingTcap o newNum := by
  obtain ⟨o, hasks, hnum, hid⟩ := h.requests.asks
  have hfound := h.found
  rw [hnum] at hfound
  exact ⟨hid, o, hasks, hfound, h.newNum_ne⟩

theorem PassesToSend.ascending {r : ByteStream} (h : PassesToSend env dataTxt b q newNum r) :
    Ascending b := by
  obtain ⟨newNum', sccp, -, -, henc, -⟩ := buildReply_run h.built h.ne_nil
  exact (h.answers.requests.encodes newNum').mpr ⟨sccp, henc⟩

end Reply

/-! ## One message -/

/-- A DATA message stops the server while its request is decoded, while the
    reply is built, or at the send buffer. -/
private theorem handleData_eq_error {env : Env} {dataTxt : DataTxt} {m : M3UAmessage}
    {fault : Fault} :
    handleData env dataTxt m = .error fault ↔
      decodeRequest env dataTxt m = .error fault ∨
        ∃ q dataTxt', decodeRequest env dataTxt m = .ok (some q, dataTxt') ∧
          (buildReply env q = .error fault ∨
            ∃ r, buildReply env q = .ok r ∧ 1024 < r.length ∧ fault = .outOfBounds) := by
  rw [handleData, bind_eq_error]
  refine or_congr_right ?_
  constructor
  · rintro ⟨⟨q, dataTxt'⟩, hreq, herr⟩
    cases q with
    | none => exact absurd herr (avoids_ok _)
    | some q =>
        refine ⟨q, dataTxt', hreq, ?_⟩
        rcases bind_eq_error.mp herr with hbuild | ⟨r, hbuild, herr⟩
        · exact Or.inl hbuild
        · by_cases hnil : r.length = 0
          · rw [if_pos hnil] at herr
            exact absurd herr (avoids_ok _)
          · rw [if_neg hnil, bind_eq_error_of_avoids (fun s => avoids_ok _), sendMsg] at herr
            by_cases hlong : r.length > 1024
            · rw [if_pos hlong] at herr
              exact Or.inr ⟨r, hbuild, hlong, (Except.error.inj herr).symm⟩
            · rw [if_neg hlong] at herr
              exact absurd herr (avoids_ok _)
  · rintro ⟨q, dataTxt', hreq, hstop⟩
    refine ⟨(some q, dataTxt'), hreq, ?_⟩
    rcases hstop with hbuild | ⟨r, hbuild, hlong, rfl⟩
    · exact bind_eq_error.mpr (Or.inl hbuild)
    · refine bind_eq_error.mpr (Or.inr ⟨r, hbuild, ?_⟩)
      rw [if_neg (show ¬ r.length = 0 by omega), sendMsg, if_pos hlong]
      rfl

section Message

variable {env : Env} {dataTxt : DataTxt} {b : ByteStream} {fault : Fault}

/-- A fault in front of the request. -/
private theorem stops_of_decode (hb : IsData b)
    (h : decodeRequest env dataTxt (fresh .TM_DATA b) = .error fault) : Stops env b fault := by
  by_cases hcuts : Cuts b
  · rw [decodeRequest_of_cuts hcuts, requestOf_eq_error] at h
    rcases h with htcap | ⟨tcap, htcap, ⟨hmax, rfl⟩ | ⟨hmax, hinap⟩⟩
    · obtain ⟨begin_, hbegin, ⟨hlen, rfl⟩ | ⟨hlen, hcomp, rfl⟩⟩ :=
        tcap_ofBytes_eq_error.mp htcap
      · exact .otid hcuts hbegin hlen
      · exact .components hcuts hbegin hlen hcomp
    · exact .invokeId ⟨hcuts, htcap⟩ hmax
    · obtain ⟨hcode, arg, o, hdec, hcpn, hfiles⟩ := inap_ofBytes_eq_error.mp hinap
      have hcalls : Calls env b tcap o := ⟨⟨hcuts, htcap⟩, hmax, hcode, arg, hdec, hcpn⟩
      rcases hfiles with ⟨hfopen, rfl⟩ | ⟨hfopen, hopen, hlen, rfl⟩
      · exact .fopen hcalls hfopen
      · exact .digits hcalls hfopen hopen hlen
  · rw [decodeRequest_of_not_cuts hb hcuts] at h
    obtain ⟨rfl, hnotSafe | ⟨hsafe, hnil⟩ | ⟨hsafe, hudt, hout⟩⟩ := h
    · exact .scan hb hnotSafe
    · exact .noUserData hb hsafe hnil
    · exact .pointers hb hsafe hudt hout

/-- A fault behind it. -/
private theorem stops_of_request (hder : env.asn.EncodesDer) (hb : IsData b) {q : Request}
    {dataTxt' : DataTxt}
    (hreq : decodeRequest env dataTxt (fresh .TM_DATA b) = .ok (some q, dataTxt'))
    (h : buildReply env q = .error fault ∨
      ∃ r, buildReply env q = .ok r ∧ 1024 < r.length ∧ fault = .outOfBounds) :
    Stops env b fault := by
  have hcalled : q.inapMsg.getCalledPartyNumber ≠ [] := by
    intro hnil
    have hnone : buildReply env q = .ok [] := by
      rw [buildReply, if_pos (List.isEmpty_iff.mpr hnil)]
    rw [hnone] at h
    rcases h with h | ⟨r, h, hlong, -⟩
    · cases h
    · rw [← Except.ok.inj h, List.length_nil] at hlong
      omega
  have hrequests : Requests env dataTxt b q := ⟨hb, ⟨dataTxt', hreq⟩, hcalled⟩
  rcases h with hbuild | ⟨r, hbuild, hlong, rfl⟩
  · rcases hrequests.buildReply_eq_error.mp hbuild with
      ⟨hrow, rfl⟩ | ⟨⟨newNum, hanswers⟩, hasc, rfl⟩
    · obtain ⟨o, hasks, hnum, -⟩ := hrequests.asks
      rw [hnum] at hrow
      exact .nullText hasks hrow
    · obtain ⟨-, o, hgets⟩ := hanswers.gets
      exact .addresses hgets hasc
  · have hne : r ≠ [] := by
      rintro rfl
      exact absurd hlong (by decide)
    obtain ⟨newNum, hpasses, hsize⟩ := hrequests.passes hbuild hne
    obtain ⟨hid, o, hgets⟩ := hpasses.answers.gets
    rw [hpasses.length_eq, replySizeOf_replyEnd hder, hid] at hlong
    rw [replySizeOf_replyEnd hder, hid] at hsize
    exact .overrun hgets hpasses.ascending (by omega) hsize

/-- **Which messages stop the server, and by which fault.** -/
theorem handleMessage_fault_iff (hder : env.asn.EncodesDer) :
    handleMessage env dataTxt b = .error fault ↔ Stops env b fault := by
  constructor
  · intro h
    rcases handleMessage_cases b with ⟨-, hrun⟩ | ⟨hb, hrun⟩ | ⟨-, -, hrun⟩
    · rw [hrun] at h
      exact absurd h (avoids_ok _)
    · rw [hrun, handleData_eq_error] at h
      rcases h with hdec | ⟨q, dataTxt', hreq, hstop⟩
      · exact stops_of_decode hb hdec
      · exact stops_of_request hder hb hreq hstop
    · rw [hrun] at h
      exact absurd h (avoids_ok _)
  · intro h
    -- a fault of the request is one of the message
    have hdecode : IsData b → decodeRequest env dataTxt (fresh .TM_DATA b) = .error fault →
        handleMessage env dataTxt b = .error fault := by
      intro hb hdec
      rw [handleMessage_of_isData hb]
      exact handleData_eq_error.mpr (Or.inl hdec)
    have hcut : Cuts b → requestOf env dataTxt b = .error fault →
        handleMessage env dataTxt b = .error fault := by
      intro hcuts hrun
      exact hdecode hcuts.isData (by rw [decodeRequest_of_cuts hcuts, hrun])
    have hbuild : ∀ q, Requests env dataTxt b q → buildReply env q = .error fault →
        handleMessage env dataTxt b = .error fault := by
      intro q hq hrun
      obtain ⟨dataTxt', hreq⟩ := hq.decoded
      rw [handleMessage_of_isData hq.isData]
      exact handleData_eq_error.mpr (Or.inr ⟨q, dataTxt', hreq, Or.inl hrun⟩)
    cases h with
    | scan hb hnotSafe =>
        have hcuts : ¬ Cuts b := fun hcuts => hnotSafe hcuts.scanSafe
        exact hdecode hb ((decodeRequest_of_not_cuts hb hcuts env dataTxt).mpr
          ⟨rfl, Or.inl hnotSafe⟩)
    | noUserData hb hsafe hnil =>
        have hcuts : ¬ Cuts b := by
          intro hcuts
          have hudt := hcuts.isUdt
          rw [hnil] at hudt
          cases hudt
        exact hdecode hb ((decodeRequest_of_not_cuts hb hcuts env dataTxt).mpr
          ⟨rfl, Or.inr (Or.inl ⟨hsafe, hnil⟩)⟩)
    | pointers hb hsafe hudt hout =>
        have hcuts : ¬ Cuts b := fun hcuts => hout hcuts.inside
        exact hdecode hb ((decodeRequest_of_not_cuts hb hcuts env dataTxt).mpr
          ⟨rfl, Or.inr (Or.inr ⟨hsafe, hudt, hout⟩)⟩)
    | otid hcuts hbegin hlen =>
        exact hcut hcuts (requestOf_eq_error.mpr (Or.inl
          (tcap_ofBytes_eq_error.mpr ⟨_, hbegin, Or.inl ⟨hlen, rfl⟩⟩)))
    | components hcuts hbegin hlen hcomp =>
        exact hcut hcuts (requestOf_eq_error.mpr (Or.inl
          (tcap_ofBytes_eq_error.mpr ⟨_, hbegin, Or.inr ⟨hlen, hcomp, rfl⟩⟩)))
    | invokeId hreads hmax =>
        exact hcut hreads.toCuts (requestOf_eq_error.mpr (Or.inr
          ⟨_, hreads.decoded, Or.inl ⟨hmax, rfl⟩⟩))
    | fopen hcalls hfopen =>
        obtain ⟨arg, hdec, hcpn⟩ := hcalls.number
        exact hcut hcalls.toCuts (requestOf_eq_error.mpr (Or.inr
          ⟨_, hcalls.decoded, Or.inr ⟨hcalls.invokeId, inap_ofBytes_eq_error.mpr
            ⟨hcalls.code, arg, _, hdec, hcpn, Or.inl ⟨hfopen, rfl⟩⟩⟩⟩))
    | digits hcalls hfopen hopen hlen =>
        obtain ⟨arg, hdec, hcpn⟩ := hcalls.number
        exact hcut hcalls.toCuts (requestOf_eq_error.mpr (Or.inr
          ⟨_, hcalls.decoded, Or.inr ⟨hcalls.invokeId, inap_ofBytes_eq_error.mpr
            ⟨hcalls.code, arg, _, hdec, hcpn, Or.inr ⟨hfopen, hopen, hlen, rfl⟩⟩⟩⟩))
    | nullText hasks hrow =>
        obtain ⟨q, hq, -, -, hnum⟩ := hasks.requests dataTxt
        rw [← hnum] at hrow
        exact hbuild q hq (hq.buildReply_eq_error.mpr (Or.inl ⟨hrow, rfl⟩))
    | addresses hgets hasc =>
        obtain ⟨q, hq, -, -, hnum⟩ := hgets.requests dataTxt
        have hfound := hgets.found
        rw [← hnum] at hfound
        exact hbuild q hq (hq.buildReply_eq_error.mpr
          (Or.inr ⟨⟨_, hq, hfound, hgets.newNum_ne⟩, hasc, rfl⟩))
    | overrun hgets hasc hlong hsize =>
        obtain ⟨q, r, hr, -, hid⟩ :=
          hgets.passes hasc (by rw [replySizeOf_replyEnd hder]; exact hsize) dataTxt
        have hlen := hr.length_eq
        rw [replySizeOf_replyEnd hder, hid] at hlen
        exact hr.overruns (by omega)

end Message

/-! ## A run -/

/-- A message of the list stops the server with `fault`, and none before it does
    with any. -/
def FirstStops (asn : Asn1c) (ms : List (ByteStream × World)) (fault : Fault) : Prop :=
  ∃ before m world after, ms = before ++ (m, world) :: after ∧
    (∀ a ∈ before, ∀ fault', ¬ Stops (a.2.env asn) a.1 fault') ∧
    Stops (world.env asn) m fault

section FirstStops

variable {asn : Asn1c} {m : ByteStream} {world : World} {rest : List (ByteStream × World)}
  {fault fault' : Fault}

private theorem not_firstStops_nil : ¬ FirstStops asn [] fault := by
  rintro ⟨before, m, world, after, heq, -⟩
  exact absurd heq.symm (by simp)

/-- Behind a message that does not stop the server, the rest decides. -/
private theorem firstStops_cons (h : ∀ fault', ¬ Stops (world.env asn) m fault') :
    FirstStops asn ((m, world) :: rest) fault ↔ FirstStops asn rest fault := by
  constructor
  · rintro ⟨before, m', world', after, heq, hbefore, hstops⟩
    cases before with
    | nil =>
        obtain ⟨hhead, -⟩ := List.cons.inj heq
        obtain ⟨rfl, rfl⟩ := Prod.mk.inj hhead
        exact absurd hstops (h fault)
    | cons a before =>
        exact ⟨before, m', world', after, (List.cons.inj heq).2,
          fun a' ha' => hbefore a' (List.mem_cons_of_mem a ha'), hstops⟩
  · rintro ⟨before, m', world', after, rfl, hbefore, hstops⟩
    refine ⟨(m, world) :: before, m', world', after, rfl, ?_, hstops⟩
    intro a ha
    rcases List.mem_cons.mp ha with rfl | ha
    · exact h
    · exact hbefore a ha

/-- And a message that stops it is the first that does. -/
private theorem firstStops_cons_of_stops (h : Stops (world.env asn) m fault')
    (hone : ∀ fault, Stops (world.env asn) m fault → fault = fault') :
    FirstStops asn ((m, world) :: rest) fault ↔ fault' = fault := by
  constructor
  · rintro ⟨before, m', world', after, heq, hbefore, hstops⟩
    cases before with
    | nil =>
        obtain ⟨hhead, -⟩ := List.cons.inj heq
        obtain ⟨rfl, rfl⟩ := Prod.mk.inj hhead
        exact (hone fault hstops).symm
    | cons a before =>
        obtain ⟨rfl, -⟩ := List.cons.inj heq
        exact absurd h (hbefore _ (List.mem_cons_self ..) fault')
  · rintro rfl
    exact ⟨[], m, world, rest, rfl, fun a ha => absurd ha List.not_mem_nil, h⟩

end FirstStops

private theorem run_fault_iff {asn : Asn1c} (hder : asn.EncodesDer) {fault : Fault} :
    ∀ (iterations : List Iteration) (d : DataTxt),
      (run (iterate asn) d iterations).2 = .fault fault ↔
        FirstStops asn (arrivals iterations) fault := by
  intro iterations
  induction iterations with
  | nil =>
      intro d
      refine iff_of_false (fun h => ?_) not_firstStops_nil
      cases h
  | cons i rest ih =>
      intro d
      cases i with
      | stdin =>
          have hstep : iterate asn d .stdin = ([], .again d) := rfl
          rw [run_again hstep]
          exact ih d
      | socket recv world =>
          have hiff : ∀ b fault, handleMessage (world.env asn) d b = .error fault ↔
              Stops (world.env asn) b fault := fun _ _ => handleMessage_fault_iff hder
          rw [arrivals]
          cases hw : waitForMsg recv [] with
          | mk ret b =>
              by_cases hret : ret < 1
              · rw [run_stop (iterate_leave asn d world hw hret)]
                simp only [if_pos hret]
                refine iff_of_false (fun h => ?_) not_firstStops_nil
                cases h
              · simp only [if_neg hret]
                cases hrun : handleMessage (world.env asn) d b with
                | error fault' =>
                    rw [run_fault (iterate_faulted asn d world hw hret hrun), Next.fault.injEq]
                    refine (firstStops_cons_of_stops ((hiff b fault').mp hrun) ?_).symm
                    intro fault hstops
                    have := (hiff b fault).mpr hstops
                    rw [hrun] at this
                    exact (Except.error.inj this).symm
                | ok r =>
                    rw [run_again (iterate_handled asn d world hw hret hrun),
                      firstStops_cons ?_]
                    · exact ih r.2
                    · intro fault' hstops
                      have := (hiff b fault').mpr hstops
                      rw [hrun] at this
                      cases this

/-- **A run ends in a fault exactly when a message that arrives stops the server**,
    and the first that does says in which. -/
theorem main_fault_iff {asn : Asn1c} (hder : asn.EncodesDer) (dataTxt : DataTxt)
    (iterations : List Iteration) (fault : Fault) :
    (main asn dataTxt iterations).2 = .fault fault ↔
      FirstStops asn (arrivals iterations) fault := by
  rw [main_eq]
  exact run_fault_iff hder iterations dataTxt

theorem main_fault_iff_shortRun :
    (main (textEnv longNumber).asn none shortRun).2 = .fault .outOfBounds ↔
      FirstStops (textEnv longNumber).asn (arrivals shortRun) .outOfBounds :=
  main_fault_iff (ofDecoders_encodesDer _ _) none shortRun .outOfBounds

end ProtoVscp
