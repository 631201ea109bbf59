import ProtoVscp.FaultProofs

/-! # Which messages are answered, and by which octets

    `Stops` says which messages end the server.  Of the others those are answered
    that get a number from the database and whose reply fits the send buffer, and
    the reply is written down here octet by octet (`replies_iff`).  It has the
    identifier behind that of the request exactly when there is one in the range
    of `InvokeIdType` (`invokeId_counted_iff`). -/

namespace ProtoVscp

open CheckedLoops M3UAmessage SccpMessage

/-! ## The UDT message -/

/-- The size of the data is an `unsigned int`, and only so many octets are copied. -/
private theorem encodeSccp_take (t c g : ByteStream) :
    encodeSccp (t.take (t.length % 4294967296)) c g = encodeSccp t c g := by
  have hle : t.length % 4294967296 ≤ t.length := Nat.mod_le _ _
  have hlen : (t.take (t.length % 4294967296)).length = t.length % 4294967296 := by
    rw [List.length_take, Nat.min_eq_left hle]
  have hsize : UInt32.ofNat (t.take (t.length % 4294967296)).length = UInt32.ofNat t.length := by
    rw [hlen, ← UInt32.toNat_inj, UInt32.toNat_ofNat', UInt32.toNat_ofNat']
    exact Nat.mod_mod _ _
  have hcopy : ∀ out : ByteStream,
      copyRange Fault.outOfBounds (t.take (t.length % 4294967296)) 0
          (UInt32.ofNat t.length).toNat out
        = copyRange Fault.outOfBounds t 0 (UInt32.ofNat t.length).toNat out := by
    intro out
    have hnat : (UInt32.ofNat t.length).toNat = t.length % 4294967296 := UInt32.toNat_ofNat'
    rw [copyRange_eq, copyRange_eq, hnat, if_pos (Or.inr (Nat.le_of_eq hlen.symm)),
      if_pos (Or.inr hle), slice, slice, List.drop_zero, List.drop_zero, Nat.sub_zero,
      List.take_take, Nat.min_self]
  rw [encodeSccp, encodeSccp]
  simp only [hsize, hcopy]

/-- **What `encodeSccp` writes**: the addresses less their last octets, and the
    data. -/
theorem encodeSccp_eq_ok {t c g r : ByteStream} (hc : c.length < 4294967296)
    (hg : g.length < 4294967296) :
    encodeSccp t c g = .ok r ↔ c ≠ [] ∧ g ≠ [] ∧
      r = udt 0x00 c.dropLast g.dropLast (t.take (t.length % 4294967296)) := by
  have hrun : c ≠ [] → g ≠ [] → encodeSccp t c g
      = .ok (udt 0x00 c.dropLast g.dropLast (t.take (t.length % 4294967296))) := by
    intro hcne hgne
    have hclen := List.length_pos_iff.mpr hcne
    have hglen := List.length_pos_iff.mpr hgne
    have hlast := encodeSccp_eq g.dropLast c.dropLast (c.getLast hcne) (g.getLast hgne)
      (t.take (t.length % 4294967296)) (by rw [List.length_dropLast]; omega)
      (by rw [List.length_dropLast]; omega) (by rw [List.length_take]; omega)
    rw [List.dropLast_append_getLast, List.dropLast_append_getLast, encodeSccp_take] at hlast
    exact hlast
  constructor
  · intro h
    obtain ⟨hcne, hgne⟩ := encodeSccp_addresses h
    rw [hrun hcne hgne] at h
    exact ⟨hcne, hgne, (Except.ok.inj h).symm⟩
  · rintro ⟨hcne, hgne, rfl⟩
    exact hrun hcne hgne

/-! ## The reply -/

/-- The Connect to the number `newNum`. -/
def connectTo (newNum : CString) : ByteStream :=
  ConnectArg_encode_der
    { destinationRoutingAddress := [InapMessage.c_str newNum]
      cutAndPaste := some 0
      callingPartyNumber := none }

/-- The Invoke that answers the Invoke of `tcap`. -/
def connectInvoke (tcap : TcapMessage) (newNum : CString) : Invoke where
  invokeID := (tcap.invokeId + 1).toInt64
  opCode := .PR_localValue 0x14
  parameter := some (connectTo newNum)

/-- The End that answers `tcap`. -/
def endTo (tcap : TcapMessage) (newNum : CString) : ByteStream :=
  End_encode_der (TcapMessage.endOf (tcap.invokeId + 1) tcap.transactionId (connectTo newNum)).dtid
    [connectInvoke tcap newNum]

/-- The UDT message that answers the one in `b`: back from the called address to
    the calling one, with as much of the End as an `unsigned int` counts. -/
def udtTo (b : ByteStream) (tcap : TcapMessage) (newNum : CString) : ByteStream :=
  udt 0x00 (cutAt (udtIn b)).getCallingPartyAddress.dropLast
    (cutAt (udtIn b)).getCalledPartyAddress.dropLast
    ((endTo tcap newNum).take ((endTo tcap newNum).length % 4294967296))

/-- **The reply to `b`**, when its TCAP message is `tcap` and the database answers
    `newNum`. -/
def replyTo (b : ByteStream) (tcap : TcapMessage) (newNum : CString) : Sent where
  msg := encodeMsg (udtTo b tcap newNum) ((tagHits b).flatMap (opcAt b))
    ((tagHits b).flatMap (dpcAt b)) ((tagHits b).flatMap (siAt b)) ((tagHits b).flatMap (niAt b))
    ((tagHits b).flatMap (mpAt b)) ((tagHits b).flatMap (slsAt b))
  ppid := SCTP_PID_M3UA
  stream_no := 1

section Reply

variable {env : Env} {dataTxt : DataTxt} {b : ByteStream} {q : Request} {newNum : CString}
  {s : Sent}

/-- What is passed to `sendMsg` is the reply. -/
theorem PassesToSend.eq_replyTo (hder : env.asn.EncodesDer) {r : ByteStream}
    (h : PassesToSend env dataTxt b q newNum r) :
    r = (replyTo b q.incomingTcap newNum).msg := by
  obtain ⟨hid, -⟩ := h.answers.gets
  obtain ⟨newNum', sccp, -, hfind, henc, hr⟩ := buildReply_run h.built h.ne_nil
  rw [h.answers.found] at hfind
  obtain rfl := Except.ok.inj hfind
  obtain ⟨hin, hcut⟩ := h.answers.requests.cut
  obtain ⟨hcalled, hcalling⟩ := cut_address_length hin
  have h3 := pointerAt_lt (udtIn b) 3
  have h4 := pointerAt_lt (udtIn b) 4
  have hend : TcapMessage.end_ env.asn q.invokeID q.incomingTcap.transactionId
      (InapMessage.encodeConnect env.asn newNum) = endTo q.incomingTcap newNum := by
    rw [InapMessage.encodeConnect, hder.connectArg, TcapMessage.end_, TcapMessage.endOf, hid]
    exact hder.end_ _ [connectInvoke q.incomingTcap newNum]
  have hsccp : sccp = udtTo b q.incomingTcap newNum := by
    rw [encodeReply, hend, hcut] at henc
    exact ((encodeSccp_eq_ok (by omega) (by omega)).mp henc).2.2
  obtain ⟨-, hm3ua⟩ := h.answers.requests.m3ua
  rw [hr, hsccp, hm3ua]
  rfl

/-- A reply is what was passed to `sendMsg`, when that fits the buffer. -/
theorem replies_iff_passes :
    Replies env dataTxt b s ↔ ∃ q newNum, PassesToSend env dataTxt b q newNum s.msg ∧
      s.msg.length ≤ 1024 ∧ s.ppid = SCTP_PID_M3UA ∧ s.stream_no = 1 := by
  constructor
  · rintro ⟨sent, dataTxt', hrun, hs, hdata⟩
    rcases handleMessage_cases b with ⟨-, heq⟩ | ⟨hb, heq⟩ | ⟨-, -, heq⟩
    · -- the message sent here is an ASP Active, not a DATA
      rw [heq] at hrun
      rw [← (ok_pair_inj hrun).1, List.mem_singleton] at hs
      rw [hs] at hdata
      exact absurd hdata (by decide)
    · rw [heq] at hrun
      obtain ⟨q, d, hreq, hbuild, hne, hfits, hhead⟩ :=
        handleData_sends.mp ⟨sent, dataTxt', hrun, hs⟩
      obtain ⟨-, -, hcalled, -⟩ := buildReply_run hbuild hne
      have hrequests : Requests env dataTxt b q := ⟨hb, ⟨d, hreq⟩, hcalled⟩
      obtain ⟨newNum, hpasses, -⟩ := hrequests.passes hbuild hne
      exact ⟨q, newNum, hpasses, hfits, hhead⟩
    · rw [heq] at hrun
      rw [← (ok_pair_inj hrun).1] at hs
      exact absurd hs List.not_mem_nil
  · rintro ⟨q, newNum, hpasses, hfits, hhead⟩
    obtain ⟨d, hreq⟩ := hpasses.answers.requests.decoded
    obtain ⟨sent, dataTxt', hrun, hs⟩ :=
      handleData_sends.mpr ⟨q, d, hreq, hpasses.built, hpasses.ne_nil, hfits, hhead⟩
    rw [← handleMessage_of_isData hpasses.answers.requests.isData] at hrun
    refine ⟨sent, dataTxt', hrun, hs, ?_⟩
    obtain ⟨newNum', sccpStream, -, -, -, hmsg⟩ := buildReply_run hpasses.built hpasses.ne_nil
    have hne := hpasses.ne_nil
    rw [hmsg] at hne ⊢
    exact encodeMsg_isData hne

/-- What gets a number and fits the buffer is passed to `sendMsg`. -/
theorem Gets.fits {tcap : TcapMessage} {o : ByteStream} (h : Gets env b tcap o newNum)
    (hasc : Ascending b)
    (hsize : replySizeOf b (replyEnd env (tcap.invokeId + 1) tcap.transactionId newNum) ≤ 1004)
    (dataTxt : DataTxt) :
    ∃ q r, PassesToSend env dataTxt b q newNum r ∧ q.incomingTcap = tcap ∧ r.length ≤ 1024 := by
  have hpos : replySizeOf b (replyEnd env (tcap.invokeId + 1) tcap.transactionId newNum)
      % 4294967296 ≠ 0 := by
    rw [Nat.mod_eq_of_lt (by omega), replySizeOf]
    omega
  obtain ⟨q, r, hpasses, rfl, hid⟩ := h.passes hasc hpos dataTxt
  have hlen := hpasses.length_eq
  rw [hid] at hlen
  exact ⟨q, r, hpasses, rfl, by omega⟩

/-- The request in `b` gets a reply: the database has a number for it, its addresses
    are in order, and the reply fits the send buffer. -/
def GetsReply (env : Env) (b : ByteStream) : Prop :=
  ∃ tcap o newNum, Gets env b tcap o newNum ∧ Ascending b ∧
    replySizeOf b (replyEnd env (tcap.invokeId + 1) tcap.transactionId newNum) ≤ 1004

/-- **Which messages are answered with a DATA message**, whatever the encoder makes of
    the reply. -/
theorem exists_replies_iff : (∃ s, Replies env dataTxt b s) ↔ GetsReply env b := by
  constructor
  · rintro ⟨s, hs⟩
    obtain ⟨q, newNum, hpasses, hfits, -⟩ := replies_iff_passes.mp hs
    obtain ⟨hid, o, hgets⟩ := hpasses.answers.gets
    have hlen := hpasses.length_eq
    rw [hid] at hlen
    exact ⟨q.incomingTcap, o, newNum, hgets, hpasses.ascending, by omega⟩
  · rintro ⟨tcap, o, newNum, hgets, hasc, hsize⟩
    obtain ⟨q, r, hpasses, -, hfits⟩ := hgets.fits hasc hsize dataTxt
    exact ⟨⟨r, SCTP_PID_M3UA, 1⟩,
      replies_iff_passes.mpr ⟨q, newNum, hpasses, hfits, rfl, rfl⟩⟩

/-- **Which messages are answered, and by what**: those whose number the database
    translates, with addresses in order, and a reply that fits the send buffer. -/
theorem replies_iff (hder : env.asn.EncodesDer) :
    Replies env dataTxt b s ↔ ∃ tcap o newNum, Gets env b tcap o newNum ∧ Ascending b ∧
      replySize b (tcap.invokeId + 1) newNum ≤ 1004 ∧ s = replyTo b tcap newNum := by
  constructor
  · intro hs
    obtain ⟨q, newNum, hpasses, hfits, hppid, hstream⟩ := replies_iff_passes.mp hs
    obtain ⟨hid, o, hgets⟩ := hpasses.answers.gets
    have hlen := hpasses.length_eq
    rw [replySizeOf_replyEnd hder, hid] at hlen
    have hmsg := hpasses.eq_replyTo hder
    refine ⟨q.incomingTcap, o, newNum, hgets, hpasses.ascending, by omega, ?_⟩
    cases s with
    | mk msg ppid stream_no =>
        obtain rfl : ppid = SCTP_PID_M3UA := hppid
        obtain rfl : stream_no = 1 := hstream
        rw [replyTo, Sent.mk.injEq]
        exact ⟨hmsg, rfl, rfl⟩
  · rintro ⟨tcap, o, newNum, hgets, hasc, hsize, rfl⟩
    rw [← replySizeOf_replyEnd hder b (tcap.invokeId + 1) tcap.transactionId] at hsize
    obtain ⟨q, r, hpasses, rfl, hfits⟩ := hgets.fits hasc hsize dataTxt
    have hmsg := hpasses.eq_replyTo hder
    rw [hmsg] at hpasses hfits
    exact replies_iff_passes.mpr ⟨q, newNum, hpasses, hfits, rfl, rfl⟩

/-- The message `b` is answered with the message `s`. -/
inductive Answered (env : Env) (b : ByteStream) : Sent → Prop where
  | aspUpAck : IsAspUpAck b → Answered env b aspActiveSent
  | data {tcap : TcapMessage} {o : ByteStream} {newNum : CString} : Gets env b tcap o newNum →
      Ascending b → replySize b (tcap.invokeId + 1) newNum ≤ 1004 →
      Answered env b (replyTo b tcap newNum)

/-- Where the server goes on, the answers are the messages sent. -/
theorem handleMessage_answered (hder : env.asn.EncodesDer) {dataTxt' : DataTxt}
    {sent : List Sent} (hrun : handleMessage env dataTxt b = .ok (sent, dataTxt')) :
    Answered env b s ↔ s ∈ sent := by
  constructor
  · intro h
    cases h with
    | aspUpAck hack =>
        rw [handleMessage_eq, if_pos hack] at hrun
        rw [← (ok_pair_inj hrun).1]
        exact List.mem_singleton_self _
    | data hgets hasc hsize =>
        have hreplies : Replies env dataTxt b _ :=
          (replies_iff hder).mpr ⟨_, _, _, hgets, hasc, hsize, rfl⟩
        obtain ⟨sent', d, hrun', hs, -⟩ := hreplies
        rw [hrun] at hrun'
        rw [(ok_pair_inj hrun').1]
        exact hs
  · intro hs
    rcases handleMessage_sent hrun with ⟨hack, rfl⟩ | ⟨-, s', rfl, hdata⟩ | rfl
    · rw [List.mem_singleton.mp hs]
      exact .aspUpAck hack
    · obtain rfl := List.mem_singleton.mp hs
      obtain ⟨tcap, o, newNum, hgets, hasc, hsize, rfl⟩ :=
        (replies_iff hder).mp ⟨[s], dataTxt', hrun, hs, hdata⟩
      exact .data hgets hasc hsize
    · exact absurd hs List.not_mem_nil

/-- Where the server goes on, it sends the answer if there is one, and else nothing. -/
theorem handleMessage_sends_iff (hder : env.asn.EncodesDer) {dataTxt' : DataTxt}
    {sent' : List Sent} (hrun : handleMessage env dataTxt b = .ok (sent', dataTxt'))
    (sent : List Sent) :
    ((∃ s, Answered env b s ∧ sent = [s]) ∨ ((∀ s, ¬ Answered env b s) ∧ sent = [])) ↔
      sent = sent' := by
  have hone : sent' = [] ∨ ∃ s, sent' = [s] := by
    rcases handleMessage_sent hrun with ⟨-, h⟩ | ⟨-, s, h, -⟩ | h
    · exact Or.inr ⟨_, h⟩
    · exact Or.inr ⟨s, h⟩
    · exact Or.inl h
  simp only [handleMessage_answered hder hrun]
  rcases hone with rfl | ⟨s, rfl⟩
  · constructor
    · rintro (⟨s, hs, -⟩ | ⟨-, h⟩)
      · exact absurd hs List.not_mem_nil
      · exact h
    · intro h
      exact Or.inr ⟨fun s => List.not_mem_nil, h⟩
  · simp only [List.mem_singleton, exists_eq_left]
    refine or_iff_left ?_
    rintro ⟨hno, -⟩
    exact hno s rfl

/-- **What becomes of a message**: it stops the server, or it is answered, or nothing
    is sent. -/
theorem handleMessage_outcome (hder : env.asn.EncodesDer) (dataTxt : DataTxt) (b : ByteStream) :
    (∀ fault, handleMessage env dataTxt b = .error fault ↔ Stops env b fault) ∧
      (∀ sent, (∃ dataTxt', handleMessage env dataTxt b = .ok (sent, dataTxt')) ↔
        (∀ fault, ¬ Stops env b fault) ∧
          ((∃ s, Answered env b s ∧ sent = [s]) ∨ ((∀ s, ¬ Answered env b s) ∧ sent = []))) := by
  have hstops : ∀ fault, handleMessage env dataTxt b = .error fault ↔ Stops env b fault :=
    fun fault => handleMessage_fault_iff hder
  refine ⟨hstops, fun sent => ?_⟩
  cases hrun : handleMessage env dataTxt b with
  | error fault =>
      refine iff_of_false ?_ fun h => h.1 fault ((hstops fault).mp hrun)
      rintro ⟨dataTxt', h⟩
      cases h
  | ok r =>
      obtain ⟨sent', dataTxt'⟩ := r
      have hok : (∃ d, (Except.ok (sent', dataTxt') : Outcome (List Sent × DataTxt)) = .ok (sent, d))
          ↔ sent = sent' := by
        constructor
        · rintro ⟨d, h⟩
          exact (ok_pair_inj h).1.symm
        · rintro rfl
          exact ⟨dataTxt', rfl⟩
      have hgoesOn : ∀ fault, ¬ Stops env b fault := by
        intro fault hstop
        rw [(hstops fault).mpr hstop] at hrun
        cases hrun
      rw [hok, and_iff_right hgoesOn, handleMessage_sends_iff hder hrun]

end Reply

theorem handleMessage_outcome_plain :
    (∀ fault, handleMessage (textEnv "555".toList) none plainExchange.request = .error fault ↔
        Stops (textEnv "555".toList) plainExchange.request fault) ∧
      (∀ sent,
        (∃ dataTxt',
            handleMessage (textEnv "555".toList) none plainExchange.request = .ok (sent, dataTxt')) ↔
          (∀ fault, ¬ Stops (textEnv "555".toList) plainExchange.request fault) ∧
            ((∃ s, Answered (textEnv "555".toList) plainExchange.request s ∧ sent = [s]) ∨
              ((∀ s, ¬ Answered (textEnv "555".toList) plainExchange.request s) ∧ sent = []))) :=
  handleMessage_outcome (ofDecoders_encodesDer _ _) none plainExchange.request

/-! ## The invoke identifier of the answer -/

section Invoke

variable {env : Env} {dataTxt : DataTxt} {b data : ByteStream} {begin_ : Begin}
  {invoke : Invoke}

/-- The End counts on from the invoke: its one component has the identifier
    behind that of the invoke, and one `InvokeIdType` allows. -/
def CountsOn (invoke : Invoke) (e : End) : Prop :=
  ∃ answer, e.components = some [.PR_invoke answer] ∧
    answer.invokeID.toInt = invoke.invokeID.toInt + 1 ∧
    -128 ≤ answer.invokeID.toInt ∧ answer.invokeID.toInt ≤ 127

/-- **Invoke identifier arithmetic**: no addition overflows, and either no reply
    is sent or its End counts on from the invoke. -/
def InvokeIdCounted (env : Env) (dataTxt : DataTxt) (b : ByteStream) (invoke : Invoke) :
    Prop :=
  handleMessage env dataTxt b ≠ .error .signedOverflow ∧
    ∀ s e, Replies env dataTxt b s → CarriesEnd env dataTxt b s e → CountsOn invoke e

/-- **Which invoke identifiers are counted on**: those whose addition does not
    overflow and, in a request that gets a reply, the ones that have a successor
    in the range of `InvokeIdType`. -/
theorem invokeId_counted_iff (hdata : sccpUserData b = .ok data)
    (hbegin : env.asn.decodeTCMessage data = some (.PR_begin begin_))
    (hcomp : begin_.components = some [.PR_invoke invoke]) :
    InvokeIdCounted env dataTxt b invoke ↔
      ¬ (4 ≤ begin_.otid.buf.length ∧ invoke.invokeID.toInt % 2 ^ 32 = 2 ^ 31 - 1) ∧
      (GetsReply env b →
        -129 ≤ invoke.invokeID.toInt ∧ invoke.invokeID.toInt ≤ 126) := by
  have hreplies : (∃ s, Replies env dataTxt b s) ↔ GetsReply env b := exists_replies_iff
  rw [InvokeIdCounted, Ne, overflow_iff_invokeId hdata hbegin hcomp, ← hreplies]
  refine and_congr_right fun _ => ?_
  constructor
  · rintro hcounts ⟨s, hs⟩
    obtain ⟨e, he⟩ := replies_carries hs
    obtain ⟨answer, -, hnext, hlo, hhi⟩ := hcounts s e hs he
    omega
  · intro hrange s e hs he
    obtain ⟨hlo, hhi⟩ := hrange ⟨s, hs⟩
    obtain ⟨answer, hanswer, hid⟩ := carriesEnd_invokeId he hdata hbegin hcomp
    -- in the range nothing is narrowed away
    rw [Int.bmod_eq_of_le (by omega) (by omega)] at hid
    exact ⟨answer, hanswer, hid, by omega, by omega⟩

end Invoke

/-- The invoke of `plainExchange`. -/
def plainInvoke : Invoke where
  invokeID := 1
  opCode := .PR_localValue 0
  parameter := some (initialDP [0x83, 0x10, 0x21, 0x03])

theorem invokeId_counted_iff_plain :
    InvokeIdCounted plainExchange.env none plainExchange.request plainInvoke ↔
      ¬ (4 ≤ plainExchange.begin_.otid.buf.length ∧
        plainInvoke.invokeID.toInt % 2 ^ 32 = 2 ^ 31 - 1) ∧
      (GetsReply plainExchange.env plainExchange.request →
        -129 ≤ plainInvoke.invokeID.toInt ∧ plainInvoke.invokeID.toInt ≤ 126) := by
  have hdata : sccpUserData plainExchange.request = .ok plainExchange.beginOctets := rfl
  have hbegin : plainExchange.env.asn.decodeTCMessage plainExchange.beginOctets
      = some (.PR_begin plainExchange.begin_) := rfl
  exact invokeId_counted_iff hdata hbegin rfl

/-! ## The last identifier -/

/-- An InitialDP under the greatest identifier in the range. -/
def lastInvoke : Invoke where
  invokeID := 127
  opCode := .PR_localValue 0
  parameter := some (initialDP [0x83, 0x10, 0x21, 0x03])

def lastBegin : Begin where
  otid := .ofBytes [0x11, 0x22, 0x33, 0x44]
  components := some [.PR_invoke lastInvoke]

def lastBeginOctets : ByteStream :=
  tlv 0x62 (tlv 0x48 [0x11, 0x22, 0x33, 0x44] ++ tlv 0x6C (tlv 0xA1
    (tlv 0x02 [0x7F] ++ tlv 0x02 [0x00] ++ initialDP [0x83, 0x10, 0x21, 0x03])))

/-- The Connect under identifier 128. -/
def lastEnd : End where
  dtid := .ofBytes [0x11, 0x22, 0x33, 0x44]
  components := some [.PR_invoke
    { invokeID := 128
      opCode := .PR_localValue 0x14
      parameter := some Exchange.connectOctets }]

def lastEndOctets : ByteStream :=
  tlv 0x64 (tlv 0x49 [0x11, 0x22, 0x33, 0x44] ++ tlv 0x6C (tlv 0xA1
    (tlv 0x02 [0x00, 0x80] ++ tlv 0x02 [0x14] ++ Exchange.connectOctets)))

def lastEnv : Env where
  asn := .ofTable [(lastBeginOctets, .PR_begin lastBegin), (lastEndOctets, .PR_end lastEnd)]
    [(initialDP [0x83, 0x10, 0x21, 0x03], initialDPArg [0x83, 0x10, 0x21, 0x03])]
    [(Exchange.connectOctets, Exchange.connectArg)]
  files := filesOk
  sqlite := fun _ => .ROW (some "555".toList)

def lastRequest : ByteStream :=
  encodeData (udt 0x00 [0x42, 0x06] [0x42, 0x08] lastBeginOctets) sampleLabel

def lastReply : Sent where
  msg := encodeData (udt 0x00 [0x42, 0x08] [0x42, 0x06] lastEndOctets) sampleLabel
  ppid := 3
  stream_no := 1

/-- The invoke 127 is answered by the invoke 128, out of the range. -/
theorem lastInvoke_counted_past_range :
    sccpUserData lastRequest = .ok lastBeginOctets ∧
      lastEnv.asn.decodeTCMessage lastBeginOctets = some (.PR_begin lastBegin) ∧
      lastBegin.components = some [.PR_invoke lastInvoke] ∧
      Replies lastEnv none lastRequest lastReply ∧
      (∃ e answer, CarriesEnd lastEnv none lastRequest lastReply e ∧
        e.components = some [.PR_invoke answer] ∧ answer.invokeID.toInt = 128) ∧
      ¬ InvokeIdCounted lastEnv none lastRequest lastInvoke := by
  have hdata : sccpUserData lastRequest = .ok lastBeginOctets := rfl
  have hbegin : lastEnv.asn.decodeTCMessage lastBeginOctets
      = some (.PR_begin lastBegin) := rfl
  have hreply : Replies lastEnv none lastRequest lastReply :=
    ⟨[lastReply], none, rfl, List.mem_singleton.mpr rfl, by decide⟩
  obtain ⟨e, he⟩ := replies_carries hreply
  obtain ⟨answer, hanswer, hid⟩ := carriesEnd_invokeId he hdata hbegin rfl
  have h128 : answer.invokeID.toInt = 128 := hid
  refine ⟨hdata, hbegin, rfl, hreply, ⟨e, answer, he, hanswer, h128⟩, ?_⟩
  rintro ⟨-, hcounts⟩
  obtain ⟨answer', hanswer', -, -, hhi⟩ := hcounts lastReply e hreply he
  rw [hanswer] at hanswer'
  have hsame := Component.PR_invoke.inj (List.cons.inj (Option.some.inj hanswer')).1
  rw [← hsame, h128] at hhi
  exact absurd hhi (by decide)

end ProtoVscp
