import ProtoVscp.MainLoopProofs
import ProtoVscp.ParseNumProofs
import ProtoVscp.SccpProofs
import ProtoVscp.TcapProofs

/-! # What is answered, to whom and under which identifier

    A DATA message leaves the main loop on one path only, and `ReplyRun` lists
    what was computed on it (`replies_run`).  From there the three laws of a
    reply are settled exactly: which requests get one (`initialDP_only_iff`),
    where it is sent (`reply_goes_back_iff`) and the dialogue it belongs to
    (`reply_dtid_iff`). -/

namespace ProtoVscp

open CheckedLoops M3UAmessage

/-! ## The path of a reply -/

/-- The main loop answers the message `b` with the DATA message `s`. -/
def Replies (env : Env) (dataTxt : DataTxt) (b : ByteStream) (s : Sent) : Prop :=
  ∃ sent dataTxt', handleMessage env dataTxt b = .ok (sent, dataTxt') ∧ s ∈ sent ∧
    IsData s.msg

/-- The DATA message `b` is decoded to the request `q`, and `q` has a called
    number. -/
structure Requests (env : Env) (dataTxt : DataTxt) (b : ByteStream) (q : Request) : Prop where
  isData : IsData b
  decoded : ∃ dataTxt',
    decodeRequest env dataTxt (M3UAmessage.fresh .TM_DATA b) = .ok (some q, dataTxt')
  called : q.inapMsg.getCalledPartyNumber ≠ []

theorem Requests.m3ua {env : Env} {dataTxt : DataTxt} {b : ByteStream} {q : Request}
    (h : Requests env dataTxt b q) :
    ScanSafe b ∧ q.incomingM3uaMsg = collect b (fresh .TM_DATA b) (tagHits b) := by
  obtain ⟨dataTxt', hreq⟩ := h.decoded
  exact (decodePayload_eq_ok rfl).mp (decodeRequest_some hreq).1

/-- What the main loop has computed when it answers `b` with `s`: the request
    `q`, the translated number and the SCCP message of the reply. -/
structure ReplyRun (env : Env) (dataTxt : DataTxt) (b : ByteStream) (s : Sent)
    (q : Request) (newNum : CString) (sccpStream : ByteStream) : Prop where
  isData : IsData b
  request : ∃ dataTxt',
    decodeRequest env dataTxt (M3UAmessage.fresh .TM_DATA b) = .ok (some q, dataTxt')
  called : q.inapMsg.getCalledPartyNumber ≠ []
  found : Database.find env.sqlite q.inapMsg.getCalledPartyNumber = .ok newNum
  encoded : encodeReply env q newNum = .ok sccpStream
  msg : s.msg = M3UAmessage.encodeMsg sccpStream q.incomingM3uaMsg.opc
    q.incomingM3uaMsg.dpc q.incomingM3uaMsg.si q.incomingM3uaMsg.ni q.incomingM3uaMsg.mp
    q.incomingM3uaMsg.sls
  msg_ne_nil : s.msg ≠ []

private theorem not_mem_of_ok_nil {sent : List Sent} {s : Sent} {d d' : DataTxt}
    (h : (Except.ok ([], d) : Outcome (List Sent × DataTxt)) = .ok (sent, d')) :
    s ∉ sent := by
  rw [← (ok_pair_inj h).1]
  exact List.not_mem_nil

private theorem eq_of_ok_singleton {sent : List Sent} {s s' : Sent} {d d' : DataTxt}
    (h : (Except.ok ([s'], d) : Outcome (List Sent × DataTxt)) = .ok (sent, d'))
    (hs : s ∈ sent) : s = s' := by
  rw [← (ok_pair_inj h).1] at hs
  exact List.mem_singleton.mp hs

/-- **The specification of `handleData`** when it sends something. -/
private theorem handleData_run {env : Env} {dataTxt dataTxt' : DataTxt} {b : ByteStream}
    {sent : List Sent} {s : Sent} (hb : IsData b)
    (h : handleData env dataTxt (M3UAmessage.fresh .TM_DATA b) = .ok (sent, dataTxt'))
    (hs : s ∈ sent) :
    ∃ q newNum sccpStream, ReplyRun env dataTxt b s q newNum sccpStream := by
  rcases handleData_cases h with rfl | ⟨q, s', hreq, hbuild, hne, rfl⟩
  · exact absurd hs List.not_mem_nil
  · rw [← List.mem_singleton.mp hs] at hbuild hne
    obtain ⟨newNum, sccpStream, hcpn, hfind, henc, hr⟩ := buildReply_run hbuild hne
    exact ⟨q, newNum, sccpStream, hb, ⟨dataTxt', hreq⟩, hcpn, hfind, henc, hr, hne⟩

/-- **The only path to a DATA message.** -/
theorem replies_run {env : Env} {dataTxt : DataTxt} {b : ByteStream} {s : Sent}
    (h : Replies env dataTxt b s) :
    ∃ q newNum sccpStream, ReplyRun env dataTxt b s q newNum sccpStream := by
  obtain ⟨sent, dataTxt', hrun, hs, hdata⟩ := h
  rcases handleMessage_cases b with ⟨-, heq⟩ | ⟨hb, heq⟩ | ⟨-, -, heq⟩
  · -- the message sent here is an ASP Active, not a DATA
    rw [heq] at hrun
    rw [eq_of_ok_singleton hrun hs] at hdata
    exact absurd hdata (by decide)
  · rw [heq] at hrun
    exact handleData_run hb hrun hs
  · rw [heq] at hrun
    exact absurd hs (not_mem_of_ok_nil hrun)

/-- The SCCP user data of a DATA message. -/
def sccpUserData (b : ByteStream) : Outcome ByteStream := do
  let m ← M3UAmessage.ofBytes b
  let m ← m.decodePayload
  let sccp ← SccpMessage.ofBytes m.getPayload
  let sccp ← sccp.decodeSccp
  .ok sccp.getData

/-- What a message has to be for its SCCP user data to be read. -/
theorem sccpUserData_eq_ok {b data : ByteStream} :
    sccpUserData b = .ok data ↔
      IsData b ∧ ∃ m sccp cut, (fresh .TM_DATA b).decodePayload = .ok m ∧
        SccpMessage.ofBytes m.getPayload = .ok sccp ∧ sccp.valid = true ∧
        sccp.decodeSccp = .ok cut ∧ cut.getData = data := by
  constructor
  · intro h
    simp only [sccpUserData, bind_eq_ok, Except.ok.injEq] at h
    obtain ⟨m₀, hm₀, m, hm, sccp, hsccp, cut, hcut, hdata⟩ := h
    by_cases htype : m₀.M3UAtype = .TM_DATA
    · obtain ⟨hb, rfl⟩ := ofBytes_tmData hm₀ htype
      refine ⟨hb, m, sccp, cut, hm, hsccp, ?_, hcut, hdata⟩
      -- an object that is not valid holds no octet to read a pointer from
      by_contra hinvalid
      rw [SccpMessage.ofBytes, bind_eq_ok] at hsccp
      obtain ⟨messageType, -, hsccp⟩ := hsccp
      by_cases hudt : messageType ≠ 0x09
      · rw [if_pos hudt] at hsccp
        rw [← Except.ok.inj hsccp] at hcut
        cases hcut
      · rw [if_neg hudt] at hsccp
        exact hinvalid (by rw [← Except.ok.inj hsccp]; rfl)
    · -- no payload, and the constructor of the next layer reads its first octet
      rw [decodePayload, if_pos htype] at hm
      rw [← Except.ok.inj hm, getPayload, if_pos htype] at hsccp
      cases hsccp
  · rintro ⟨hb, m, sccp, cut, hm, hsccp, -, hcut, rfl⟩
    rw [sccpUserData]
    rw [ofBytes_of_isData hb, ok_bind, hm, ok_bind, hsccp, ok_bind, hcut]
    rfl

section Run

variable {env : Env} {dataTxt : DataTxt} {b : ByteStream} {s : Sent} {q : Request}
  {newNum : CString} {sccpStream : ByteStream}

theorem ReplyRun.userData (h : ReplyRun env dataTxt b s q newNum sccpStream) :
    sccpUserData b = .ok q.incomingSccp.getData := by
  obtain ⟨dataTxt', hreq⟩ := h.request
  obtain ⟨hm, ⟨sccp, hsccp, hvalid, hcut⟩, -⟩ := decodeRequest_some hreq
  exact sccpUserData_eq_ok.mpr ⟨h.isData, _, sccp, _, hm, hsccp, hvalid, hcut, rfl⟩

/-- The TCAP message of an answered request, and its identifier counted on. -/
theorem ReplyRun.tcap (h : ReplyRun env dataTxt b s q newNum sccpStream)
    {data : ByteStream} (hdata : sccpUserData b = .ok data) :
    TcapMessage.ofBytes env.asn data = .ok q.incomingTcap ∧
      nextInvokeId q.incomingTcap.invokeId = .ok q.invokeID := by
  obtain ⟨dataTxt', hreq⟩ := h.request
  obtain ⟨-, -, htcap, hnext, -⟩ := decodeRequest_some hreq
  rw [h.userData] at hdata
  rw [Except.ok.inj hdata] at htcap
  exact ⟨htcap, hnext⟩

theorem ReplyRun.requests (h : ReplyRun env dataTxt b s q newNum sccpStream) :
    Requests env dataTxt b q := ⟨h.isData, h.request, h.called⟩

/-- A message without a tag carries no payload, and gets no answer. -/
theorem ReplyRun.tagHits_ne_nil (h : ReplyRun env dataTxt b s q newNum sccpStream) :
    tagHits b ≠ [] := by
  intro hnil
  obtain ⟨dataTxt', hreq⟩ := h.request
  obtain ⟨-, ⟨sccp, hsccp, -⟩, -⟩ := decodeRequest_some hreq
  have hpayload : q.incomingM3uaMsg.getPayload = [] := by
    rw [h.requests.m3ua.2, hnil, collect_fresh_getPayload, List.flatMap_nil]
  rw [hpayload] at hsccp
  exact nomatch hsccp

end Run

/-! ## A request and its answer -/

/-- What varies in the requests below: the transaction identifier as it is
    decoded, the operation and its encoding. -/
structure Exchange where
  otid : OCTET_STRING
  opCode : OPERATION
  opOctets : ByteStream

namespace Exchange

variable (x : Exchange)

/-- A Begin that calls the operation with an InitialDPArg for the number 123. -/
def begin_ : Begin where
  otid := x.otid
  components := some [.PR_invoke
    { invokeID := 1
      opCode := x.opCode
      parameter := some (initialDP [0x83, 0x10, 0x21, 0x03]) }]

def beginOctets : ByteStream :=
  tlv 0x62 (tlv 0x48 x.otid.value ++ tlv 0x6C (tlv 0xA1
    (tlv 0x02 [0x01] ++ x.opOctets ++ initialDP [0x83, 0x10, 0x21, 0x03])))

/-- A Connect to the number 555. -/
def connectArg : ConnectArg where
  destinationRoutingAddress := [[0x35, 0x35, 0x35]]
  cutAndPaste := some 0
  callingPartyNumber := none

def connectOctets : ByteStream :=
  tlv 0x30 (tlv 0xA0 (tlv 0x04 [0x35, 0x35, 0x35]) ++ tlv 0x83 [0x00])

def end_ : End where
  dtid := .ofBytes (x.otid.buf.take 4)
  components := some [.PR_invoke
    { invokeID := 2
      opCode := .PR_localValue 0x14
      parameter := some connectOctets }]

def endOctets : ByteStream :=
  tlv 0x64 (tlv 0x49 (x.otid.buf.take 4) ++ tlv 0x6C (tlv 0xA1
    (tlv 0x02 [0x02] ++ tlv 0x02 [0x14] ++ connectOctets)))

/-- The codecs at these values, and a database that knows the number. -/
def env : Env where
  asn := .ofTable [(x.beginOctets, .PR_begin x.begin_), (x.endOctets, .PR_end x.end_)]
    [(initialDP [0x83, 0x10, 0x21, 0x03], initialDPArg [0x83, 0x10, 0x21, 0x03])]
    [(connectOctets, connectArg)]
  files := filesOk
  sqlite := fun _ => .ROW (some "555".toList)

def request : ByteStream :=
  encodeData (udt 0x00 [0x42, 0x06] [0x42, 0x08] x.beginOctets) sampleLabel

def reply : Sent where
  msg := encodeData (udt 0x00 [0x42, 0x08] [0x42, 0x06] x.endOctets) sampleLabel
  ppid := 3
  stream_no := 1

end Exchange

/-- InitialDP in a dialogue with an identifier of four octets. -/
def plainExchange : Exchange where
  otid := .ofBytes [0x11, 0x22, 0x33, 0x44]
  opCode := .PR_localValue 0
  opOctets := tlv 0x02 [0x00]

theorem plainExchange_replies :
    Replies plainExchange.env none plainExchange.request plainExchange.reply := by
  refine ⟨[plainExchange.reply], none, ?_, List.mem_singleton.mpr rfl, by decide⟩
  rfl

/-! ## Where the reply is sent -/

/-- Twelve octets behind twenty, in three pieces of four. -/
private theorem slices_behind_head {xs l₁ l₂ l₃ : ByteStream} (ys : ByteStream)
    (hxs : xs.length = 20)
    (h₁ : l₁.length = 4) (h₂ : l₂.length = 4) (h₃ : l₃.length = 4) :
    slice (xs ++ (l₁ ++ (l₂ ++ (l₃ ++ ys)))) 20 4 = l₁ ∧
      slice (xs ++ (l₁ ++ (l₂ ++ (l₃ ++ ys)))) 24 4 = l₂ ∧
      slice (xs ++ (l₁ ++ (l₂ ++ (l₃ ++ ys)))) 28 4 = l₃ := by
  have hfirst : ∀ l zs : ByteStream, l.length = 4 → slice (l ++ zs) 0 4 = l := by
    intro l zs hl
    rw [← hl, slice_append_left]
  refine ⟨?_, ?_, ?_⟩
  · rw [show 20 = xs.length + 0 by omega, slice_append_right]
    exact hfirst l₁ _ h₁
  · rw [show 24 = xs.length + (l₁.length + 0) by omega, slice_append_right,
      slice_append_right]
    exact hfirst l₂ _ h₂
  · rw [show 28 = xs.length + (l₁.length + (l₂.length + 0)) by omega, slice_append_right,
      slice_append_right, slice_append_right]
    exact hfirst l₃ _ h₃

/-- Four octets, one by one. -/
private theorem slice_four (xs : ByteStream) (i : Nat) :
    slice xs i 4
      = slice xs i 1 ++ (slice xs (i + 1) 1 ++ (slice xs (i + 2) 1 ++ slice xs (i + 3) 1)) := by
  rw [slice_add xs i 1 3, slice_add xs (i + 1) 1 2, slice_add xs (i + 2) 1 1]

/-- Four octets agree when each of them does. -/
private theorem slice_four_eq_iff (xs ys : ByteStream) (i j : Nat) :
    slice xs i 4 = slice ys j 4 ↔
      slice xs i 1 = slice ys j 1 ∧ slice xs (i + 1) 1 = slice ys (j + 1) 1 ∧
        slice xs (i + 2) 1 = slice ys (j + 2) 1 ∧ slice xs (i + 3) 1 = slice ys (j + 3) 1 := by
  constructor
  · intro h
    have hone : ∀ k, k + 1 ≤ 4 → slice xs (i + k) 1 = slice ys (j + k) 1 := by
      intro k hk
      rw [← slice_slice xs hk, h, slice_slice ys hk]
    exact ⟨hone 0 (by omega), hone 1 (by omega), hone 2 (by omega), hone 3 (by omega)⟩
  · rintro ⟨h0, h1, h2, h3⟩
    rw [slice_four xs i, slice_four ys j, h0, h1, h2, h3]

/-- **The reply `r` goes back where the request came from**: its routing label,
    in the Protocol Data parameter at 16, is that of the request's parameter at
    `p` with the point codes exchanged. -/
def GoesBack (b : ByteStream) (p : Nat) (r : ByteStream) : Prop :=
  opcAt r 16 = dpcAt b p ∧ dpcAt r 16 = opcAt b p ∧ siAt r 16 = siAt b p ∧
    niAt r 16 = niAt b p ∧ mpAt r 16 = mpAt b p ∧ slsAt r 16 = slsAt b p

/-- Where in the request the OPC of the reply, its DPC and its last four label
    octets are taken from, by the positions that were taken for tags.  With one
    of them every field keeps its place; with more, the OPCs follow one another
    into the places of the fields behind. -/
def labelSources : List Nat → Nat × Nat × Nat
  | [] => (0, 0, 0)
  | [p] => (p + 4, p + 8, p + 12)
  | [p₁, p₂] => (p₁ + 4, p₂ + 4, p₁ + 8)
  | p₁ :: p₂ :: p₃ :: _ => (p₁ + 4, p₂ + 4, p₃ + 4)

/-- The octets of the request that become the label of the reply are those of
    the parameter at `p` with the point codes exchanged. -/
def SwapsLabel (b : ByteStream) (p : Nat) : Prop :=
  slice b (labelSources (tagHits b)).1 4 = dpcAt b p ∧
    slice b (labelSources (tagHits b)).2.1 4 = opcAt b p ∧
    slice b (labelSources (tagHits b)).2.2 4 = slice b (p + 12) 4

instance (b : ByteStream) (p : Nat) : Decidable (SwapsLabel b p) :=
  inferInstanceAs (Decidable (_ ∧ _ ∧ _))

/-- When the parameter itself is the only position taken for a tag, the label is
    swapped only if there is nothing to swap. -/
theorem swapsLabel_of_single {b : ByteStream} {p : Nat} (h : tagHits b = [p]) :
    SwapsLabel b p ↔ opcAt b p = dpcAt b p := by
  rw [SwapsLabel]
  rw [h]
  constructor
  · rintro ⟨hopc, -, -⟩
    exact hopc
  · intro heq
    exact ⟨heq, heq.symm, rfl⟩

/-- **The layout of a reply**: behind its head each field of the label holds
    what was collected at all the positions taken for tags. -/
private theorem ReplyRun.layout {env : Env} {dataTxt : DataTxt} {b : ByteStream} {s : Sent}
    {q : Request} {newNum : CString} {sccpStream : ByteStream}
    (h : ReplyRun env dataTxt b s q newNum sccpStream) :
    ∃ t d, s.msg = dataHead t d
      ++ ((tagHits b).flatMap (opcAt b) ++ ((tagHits b).flatMap (dpcAt b)
        ++ ((tagHits b).flatMap (siAt b) ++ ((tagHits b).flatMap (niAt b)
          ++ ((tagHits b).flatMap (mpAt b) ++ ((tagHits b).flatMap (slsAt b)
            ++ (sccpStream ++ padding d))))))) := by
  obtain ⟨-, hcollect⟩ := h.requests.m3ua
  have hmsg := h.msg
  rcases encodeMsg_layout sccpStream q.incomingM3uaMsg.opc q.incomingM3uaMsg.dpc
    q.incomingM3uaMsg.si q.incomingM3uaMsg.ni q.incomingM3uaMsg.mp
    q.incomingM3uaMsg.sls with hnil | ⟨t, d, hlay⟩
  · exact absurd (hmsg.trans hnil) h.msg_ne_nil
  · refine ⟨t, d, ?_⟩
    rw [hmsg, hlay, hcollect]
    simp only [List.append_assoc]
    rfl

/-- The label of the reply, in three pieces of four octets. -/
private theorem reply_label {env : Env} {dataTxt : DataTxt} {b : ByteStream} {s : Sent}
    {q : Request} {newNum : CString} {sccpStream : ByteStream}
    (h : ReplyRun env dataTxt b s q newNum sccpStream) :
    slice s.msg 20 4 = slice b (labelSources (tagHits b)).1 4 ∧
      slice s.msg 24 4 = slice b (labelSources (tagHits b)).2.1 4 ∧
      slice s.msg 28 4 = slice b (labelSources (tagHits b)).2.2 4 := by
  obtain ⟨hsafe, -⟩ := h.requests.m3ua
  have hne := h.tagHits_ne_nil
  obtain ⟨t, d, hlayout⟩ := h.layout
  have hfour : ∀ p ∈ tagHits b, ∀ k, k + 4 ≤ 16 → (slice b (p + k) 4).length = 4 := by
    intro p hp k hk
    have := (hsafe.windows p hp).1
    exact slice_length (by omega)
  rw [hlayout]
  generalize tagHits b = hits at hne hfour
  -- as `labelSources` does: only the first three positions reach the label
  match hits with
  | [] => exact absurd rfl hne
  | [p] =>
      have := slices_behind_head (sccpStream ++ padding d) (dataHead_length t d)
        (hfour p List.mem_cons_self 4 (by omega)) (hfour p List.mem_cons_self 8 (by omega))
        (hfour p List.mem_cons_self 12 (by omega))
      rw [slice_four b (p + 12)] at this
      rw [labelSources, slice_four b (p + 12)]
      simpa [opcAt, dpcAt, siAt, niAt, mpAt, slsAt] using this
  | [p₁, p₂] =>
      have hp₂ : p₂ ∈ [p₁, p₂] := List.mem_cons_of_mem p₁ List.mem_cons_self
      have := slices_behind_head
        (dpcAt b p₂ ++ ([p₁, p₂].flatMap (siAt b) ++ ([p₁, p₂].flatMap (niAt b)
          ++ ([p₁, p₂].flatMap (mpAt b) ++ ([p₁, p₂].flatMap (slsAt b)
            ++ (sccpStream ++ padding d))))))
        (dataHead_length t d) (hfour p₁ List.mem_cons_self 4 (by omega))
        (hfour p₂ hp₂ 4 (by omega)) (hfour p₁ List.mem_cons_self 8 (by omega))
      simpa [labelSources, opcAt, dpcAt] using this
  | p₁ :: p₂ :: p₃ :: rest =>
      have hp₂ : p₂ ∈ p₁ :: p₂ :: p₃ :: rest := by simp
      have hp₃ : p₃ ∈ p₁ :: p₂ :: p₃ :: rest := by simp
      have := slices_behind_head
        (rest.flatMap (opcAt b) ++ ((p₁ :: p₂ :: p₃ :: rest).flatMap (dpcAt b)
          ++ ((p₁ :: p₂ :: p₃ :: rest).flatMap (siAt b)
            ++ ((p₁ :: p₂ :: p₃ :: rest).flatMap (niAt b)
              ++ ((p₁ :: p₂ :: p₃ :: rest).flatMap (mpAt b)
                ++ ((p₁ :: p₂ :: p₃ :: rest).flatMap (slsAt b)
                  ++ (sccpStream ++ padding d)))))))
        (dataHead_length t d) (hfour p₁ List.mem_cons_self 4 (by omega))
        (hfour p₂ hp₂ 4 (by omega)) (hfour p₃ hp₃ 4 (by omega))
      simpa [labelSources, opcAt] using this

/-- **Which replies go back to their sender.**  `p` may be any position of the
    request, its Protocol Data parameter being the one of interest. -/
theorem reply_goes_back_iff {env : Env} {dataTxt : DataTxt} {b : ByteStream} {s : Sent}
    (h : Replies env dataTxt b s) (p : Nat) :
    GoesBack b p s.msg ↔ SwapsLabel b p := by
  obtain ⟨q, newNum, sccpStream, hrun⟩ := replies_run h
  obtain ⟨hopc, hdpc, hrest⟩ := reply_label hrun
  rw [GoesBack, SwapsLabel]
  rw [← hopc, ← hdpc, ← hrest, slice_four_eq_iff]
  rfl

theorem reply_goes_back_iff_plain :
    GoesBack plainExchange.request 16 plainExchange.reply.msg ↔
      SwapsLabel plainExchange.request 16 :=
  reply_goes_back_iff plainExchange_replies 16

/-- The request from 1 to 2 is answered from 1 to 2. -/
theorem plainExchange_not_back :
    Replies plainExchange.env none plainExchange.request plainExchange.reply ∧
      protocolDataOffsets plainExchange.request = [16] ∧
      ¬ GoesBack plainExchange.request 16 plainExchange.reply.msg := by
  refine ⟨plainExchange_replies, by decide +kernel, ?_⟩
  rintro ⟨hopc, -⟩
  exact absurd hopc (by decide)

/-! ## The dialogue of the reply -/

/-- The reply to `b` carries the End `e`. -/
def CarriesEnd (env : Env) (dataTxt : DataTxt) (b : ByteStream) (s : Sent) (e : End) : Prop :=
  ∃ q newNum sccpStream, ReplyRun env dataTxt b s q newNum sccpStream ∧
    e = TcapMessage.endOf q.invokeID q.incomingTcap.transactionId
      (InapMessage.encodeConnect env.asn newNum) ∧
    SccpMessage.encodeSccp (env.asn.encodeTCMessage (.PR_end e))
      q.incomingSccp.getCallingPartyAddress q.incomingSccp.getCalledPartyAddress
      = .ok sccpStream

/-- Every reply carries an End. -/
theorem replies_carries {env : Env} {dataTxt : DataTxt} {b : ByteStream} {s : Sent}
    (h : Replies env dataTxt b s) : ∃ e, CarriesEnd env dataTxt b s e := by
  obtain ⟨q, newNum, sccpStream, hrun⟩ := replies_run h
  exact ⟨_, q, newNum, sccpStream, hrun, rfl, hrun.encoded⟩

/-- The End of a reply is sent to the four octets behind the `otid.buf` of its
    request. -/
theorem carriesEnd_dtid {env : Env} {dataTxt : DataTxt} {b data : ByteStream} {s : Sent}
    {e : End} {begin_ : Begin} (h : CarriesEnd env dataTxt b s e)
    (hdata : sccpUserData b = .ok data)
    (hbegin : env.asn.decodeTCMessage data = some (.PR_begin begin_)) :
    4 ≤ begin_.otid.buf.length ∧ e.dtid.value = begin_.otid.buf.take 4 := by
  obtain ⟨q, newNum, sccpStream, hrun, rfl, -⟩ := h
  obtain ⟨htcap, -⟩ := hrun.tcap hdata
  rw [TcapMessage.ofBytes] at htcap
  rw [hbegin] at htcap
  obtain ⟨t, components, ht, -, hm⟩ := takeBegin_eq_ok.mp htcap
  have hid : q.incomingTcap.transactionId = t := by
    rw [hm]
    exact takeComponents_transactionId components _
  rw [hid]
  exact endOf_dtid ht q.invokeID _

/-- **Which dialogues are answered under their own identifier**: those whose
    identifier has four octets. -/
theorem reply_dtid_iff {env : Env} {dataTxt : DataTxt} {b data : ByteStream} {s : Sent}
    {e : End} {begin_ : Begin} (h : CarriesEnd env dataTxt b s e)
    (hdata : sccpUserData b = .ok data)
    (hbegin : env.asn.decodeTCMessage data = some (.PR_begin begin_)) :
    e.dtid.value = begin_.otid.value ↔ begin_.otid.size = 4 := by
  obtain ⟨hlen, hdtid⟩ := carriesEnd_dtid h hdata hbegin
  rw [hdtid]
  exact take_four_eq_value_iff hlen

theorem reply_dtid_iff_plain :
    ∃ e, CarriesEnd plainExchange.env none plainExchange.request plainExchange.reply e ∧
      (e.dtid.value = plainExchange.otid.value ↔ plainExchange.otid.size = 4) := by
  obtain ⟨e, he⟩ := replies_carries plainExchange_replies
  have hdata : sccpUserData plainExchange.request = .ok plainExchange.beginOctets := rfl
  have hbegin : plainExchange.env.asn.decodeTCMessage plainExchange.beginOctets
      = some (.PR_begin plainExchange.begin_) := rfl
  exact ⟨e, he, reply_dtid_iff he hdata hbegin⟩

/-- InitialDP in a dialogue with an identifier of two octets, in the sixteen
    octets allocated for it. -/
def shortExchange : Exchange where
  otid := ⟨[0x12, 0x34] ++ List.replicate 14 0x00, 2, by decide⟩
  opCode := .PR_localValue 0
  opOctets := tlv 0x02 [0x00]

/-- Dialogue `12 34` is answered as `12 34 00 00`. -/
theorem shortExchange_answered_elsewhere :
    sccpUserData shortExchange.request = .ok shortExchange.beginOctets ∧
      shortExchange.env.asn.decodeTCMessage shortExchange.beginOctets
        = some (.PR_begin shortExchange.begin_) ∧
      shortExchange.begin_.otid.value = [0x12, 0x34] ∧
      ∃ e, CarriesEnd shortExchange.env none shortExchange.request shortExchange.reply e ∧
        e.dtid.value = [0x12, 0x34, 0x00, 0x00] := by
  have hreply : Replies shortExchange.env none shortExchange.request shortExchange.reply :=
    ⟨[shortExchange.reply], none, rfl, List.mem_singleton.mpr rfl, by decide⟩
  have hdata : sccpUserData shortExchange.request = .ok shortExchange.beginOctets := rfl
  have hbegin : shortExchange.env.asn.decodeTCMessage shortExchange.beginOctets
      = some (.PR_begin shortExchange.begin_) := rfl
  obtain ⟨e, he⟩ := replies_carries hreply
  exact ⟨hdata, hbegin, rfl, e, he, (carriesEnd_dtid he hdata hbegin).2⟩

/-! ## Which requests are answered -/

/-- **A TCAP message that calls InitialDP**: a Begin with exactly one component,
    an Invoke with the local operation code 0 and an InitialDPArg with a called
    party number. -/
def CallsInitialDP (asn : Asn1c) (data : ByteStream) : Prop :=
  ∃ begin_ invoke parameter arg, asn.decodeTCMessage data = some (.PR_begin begin_) ∧
    begin_.components = some [.PR_invoke invoke] ∧ invoke.opCode = .PR_localValue 0 ∧
    invoke.parameter = some parameter ∧ asn.decodeInitialDPArg parameter = some arg ∧
    arg.calledPartyNumber.isSome = true

/-- The operation is a local one whose code `int` tells apart from 0, or is 0. -/
def TellsInitialDP (op : OPERATION) : Prop :=
  ∃ v, op = .PR_localValue v ∧ ((2 ^ 32 : Int) ∣ v.toInt → v = 0)

/-- The one component of an answered request, whose operation looks like
    InitialDP. -/
theorem ReplyRun.invoke {env : Env} {dataTxt : DataTxt} {b : ByteStream} {s : Sent}
    {q : Request} {newNum : CString} {sccpStream : ByteStream}
    (h : ReplyRun env dataTxt b s q newNum sccpStream)
    (hnil : env.asn.decodeInitialDPArg [] = none) :
    ∃ begin_ invoke parameter arg,
      env.asn.decodeTCMessage q.incomingSccp.getData = some (.PR_begin begin_) ∧
      begin_.components = some [.PR_invoke invoke] ∧
      invoke.parameter = some parameter ∧ localCodeOf invoke.opCode = 0 ∧
      env.asn.decodeInitialDPArg parameter = some arg ∧
      arg.calledPartyNumber.isSome = true := by
  obtain ⟨dataTxt', hreq⟩ := h.request
  obtain ⟨-, -, htcap, -, hinap⟩ := decodeRequest_some hreq
  obtain ⟨arg, o, hdec, hcpn, -⟩ := inap_number hinap h.called
  -- an undecoded TCAP message leaves no parameter data to decode
  have hne : q.incomingTcap.parameterData ≠ [] := by
    intro h0
    rw [h0, hnil] at hdec
    exact nomatch hdec
  obtain ⟨begin_, invoke, hbegin, hcomp, hpar, hcode⟩ := ofBytes_parameterData htcap hne
  exact ⟨begin_, invoke, _, arg, hbegin, hcomp, hpar, hcode, hdec, by rw [hcpn]; rfl⟩

/-- **Which replies answer an InitialDP.**  A reply needs everything InitialDP
    has but the operation code, which is only compared after it has been
    narrowed, and is 0 where there is none. -/
theorem initialDP_only_iff {env : Env} {dataTxt : DataTxt} {b data : ByteStream}
    {s : Sent} (h : Replies env dataTxt b s) (hdata : sccpUserData b = .ok data)
    (hnil : env.asn.decodeInitialDPArg [] = none) :
    CallsInitialDP env.asn data ↔
      ∀ begin_ invoke, env.asn.decodeTCMessage data = some (.PR_begin begin_) →
        begin_.components = some [.PR_invoke invoke] → TellsInitialDP invoke.opCode := by
  obtain ⟨q, newNum, sccpStream, hrun⟩ := replies_run h
  rw [hrun.userData] at hdata
  obtain rfl := Except.ok.inj hdata
  obtain ⟨begin_, invoke, parameter, arg, hbegin, hcomp, hpar, hcode, hdec, hcpn⟩ :=
    hrun.invoke hnil
  constructor
  · -- the decoder gives one Begin, so both name the same invoke
    rintro ⟨begin', invoke', -, -, hbegin', hcomp', hop, -⟩ begin₂ invoke₂ hbegin₂ hcomp₂
    rw [hbegin'] at hbegin₂
    obtain rfl := TCMessage.PR_begin.inj (Option.some.inj hbegin₂)
    rw [hcomp'] at hcomp₂
    have hinv : Component.PR_invoke invoke' = .PR_invoke invoke₂ :=
      (List.cons.inj (Option.some.inj hcomp₂)).1
    rw [← Component.PR_invoke.inj hinv]
    exact ⟨0, hop, fun _ => rfl⟩
  · intro htells
    obtain ⟨v, hop, hzero⟩ := htells begin_ invoke hbegin hcomp
    refine ⟨begin_, invoke, parameter, arg, hbegin, hcomp, ?_, hpar, hdec, hcpn⟩
    rcases localCodeOf_eq_zero.mp hcode with ⟨oid, hglobal⟩ | ⟨w, hlocal, hdvd⟩
    · rw [hop] at hglobal
      exact nomatch hglobal
    · rw [hop] at hlocal
      rw [hop, hzero (OPERATION.PR_localValue.inj hlocal ▸ hdvd)]

theorem initialDP_only_iff_plain :
    CallsInitialDP plainExchange.env.asn plainExchange.beginOctets ↔
      ∀ begin_ invoke,
        plainExchange.env.asn.decodeTCMessage plainExchange.beginOctets
          = some (.PR_begin begin_) →
        begin_.components = some [.PR_invoke invoke] → TellsInitialDP invoke.opCode :=
  initialDP_only_iff plainExchange_replies rfl rfl

/-- A call of the global operation 1.2. -/
def globalExchange : Exchange where
  otid := .ofBytes [0x11, 0x22, 0x33, 0x44]
  opCode := .PR_globalValue [0x2A]
  opOctets := tlv 0x06 [0x2A]

/-- The global operation is answered as if it were InitialDP. -/
theorem globalExchange_answered :
    Replies globalExchange.env none globalExchange.request globalExchange.reply ∧
      sccpUserData globalExchange.request = .ok globalExchange.beginOctets ∧
      ¬ CallsInitialDP globalExchange.env.asn globalExchange.beginOctets := by
  refine ⟨⟨[globalExchange.reply], none, rfl, List.mem_singleton.mpr rfl, by decide⟩,
    rfl, ?_⟩
  rintro ⟨begin_, invoke, -, -, hbegin, hcomp, hop, -⟩
  have hdec : globalExchange.env.asn.decodeTCMessage globalExchange.beginOctets
      = some (.PR_begin globalExchange.begin_) := rfl
  rw [hdec] at hbegin
  rw [← TCMessage.PR_begin.inj (Option.some.inj hbegin)] at hcomp
  have hinvoke := Component.PR_invoke.inj (List.cons.inj (Option.some.inj hcomp)).1
  rw [← hinvoke] at hop
  exact nomatch hop

end ProtoVscp
