import ProtoVscp.ReplyProofs
import ProtoVscp.ReceptionProofs

/-! # Runs of the server

    Two laws hold of every run: in which order the messages leave
    (`asp_order`), and that what is sent for a message depends on nothing that
    came before it (`history_independent`). -/

namespace ProtoVscp

open CheckedLoops EventLoop M3UAmessage

/-! ## The order of the messages -/

/-- A message of the given kind is received, or sent. -/
def Event.Receives (K : ByteStream → Prop) : Event → Prop
  | .received incomingMsg _ => K incomingMsg
  | .sent _ => False

def Event.Sends (K : ByteStream → Prop) : Event → Prop
  | .received _ _ => False
  | .sent s => K s.msg

/-- What an event tells of a message sent, or received. -/
def Event.sent? : Event → Option Sent
  | .received _ _ => none
  | .sent s => some s

def Event.received? : Event → Option (ByteStream × World)
  | .received incomingMsg world => some (incomingMsg, world)
  | .sent _ => none

section Iterate

variable (asn : Asn1c) (d : DataTxt) {recv : Recvmsg} (world : World) {ret : Int}
  {b : ByteStream}

/-- A receive call that fails, or gives nothing, ends the loop. -/
theorem iterate_leave (hw : waitForMsg recv [] = (ret, b)) (hret : ret < 1) :
    iterate asn d (.socket recv world) = ([], .stop) := by
  rw [iterate, hw]
  exact if_pos hret

/-- A message that is handled, and one that faults. -/
theorem iterate_handled (hw : waitForMsg recv [] = (ret, b)) (hret : ¬ ret < 1)
    {r : List Sent × DataTxt} (hrun : handleMessage (world.env asn) d b = .ok r) :
    iterate asn d (.socket recv world)
      = (.received b world :: r.1.map .sent, .again r.2) := by
  rw [iterate, hw]
  simp only [if_neg hret, hrun]

theorem iterate_faulted (hw : waitForMsg recv [] = (ret, b)) (hret : ¬ ret < 1)
    {fault : Fault} (hrun : handleMessage (world.env asn) d b = .error fault) :
    iterate asn d (.socket recv world) = ([.received b world], .fault fault) := by
  rw [iterate, hw]
  simp only [if_neg hret, hrun]

end Iterate

/-- What one iteration does, in three cases. -/
theorem iterate_cases (asn : Asn1c) (d : DataTxt) (i : Iteration) :
    (iterate asn d i).1 = [] ∨
      (∃ recv world b sent d', i = .socket recv world ∧
        handleMessage (world.env asn) d b = .ok (sent, d') ∧
        (iterate asn d i).1 = .received b world :: sent.map .sent) ∨
      ∃ recv world b fault, i = .socket recv world ∧
        handleMessage (world.env asn) d b = .error fault ∧
        (iterate asn d i).1 = [.received b world] := by
  cases i with
  | stdin => exact Or.inl rfl
  | socket recv world =>
      cases hw : waitForMsg recv [] with
      | mk ret b =>
          by_cases hret : ret < 1
          · exact Or.inl (by rw [iterate_leave asn d world hw hret])
          · cases hrun : handleMessage (world.env asn) d b with
            | error fault =>
                exact Or.inr (Or.inr ⟨recv, world, b, fault, rfl, hrun,
                  by rw [iterate_faulted asn d world hw hret hrun]⟩)
            | ok r =>
                exact Or.inr (Or.inl ⟨recv, world, b, r.1, r.2, rfl, hrun,
                  by rw [iterate_handled asn d world hw hret hrun]⟩)

/-- One iteration sends ASP Active and DATA in answer to their own requests
    only. -/
theorem iterate_precedes (asn : Asn1c) (d : DataTxt) (i : Iteration) :
    Precedes (Event.Receives IsAspUpAck) (Event.Sends IsAspActive) (iterate asn d i).1 ∧
      Precedes (Event.Receives IsData) (Event.Sends IsData) (iterate asn d i).1 := by
  -- an iteration that only receives sends neither
  have hnone : ∀ (K : ByteStream → Prop) (b : ByteStream) (world : World),
      ∀ e ∈ [Event.received b world], ¬ e.Sends K := by
    intro K b world e he
    rw [List.mem_singleton.mp he]
    exact id
  -- and one that sends another kind of message sends none of the kind `K`
  have hother : ∀ (K : ByteStream → Prop) (b : ByteStream) (world : World) (s : Sent),
      ¬ K s.msg → ∀ e ∈ [Event.received b world, .sent s], ¬ e.Sends K := by
    intro K b world s hs e he
    rcases List.mem_cons.mp he with rfl | he
    · exact id
    · rw [List.mem_singleton.mp he]
      exact hs
  rcases iterate_cases asn d i with hnil | ⟨-, world, b, sent, d', -, hrun, hit⟩ |
    ⟨-, world, b, fault, -, -, hit⟩
  · rw [hnil]
    exact ⟨precedes_nil, precedes_nil⟩
  · rw [hit]
    rcases handleMessage_sent hrun with ⟨hack, rfl⟩ | ⟨hdata, s, rfl, hs⟩ | rfl
    · have hactive : ¬ IsData aspActiveSent.msg := by decide
      exact ⟨precedes_cons hack id, precedes_of_none (hother _ b world _ hactive)⟩
    · have hdataOnly : ¬ IsAspActive s.msg := fun h =>
        absurd (h.unique (isData_iff_header.mp hs)).1 (by decide)
      exact ⟨precedes_of_none (hother _ b world s hdataOnly), precedes_cons hdata id⟩
    · exact ⟨precedes_of_none (hnone _ b world), precedes_of_none (hnone _ b world)⟩
  · rw [hit]
    exact ⟨precedes_of_none (hnone _ b world), precedes_of_none (hnone _ b world)⟩

/-- **The order in which the messages leave**: ASP Up is first, an ASP Active
    follows an ASP Up Ack and a DATA message a DATA message. -/
structure AspOrder (events : List Event) : Prop where
  aspUp : ∃ s rest, events = .sent s :: rest ∧ IsAspUp s.msg
  aspActive : Precedes (Event.Receives IsAspUpAck) (Event.Sends IsAspActive) events
  data : Precedes (Event.Receives IsData) (Event.Sends IsData) events

theorem main_eq (asn : Asn1c) (dataTxt : DataTxt) (iterations : List Iteration) :
    main asn dataTxt iterations
      = (.sent aspUpSent :: (run (iterate asn) dataTxt iterations).1,
          (run (iterate asn) dataTxt iterations).2) := rfl

/-- The iteration takes an ASP Active Ack off the socket. -/
def Iteration.TakesActiveAck : Iteration → Prop
  | .stdin => False
  | .socket recv _ => IsAspActiveAck (waitForMsg recv []).2

instance : DecidablePred Iteration.TakesActiveAck
  | .stdin => inferInstanceAs (Decidable False)
  | .socket recv _ => inferInstanceAs (Decidable (IsAspActiveAck (waitForMsg recv []).2))

/-- The iterations as they are when no ASP Active Ack arrives. -/
def withoutActiveAcks (iterations : List Iteration) : List Iteration :=
  iterations.filter fun i => ¬ i.TakesActiveAck

/-- The iteration that takes one does nothing else. -/
theorem iterate_activeAck (asn : Asn1c) (d : DataTxt) {i : Iteration} (h : i.TakesActiveAck) :
    (iterate asn d i).1.filterMap Event.sent? = [] ∧ (iterate asn d i).2 = .again d := by
  cases i with
  | stdin => cases h
  | socket recv world =>
      have hack : IsAspActiveAck (waitForMsg recv []).2 := h
      cases recv with
      | error => exact absurd hack (by decide)
      | octets piece =>
          have hw : waitForMsg (.octets piece) [] = ((piece.buf.length : Int), piece.buf) := rfl
          have hack : IsAspActiveAck piece.buf := hack
          have hrun : handleMessage (world.env asn) d piece.buf = .ok ([], d) := by
            rcases handleMessage_cases piece.buf with ⟨hup, -⟩ | ⟨hdata, -⟩ | ⟨-, -, hrun⟩
            · exact absurd (hack.unique hup).1 (by decide)
            · exact absurd (hack.unique (isData_iff_header.mp hdata)).1 (by decide)
            · exact hrun _ d
          have hlen := hack.1
          have hret : ¬ (piece.buf.length : Int) < 1 := by omega
          rw [iterate_handled asn d world hw hret hrun]
          exact ⟨rfl, rfl⟩

/-- **Every run keeps the order, and ASP Active Acks play no part in it**: without
    them the same messages are sent, and the run ends the same way. -/
theorem asp_order (asn : Asn1c) (dataTxt : DataTxt) (iterations : List Iteration) :
    AspOrder (main asn dataTxt iterations).1 ∧
      (main asn dataTxt (withoutActiveAcks iterations)).1.filterMap Event.sent?
        = (main asn dataTxt iterations).1.filterMap Event.sent? ∧
      (main asn dataTxt (withoutActiveAcks iterations)).2
        = (main asn dataTxt iterations).2 := by
  have hactive : ¬ IsAspActive aspUpSent.msg := by decide
  have hdata : ¬ IsData aspUpSent.msg := by decide
  have hskip : ∀ d i, decide (¬ i.TakesActiveAck) = false →
      (iterate asn d i).1.filterMap Event.sent? = [] ∧ (iterate asn d i).2 = .again d :=
    fun d i hi => iterate_activeAck asn d (not_not.mp (of_decide_eq_false hi))
  obtain ⟨hsent, hend⟩ := run_filter hskip iterations dataTxt
  rw [main_eq, main_eq]
  refine ⟨⟨⟨aspUpSent, _, rfl, by decide⟩, Precedes.cons ?_ hactive, Precedes.cons ?_ hdata⟩,
    congrArg (aspUpSent :: ·) hsent, hend⟩
  · exact run_emits precedes_nil (fun _ _ => Precedes.append) iterations dataTxt
      fun d i _ => (iterate_precedes asn d i).1
  · exact run_emits precedes_nil (fun _ _ => Precedes.append) iterations dataTxt
      fun d i _ => (iterate_precedes asn d i).2

/-- A request, in the one piece it is received in. -/
def requestPiece : Piece where
  buf := plainExchange.request
  MSG_EOR := true
  fits := by decide

/-- The world in which it is answered. -/
def plainWorld : World where
  files := filesOk
  sqlite := plainExchange.env.sqlite

/-- A request that comes before any acknowledgement is answered. -/
theorem data_before_activeAck :
    ¬ Precedes (Event.Receives IsAspActiveAck) (Event.Sends IsData)
      (main plainExchange.env.asn none [.socket (.octets requestPiece) plainWorld]).1 := by
  have hrun : (main plainExchange.env.asn none
      [.socket (.octets requestPiece) plainWorld]).1
      = [.sent aspUpSent, .received plainExchange.request plainWorld]
        ++ .sent plainExchange.reply :: [] := rfl
  have hno : ¬ IsAspActiveAck plainExchange.request := by decide
  intro h
  obtain ⟨e, he, hack⟩ := h _ _ _ hrun
    (show IsData plainExchange.reply.msg by decide)
  rcases List.mem_cons.mp he with rfl | he
  · exact hack
  · rw [List.mem_singleton.mp he] at hack
    exact hno hack

/-! ## Independence of the history -/

/-- One iteration does the same whatever `data.txt` holds. -/
theorem iterate_oblivious (asn : Asn1c) (d d' : DataTxt) (i : Iteration) :
    (iterate asn d i).1 = (iterate asn d' i).1 ∧
      (iterate asn d i).2.forget = (iterate asn d' i).2.forget := by
  cases i with
  | stdin => exact ⟨rfl, rfl⟩
  | socket recv world =>
      cases hw : waitForMsg recv [] with
      | mk ret b =>
          by_cases hret : ret < 1
          · rw [iterate_leave asn d world hw hret, iterate_leave asn d' world hw hret]
            exact ⟨rfl, rfl⟩
          · rcases agree_iff.mp (handleMessage_agree (world.env asn) b d d') with
              ⟨fault, h, h'⟩ | ⟨sent, t, t', h, h'⟩
            · rw [iterate_faulted asn d world hw hret h,
                iterate_faulted asn d' world hw hret h']
              exact ⟨rfl, rfl⟩
            · rw [iterate_handled asn d world hw hret h,
                iterate_handled asn d' world hw hret h']
              exact ⟨rfl, rfl⟩

/-- **What `data.txt` holds at the start has no effect on a run**, whether the
    system calls on it succeed or not. -/
theorem main_oblivious (asn : Asn1c) (d d' : DataTxt) (iterations : List Iteration) :
    (main asn d iterations).1 = (main asn d' iterations).1 ∧
      (main asn d iterations).2.forget = (main asn d' iterations).2.forget := by
  obtain ⟨hout, hend⟩ := run_oblivious (iterate_oblivious asn) iterations d d'
  exact ⟨congrArg (Event.sent aspUpSent :: ·) hout, hend⟩

/-- The messages that arrive until the loop is left, each with what the system
    answers while it is handled. -/
def arrivals : List Iteration → List (ByteStream × World)
  | [] => []
  | .stdin :: rest => arrivals rest
  | .socket recv world :: rest =>
      let (ret, incomingMsg) := waitForMsg recv []
      if ret < 1 then [] else (incomingMsg, world) :: arrivals rest

/-- The receive call of an iteration that has one. -/
def Iteration.recv? : Iteration → Option Recvmsg
  | .stdin => none
  | .socket recv _ => some recv

/-- The system calls on `data.txt` succeed during the iteration. -/
def Iteration.FilesOk : Iteration → Prop
  | .stdin => True
  | .socket _ world => world.files = filesOk

/-- What the server sends for the message `m` when the database answers as
    `sqlite` says: it is computed without a `data.txt`. -/
def out (asn : Asn1c) (sqlite : CString → Sqlite) (m : ByteStream) : List Sent :=
  match handleMessage { asn := asn, files := filesOk, sqlite := sqlite } none m with
  | .ok (sent, _) => sent
  | .error _ => []

/-- What was sent for the messages seen in a run is `out` of each of them. -/
private def SendsOut (asn : Asn1c) (events : List Event) : Prop :=
  events.filterMap Event.sent?
    = (events.filterMap Event.received?).flatMap fun a => out asn a.2.sqlite a.1

private theorem SendsOut.append {asn : Asn1c} {l₁ l₂ : List Event} (h₁ : SendsOut asn l₁)
    (h₂ : SendsOut asn l₂) : SendsOut asn (l₁ ++ l₂) := by
  rw [SendsOut] at h₁ h₂ ⊢
  rw [List.filterMap_append, List.filterMap_append, List.flatMap_append, h₁, h₂]

private theorem filterMap_sent (sent : List Sent) :
    (sent.map Event.sent).filterMap Event.sent? = sent ∧
      (sent.map Event.sent).filterMap Event.received? = [] := by
  induction sent with
  | nil => exact ⟨rfl, rfl⟩
  | cons s rest ih => exact ⟨congrArg (s :: ·) ih.1, ih.2⟩

section Out

variable {asn : Asn1c} {world : World} {d : DataTxt} {b : ByteStream}

/-- What is sent from any `data.txt` is what would be sent without one. -/
private theorem out_agree (asn : Asn1c) (hfiles : world.files = filesOk) (d : DataTxt)
    (b : ByteStream) :
    Agree (handleMessage (world.env asn) d b)
      (handleMessage { asn := asn, files := filesOk, sqlite := world.sqlite } none b) := by
  rw [← hfiles]
  exact handleMessage_agree (world.env asn) b d none

theorem out_handled (hfiles : world.files = filesOk) {sent : List Sent} {d' : DataTxt}
    (hrun : handleMessage (world.env asn) d b = .ok (sent, d')) :
    out asn world.sqlite b = sent := by
  have hagree := out_agree asn hfiles d b
  rw [hrun] at hagree
  rcases agree_iff.mp hagree with ⟨e, he, -⟩ | ⟨sent', s, t, hs, ht⟩
  · cases he
  · obtain ⟨rfl, -⟩ := ok_pair_inj hs
    rw [out, ht]

theorem out_faulted (hfiles : world.files = filesOk) {fault : Fault}
    (hrun : handleMessage (world.env asn) d b = .error fault) :
    out asn world.sqlite b = [] := by
  have hagree := out_agree asn hfiles d b
  rw [hrun] at hagree
  rcases agree_iff.mp hagree with ⟨e, -, ht⟩ | ⟨sent', s, t, hs, -⟩
  · rw [out, ht]
  · cases hs

end Out

/-- One iteration, from any `data.txt`. -/
private theorem iterate_sendsOut (asn : Asn1c) (d : DataTxt) {i : Iteration}
    (hfiles : i.FilesOk) : SendsOut asn (iterate asn d i).1 := by
  rcases iterate_cases asn d i with hnil | ⟨recv, world, b, sent, d', rfl, hrun, hit⟩ |
    ⟨recv, world, b, fault, rfl, hrun, hit⟩
  · rw [hnil]
    rfl
  · obtain ⟨h1, h2⟩ := filterMap_sent sent
    rw [hit, SendsOut]
    show (sent.map Event.sent).filterMap Event.sent?
      = ((b, world) :: (sent.map Event.sent).filterMap Event.received?).flatMap _
    rw [h1, h2, List.flatMap_singleton, out_handled hfiles hrun]
  · rw [hit, SendsOut]
    show [] = List.flatMap _ [(b, world)]
    rw [List.flatMap_singleton, out_faulted hfiles hrun]

/-- A run without a fault has taken every message that arrives. -/
theorem run_arrivals (asn : Asn1c) :
    ∀ (iterations : List Iteration) (d : DataTxt),
      (run (iterate asn) d iterations).2.Fine →
        (run (iterate asn) d iterations).1.filterMap Event.received?
          = arrivals iterations := by
  intro iterations
  induction iterations with
  | nil => intro d _; rfl
  | cons i rest ih =>
      intro d hfine
      cases i with
      | stdin =>
          have hstep : iterate asn d .stdin = ([], .again d) := rfl
          rw [run_again hstep] at hfine ⊢
          exact ih d hfine
      | socket recv world =>
          rw [arrivals]
          cases hw : waitForMsg recv [] with
          | mk ret b =>
              by_cases hret : ret < 1
              · rw [run_stop (iterate_leave asn d world hw hret)]
                simp only [if_pos hret]
                rfl
              · simp only [if_neg hret]
                cases hrun : handleMessage (world.env asn) d b with
                | error fault =>
                    rw [run_fault (iterate_faulted asn d world hw hret hrun)] at hfine
                    exact absurd hfine id
                | ok r =>
                    have hstep := iterate_handled asn d world hw hret hrun
                    have htaken : (Event.received b world :: r.1.map .sent).filterMap
                        Event.received? = [(b, world)] :=
                      congrArg ((b, world) :: ·) (filterMap_sent r.1).2
                    rw [run_again hstep] at hfine ⊢
                    rw [List.filterMap_append, htaken, ih r.2 hfine]
                    rfl

/-- The byte strings that arrive are those the receive calls hand over. -/
theorem arrivals_handedOver (iterations : List Iteration) :
    (arrivals iterations).map Prod.fst
      = handedOver (iterations.filterMap Iteration.recv?) := by
  induction iterations with
  | nil => rfl
  | cons i rest ih =>
      cases i with
      | stdin => exact ih
      | socket recv world =>
          show (arrivals (.socket recv world :: rest)).map Prod.fst
            = handedOver (recv :: rest.filterMap Iteration.recv?)
          rw [arrivals, handedOver]
          cases waitForMsg recv [] with
          | mk ret b =>
              by_cases hret : ret < 1
              · simp only [if_pos hret]
                rfl
              · simp only [if_neg hret]
                rw [List.map_cons, ih]

/-- **What the server may send for a message**: one ASP Active for an ASP Up Ack,
    at most one DATA message for a DATA message, and else nothing. -/
structure OutLaw (asn : Asn1c) (sqlite : CString → Sqlite) (m : ByteStream) : Prop where
  aspUpAck : IsAspUpAck m → out asn sqlite m = [aspActiveSent]
  data : IsData m → out asn sqlite m = [] ∨ ∃ s, out asn sqlite m = [s] ∧ IsData s.msg
  other : ¬ IsAspUpAck m → ¬ IsData m → out asn sqlite m = []

theorem out_law (asn : Asn1c) (sqlite : CString → Sqlite) (m : ByteStream) :
    OutLaw asn sqlite m := by
  refine ⟨?_, ?_, ?_⟩
  · intro hack
    rw [out, handleMessage_eq, if_pos hack]
  · intro hdata
    have heq := handleMessage_of_isData hdata
      { asn := asn, files := filesOk, sqlite := sqlite } none
    cases hrun : handleData { asn := asn, files := filesOk, sqlite := sqlite } none
        (fresh .TM_DATA m) with
    | error fault =>
        rw [hrun] at heq
        exact Or.inl (by rw [out, heq])
    | ok r =>
        rw [hrun] at heq
        have hone : out asn sqlite m = r.1 := by rw [out, heq]
        rw [hone]
        exact handleData_sent hrun
  · intro hack hdata
    rw [out, handleMessage_eq, if_neg hack, if_neg hdata]

/-- **The server has no memory**: a run sends ASP Up and then, in the order of
    arrival, what it would send for each message alone.  Unless one of them makes
    it fault, it has taken all that arrive. -/
theorem history_independent {asn : Asn1c} {dataTxt : DataTxt} {iterations : List Iteration}
    (hfiles : ∀ i ∈ iterations, i.FilesOk) :
    (main asn dataTxt iterations).1.filterMap Event.sent?
        = aspUpSent :: ((main asn dataTxt iterations).1.filterMap Event.received?).flatMap
            (fun a => out asn a.2.sqlite a.1) ∧
      ((main asn dataTxt iterations).2.Fine →
        (main asn dataTxt iterations).1.filterMap Event.received? = arrivals iterations) ∧
      ∀ sqlite m, OutLaw asn sqlite m := by
  have hsends : SendsOut asn (run (iterate asn) dataTxt iterations).1 :=
    run_emits (P := SendsOut asn) rfl (fun _ _ => SendsOut.append) iterations dataTxt
      fun d i hi => iterate_sendsOut asn d (hfiles i hi)
  rw [main_eq]
  exact ⟨congrArg (aspUpSent :: ·) hsends, run_arrivals asn iterations dataTxt, out_law asn⟩

/-- Standard input, an ASP Up Ack and a request. -/
def shortRun : List Iteration :=
  [.stdin, .socket (.octets upAckPiece) plainWorld, .socket (.octets requestPiece) plainWorld]

theorem history_independent_shortRun :
    (main plainExchange.env.asn (some "9".toList) shortRun).1.filterMap Event.sent?
        = aspUpSent :: ((main plainExchange.env.asn (some "9".toList) shortRun).1.filterMap
            Event.received?).flatMap
              (fun a => out plainExchange.env.asn a.2.sqlite a.1) ∧
      (main plainExchange.env.asn (some "9".toList) shortRun).1.filterMap Event.received?
        = [(upAckPiece.buf, plainWorld), (plainExchange.request, plainWorld)] ∧
      ∀ sqlite m, OutLaw plainExchange.env.asn sqlite m := by
  have hfiles : ∀ i ∈ shortRun, i.FilesOk := by
    rintro i hi
    simp only [shortRun, List.mem_cons, List.not_mem_nil, or_false] at hi
    rcases hi with rfl | rfl | rfl
    · trivial
    · rfl
    · rfl
  have hend : (main plainExchange.env.asn (some "9".toList) shortRun).2 = .again none := rfl
  obtain ⟨hsent, hreceived, hlaw⟩ := history_independent hfiles
  refine ⟨hsent, hreceived ?_, hlaw⟩
  rw [hend]
  trivial

end ProtoVscp
