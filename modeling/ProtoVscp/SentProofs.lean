import ProtoVscp.ServerRunProofs

/-! # What leaves the server

    Whatever arrives, and whatever the codecs, the file system and the database
    answer, each message of a run is a whole M3UA message in its frame
    (`sent_wellFormed`). -/

namespace ProtoVscp

open CheckedLoops EventLoop M3UAmessage

/-- A message of the server: the common header of version 1 with the total length
    in it, and one of its three kinds on the stream of that kind. -/
structure WellFormed (s : Sent) : Prop where
  version : s.msg[0]? = some 0x01
  reserved : s.msg[1]? = some 0x00
  length : longWord s.msg 4 = s.msg.length
  aligned : s.msg.length % 4 = 0
  ppid : s.ppid = SCTP_PID_M3UA
  kind : IsAspUp s.msg ∧ s.stream_no = 0 ∨ IsAspActive s.msg ∧ s.stream_no = 0 ∨
    IsData s.msg ∧ s.stream_no = 1 ∧ slice s.msg 8 8 = routingContext ∧
      slice s.msg 16 2 = [0x02, 0x10]

theorem aspUpSent_wellFormed : WellFormed aspUpSent where
  version := rfl
  reserved := rfl
  length := longWord_commonHeader 0x03 0x01 0 []
  aligned := rfl
  ppid := rfl
  kind := Or.inl ⟨by decide, rfl⟩

theorem aspActiveSent_wellFormed : WellFormed aspActiveSent where
  version := rfl
  reserved := rfl
  length := longWord_commonHeader 0x04 0x01 8 _
  aligned := rfl
  ppid := rfl
  kind := Or.inr (Or.inl ⟨by decide, rfl⟩)

/-- A DATA message that the send buffer takes. -/
private theorem encodeMsg_wellFormed {s opc dpc si ni mp sls : ByteStream}
    (hne : encodeMsg s opc dpc si ni mp sls ≠ [])
    (hfits : (encodeMsg s opc dpc si ni mp sls).length ≤ 1024) :
    WellFormed { msg := encodeMsg s opc dpc si ni mp sls, ppid := 3, stream_no := 1 } := by
  have hsize : UInt32.ofNat (dataSize s opc dpc si ni mp sls) ≠ 0 := fun h => hne (if_pos h)
  have hlength := encodeMsg_length hsize
  -- the buffer bounds the sizes, so the header octets lose nothing
  have hsmall : dataSize s opc dpc si ni mp sls < 2 ^ 32 - 32 := by omega
  have hpos : 0 < dataSize s opc dpc si ni mp sls := by
    refine Nat.pos_of_ne_zero fun h => hsize ?_
    rw [h]
    rfl
  obtain ⟨header, len₀, len₁, z, hframe, hheader, hhead, -, -, haligned, hword⟩ :=
    encodeMsg_framed hsmall hpos
  have hsplit : encodeMsg s opc dpc si ni mp sls = header ++ (routingContext ++ ([0x02, 0x10]
      ++ ([len₀, len₁] ++ opc ++ dpc ++ si ++ ni ++ mp ++ sls ++ s ++ z))) := by
    rw [hframe]
    simp only [List.append_assoc]
  have hcontext : slice (encodeMsg s opc dpc si ni mp sls) 8 8 = routingContext := by
    have hfirst := slice_append_right header (routingContext ++ ([0x02, 0x10]
      ++ ([len₀, len₁] ++ opc ++ dpc ++ si ++ ni ++ mp ++ sls ++ s ++ z))) 0 8
    rw [hheader] at hfirst
    rw [hsplit, hfirst]
    exact slice_append_left routingContext _
  have htag : slice (encodeMsg s opc dpc si ni mp sls) 16 2 = [0x02, 0x10] := by
    rw [hsplit, show 16 = header.length + (routingContext.length + 0) by
      rw [hheader]; rfl, slice_append_right, slice_append_right]
    rfl
  have hdata := encodeMsg_isData hne
  exact
    { version := hdata.2.1
      reserved := by
        show (encodeMsg s opc dpc si ni mp sls)[1]? = _
        have hread : (header.take 4)[1]? = some 0x00 := by rw [hhead]; rfl
        rw [hsplit, List.getElem?_append_left (by omega), ← hread,
          List.getElem?_take_of_lt (by omega)]
      length := hword
      aligned := haligned
      ppid := rfl
      kind := Or.inr (Or.inr ⟨hdata, rfl, hcontext, htag⟩) }

/-- What a DATA message makes the server send. -/
private theorem handleData_wellFormed {env : Env} {d d' : DataTxt} {m : M3UAmessage}
    {sent : List Sent} (h : handleData env d m = .ok (sent, d')) :
    ∀ s ∈ sent, WellFormed s := by
  intro s hs
  obtain ⟨q, -, -, hbuild, hne, hfits, hppid, hstream⟩ :=
    handleData_sends.mp ⟨sent, d', h, hs⟩
  obtain ⟨newNum, sccpStream, -, -, -, hmsg⟩ := buildReply_run hbuild hne
  cases s with
  | mk msg ppid stream_no =>
      obtain rfl : ppid = SCTP_PID_M3UA := hppid
      obtain rfl : stream_no = 1 := hstream
      obtain rfl : msg = _ := hmsg
      exact encodeMsg_wellFormed hne hfits

/-- What any message makes it send. -/
theorem handleMessage_wellFormed {env : Env} {d d' : DataTxt} {b : ByteStream}
    {sent : List Sent} (h : handleMessage env d b = .ok (sent, d')) :
    ∀ s ∈ sent, WellFormed s := by
  rcases handleMessage_cases b with ⟨-, hrun⟩ | ⟨-, hrun⟩ | ⟨-, -, hrun⟩
  · rw [hrun] at h
    intro s hs
    rw [← (ok_pair_inj h).1] at hs
    rw [List.mem_singleton.mp hs]
    exact aspActiveSent_wellFormed
  · rw [hrun] at h
    exact handleData_wellFormed h
  · rw [hrun] at h
    intro s hs
    rw [← (ok_pair_inj h).1] at hs
    exact absurd hs List.not_mem_nil

/-- An event is not a badly formed message that is sent. -/
private def SendsWellFormed (events : List Event) : Prop :=
  ∀ s, Event.sent s ∈ events → WellFormed s

private theorem sendsWellFormed_nil : SendsWellFormed [] :=
  fun _ hs => absurd hs List.not_mem_nil

private theorem sendsWellFormed_append (l₁ l₂ : List Event) (h₁ : SendsWellFormed l₁)
    (h₂ : SendsWellFormed l₂) : SendsWellFormed (l₁ ++ l₂) := by
  intro s hs
  rcases List.mem_append.mp hs with hs | hs
  · exact h₁ s hs
  · exact h₂ s hs

private theorem iterate_wellFormed (asn : Asn1c) (d : DataTxt) (i : Iteration) :
    SendsWellFormed (iterate asn d i).1 := by
  rcases iterate_cases asn d i with hnil | ⟨-, world, b, sent, d', -, hrun, hit⟩ |
    ⟨-, world, b, fault, -, -, hit⟩
  · rw [hnil]
    exact sendsWellFormed_nil
  · rw [hit]
    intro s hs
    rcases List.mem_cons.mp hs with h | hs
    · cases h
    · obtain ⟨s', hs', h⟩ := List.mem_map.mp hs
      rw [← Event.sent.inj h]
      exact handleMessage_wellFormed hrun s' hs'
  · rw [hit]
    intro s hs
    cases List.mem_singleton.mp hs

/-- **Every message of every run is well formed.** -/
theorem sent_wellFormed (asn : Asn1c) (dataTxt : DataTxt) (iterations : List Iteration) (s : Sent)
    (h : Event.sent s ∈ (main asn dataTxt iterations).1) : WellFormed s := by
  have hrun : SendsWellFormed (run (iterate asn) dataTxt iterations).1 :=
    run_emits sendsWellFormed_nil sendsWellFormed_append iterations dataTxt
      fun d i _ => iterate_wellFormed asn d i
  rw [main_eq] at h
  rcases List.mem_cons.mp h with heq | htail
  · rw [Event.sent.inj heq]
    exact aspUpSent_wellFormed
  · exact hrun s htail

theorem sent_wellFormed_shortRun : WellFormed plainExchange.reply := by
  refine sent_wellFormed plainExchange.env.asn none shortRun plainExchange.reply ?_
  have hrun : (main plainExchange.env.asn none shortRun).1
      = [.sent aspUpSent, .received upAckPiece.buf plainWorld, .sent aspActiveSent,
        .received plainExchange.request plainWorld, .sent plainExchange.reply] := rfl
  rw [hrun]
  simp

end ProtoVscp
