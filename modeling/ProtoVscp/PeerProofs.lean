import ProtoVscp.WireProofs

/-! # What the other side makes of a reply

    A reply is written for a program that reads it through the same layers.  When
    one position of the request is taken for a tag, the reply has the label found
    there, and `reply_read_iff` says which replies arrive: those whose UDT message
    gets through M3UA whole.  Neither SCCP nor TCAP loses any of these. -/

namespace ProtoVscp

open CheckedLoops M3UAmessage

/-! ## The label -/

theorem exists_labelAt {b : ByteStream} {p : Nat} (hsafe : ScanSafe b) (hp : p ∈ tagHits b) :
    ∃ l, LabelAt b p l := by
  have hfit := (hsafe.windows p hp).1
  -- sixteen octets stand behind the tag
  have hone : ∀ k, k ≤ 15 → ∃ x, slice b (p + k) 1 = [x] := by
    intro k hk
    exact List.length_eq_one_iff.mp (slice_length (by omega))
  obtain ⟨si, hsi⟩ := hone 12 (by omega)
  obtain ⟨ni, hni⟩ := hone 13 (by omega)
  obtain ⟨mp, hmp⟩ := hone 14 (by omega)
  obtain ⟨sls, hsls⟩ := hone 15 (by omega)
  have hopc : (opcAt b p).length = 4 := slice_length (by omega)
  have hdpc : (dpcAt b p).length = 4 := slice_length (by omega)
  exact ⟨⟨opcAt b p, dpcAt b p, si, ni, mp, sls, hopc, hdpc⟩, rfl, rfl, hsi, hni, hmp, hsls⟩

/-- The reply to a request in which one position is taken for a tag. -/
theorem replyTo_msg {b : ByteStream} {p : Nat} {l : RoutingLabel} {tcap : TcapMessage}
    {newNum : CString} (hone : tagHits b = [p]) (hl : LabelAt b p l) :
    (replyTo b tcap newNum).msg = encodeData (udtTo b tcap newNum) l := by
  rw [replyTo, encodeData, hone]
  simp only [List.flatMap_singleton, hl.opc, hl.dpc, hl.si, hl.ni, hl.mp, hl.sls]

/-- What fits the send buffer is far from the sizes that wrap around. -/
theorem encodeMsg_fits {u opc dpc si ni mp sls : ByteStream}
    (hdata : IsData (encodeMsg u opc dpc si ni mp sls))
    (hlen : (encodeMsg u opc dpc si ni mp sls).length ≤ 1024) : u.length ≤ 1004 := by
  by_cases hzero : UInt32.ofNat (dataSize u opc dpc si ni mp sls) = 0
  · have hnil : encodeMsg u opc dpc si ni mp sls = [] := if_pos hzero
    rw [hnil] at hdata
    exact absurd hdata (by decide)
  · rw [encodeMsg_length hzero] at hlen
    rw [dataSize] at hlen
    omega

/-! ## Reading -/

/-- The layers of the program read `r` as a DATA message with the label `l`, the UDT
    message `u` in it and the TCAP message `m` in that. -/
structure ReadAs (heap : Nat → UInt8) (r : ByteStream) (l : RoutingLabel) (u : ByteStream)
    (m : TCMessage) : Prop where
  m3ua : ∃ msg d, ofBytes r = .ok msg ∧ msg.M3UAtype = .TM_DATA ∧ msg.decodePayload = .ok d ∧
    d.getPayload = u ∧ d.opc = l.opc ∧ d.dpc = l.dpc ∧ d.si = [l.si] ∧ d.ni = [l.ni] ∧
    d.mp = [l.mp] ∧ d.sls = [l.sls]
  sccp : ∃ sccp cut, SccpMessage.ofBytes u = .ok sccp ∧ sccp.decodeSccp = .ok cut ∧
    (TCMessage_decode_ber heap cut.getData).map Prod.fst = some m

/-- The UDT message of a reply is read as what it was made of, when it is short. -/
theorem udtTo_read (heap : Nat → UInt8) {b : ByteStream} {tcap : TcapMessage} {newNum : CString}
    (hshort : (udtTo b tcap newNum).length ≤ 239) (hend : (endTo tcap newNum).length < 4294967296) :
    ∃ sccp cut, SccpMessage.ofBytes (udtTo b tcap newNum) = .ok sccp ∧ sccp.decodeSccp = .ok cut ∧
      (TCMessage_decode_ber heap cut.getData).map Prod.fst
        = some (.PR_end (endRead heap tcap newNum)) := by
  have hreadable : ReadableLength (endTo tcap newNum).length := by
    rw [ReadableLength, ber_tlv_len_max]
    omega
  have hread := endTo_read_back heap hreadable []
  rw [List.append_nil] at hread
  -- an End that an `unsigned int` counts is copied as a whole
  have htake : (endTo tcap newNum).take ((endTo tcap newNum).length % 4294967296)
      = endTo tcap newNum := by
    rw [Nat.mod_eq_of_lt hend, List.take_length]
  -- a short message has short addresses, so no pointer wraps around
  rw [udtTo, htake, udt_length] at hshort
  rw [udtTo, htake]
  obtain ⟨hof, hdec⟩ := decode_udt 0x00 _ _ (endTo tcap newNum)
    (show (cutAt (udtIn b)).getCallingPartyAddress.dropLast.length
      + (cutAt (udtIn b)).getCalledPartyAddress.dropLast.length + 3 ≤ 255 by omega)
  refine ⟨_, _, hof, hdec, ?_⟩
  change (TCMessage_decode_ber heap (endTo tcap newNum)).map Prod.fst = _
  rw [hread]
  rfl

/-- **Which replies are read by the other side as they were meant**: those whose UDT
    message gets through M3UA whole. -/
theorem reply_read_iff {env : Env} (hder : env.asn.EncodesDer) {dataTxt : DataTxt} {b : ByteStream}
    {s : Sent} {p : Nat} (h : Replies env dataTxt b s) (hone : tagHits b = [p])
    (heap : Nat → UInt8) :
    ∃ tcap o newNum l, Gets env b tcap o newNum ∧ LabelAt b p l ∧ s = replyTo b tcap newNum ∧
      ((endTo tcap newNum).length < 4294967296 →
        (ReadAs heap s.msg l (udtTo b tcap newNum) (.PR_end (endRead heap tcap newNum)) ↔
          CarriedWhole (udtTo b tcap newNum))) := by
  obtain ⟨tcap, o, newNum, hgets, -, -, rfl⟩ := (replies_iff hder).mp h
  obtain ⟨-, -, -, hfitsBuffer, -⟩ := replies_iff_passes.mp h
  obtain ⟨-, -, -, -, hdata⟩ := h
  obtain ⟨l, hl⟩ := exists_labelAt hgets.scanSafe (hone ▸ List.mem_singleton_self p)
  have hfits : (udtTo b tcap newNum).length ≤ 1004 :=
    encodeMsg_fits hdata hfitsBuffer
  refine ⟨tcap, o, newNum, l, hgets, hl, rfl, fun hend => ?_⟩
  rw [replyTo_msg hone hl]
  constructor
  · intro hread
    exact carriedWhole_of_roundTrips (by omega) hread.m3ua
  · intro hwhole
    exact ⟨hwhole.roundTrips l, udtTo_read heap hwhole.short hend⟩

theorem reply_read_iff_plain :
    ∃ tcap o newNum l, Gets (wireEnv "555".toList) plainExchange.request tcap o newNum ∧
      LabelAt plainExchange.request 16 l ∧
      plainExchange.reply = replyTo plainExchange.request tcap newNum ∧
      ((endTo tcap newNum).length < 4294967296 →
        (ReadAs (fun _ => 0) plainExchange.reply.msg l (udtTo plainExchange.request tcap newNum)
            (.PR_end (endRead (fun _ => 0) tcap newNum)) ↔
          CarriedWhole (udtTo plainExchange.request tcap newNum))) :=
  reply_read_iff (ofHeap_encodesDer _) wireEnv_replies (show tagHits _ = [16] by decide) fun _ => 0

end ProtoVscp
