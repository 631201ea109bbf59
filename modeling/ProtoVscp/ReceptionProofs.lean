import ProtoVscp.ServerRun

/-! # Message boundaries on the way in

    SCTP keeps message boundaries: a user message that does not fit the buffer
    is handed over in pieces, of which only the last is marked `MSG_EOR`.
    `waitForMsg` does not look at the mark, so every piece is handed on as a
    message of its own, and boundaries survive exactly when no message is larger
    than the buffer (`boundaries_survive_iff`). -/

namespace ProtoVscp

/-- The byte strings the main loop hands to `M3UAmessage`, one receive call
    after the other, until one of them makes it leave the loop. -/
def handedOver : List Recvmsg → List ByteStream
  | [] => []
  | recv :: rest =>
      let (ret, incomingMsg) := waitForMsg recv []
      if ret < 1 then [] else incomingMsg :: handedOver rest

/-- A piece with at least one octet is handed on as it is. -/
theorem handedOver_octets {piece : Piece} (h : piece.buf ≠ []) (rest : List Recvmsg) :
    handedOver (.octets piece :: rest) = piece.buf :: handedOver rest := by
  have hpos : ¬ (piece.buf.length : Int) < 1 := by
    have := List.length_pos_iff.mpr h
    omega
  exact if_neg hpos

theorem handedOver_pieces {pieces : List Piece} (h : ∀ p ∈ pieces, p.buf ≠ []) :
    handedOver (pieces.map .octets) = pieces.map Piece.buf := by
  induction pieces with
  | nil => rfl
  | cons p rest ih =>
      rw [List.map_cons, handedOver_octets (h p (List.mem_cons_self ..)),
        ih (fun p' hp' => h p' (List.mem_cons_of_mem p hp')), List.map_cons]

/-! ## Delivery -/

/-- How one user message is handed over: whole when it fits the buffer, and
    otherwise in consecutive pieces; each has at least one octet, and only the
    last is marked as the end of the record. -/
structure Delivery (m : ByteStream) (pieces : List Piece) : Prop where
  octets : pieces.flatMap Piece.buf = m
  nonempty : ∀ p ∈ pieces, p.buf ≠ []
  whole : m.length ≤ 1024 → ∃ p, pieces = [p]
  eor : ∃ init last, pieces = init ++ [last] ∧ last.MSG_EOR = true ∧
    ∀ p ∈ init, p.MSG_EOR = false

/-- The delivery of one user message after the other. -/
inductive Deliveries : List ByteStream → List Piece → Prop where
  | nil : Deliveries [] []
  | cons {m : ByteStream} {pieces : List Piece} {ms : List ByteStream}
      {rest : List Piece} : Delivery m pieces → Deliveries ms rest →
      Deliveries (m :: ms) (pieces ++ rest)

theorem Delivery.pieces_pos {m : ByteStream} {pieces : List Piece}
    (h : Delivery m pieces) : 0 < pieces.length := by
  obtain ⟨init, last, rfl, -⟩ := h.eor
  simp

/-- A message that comes in one piece fits the buffer. -/
theorem Delivery.length_le {m : ByteStream} {pieces : List Piece} (h : Delivery m pieces)
    (hone : pieces.length ≤ 1) : m.length ≤ 1024 := by
  have hpos := h.pieces_pos
  obtain ⟨p, rfl⟩ : ∃ p, pieces = [p] := List.length_eq_one_iff.mp (by omega)
  rw [← h.octets, List.flatMap_singleton]
  exact p.fits

theorem Deliveries.nonempty {ms : List ByteStream} {pieces : List Piece}
    (h : Deliveries ms pieces) : ∀ p ∈ pieces, p.buf ≠ [] := by
  induction h with
  | nil => rintro p hp; exact absurd hp List.not_mem_nil
  | cons hd _ ih =>
      rintro p hp
      rcases List.mem_append.mp hp with hp | hp
      · exact hd.nonempty p hp
      · exact ih p hp

/-- There are as many pieces as messages only when every message fits. -/
theorem Deliveries.length_le {ms : List ByteStream} {pieces : List Piece}
    (h : Deliveries ms pieces) :
    ms.length ≤ pieces.length ∧
      (pieces.length ≤ ms.length → ∀ m ∈ ms, m.length ≤ 1024) := by
  induction h with
  | nil => exact ⟨Nat.le_refl 0, fun _ m hm => absurd hm List.not_mem_nil⟩
  | cons hd _ ih =>
      have hpos := hd.pieces_pos
      rw [List.length_append, List.length_cons]
      refine ⟨by omega, ?_⟩
      intro hle m hm
      rcases List.mem_cons.mp hm with rfl | hm
      · exact hd.length_le (by omega)
      · exact ih.2 (by omega) m hm

/-- Messages that fit come one in a piece. -/
theorem Deliveries.buf_eq {ms : List ByteStream} {pieces : List Piece}
    (h : Deliveries ms pieces) (hfit : ∀ m ∈ ms, m.length ≤ 1024) :
    pieces.map Piece.buf = ms := by
  induction h with
  | nil => rfl
  | @cons m _ _ _ hd _ ih =>
      obtain ⟨p, rfl⟩ := hd.whole (hfit m (List.mem_cons_self ..))
      have hbuf : p.buf = m := by rw [← hd.octets, List.flatMap_singleton]
      rw [List.map_append, ih (fun m' hm' => hfit m' (List.mem_cons_of_mem m hm')),
        List.map_singleton, List.singleton_append, hbuf]

/-- **When message boundaries survive.** -/
theorem boundaries_survive_iff {ms : List ByteStream} {pieces : List Piece}
    (h : Deliveries ms pieces) :
    handedOver (pieces.map .octets) = ms ↔ ∀ m ∈ ms, m.length ≤ 1024 := by
  rw [handedOver_pieces h.nonempty]
  constructor
  · intro heq
    refine h.length_le.2 ?_
    rw [← heq, List.length_map]
  · exact h.buf_eq

/-- A message that fits, in its one piece. -/
theorem delivery_whole {p : Piece} (hne : p.buf ≠ []) (heor : p.MSG_EOR = true) :
    Delivery p.buf [p] where
  octets := List.flatMap_singleton ..
  nonempty := by
    rintro p' hp'
    rw [List.mem_singleton.mp hp']
    exact hne
  whole _ := ⟨p, rfl⟩
  eor := ⟨[], p, rfl, heor, fun p' hp' => absurd hp' List.not_mem_nil⟩

theorem boundaries_survive_iff_two :
    handedOver ([⟨[0x01, 0x00], true, by decide⟩, ⟨[0x02], true, by decide⟩].map .octets)
        = [[0x01, 0x00], [0x02]] ↔
      ∀ m ∈ [[(0x01 : UInt8), 0x00], [0x02]], m.length ≤ 1024 :=
  boundaries_survive_iff
    (.cons (delivery_whole (p := ⟨[0x01, 0x00], true, by decide⟩)
        (List.cons_ne_nil _ _) rfl)
      (.cons (delivery_whole (p := ⟨[0x02], true, by decide⟩)
        (List.cons_ne_nil _ _) rfl) .nil))

/-- The eight octets of an ASP Up Ack. -/
def upAckPiece : Piece where
  buf := [0x01, 0x00, 0x03, 0x04, 0x00, 0x00, 0x00, 0x08]
  MSG_EOR := true
  fits := by decide

/-- A buffer full of octets that do not end a message. -/
def fullPiece : Piece where
  buf := List.replicate 1024 0x00
  MSG_EOR := false
  fits := by rw [List.length_replicate]

/-- A message of 1032 octets, whose last eight are an ASP Up Ack, and its delivery
    in two pieces. -/
def longMessage : ByteStream := fullPiece.buf ++ upAckPiece.buf

def longPieces : List Piece := [fullPiece, upAckPiece]

/-- The second piece is handed on as an ASP Up Ack. -/
theorem longMessage_cut :
    Deliveries [longMessage] longPieces ∧
      handedOver (longPieces.map .octets) ≠ [longMessage] ∧
      ∃ m ∈ handedOver (longPieces.map .octets), ∃ d, M3UAmessage.ofBytes m = .ok d ∧
        d.M3UAtype = .ASPSM_ASPUP_ACK := by
  have hdel : Deliveries [longMessage] longPieces := by
    rw [← List.append_nil longPieces]
    refine .cons ⟨rfl, ?_, ?_, ?_⟩ .nil
    · rintro p hp
      rcases List.mem_cons.mp hp with rfl | hp
      · exact List.cons_ne_nil _ _
      · rw [List.mem_singleton.mp hp]
        exact List.cons_ne_nil _ _
    · intro hlen
      have hfull : fullPiece.buf.length = 1024 := List.length_replicate
      have hack : upAckPiece.buf.length = 8 := rfl
      rw [longMessage, List.length_append] at hlen
      omega
    · refine ⟨[fullPiece], upAckPiece, rfl, rfl, ?_⟩
      rintro p hp
      rw [List.mem_singleton.mp hp]
      rfl
  have hcut : handedOver (longPieces.map .octets) = longPieces.map Piece.buf :=
    handedOver_pieces hdel.nonempty
  refine ⟨hdel, ?_, upAckPiece.buf, ?_, _, rfl, rfl⟩
  · intro h
    have := congrArg List.length (hcut.symm.trans h)
    exact absurd this (by decide)
  · rw [hcut]
    exact List.mem_cons_of_mem _ (List.mem_singleton.mpr rfl)

end ProtoVscp
