import ProtoVscp.EncodeMsgProofs
import ProtoVscp.SccpMessage

/-! # UDT messages: what is accepted, cut and sent back

    `decodeSccp` never looks at a length octet, so each address it stores
    carries the length octet of the next parameter, and `encodeSccp` drops the
    last octet of each address it is given.  On a contiguous UDT message the
    two cancel (`sccp_reply_law`).  Nothing checks the pointers: reading is
    bounded exactly when the three of them locate octets of the message
    (`sccp_bounded_iff`). -/

namespace ProtoVscp

open CheckedLoops SccpMessage

/-! ## Accepting -/

/-- The constructor faults on the empty stream only. -/
theorem sccp_ofBytes_cons (x : UInt8) (rest : ByteStream) :
    ofBytes (x :: rest) = .ok
      (if x ≠ 0x09 then fresh .INVALID [] else fresh .VALID (x :: rest)) := by
  rw [ofBytes, octetAt]
  rw [readAt_of_lt _ (Nat.succ_pos _), ok_bind, List.getElem_cons_zero]
  by_cases hx : x ≠ 0x09
  · rw [if_pos hx, if_pos hx]
  · rw [if_neg hx, if_neg hx]

/-- A valid object holds the whole message, whose first octet is `09`. -/
theorem sccp_ofBytes_valid {p : ByteStream} {m : SccpMessage}
    (h : ofBytes p = .ok m) (hv : m.valid = true) :
    p[0]? = some 0x09 ∧ m = fresh .VALID p := by
  cases p with
  | nil => exact nomatch h
  | cons x rest =>
      rw [sccp_ofBytes_cons] at h
      have hm := (Except.ok.inj h).symm
      by_cases hx : x ≠ 0x09
      · rw [if_pos hx] at hm
        rw [hm] at hv
        exact nomatch hv
      · rw [if_neg hx] at hm
        have hx9 : x = 0x09 := by simpa using hx
        exact ⟨by simp [hx9], hm⟩

/-! ## Cutting -/

/-- The pointer octet at position `i` of a message. -/
def pointerAt (p : ByteStream) (i : Nat) : Nat := (p[i]?.getD 0).toNat

/-- The two address ranges that `decodeSccp` copies lie inside the message, or
    are empty. -/
def RangesInside (p : ByteStream) : Prop :=
  5 ≤ p.length ∧
    (pointerAt p 3 + 4 ≤ pointerAt p 2 + 3 ∨ pointerAt p 3 + 4 ≤ p.length) ∧
    (pointerAt p 4 + 5 ≤ pointerAt p 3 + 4 ∨ pointerAt p 4 + 5 ≤ p.length)

/-- What `decodeSccp` leaves on an object built from `p`. -/
def cutAt (p : ByteStream) : SccpMessage where
  valChk := .VALID
  m_msg := p
  calledPartyAddress := slice p (pointerAt p 2 + 3)
    (pointerAt p 3 + 4 - (pointerAt p 2 + 3))
  callingPartyAddress := slice p (pointerAt p 3 + 4)
    (pointerAt p 4 + 5 - (pointerAt p 3 + 4))
  payload := slice p (pointerAt p 4 + 5) (p.length - (pointerAt p 4 + 5))

/-- **The specification of `decodeSccp`** on a freshly accepted message. -/
theorem decodeSccp_eq_ok {p : ByteStream} {d : SccpMessage} :
    (fresh .VALID p).decodeSccp = .ok d ↔ RangesInside p ∧ d = cutAt p := by
  rw [decodeSccp, octetAt]
  show (readAt _ p 2 >>= _) = _ ↔ _
  by_cases hlen : 5 ≤ p.length
  · have h2 : p[2].toNat = pointerAt p 2 := by
      simp [pointerAt, List.getElem?_eq_getElem (show 2 < p.length by omega)]
    have h3 : p[3].toNat = pointerAt p 3 := by
      simp [pointerAt, List.getElem?_eq_getElem (show 3 < p.length by omega)]
    have h4 : p[4].toNat = pointerAt p 4 := by
      simp [pointerAt, List.getElem?_eq_getElem (show 4 < p.length by omega)]
    simp only [show (fresh .VALID p).m_msg = p from rfl,
      readAt_of_lt Fault.outOfBounds (show 2 < p.length by omega),
      readAt_of_lt Fault.outOfBounds (show 3 < p.length by omega),
      readAt_of_lt Fault.outOfBounds (show 4 < p.length by omega), ok_bind,
      copyRange_eq, h2, h3, h4]
    rw [if_pos (Or.inr (Nat.le_refl p.length))]
    by_cases hcalled : pointerAt p 3 + 4 ≤ pointerAt p 2 + 3 ∨ pointerAt p 3 + 4 ≤ p.length
    · by_cases hcalling : pointerAt p 4 + 5 ≤ pointerAt p 3 + 4 ∨ pointerAt p 4 + 5 ≤ p.length
      · rw [if_pos hcalled, if_pos hcalling]
        constructor
        · intro h
          exact ⟨⟨hlen, hcalled, hcalling⟩, (Except.ok.inj h).symm⟩
        · rintro ⟨-, rfl⟩
          rfl
      · rw [if_pos hcalled, if_neg hcalling]
        constructor
        · intro h; cases h
        · rintro ⟨⟨-, -, h⟩, -⟩; exact absurd h hcalling
    · rw [if_neg hcalled]
      constructor
      · intro h; cases h
      · rintro ⟨⟨-, h, -⟩, -⟩; exact absurd h hcalled
  · constructor
    · intro h
      -- one of the three pointer reads is past the end
      simp only [bind_eq_ok, readAt_eq_ok] at h
      obtain ⟨-, -, -, -, x, hx, -⟩ := h
      have := (List.getElem?_eq_some_iff.mp hx).1
      exact absurd this (by simp [fresh]; omega)
    · rintro ⟨⟨h, -, -⟩, -⟩
      exact absurd h hlen

/-! ## Contiguous UDT messages -/

/-- A UDT message whose parameters follow one another without gaps. -/
def udt (protocolClass : UInt8) (called calling data : ByteStream) : ByteStream :=
  [0x09, protocolClass, 0x03, UInt8.ofNat (called.length + 3),
      UInt8.ofNat (called.length + calling.length + 3), UInt8.ofNat called.length]
    ++ called ++ [UInt8.ofNat calling.length] ++ calling
    ++ [UInt8.ofNat data.length] ++ data

section Udt

variable (c : UInt8) (A B D : ByteStream)

theorem udt_length : (udt c A B D).length = 8 + A.length + B.length + D.length := by
  simp [udt]
  omega

private theorem pointers_udt (h : A.length + B.length + 3 ≤ 255) :
    pointerAt (udt c A B D) 2 = 3 ∧
      pointerAt (udt c A B D) 3 = A.length + 3 ∧
      pointerAt (udt c A B D) 4 = A.length + B.length + 3 := by
  have hoctet : ∀ n, n ≤ 255 → (UInt8.ofNat n).toNat = n := by
    intro n hn
    rw [UInt8.toNat_ofNat']
    omega
  refine ⟨rfl, ?_, ?_⟩
  · exact hoctet _ (by omega)
  · exact hoctet _ h

/-- Accepting and cutting a contiguous UDT message. -/
theorem decode_udt (h : A.length + B.length + 3 ≤ 255) :
    ofBytes (udt c A B D) = .ok (fresh .VALID (udt c A B D)) ∧
      (fresh .VALID (udt c A B D)).decodeSccp = .ok
        { valChk := .VALID
          m_msg := udt c A B D
          calledPartyAddress := A ++ [UInt8.ofNat B.length]
          callingPartyAddress := B ++ [UInt8.ofNat D.length]
          payload := D } := by
  obtain ⟨h2, h3, h4⟩ := pointers_udt c A B D h
  have hlen := udt_length c A B D
  refine ⟨by rw [udt]; exact sccp_ofBytes_cons 0x09 _, ?_⟩
  refine decodeSccp_eq_ok.mpr ⟨⟨by omega, by omega, by omega⟩, ?_⟩
  -- the message is a head of six octets and three adjacent pieces
  have hsplit : udt c A B D
      = [0x09, c, 0x03, UInt8.ofNat (A.length + 3),
          UInt8.ofNat (A.length + B.length + 3), UInt8.ofNat A.length]
        ++ ((A ++ [UInt8.ofNat B.length]) ++ ((B ++ [UInt8.ofNat D.length]) ++ D)) := by
    simp [udt]
  have hcalled : slice (udt c A B D) 6 (A.length + 1) = A ++ [UInt8.ofNat B.length] := by
    have := slice_append_left (A ++ [UInt8.ofNat B.length])
      ((B ++ [UInt8.ofNat D.length]) ++ D)
    rw [List.length_append] at this
    rw [hsplit]
    exact this
  have hcalling : slice (udt c A B D) (A.length + 7) (B.length + 1)
      = B ++ [UInt8.ofNat D.length] := by
    have hpre : A.length + 7 = ([0x09, c, 0x03, UInt8.ofNat (A.length + 3),
        UInt8.ofNat (A.length + B.length + 3), UInt8.ofNat A.length]
        ++ (A ++ [UInt8.ofNat B.length])).length + 0 := by simp
    have := slice_append_left (B ++ [UInt8.ofNat D.length]) D
    rw [List.length_append] at this
    rw [hsplit, ← List.append_assoc, hpre, slice_append_right]
    exact this
  have hdata : slice (udt c A B D) (A.length + B.length + 8) D.length = D := by
    have hpre : A.length + B.length + 8 = ([0x09, c, 0x03, UInt8.ofNat (A.length + 3),
        UInt8.ofNat (A.length + B.length + 3), UInt8.ofNat A.length]
        ++ (A ++ [UInt8.ofNat B.length]) ++ (B ++ [UInt8.ofNat D.length])).length + 0 := by
      simp; omega
    have := slice_append_left D []
    rw [List.append_nil] at this
    rw [hsplit, ← List.append_assoc, ← List.append_assoc, hpre, slice_append_right]
    exact this
  have e1 : A.length + 3 + 4 - (3 + 3) = A.length + 1 := by omega
  have e2 : A.length + B.length + 3 + 5 - (A.length + 3 + 4) = B.length + 1 := by omega
  have e3 : 8 + A.length + B.length + D.length - (A.length + B.length + 3 + 5)
      = D.length := by omega
  rw [cutAt]
  rw [h2, h3, h4, hlen, e1, e2, e3, ← hcalled, ← hcalling]
  simp only [SccpMessage.mk.injEq, true_and]
  exact hdata.symm

/-- Encoding drops the last octet of each address and lays the rest out
    contiguously.  The octets wrap where the sizes do, so no bound on the
    lengths but that of `unsigned int` is needed. -/
theorem encodeSccp_eq (x y : UInt8) (t : ByteStream)
    (hA : A.length + 1 < 4294967296) (hB : B.length + 1 < 4294967296)
    (ht : t.length < 4294967296) :
    encodeSccp t (B ++ [x]) (A ++ [y]) = .ok (udt 0x00 B A t) := by
  -- the sizes are computed as `unsigned int` and cut to one octet at the end
  have hsub : ∀ n : Nat, UInt32.ofNat (n + 1) - 1 = UInt32.ofNat n := by
    intro n
    rw [UInt32.ofNat_add]
    exact UInt32.add_sub_cancel ..
  have htoNat : ∀ n : Nat, n < 4294967296 → (UInt32.ofNat n).toNat = n := by
    intro n hn
    rw [UInt32.toNat_ofNat']
    exact Nat.mod_eq_of_lt hn
  have hcut : ∀ n : Nat, (UInt32.ofNat n).toUInt8 = UInt8.ofNat n := by
    intro n
    exact UInt32.toUInt8_ofNat' ..
  have htake : ∀ (l : ByteStream) (z : UInt8), slice (l ++ [z]) 0 l.length = l :=
    fun l z => slice_append_left l [z]
  have hwhole : slice t 0 t.length = t := by simp [slice]
  rw [encodeSccp]
  simp only [List.length_append, List.length_singleton, hsub, copyRange_eq,
    htoNat A.length (by omega), htoNat B.length (by omega), htoNat t.length ht,
    Nat.sub_zero, htake, hwhole, hcut, ← UInt32.ofNat_add]
  rw [if_pos (Or.inr (by omega)), ok_bind, if_pos (Or.inr (by omega)), ok_bind,
    if_pos (Or.inr (by omega))]
  have hdata : A.length + (B.length + 1 + 2) = B.length + A.length + 3 := by omega
  rw [hdata, show B.length + 1 + 2 = B.length + 3 from rfl]
  simp only [udt, List.append_assoc, List.cons_append, List.nil_append]

end Udt

/-! ## The reply law -/

/-- **The UDT reply**: the addresses change places, the TCAP reply takes the
    place of the data, and all three come out of the reply again.  Of the data
    of the request nothing is asked: its length octet is not read. -/
theorem sccp_reply_law (c : UInt8) (A B D t : ByteStream)
    (hAB : A.length + B.length + 3 ≤ 255) (ht : t.length ≤ 255) :
    ∃ m d r q,
      ofBytes (udt c A B D) = .ok m ∧ m.valid = true ∧ m.decodeSccp = .ok d ∧
      d.getData = D ∧
      encodeSccp t d.getCallingPartyAddress d.getCalledPartyAddress
        = .ok (udt 0x00 B A t) ∧
      ofBytes (udt 0x00 B A t) = .ok r ∧ r.valid = true ∧ r.decodeSccp = .ok q ∧
      q.getData = t ∧
      q.getCalledPartyAddress.dropLast = d.getCallingPartyAddress.dropLast ∧
      q.getCallingPartyAddress.dropLast = d.getCalledPartyAddress.dropLast ∧
      d.getCalledPartyAddress.dropLast = A ∧
      d.getCallingPartyAddress.dropLast = B := by
  obtain ⟨hreq, hcut⟩ := decode_udt c A B D hAB
  obtain ⟨hrep, hback⟩ := decode_udt 0x00 B A t (by omega)
  have henc := encodeSccp_eq A B (UInt8.ofNat D.length) (UInt8.ofNat B.length) t
    (by omega) (by omega) (by omega)
  exact ⟨_, _, _, _, hreq, rfl, hcut, rfl, henc, hrep, rfl, hback, rfl,
    by simp [getCalledPartyAddress, getCallingPartyAddress],
    by simp [getCalledPartyAddress, getCallingPartyAddress],
    by simp [getCalledPartyAddress],
    by simp [getCallingPartyAddress]⟩

theorem sccp_reply_law_sample :
    ∃ m d r q,
      ofBytes (udt 0x01 [0x42, 0x06] [0x42, 0x07, 0x08] [0x62]) = .ok m ∧
      m.valid = true ∧ m.decodeSccp = .ok d ∧ d.getData = [0x62] ∧
      encodeSccp [0x64, 0x00] d.getCallingPartyAddress d.getCalledPartyAddress
        = .ok (udt 0x00 [0x42, 0x07, 0x08] [0x42, 0x06] [0x64, 0x00]) ∧
      ofBytes (udt 0x00 [0x42, 0x07, 0x08] [0x42, 0x06] [0x64, 0x00]) = .ok r ∧
      r.valid = true ∧ r.decodeSccp = .ok q ∧ q.getData = [0x64, 0x00] ∧
      q.getCalledPartyAddress.dropLast = d.getCallingPartyAddress.dropLast ∧
      q.getCallingPartyAddress.dropLast = d.getCalledPartyAddress.dropLast ∧
      d.getCalledPartyAddress.dropLast = [0x42, 0x06] ∧
      d.getCallingPartyAddress.dropLast = [0x42, 0x07, 0x08] :=
  sccp_reply_law 0x01 [0x42, 0x06] [0x42, 0x07, 0x08] [0x62] [0x64, 0x00]
    (by decide) (by decide)

/-! ## Bounded reading -/

/-- The three pointers locate octets of the message. -/
def PointersInside (p : ByteStream) : Prop :=
  5 ≤ p.length ∧ 2 + pointerAt p 2 < p.length ∧ 3 + pointerAt p 3 < p.length ∧
    4 + pointerAt p 4 < p.length

instance (p : ByteStream) : Decidable (PointersInside p) :=
  inferInstanceAs (Decidable (_ ∧ _))

/-- **Bounded SCCP parsing**: the constructor and, on a message it accepts,
    `decodeSccp` read inside the message only, and a message whose pointers
    lead outside it is not accepted. -/
def SccpBounded (p : ByteStream) : Prop :=
  ∃ m, ofBytes p = .ok m ∧
    (m.valid = false ∨ ∃ d, m.decodeSccp = .ok d) ∧
    (¬ PointersInside p → m.valid = false)

/-- Reading is bounded exactly on the non-empty messages that are not UDT or
    whose three pointers locate octets of the message. -/
theorem sccp_bounded_iff (p : ByteStream) :
    SccpBounded p ↔ p ≠ [] ∧ (p[0]? = some 0x09 → PointersInside p) := by
  cases p with
  | nil =>
      -- the constructor reads the type octet of an empty vector
      constructor
      · rintro ⟨m, hm, -⟩; exact nomatch hm
      · rintro ⟨h, -⟩; exact absurd rfl h
  | cons x rest =>
      rw [SccpBounded]
      rw [sccp_ofBytes_cons]
      by_cases hx : x = 0x09
      · -- accepted, whatever the pointers say
        subst hx
        have hvalid : (fresh .VALID (0x09 :: rest)).valid = true := rfl
        constructor
        · rintro ⟨m, hm, -, hrej⟩
          refine ⟨List.cons_ne_nil _ _, fun _ => ?_⟩
          by_contra hout
          have := hrej hout
          rw [← Except.ok.inj hm] at this
          exact nomatch this
        · rintro ⟨-, h⟩
          have hin := h rfl
          obtain ⟨h5, h2, h3, h4⟩ := hin
          refine ⟨_, rfl, Or.inr ⟨_, decodeSccp_eq_ok.mpr ⟨⟨h5, ?_, ?_⟩, rfl⟩⟩, ?_⟩
          · omega
          · omega
          · intro hout; exact absurd ⟨h5, h2, h3, h4⟩ hout
      · -- any other type is refused, and nothing more is read
        have hinvalid : (fresh .INVALID []).valid = false := rfl
        have hno : (x :: rest)[0]? ≠ some 0x09 := by simpa using hx
        constructor
        · rintro -
          exact ⟨List.cons_ne_nil _ _, fun h => absurd h hno⟩
        · rintro -
          rw [if_pos hx]
          exact ⟨_, rfl, Or.inl hinvalid, fun _ => hinvalid⟩

/-- A UDT of five octets whose pointers lead past its end. -/
def strayPointers : ByteStream := [0x09, 0x00, 0x03, 0x50, 0x60]

/-- A DATA message carries `strayPointers`; it is accepted and read past its
    end. -/
theorem strayPointers_overrun :
    (∃ b m d, M3UAmessage.ofBytes b = .ok m ∧ m.M3UAtype = .TM_DATA ∧
      m.decodePayload = .ok d ∧ d.getPayload = strayPointers) ∧
      ¬ SccpBounded strayPointers := by
  refine ⟨⟨encodeData strayPointers sampleLabel, _, _, rfl, rfl, rfl, rfl⟩, ?_⟩
  rintro ⟨m, hm, hread, -⟩
  have hof : ofBytes strayPointers = .ok (fresh .VALID strayPointers) := rfl
  have hcut : (fresh .VALID strayPointers).decodeSccp = .error .outOfBounds := rfl
  rw [hof] at hm
  rw [← Except.ok.inj hm, hcut] at hread
  rcases hread with hinvalid | ⟨d, hd⟩
  · exact nomatch hinvalid
  · exact nomatch hd

end ProtoVscp
