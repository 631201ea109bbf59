import ProtoVscp.M3UAmessage

/-! # What `decodePayload` computes

    `decodePayload` is a scanner that skips after a hit: it looks for the octet
    pair `02 10` at every position, and after a match reads a window of sixteen
    octets and the user data behind it.  This file states that once and for all
    (`decodePayload_eq_ok`): the run returns exactly when the windows of all
    hits lie inside the message and no visited `02` is the last octet, and then
    every field is the concatenation of its octets over the hits.

    All later results about decoding are about the positions `tagHits b`, a
    function of the octets alone. -/

namespace ProtoVscp

open CheckedLoops SkipScan

/-- The octet pair `02 10` stands at position `i`. -/
def hasTag (b : ByteStream) (i : Nat) : Bool :=
  b[i]? == some 0x02 && b[i + 1]? == some 0x10

/-- The positions the scan takes for a Protocol Data tag. -/
def tagHits (b : ByteStream) : List Nat := hits (hasTag b) 16 b.length

/-- The positions at which the scan looks for a tag. -/
def tagVisits (b : ByteStream) : List Nat := visits (hasTag b) 16 b.length

/-! ## The window behind a tag at `p` -/

/-- The one octet read as the length. -/
def lengthOctet (b : ByteStream) (p : Nat) : Nat := (b[p + 3]?.getD 0).toNat

def opcAt (b : ByteStream) (p : Nat) : ByteStream := slice b (p + 4) 4
def dpcAt (b : ByteStream) (p : Nat) : ByteStream := slice b (p + 8) 4
def siAt (b : ByteStream) (p : Nat) : ByteStream := slice b (p + 12) 1
def niAt (b : ByteStream) (p : Nat) : ByteStream := slice b (p + 13) 1
def mpAt (b : ByteStream) (p : Nat) : ByteStream := slice b (p + 14) 1
def slsAt (b : ByteStream) (p : Nat) : ByteStream := slice b (p + 15) 1

/-- The user data the length octet announces, behind the routing label. -/
def userDataAt (b : ByteStream) (p : Nat) : ByteStream :=
  slice b (p + 16) (lengthOctet b p - 16)

/-- The sixteen octets of tag, length and routing label, and the user data the
    length octet announces, lie inside the message. -/
def WindowFits (b : ByteStream) (p : Nat) : Prop :=
  p + 16 ≤ b.length ∧ p + lengthOctet b p ≤ b.length

instance (b : ByteStream) (p : Nat) : Decidable (WindowFits b p) :=
  inferInstanceAs (Decidable (_ ∧ _))

/-- The scan stays inside the message: every window does, and no visited `02`
    is the last octet (its successor is read). -/
structure ScanSafe (b : ByteStream) : Prop where
  windows : ∀ p ∈ tagHits b, WindowFits b p
  next : ∀ j ∈ tagVisits b, b[j]? = some 0x02 → j + 1 < b.length

instance (b : ByteStream) : Decidable (ScanSafe b) :=
  decidable_of_iff
    ((∀ p ∈ tagHits b, WindowFits b p) ∧
      ∀ j ∈ tagVisits b, b[j]? = some 0x02 → j + 1 < b.length)
    ⟨fun h => ⟨h.1, h.2⟩, fun h => ⟨h.windows, h.next⟩⟩

namespace M3UAmessage

/-- The effect of a match at `p` on the object. -/
def take (b : ByteStream) (m : M3UAmessage) (p : Nat) : M3UAmessage :=
  { m with
    m_opc := m.m_opc ++ opcAt b p
    m_dpc := m.m_dpc ++ dpcAt b p
    m_si := m.m_si ++ siAt b p
    m_ni := m.m_ni ++ niAt b p
    m_mp := m.m_mp ++ mpAt b p
    m_sls := m.m_sls ++ slsAt b p
    payload := m.payload ++ userDataAt b p }

/-- The effect of matches at the positions `ps`, in order. -/
def collect (b : ByteStream) (m : M3UAmessage) (ps : List Nat) : M3UAmessage :=
  { m with
    m_opc := m.m_opc ++ ps.flatMap (opcAt b)
    m_dpc := m.m_dpc ++ ps.flatMap (dpcAt b)
    m_si := m.m_si ++ ps.flatMap (siAt b)
    m_ni := m.m_ni ++ ps.flatMap (niAt b)
    m_mp := m.m_mp ++ ps.flatMap (mpAt b)
    m_sls := m.m_sls ++ ps.flatMap (slsAt b)
    payload := m.payload ++ ps.flatMap (userDataAt b) }

theorem collect_fresh_opc (b : ByteStream) (ps : List Nat) :
    (collect b (fresh .TM_DATA b) ps).opc = ps.flatMap (opcAt b) := rfl

theorem collect_fresh_getPayload (b : ByteStream) (ps : List Nat) :
    (collect b (fresh .TM_DATA b) ps).getPayload = ps.flatMap (userDataAt b) := rfl

theorem foldl_take (b : ByteStream) (ps : List Nat) :
    ∀ m : M3UAmessage, ps.foldl (take b) m = collect b m ps := by
  induction ps with
  | nil => intro m; simp [collect]
  | cons p rest ih =>
      intro m
      rw [List.foldl_cons, ih]
      simp [collect, take]

/-! ## One round -/

/-- The test of a round, read as a predicate on positions. -/
theorem hitOf_isProtocolDataTag (b : ByteStream) (i : Nat) :
    hitOf (isProtocolDataTag b) i = hasTag b i := by
  simp only [hitOf, isProtocolDataTag, hasTag, octetAt, readAt]
  cases hi : b[i]? with
  | none => rfl
  | some x =>
      by_cases hx : x = 0x02
      · cases hn : b[i + 1]? with
        | none => simp [hx]
        | some y => simp [hx]
      · simp [hx]

/-- The test returns exactly when its reads are inside the message. -/
theorem isProtocolDataTag_isOk (b : ByteStream) (i : Nat) :
    (∃ t, isProtocolDataTag b i = .ok t) ↔
      i < b.length ∧ (b[i]? = some 0x02 → i + 1 < b.length) := by
  rw [isProtocolDataTag, octetAt]
  by_cases hi : i < b.length
  · rw [readAt_of_lt _ hi, ok_bind, List.getElem?_eq_getElem hi]
    by_cases hx : b[i] = 0x02
    · by_cases hn : i + 1 < b.length
      · simp [hx, hi, hn, readAt_of_lt _ hn]
      · simp [hx, hi, hn, readAt_of_ge Fault.outOfBounds (Nat.le_of_not_lt hn)]
    · simp [hx, hi]
  · rw [readAt_of_ge _ (Nat.le_of_not_lt hi)]
    simp [hi]

/-- Twelve octets pushed from index 4 on fill the six label fields. -/
theorem foldFrom_pushLabel (m : M3UAmessage) (l : ByteStream)
    (hl : l.length = 12) :
    foldFrom pushLabel 4 l m =
      { m with
        m_opc := m.m_opc ++ slice l 0 4
        m_dpc := m.m_dpc ++ slice l 4 4
        m_si := m.m_si ++ slice l 8 1
        m_ni := m.m_ni ++ slice l 9 1
        m_mp := m.m_mp ++ slice l 10 1
        m_sls := m.m_sls ++ slice l 11 1 } := by
  match l, hl with
  | [x0, x1, x2, x3, x4, x5, x6, x7, x8, x9, x10, x11], _ =>
      simp [foldFrom, pushLabel, slice]

theorem foldFrom_pushPayload (l : ByteStream) :
    ∀ (y : Nat) (m : M3UAmessage),
      foldFrom pushPayload y l m = { m with payload := m.payload ++ l } := by
  induction l with
  | nil => intro y m; simp [foldFrom]
  | cons x rest ih => intro y m; simp [foldFrom, pushPayload, ih]

/-- The routing label loop behind a tag at `p`. -/
theorem labelLoop_eq {b : ByteStream} {p : Nat} (m : M3UAmessage)
    (h : p + 16 ≤ b.length) :
    readRange Fault.outOfBounds b p 4 16 pushLabel m = .ok
      { m with
        m_opc := m.m_opc ++ opcAt b p
        m_dpc := m.m_dpc ++ dpcAt b p
        m_si := m.m_si ++ siAt b p
        m_ni := m.m_ni ++ niAt b p
        m_mp := m.m_mp ++ mpAt b p
        m_sls := m.m_sls ++ slsAt b p } := by
  have hlabel : (slice b (p + 4) 12).length = 12 := slice_length (by omega)
  have hstart : 4 + p = p + 4 := Nat.add_comm 4 p
  rw [readRange_eq, if_pos (Or.inr (by omega)), hstart,
    foldFrom_pushLabel m _ hlabel]
  simp only [slice_slice b (show (0 + 4 : Nat) ≤ 12 by omega),
    slice_slice b (show (4 + 4 : Nat) ≤ 12 by omega),
    slice_slice b (show (8 + 1 : Nat) ≤ 12 by omega),
    slice_slice b (show (9 + 1 : Nat) ≤ 12 by omega),
    slice_slice b (show (10 + 1 : Nat) ≤ 12 by omega),
    slice_slice b (show (11 + 1 : Nat) ≤ 12 by omega)]
  rfl

/-- The number of user data rounds is the length octet less the sixteen octets
    of header and label, and none when the length octet is smaller. -/
theorem dataRounds_eq {b : ByteStream} {p : Nat} (h : p + 3 < b.length) :
    ((b[p + 3].toNat : Int) - 16).toNat = lengthOctet b p - 16 := by
  have hlen : lengthOctet b p = b[p + 3].toNat := by
    simp [lengthOctet, List.getElem?_eq_getElem h]
  omega

/-- The user data loop behind a tag at `p`. -/
theorem dataLoop_eq (b : ByteStream) (p : Nat) (m : M3UAmessage) :
    readRange Fault.outOfBounds b (p + 16) 0 (lengthOctet b p - 16) pushPayload m
      = if lengthOctet b p ≤ 16 ∨ p + lengthOctet b p ≤ b.length then
          .ok { m with payload := m.payload ++ userDataAt b p }
        else .error .outOfBounds := by
  have hstart : 0 + (p + 16) = p + 16 := by omega
  rw [readRange_eq, foldFrom_pushPayload, hstart, Nat.sub_zero]
  by_cases h : lengthOctet b p ≤ 16 ∨ p + lengthOctet b p ≤ b.length
  · rw [if_pos h, if_pos (by omega)]
    rfl
  · rw [if_neg h, if_neg (by omega)]

/-- A match whose window fits does what `take` says. -/
theorem takeProtocolData_of_fits {b : ByteStream} {p : Nat} (m : M3UAmessage)
    (h : WindowFits b p) : takeProtocolData b p m = .ok (take b m p) := by
  obtain ⟨hwin, hdata⟩ := h
  have h3 : p + 3 < b.length := by omega
  rw [takeProtocolData, octetAt]
  simp only [readAt_of_lt _ h3, ok_bind, labelLoop_eq m hwin, dataRounds_eq h3,
    dataLoop_eq, if_pos (Or.inr hdata)]
  rfl

/-- A match whose window does not fit reads past the message. -/
theorem takeProtocolData_of_not_fits {b : ByteStream} {p : Nat}
    (m : M3UAmessage) (h : ¬ WindowFits b p) :
    ∃ e, takeProtocolData b p m = .error e := by
  rw [takeProtocolData, octetAt]
  by_cases h3 : p + 3 < b.length
  · by_cases hwin : p + 16 ≤ b.length
    · have hdata : ¬ (lengthOctet b p ≤ 16 ∨ p + lengthOctet b p ≤ b.length) := by
        rintro (hle | hle)
        · exact h ⟨hwin, by omega⟩
        · exact h ⟨hwin, hle⟩
      simp only [readAt_of_lt _ h3, ok_bind, labelLoop_eq m hwin,
        dataRounds_eq h3, dataLoop_eq, if_neg hdata]
      exact ⟨_, rfl⟩
    · rw [readAt_of_lt _ h3, ok_bind, readRange_eq, if_neg (by omega)]
      exact ⟨_, rfl⟩
  · rw [readAt_of_ge _ (Nat.le_of_not_lt h3)]
    exact ⟨_, rfl⟩

/-! ## The whole run -/

/-- **The specification of `decodePayload`.**  On a DATA message it returns
    exactly when the scan stays inside the message, and then it has collected
    the windows of the hits. -/
theorem decodePayload_eq_ok {m r : M3UAmessage} (hm : m.M3UAtype = .TM_DATA) :
    m.decodePayload = .ok r ↔
      ScanSafe m.m_msg ∧ r = collect m.m_msg m (tagHits m.m_msg) := by
  have hhit : hitOf (isProtocolDataTag m.m_msg) = hasTag m.m_msg :=
    funext (hitOf_isProtocolDataTag m.m_msg)
  rw [decodePayload]
  rw [if_neg (by simp [hm]), forUntil_scan, hhit,
    foldlM_guarded (WindowFits m.m_msg) (take m.m_msg)
      (fun p s h => takeProtocolData_of_fits s h)
      (fun p s h => takeProtocolData_of_not_fits s h),
    foldl_take]
  constructor
  · rintro ⟨hvis, hwin, hr⟩
    refine ⟨⟨hwin, ?_⟩, hr⟩
    intro j hj hb
    exact ((isProtocolDataTag_isOk m.m_msg j).mp (hvis j hj)).2 hb
  · rintro ⟨⟨hwin, hnext⟩, hr⟩
    refine ⟨?_, hwin, hr⟩
    intro j hj
    exact (isProtocolDataTag_isOk m.m_msg j).mpr
      ⟨(mem_visits.mp hj).1, hnext j hj⟩

/-- The fuel never runs out: with more of it the search loop does the same. -/
theorem decodePayload_fuel (m s : M3UAmessage) {n : Nat} (hn : m.m_msg.length ≤ n) :
    forUntil m.m_msg.length
        (scanRound 16 (isProtocolDataTag m.m_msg) (takeProtocolData m.m_msg)) n 0 s
      = forUntil m.m_msg.length
        (scanRound 16 (isProtocolDataTag m.m_msg) (takeProtocolData m.m_msg))
        m.m_msg.length 0 s :=
  forUntil_fuel (fun _ _ _ _ h => scanRound_forward h) n m.m_msg.length 0 s
    (by omega) (by omega)

/-! ## The receiving constructor -/

/-- What the constructor asks of a DATA message: the eight octets of the common
    header, version 1, class 1 (Transfer Messages) and type 1 (DATA). -/
def IsData (b : ByteStream) : Prop :=
  8 ≤ b.length ∧ b[0]? = some 0x01 ∧ b[2]? = some 0x01 ∧ b[3]? = some 0x01

instance (b : ByteStream) : Decidable (IsData b) :=
  inferInstanceAs (Decidable (_ ∧ _))

theorem messageLength_isOk {b : ByteStream} (h : 8 ≤ b.length) :
    ∃ l, messageLength b = .ok l := by
  simp only [messageLength, octetAt]
  rw [readAt_of_lt _ (show 4 < b.length by omega),
    readAt_of_lt _ (show 5 < b.length by omega),
    readAt_of_lt _ (show 6 < b.length by omega),
    readAt_of_lt _ (show 7 < b.length by omega)]
  exact ⟨_, rfl⟩

/-- The message class and type that a known message is told by. -/
def headerOf : M3UAMessages → Option (UInt8 × UInt8)
  | .UNKNOWN => none
  | .MGMT_NTFY => some (0, 1)
  | .ASPSM_ASPUP_ACK => some (3, 4)
  | .ASPTM_ASPAC_ACK => some (4, 3)
  | .TM_DATA => some (1, 1)

theorem headerOf_typeOf {c t : UInt8} (h : typeOf c t ≠ .UNKNOWN) :
    headerOf (typeOf c t) = some (c, t) := by
  rw [typeOf] at h ⊢
  by_cases h0 : c = 0
  · subst h0; by_cases ht : t = 1 <;> simp_all [headerOf]
  · by_cases h3 : c = 3
    · subst h3; by_cases ht : t = 4 <;> simp_all [headerOf]
    · by_cases h4 : c = 4
      · subst h4; by_cases ht : t = 3 <;> simp_all [headerOf]
      · by_cases h1 : c = 1
        · subst h1; by_cases ht : t = 1 <;> simp_all [headerOf]
        · simp [h0, h3, h4, h1] at h

theorem typeOf_eq_tmData {c t : UInt8} :
    typeOf c t = .TM_DATA ↔ c = 0x01 ∧ t = 0x01 := by
  constructor
  · intro h
    have hhead := headerOf_typeOf (c := c) (t := t) (by rw [h]; exact nofun)
    rw [h, headerOf, Option.some.injEq, Prod.mk.injEq] at hhead
    exact ⟨hhead.1.symm, hhead.2.symm⟩
  · rintro ⟨rfl, rfl⟩
    rfl

/-- The constructor never faults: its reads are guarded by the size check. -/
theorem ofBytes_eq (b : ByteStream) :
    ofBytes b = .ok
      (match b with
        | v :: _ :: c :: t :: _ :: _ :: _ :: _ :: _ =>
            if v = 0x01 ∧ typeOf c t ≠ .UNKNOWN then fresh (typeOf c t) b
            else empty
        | _ => empty) := by
  rw [ofBytes]
  by_cases hlen : b.length < 8
  · rw [if_pos hlen]
    match b, hlen with
    | [], _ | [_], _ | [_, _], _ | [_, _, _], _ | [_, _, _, _], _
    | [_, _, _, _, _], _ | [_, _, _, _, _, _], _ | [_, _, _, _, _, _, _], _ => rfl
  · rw [if_neg hlen]
    obtain ⟨l, hl⟩ := messageLength_isOk (b := b) (by omega)
    match b, hlen, hl with
    | v :: r :: c :: t :: b4 :: b5 :: b6 :: b7 :: rest, _, hl =>
        by_cases hv : v = 0x01
        · by_cases ht : typeOf c t = .UNKNOWN
          · simp [octetAt, readAt, hv, ht]
          · subst hv
            simp [octetAt, readAt, ht, hl]
        · simp [octetAt, readAt, hv]

theorem ofBytes_of_isData {b : ByteStream} (h : IsData b) :
    ofBytes b = .ok (fresh .TM_DATA b) := by
  obtain ⟨hlen, h0, h2, h3⟩ := h
  rw [ofBytes_eq]
  match b, hlen with
  | v :: r :: c :: t :: b4 :: b5 :: b6 :: b7 :: rest, _ =>
      have hv : v = 0x01 := by simpa using h0
      have hc : c = 0x01 := by simpa using h2
      have ht : t = 0x01 := by simpa using h3
      subst hv hc ht
      rfl

/-- **Only a DATA header is classified `TM_DATA`**, and the object then holds
    the whole message. -/
theorem ofBytes_tmData {b : ByteStream} {m : M3UAmessage}
    (h : ofBytes b = .ok m) (hm : m.M3UAtype = .TM_DATA) :
    IsData b ∧ m = fresh .TM_DATA b := by
  rw [ofBytes_eq] at h
  match b, h with
  | [], h | [_], h | [_, _], h | [_, _, _], h | [_, _, _, _], h
  | [_, _, _, _, _], h | [_, _, _, _, _, _], h | [_, _, _, _, _, _, _], h =>
      rw [← Except.ok.inj h] at hm
      exact nomatch hm
  | v :: r :: c :: t :: b4 :: b5 :: b6 :: b7 :: rest, h =>
      have hmk := (Except.ok.inj h).symm
      by_cases hcond : v = 0x01 ∧ typeOf c t ≠ .UNKNOWN
      · simp only [if_pos hcond] at hmk
        rw [hmk] at hm
        have htyp : typeOf c t = .TM_DATA := hm
        obtain ⟨hc, ht⟩ := typeOf_eq_tmData.mp htyp
        rw [htyp] at hmk
        refine ⟨⟨by simp, by simp [hcond.1], by simp [hc], by simp [ht]⟩, hmk⟩
      · simp only [if_neg hcond] at hmk
        rw [hmk] at hm
        exact nomatch hm

/-- Receiving a DATA message and decoding it, in one statement. -/
theorem receive_data {b : ByteStream} (h : IsData b) (d : M3UAmessage) :
    (ofBytes b >>= decodePayload) = .ok d ↔
      ScanSafe b ∧ d = collect b (fresh .TM_DATA b) (tagHits b) := by
  rw [ofBytes_of_isData h, ok_bind]
  exact decodePayload_eq_ok rfl

end M3UAmessage

end ProtoVscp
