import ProtoVscp.TcapMessage

/-! # What the TCAP layer keeps of a Begin

    The transaction identifier is packed into an `int` and unpacked again at a
    fixed length of four octets (`endOf_dtid`), and the operation code is
    narrowed to an `int` in which an operation that has no local code, and every
    multiple of 2^32, looks like InitialDP (`takeInvoke_eq`).  The constructor is
    total but for a Begin without a component portion (`tcap_total_iff`). -/

namespace ProtoVscp

open CheckedLoops TcapMessage

/-! ## The transaction identifier -/

/-- Four octets packed into a word come out again, each at its own shift. -/
private theorem idOctet_word (b0 b1 b2 b3 : UInt8) :
    let t := (b0.toUInt32 ||| (b1.toUInt32 <<< 8) ||| (b2.toUInt32 <<< 16)
      ||| (b3.toUInt32 <<< 24)).toInt32
    idOctet t 0 = b0 ∧ idOctet t 8 = b1 ∧ idOctet t 16 = b2 ∧ idOctet t 24 = b3 := by
  have hmask : ∀ i (hi : i < 8), (255#8)[i] = true := by
    intro i hi
    have hall : ∀ j, j < 8 → (255#8)[j]! = true := by decide
    have := hall i hi
    rwa [getElem!_pos (255#8) i hi] at this
  -- bit by bit: the shift down is arithmetic, but the mask keeps eight bits
  refine ⟨?_, ?_, ?_, ?_⟩
  all_goals
    apply UInt8.toBitVec_inj.mp
    rw [idOctet]
    simp
    ext i hi
    simp only [BitVec.getElem_and, hmask i hi]
    simp [BitVec.getLsbD_sshiftRight]
  -- the octets that are shifted down come from their own places in the word
  all_goals grind

/-- The End is sent to the first four octets behind `otid.buf`. -/
theorem endOf_dtid {otid : OCTET_STRING} {t : Int32} (h : transactionIdOf otid = .ok t)
    (invokeId : Int32) (result : ByteStream) :
    4 ≤ otid.buf.length ∧ (endOf invokeId t result).dtid.value = otid.buf.take 4 := by
  have hbuf : otid.buf ≠ [] := by
    intro hnil
    rw [transactionIdOf, if_pos hnil] at h
    cases h
  rw [transactionIdOf, if_neg hbuf] at h
  simp only [octetAt, bind_eq_ok, readAt_eq_ok] at h
  obtain ⟨b0, h0, b1, h1, b2, h2, b3, h3, ht⟩ := h
  obtain ⟨e0, e1, e2, e3⟩ := idOctet_word b0 b1 b2 b3
  rw [Except.ok.inj ht] at e0 e1 e2 e3
  have htake : otid.buf.take 4 = [b0, b1, b2, b3] := by
    match hb : otid.buf, h0, h1, h2, h3 with
    | c0 :: c1 :: c2 :: c3 :: rest, h0, h1, h2, h3 =>
        simp at h0 h1 h2 h3
        simp [h0, h1, h2, h3]
  refine ⟨(List.getElem?_eq_some_iff.mp h3).1, ?_⟩
  rw [htake, endOf, e0, e1, e2, e3]
  rfl

/-- The first four octets are the value when it has that length. -/
theorem take_four_eq_value_iff {otid : OCTET_STRING} (h : 4 ≤ otid.buf.length) :
    otid.buf.take 4 = otid.value ↔ otid.size = 4 := by
  have hsize := otid.size_le
  rw [OCTET_STRING.value]
  constructor
  · intro heq
    have := congrArg List.length heq
    rw [List.length_take, List.length_take] at this
    omega
  · intro heq
    rw [heq]

/-! ## The invoke -/

/-- The local code an operation is taken for. -/
def localCodeOf : OPERATION → Int32
  | .PR_localValue localValue => localValue.toInt32
  | .PR_globalValue _ => 0

/-- The parameter is kept under local code 0 only. -/
theorem takeInvoke_eq (invoke : Invoke) (t : Int32) :
    takeInvoke invoke { TcapMessage.empty with m_transactionId := t }
      = { m_operationLocalCode := localCodeOf invoke.opCode
          m_transactionId := t
          m_invokeId := invoke.invokeID.toInt32
          m_parameterData :=
            if localCodeOf invoke.opCode = 0 then invoke.parameter.getD [] else [] } := by
  obtain ⟨invokeID, opCode, parameter⟩ := invoke
  cases opCode with
  | PR_localValue v =>
      cases parameter with
      | none =>
          by_cases hv : v.toInt32 = 0
          · simp [takeInvoke, localCodeOf, TcapMessage.empty, hv]
          · simp [takeInvoke, localCodeOf, TcapMessage.empty, hv]
      | some p =>
          by_cases hv : v.toInt32 = 0
          · simp [takeInvoke, localCodeOf, TcapMessage.empty, hv]
          · simp [takeInvoke, localCodeOf, TcapMessage.empty, hv]
  | PR_globalValue oid =>
      cases parameter with
      | none => simp [takeInvoke, localCodeOf, TcapMessage.empty]
      | some p => simp [takeInvoke, localCodeOf, TcapMessage.empty]

/-- Which operations look like InitialDP. -/
theorem localCodeOf_eq_zero {op : OPERATION} :
    localCodeOf op = 0 ↔
      (∃ oid, op = .PR_globalValue oid) ∨
        ∃ v, op = .PR_localValue v ∧ (2 ^ 32 : Int) ∣ v.toInt := by
  cases op with
  | PR_globalValue oid => simp [localCodeOf]
  | PR_localValue v =>
      have hbmod : v.toInt32.toInt = v.toInt.bmod (2 ^ 32) := Int64.toInt_toInt32 v
      have hzero : v.toInt32 = 0 ↔ (2 ^ 32 : Int) ∣ v.toInt := by
        rw [← Int32.toInt_inj, hbmod, show (0 : Int32).toInt = 0 from rfl]
        exact ⟨fun h => Int.dvd_of_bmod_eq_zero h, fun h => Int.bmod_eq_zero_of_dvd h⟩
      simp [localCodeOf, hzero]

/-- The effect of the component portion: only a single invoke has one. -/
def takeComponents : List Component → TcapMessage → TcapMessage
  | [.PR_invoke invoke], m => takeInvoke invoke m
  | _, m => m

theorem takeComponents_transactionId (components : List Component) (m : TcapMessage) :
    (takeComponents components m).transactionId = m.transactionId := by
  match components with
  | [.PR_invoke ⟨_, .PR_localValue v, none⟩] => rfl
  | [.PR_invoke ⟨_, .PR_globalValue _, none⟩] => rfl
  | [.PR_invoke ⟨_, .PR_localValue v, some p⟩] =>
      simp only [takeComponents, takeInvoke]
      split <;> rfl
  | [.PR_invoke ⟨_, .PR_globalValue _, some p⟩] =>
      simp only [takeComponents, takeInvoke]
      split <;> rfl
  | [] | [.PR_returnResultLast] | [.PR_returnError] | [.PR_reject]
  | [.PR_returnResultNotLast] | _ :: _ :: _ => simp only [takeComponents]

/-- The constructor returns on a Begin exactly when four octets stand behind
    `otid.buf` and the component portion is present. -/
theorem takeBegin_eq_ok {begin_ : Begin} {m₀ m : TcapMessage} :
    takeBegin begin_ m₀ = .ok m ↔
      ∃ t components, transactionIdOf begin_.otid = .ok t ∧
        begin_.components = some components ∧
        m = takeComponents components { m₀ with m_transactionId := t } := by
  rw [takeBegin]
  rw [bind_eq_ok]
  refine exists_congr fun t => ?_
  cases begin_.components with
  | none => simp
  | some components =>
      match components with
      | [] | [.PR_returnResultLast] | [.PR_returnError] | [.PR_reject]
      | [.PR_returnResultNotLast] | [.PR_invoke _] | _ :: _ :: _ =>
          simp [takeComponents, eq_comm]

/-- The constructor on a Begin with exactly one component, an invoke. -/
theorem ofBytes_invoke {asn : Asn1c} {data : ByteStream} {begin_ : Begin} {invoke : Invoke}
    (hbegin : asn.decodeTCMessage data = some (.PR_begin begin_))
    (hcomp : begin_.components = some [.PR_invoke invoke]) {m : TcapMessage} :
    TcapMessage.ofBytes asn data = .ok m ↔
      ∃ t, transactionIdOf begin_.otid = .ok t ∧
        m = takeInvoke invoke { TcapMessage.empty with m_transactionId := t } := by
  rw [TcapMessage.ofBytes, hbegin]
  simp only [takeBegin_eq_ok, hcomp]
  constructor
  · rintro ⟨t, components, ht, hone, hm⟩
    rw [← Option.some.inj hone, takeComponents] at hm
    exact ⟨t, ht, hm⟩
  · rintro ⟨t, ht, hm⟩
    exact ⟨t, _, ht, rfl, hm⟩

/-! ## Totality -/

/-- A Begin with exactly one component, an invoke. -/
def HasOneInvoke (asn : Asn1c) (b : ByteStream) : Prop :=
  ∃ begin_ invoke, asn.decodeTCMessage b = some (.PR_begin begin_) ∧
    begin_.components = some [.PR_invoke invoke]

/-- **The constructor is total and all-or-nothing**: it returns, and what it
    takes out of an invoke keeps its initial value when there is no such
    invoke. -/
def TotalAllOrNothing (asn : Asn1c) (b : ByteStream) : Prop :=
  ∃ m, TcapMessage.ofBytes asn b = .ok m ∧
    (¬ HasOneInvoke asn b →
      m.operationLocalCode = 0 ∧ m.invokeId = -1 ∧ m.parameterData = [])

/-- Component portions other than a single invoke leave the object as it is. -/
private theorem takeComponents_eq_self {components : List Component}
    (h : ∀ invoke, components ≠ [.PR_invoke invoke]) (m : TcapMessage) :
    takeComponents components m = m := by
  match components, h with
  | [.PR_invoke invoke], h => exact absurd rfl (h invoke)
  | [], _ | [.PR_returnResultLast], _ | [.PR_returnError], _ | [.PR_reject], _
  | [.PR_returnResultNotLast], _ | _ :: _ :: _, _ => simp only [takeComponents]

/-- The transaction identifier is read exactly when four octets are allocated
    for it. -/
theorem transactionIdOf_isOk {otid : OCTET_STRING} :
    (∃ t, transactionIdOf otid = .ok t) ↔ 4 ≤ otid.buf.length := by
  constructor
  · rintro ⟨t, ht⟩
    exact (endOf_dtid ht 0 []).1
  · intro h
    rw [transactionIdOf, if_neg (List.ne_nil_of_length_pos (by omega))]
    simp only [octetAt, readAt_of_lt _ (show 0 < otid.buf.length by omega),
      readAt_of_lt _ (show 1 < otid.buf.length by omega),
      readAt_of_lt _ (show 2 < otid.buf.length by omega),
      readAt_of_lt _ (show 3 < otid.buf.length by omega), ok_bind]
    exact ⟨_, rfl⟩

/-- **When the constructor is total**: on everything but a Begin whose component
    portion is absent, or for whose identifier fewer than four octets are
    allocated. -/
theorem tcap_total_iff (asn : Asn1c) (b : ByteStream) :
    TotalAllOrNothing asn b ↔
      ∀ begin_, asn.decodeTCMessage b = some (.PR_begin begin_) →
        begin_.components.isSome = true ∧ 4 ≤ begin_.otid.buf.length := by
  rw [TotalAllOrNothing, TcapMessage.ofBytes]
  cases hdec : asn.decodeTCMessage b with
  | none =>
      refine iff_of_true ⟨_, rfl, fun _ => ⟨rfl, rfl, rfl⟩⟩ ?_
      rintro begin_ h
      exact nomatch h
  | some msg =>
      cases msg with
      | PR_unidirectional | PR_end _ | PR_continue | PR_abort =>
          refine iff_of_true ⟨_, rfl, fun _ => ⟨rfl, rfl, rfl⟩⟩ ?_
          rintro begin_ h
          exact nomatch h
      | PR_begin begin_ =>
          constructor
          · rintro ⟨m, hm, -⟩ begin' h
            rw [← TCMessage.PR_begin.inj (Option.some.inj h)]
            obtain ⟨t, components, ht, hcomp, -⟩ := takeBegin_eq_ok.mp hm
            exact ⟨by rw [hcomp]; rfl, transactionIdOf_isOk.mp ⟨t, ht⟩⟩
          · intro h
            obtain ⟨hsome, hbuf⟩ := h begin_ rfl
            obtain ⟨t, ht⟩ := transactionIdOf_isOk.mpr hbuf
            obtain ⟨components, hcomp⟩ := Option.isSome_iff_exists.mp hsome
            refine ⟨_, takeBegin_eq_ok.mpr ⟨t, components, ht, hcomp, rfl⟩, ?_⟩
            intro hno
            rw [takeComponents_eq_self]
            · exact ⟨rfl, rfl, rfl⟩
            · rintro invoke rfl
              exact hno ⟨begin_, invoke, hdec, hcomp⟩

/-- A Begin that carries its identifier only. -/
def bareBegin : Begin where
  otid := ⟨[0x11, 0x22, 0x33, 0x44] ++ List.replicate 12 0x00, 4, by decide⟩
  components := none

def bareBeginOctets : ByteStream := tlv 0x62 (tlv 0x48 bareBegin.otid.value)

def bareBeginCodec : Asn1c := .ofTable [(bareBeginOctets, .PR_begin bareBegin)] [] []

/-- The absent component portion of `bareBegin` is dereferenced. -/
theorem bareBegin_crashes :
    TcapMessage.ofBytes bareBeginCodec bareBeginOctets = .error .nullDeref ∧
      ¬ TotalAllOrNothing bareBeginCodec bareBeginOctets := by
  have hrun : TcapMessage.ofBytes bareBeginCodec bareBeginOctets = .error .nullDeref := rfl
  refine ⟨hrun, ?_⟩
  rintro ⟨m, hm, -⟩
  rw [hrun] at hm
  exact nomatch hm

/-! ## Parameter data -/

/-- **Where parameter data comes from**: a Begin with exactly one component, an
    invoke whose operation looks like InitialDP. -/
theorem ofBytes_parameterData {asn : Asn1c} {data : ByteStream} {m : TcapMessage}
    (h : TcapMessage.ofBytes asn data = .ok m) (hp : m.parameterData ≠ []) :
    ∃ begin_ invoke, asn.decodeTCMessage data = some (.PR_begin begin_) ∧
      begin_.components = some [.PR_invoke invoke] ∧
      invoke.parameter = some m.parameterData ∧ localCodeOf invoke.opCode = 0 := by
  have hempty : m ≠ TcapMessage.empty := fun h0 => hp (by rw [h0]; rfl)
  rw [TcapMessage.ofBytes] at h
  cases hdec : asn.decodeTCMessage data with
  | none =>
      rw [hdec] at h
      exact absurd (Except.ok.inj h).symm hempty
  | some msg =>
      rw [hdec] at h
      cases msg with
      | PR_unidirectional | PR_end _ | PR_continue | PR_abort =>
          exact absurd (Except.ok.inj h).symm hempty
      | PR_begin begin_ =>
          obtain ⟨t, components, -, hcomp, hm⟩ := takeBegin_eq_ok.mp h
          match components, hcomp, hm with
          | [.PR_invoke invoke], hcomp, hm =>
              -- the parameter is kept under local code 0 only
              rw [takeComponents, takeInvoke_eq] at hm
              by_cases hcode : localCodeOf invoke.opCode = 0
              · rw [if_pos hcode] at hm
                refine ⟨begin_, invoke, rfl, hcomp, ?_, hcode⟩
                cases hpar : invoke.parameter with
                | none => rw [hm, hpar] at hp; exact absurd rfl hp
                | some p => rw [hm, hpar]; rfl
              · rw [if_neg hcode] at hm
                rw [hm] at hp
                exact absurd rfl hp
          | [], _, hm | [.PR_returnResultLast], _, hm | [.PR_returnError], _, hm
          | [.PR_reject], _, hm | [.PR_returnResultNotLast], _, hm | _ :: _ :: _, _, hm =>
              simp only [takeComponents] at hm
              rw [hm] at hp
              exact absurd rfl hp

end ProtoVscp
