import ProtoVscp.DecodePayloadProofs
import ProtoVscp.TagLength

/-! # Framing of received DATA messages

    What RFC-shaped DATA messages look like (`DataMessage`), and how the search
    of `decodePayload` relates to the parameters really laid out in a message.
    The search takes the octet pair `02 10` for a tag wherever it stands, so:

    * on a well-formed message it decodes exactly the Protocol Data parameter
      when, and only when, the pair stands nowhere it would be visited
      (`decodes_only_protocolData_iff`);
    * on an arbitrary message it stays in bounds and leaves a truncated
      parameter alone when, and only when, every window it opens fits
      (`parsing_bounded_iff`). -/

namespace ProtoVscp

open CheckedLoops SkipScan TagLength M3UAmessage

/-! ## A single hit -/

/-- The fields after a scan with the one hit `q`. -/
theorem collect_singleton (b : ByteStream) (q : Nat) :
    collect b (fresh .TM_DATA b) [q] =
      { fresh .TM_DATA b with
        m_opc := opcAt b q
        m_dpc := dpcAt b q
        m_si := siAt b q
        m_ni := niAt b q
        m_mp := mpAt b q
        m_sls := slsAt b q
        payload := userDataAt b q } := by
  simp [collect, fresh]

/-- Every hit contributes `n` octets to a field of `n` octets, in a scan that
    stays inside. -/
theorem field_length_of_safe {b : ByteStream} (h : ScanSafe b) {off n : Nat}
    (hfield : off + n ≤ 16) :
    ∀ ps : List Nat, (∀ p ∈ ps, p ∈ tagHits b) →
      (ps.flatMap (fun p => slice b (p + off) n)).length = n * ps.length := by
  intro ps
  induction ps with
  | nil => intro _; rfl
  | cons p rest ih =>
      intro hsub
      have hfit := (h.windows p (hsub p (List.mem_cons_self ..))).1
      have hwin : (slice b (p + off) n).length = n := slice_length (by omega)
      rw [List.flatMap_cons, List.length_append, hwin,
        ih (fun q hq => hsub q (List.mem_cons_of_mem p hq)), List.length_cons, Nat.mul_succ]
      omega

/-- Every hit contributes four octets to the OPC of a scan that stays inside. -/
theorem opc_length_of_safe {b : ByteStream} (h : ScanSafe b) :
    ∀ ps : List Nat, (∀ p ∈ ps, p ∈ tagHits b) →
      (ps.flatMap (opcAt b)).length = 4 * ps.length :=
  field_length_of_safe h (by decide)

/-- A tag inside the message is always followed up by some hit. -/
theorem tagHits_ne_nil_of_hasTag {b : ByteStream} {q : Nat}
    (h : hasTag b q = true) : tagHits b ≠ [] := by
  have hlt : q < b.length := by
    simp only [hasTag, Bool.and_eq_true, beq_iff_eq] at h
    exact (List.getElem?_eq_some_iff.mp h.1).1
  obtain ⟨p, hp, -, -⟩ := exists_hit_near 16 hlt h
  intro hnil
  rw [tagHits] at hnil
  rw [hnil] at hp
  exact absurd hp List.not_mem_nil

/-- **When the scan hits only `q`** and stays inside the message: no tag stands
    before `q` or behind its window, and the last octet is no `02` that the
    scan still visits. -/
theorem scan_single_iff {b : ByteStream} {q : Nat} (hq : hasTag b q = true)
    (hfit : WindowFits b q) :
    (ScanSafe b ∧ tagHits b = [q]) ↔
      (∀ j, hasTag b j = true → q ≤ j ∧ j ≤ q + 16) ∧
        (q + 17 < b.length → b.getLast? ≠ some 0x02) := by
  have hlast : ∀ {x : UInt8}, b[b.length - 1]? = some x ↔ b.getLast? = some x := by
    intro x; rw [List.getLast?_eq_getElem?]
  have hwin := hfit.1
  constructor
  · rintro ⟨hsafe, hhits⟩
    have hone := hits_eq_singleton_iff.mp hhits
    refine ⟨?_, ?_⟩
    · intro j hj
      have hlt : j < b.length := by
        simp only [hasTag, Bool.and_eq_true, beq_iff_eq] at hj
        exact (List.getElem?_eq_some_iff.mp hj.1).1
      exact hone.2 j hlt hj
    · intro hbehind hx
      -- the last octet is visited, so its successor would be read
      have hvis : b.length - 1 ∈ tagVisits b := by
        refine mem_visits.mpr ⟨by omega, ?_⟩
        rintro ⟨p, hp, h1, h2⟩
        rw [show hits (hasTag b) 16 b.length = [q] from hhits,
          List.mem_singleton] at hp
        omega
      have := hsafe.next _ hvis (hlast.mpr hx)
      omega
  · rintro ⟨htags, hend⟩
    have hhits : tagHits b = [q] :=
      hits_eq_singleton_iff.mpr ⟨⟨by omega, hq⟩, fun j _ hj => htags j hj⟩
    refine ⟨⟨?_, ?_⟩, hhits⟩
    · intro p hp
      rw [hhits, List.mem_singleton] at hp
      exact hp ▸ hfit
    · intro j hj hx
      obtain ⟨hlt, hnot⟩ := mem_visits.mp hj
      rw [show hits (hasTag b) 16 b.length = [q] from hhits] at hnot
      by_cases hend' : j + 1 < b.length
      · exact hend'
      · -- `j` is the last position, and not inside the window of `q`
        have hj' : j = b.length - 1 := by omega
        have hout : ¬ (q < j ∧ j ≤ q + 16) := fun h =>
          hnot ⟨q, List.mem_singleton.mpr rfl, h.1, h.2⟩
        rw [hj'] at hx
        exact absurd (hlast.mp hx) (hend (by omega))

/-! ## What is taken for a tag -/

/-- The loop of `decodePayload` on `b` starts a round at `i` and its test
    succeeds there. -/
def TakenAsTag (b : ByteStream) (i : Nat) : Prop :=
  i < b.length ∧ isProtocolDataTag b i = .ok true ∧
    ∃ m, Reaches b.length (scanRound 16 (isProtocolDataTag b) (takeProtocolData b))
      (fresh .TM_DATA b) i m

/-- In a run that returns, what is taken for a tag is what the scan hits. -/
theorem takenAsTag_iff {b : ByteStream} {d : M3UAmessage}
    (hrun : (fresh .TM_DATA b).decodePayload = .ok d) (i : Nat) :
    TakenAsTag b i ↔ i ∈ tagHits b := by
  have hhit : hitOf (isProtocolDataTag b) = hasTag b :=
    funext (hitOf_isProtocolDataTag b)
  have hloop : forUntil b.length
      (scanRound 16 (isProtocolDataTag b) (takeProtocolData b)) b.length 0
      (fresh .TM_DATA b) = .ok d := hrun
  rw [tagHits]
  rw [← hhit, mem_hits, hitOf_eq_true]
  constructor
  · rintro ⟨hlt, htest, m, hreach⟩
    exact ⟨mem_visits_of_reaches hreach hlt, htest⟩
  · rintro ⟨hvis, htest⟩
    exact ⟨(mem_visits.mp hvis).1, htest, reaches_of_mem_visits hloop hvis⟩

/-! ## Well-formed DATA messages -/

/-- An MTP3 routing label as DATA carries it. -/
structure RoutingLabel where
  opc : ByteStream
  dpc : ByteStream
  si : UInt8
  ni : UInt8
  mp : UInt8
  sls : UInt8
  opc_length : opc.length = 4
  dpc_length : dpc.length = 4

namespace RoutingLabel

def bytes (l : RoutingLabel) : ByteStream :=
  l.opc ++ l.dpc ++ [l.si, l.ni, l.mp, l.sls]

theorem bytes_length (l : RoutingLabel) : l.bytes.length = 12 := by
  simp [bytes, l.opc_length, l.dpc_length]

end RoutingLabel

/-- A label stands at offset `q` of `b`, behind a tag and a length. -/
structure LabelAt (b : ByteStream) (q : Nat) (l : RoutingLabel) : Prop where
  opc : opcAt b q = l.opc
  dpc : dpcAt b q = l.dpc
  si : siAt b q = [l.si]
  ni : niAt b q = [l.ni]
  mp : mpAt b q = [l.mp]
  sls : slsAt b q = [l.sls]

/-- Twelve label octets behind sixteen less twelve. -/
theorem labelAt_of_split {xs ys : ByteStream} {q : Nat} (l : RoutingLabel)
    (hxs : xs.length = q + 4) : LabelAt (xs ++ (l.bytes ++ ys)) q l := by
  obtain ⟨opc, dpc, si, ni, mp, sls, hopc, hdpc⟩ := l
  match opc, dpc, hopc, hdpc with
  | [o0, o1, o2, o3], [d0, d1, d2, d3], _, _ =>
      have e4 : q + 4 = xs.length + 0 := by omega
      have e8 : q + 8 = xs.length + 4 := by omega
      have e12 : q + 12 = xs.length + 8 := by omega
      have e13 : q + 13 = xs.length + 9 := by omega
      have e14 : q + 14 = xs.length + 10 := by omega
      have e15 : q + 15 = xs.length + 11 := by omega
      constructor
      · rw [opcAt, e4, slice_append_right]; rfl
      · rw [dpcAt, e8, slice_append_right]; rfl
      · rw [siAt, e12, slice_append_right]; rfl
      · rw [niAt, e13, slice_append_right]; rfl
      · rw [mpAt, e14, slice_append_right]; rfl
      · rw [slsAt, e15, slice_append_right]; rfl

/-- A well-formed DATA message: the common header, whose length field may hold
    anything, and parameters of which exactly one is a Protocol Data parameter,
    with a whole routing label. -/
structure DataMessage where
  reserved : UInt8
  messageLength : ByteStream
  before : List Param
  protocolData : Param
  after : List Param
  label : RoutingLabel
  userData : ByteStream
  messageLength_length : messageLength.length = 4
  tagHi : protocolData.tagHi = 0x02
  tagLo : protocolData.tagLo = 0x10
  value : protocolData.value = label.bytes ++ userData
  before_tag : ∀ p ∈ before, ¬ (p.tagHi = 0x02 ∧ p.tagLo = 0x10)
  after_tag : ∀ p ∈ after, ¬ (p.tagHi = 0x02 ∧ p.tagLo = 0x10)

namespace DataMessage

/-- The eight octets of the common header. -/
def header (msg : DataMessage) : ByteStream :=
  [0x01, msg.reserved, 0x01, 0x01] ++ msg.messageLength

def params (msg : DataMessage) : List Param :=
  msg.before ++ msg.protocolData :: msg.after

def bytes (msg : DataMessage) : ByteStream := msg.header ++ layout msg.params

/-- The offset of the Protocol Data parameter. -/
def offset (msg : DataMessage) : Nat := 8 + (layout msg.before).length

theorem header_length (msg : DataMessage) : msg.header.length = 8 := by
  simp [header, msg.messageLength_length]

/-- The message, cut in front of the Protocol Data parameter. -/
theorem bytes_split (msg : DataMessage) :
    msg.bytes = (msg.header ++ layout msg.before)
      ++ (msg.protocolData.bytes ++ layout msg.after) := by
  simp [bytes, params]

theorem offset_eq (msg : DataMessage) :
    (msg.header ++ layout msg.before).length = msg.offset := by
  rw [List.length_append, header_length]
  rfl

theorem isData (msg : DataMessage) : IsData msg.bytes := by
  have hlen := msg.header_length
  refine ⟨?_, ?_, ?_, ?_⟩
  · rw [bytes, List.length_append]; omega
  · simp [bytes, header]
  · simp [bytes, header]
  · simp [bytes, header]

theorem hasTag_offset (msg : DataMessage) : hasTag msg.bytes msg.offset = true := by
  have h0 : msg.bytes[msg.offset]? = some 0x02 := by
    rw [bytes_split, ← offset_eq, ← Nat.add_zero (List.length _),
      getElem?_append_right_add]
    simp [Param.bytes, msg.tagHi]
  have h1 : msg.bytes[msg.offset + 1]? = some 0x10 := by
    rw [bytes_split, ← offset_eq, getElem?_append_right_add]
    simp [Param.bytes, msg.tagLo]
  simp [hasTag, h0, h1]

theorem word_offset (msg : DataMessage) :
    word msg.bytes (msg.offset + 2) = msg.protocolData.len := by
  rw [bytes_split, ← offset_eq, word_length]

theorem labelAt_offset (msg : DataMessage) :
    LabelAt msg.bytes msg.offset msg.label := by
  have hsplit : msg.bytes = (msg.header ++ layout msg.before ++
      [msg.protocolData.tagHi, msg.protocolData.tagLo,
        UInt8.ofNat (msg.protocolData.len / 256),
        UInt8.ofNat (msg.protocolData.len % 256)])
      ++ (msg.label.bytes ++ (msg.userData ++ msg.protocolData.pad
        ++ layout msg.after)) := by
    rw [bytes_split, Param.bytes, msg.value]
    simp only [List.append_assoc]
  rw [hsplit]
  refine labelAt_of_split msg.label ?_
  rw [List.length_append, offset_eq]
  rfl

/-- The parameter fits: its length octet is at most its length. -/
theorem windowFits (msg : DataMessage) : WindowFits msg.bytes msg.offset := by
  have hlen : msg.bytes.length
      = msg.offset + (msg.protocolData.bytes.length + (layout msg.after).length) := by
    rw [bytes_split, List.length_append, offset_eq, List.length_append]
  have hparam := msg.protocolData.bytes_length
  have hvalue : msg.protocolData.value.length = 12 + msg.userData.length := by
    rw [msg.value, List.length_append, msg.label.bytes_length]
  have hword := msg.word_offset
  refine ⟨by omega, ?_⟩
  have hoctet : lengthOctet msg.bytes msg.offset ≤ msg.protocolData.len := by
    rw [← hword, word]
    exact Nat.le_add_left ..
  rw [Param.len] at hoctet
  omega

/-- **Exactly the Protocol Data parameter is decoded**: the run returns, every
    routing label field holds that parameter's octets, and no position but the
    parameter's own is taken for its tag. -/
def DecodesOnlyProtocolData (msg : DataMessage) : Prop :=
  ∃ d, (ofBytes msg.bytes >>= decodePayload) = .ok d ∧
    (d.opc = msg.label.opc ∧ d.dpc = msg.label.dpc ∧ d.si = [msg.label.si] ∧
      d.ni = [msg.label.ni] ∧ d.mp = [msg.label.mp] ∧ d.sls = [msg.label.sls]) ∧
    ∀ i, TakenAsTag msg.bytes i → i = msg.offset

/-- No octet pair `02 10` stands before the Protocol Data parameter or behind
    its routing label's window, and the message does not end in an `02` behind
    that window. -/
structure NoStrayTag (msg : DataMessage) : Prop where
  pairs : ∀ j, hasTag msg.bytes j = true → msg.offset ≤ j ∧ j ≤ msg.offset + 16
  last : msg.offset + 17 < msg.bytes.length → msg.bytes.getLast? ≠ some 0x02

theorem noStrayTag_iff (msg : DataMessage) :
    msg.NoStrayTag ↔ ScanSafe msg.bytes ∧ tagHits msg.bytes = [msg.offset] := by
  rw [scan_single_iff msg.hasTag_offset msg.windowFits]
  exact ⟨fun h => ⟨h.pairs, h.last⟩, fun h => ⟨h.1, h.2⟩⟩

/-- A scan whose only hit is the parameter decodes its label. -/
theorem fields_of_single (msg : DataMessage) :
    let d := collect msg.bytes (fresh .TM_DATA msg.bytes) [msg.offset]
    d.opc = msg.label.opc ∧ d.dpc = msg.label.dpc ∧ d.si = [msg.label.si] ∧
      d.ni = [msg.label.ni] ∧ d.mp = [msg.label.mp] ∧ d.sls = [msg.label.sls] := by
  have hl := msg.labelAt_offset
  rw [collect_singleton]
  exact ⟨hl.opc, hl.dpc, hl.si, hl.ni, hl.mp, hl.sls⟩

end DataMessage

theorem decodes_only_protocolData_iff (msg : DataMessage) :
    msg.DecodesOnlyProtocolData ↔ msg.NoStrayTag := by
  rw [msg.noStrayTag_iff]
  constructor
  · rintro ⟨d, hd, -, htaken⟩
    obtain ⟨hsafe, hcollect⟩ := (receive_data msg.isData d).mp hd
    have hrun : (fresh .TM_DATA msg.bytes).decodePayload = .ok d :=
      (decodePayload_eq_ok rfl).mpr ⟨hsafe, hcollect⟩
    have hall : ∀ p ∈ tagHits msg.bytes, p = msg.offset := fun p hp =>
      htaken p ((takenAsTag_iff hrun p).mpr hp)
    -- the parameter's own tag is followed up by a hit, which is then at `offset`
    have hmem : msg.offset ∈ tagHits msg.bytes := by
      cases hl : tagHits msg.bytes with
      | nil => exact absurd hl (tagHits_ne_nil_of_hasTag msg.hasTag_offset)
      | cons p rest =>
          rw [← hall p (by rw [hl]; exact List.mem_cons_self ..)]
          exact List.mem_cons_self ..
    exact ⟨hsafe, hits_eq_singleton_of_forall hmem hall⟩
  · rintro ⟨hsafe, hhits⟩
    have hd := (receive_data msg.isData _).mpr ⟨hsafe, rfl⟩
    have hrun : (fresh .TM_DATA msg.bytes).decodePayload
        = .ok (collect msg.bytes (fresh .TM_DATA msg.bytes) (tagHits msg.bytes)) :=
      (decodePayload_eq_ok rfl).mpr ⟨hsafe, rfl⟩
    refine ⟨_, hd, ?_, ?_⟩
    · rw [hhits]
      exact msg.fields_of_single
    · intro i hi
      have hmem := (takenAsTag_iff hrun i).mp hi
      rw [hhits] at hmem
      exact List.mem_singleton.mp hmem

/-- A routing label between two signalling points, for SCCP (SI 3). -/
def sampleLabel : RoutingLabel where
  opc := [0x00, 0x00, 0x00, 0x01]
  dpc := [0x00, 0x00, 0x00, 0x02]
  si := 0x03
  ni := 0x02
  mp := 0x00
  sls := 0x05
  opc_length := rfl
  dpc_length := rfl

/-- A DATA message with Network Appearance 528, whose value ends in the octets
    `02 10`, in front of the Protocol Data parameter. -/
def networkAppearance528 : DataMessage where
  reserved := 0x00
  messageLength := [0x00, 0x00, 0x00, 0x24]
  before := [{
    tagHi := 0x02
    tagLo := 0x00
    value := [0x00, 0x00, 0x02, 0x10]
    pad := []
    length_fits := by decide
    pad_lt := by decide
    padded := by decide }]
  protocolData := {
    tagHi := 0x02
    tagLo := 0x10
    value := [0x00, 0x00, 0x00, 0x01, 0x00, 0x00, 0x00, 0x02, 0x03, 0x02, 0x00, 0x05,
      0x09, 0x00, 0x03, 0x05]
    pad := []
    length_fits := by decide
    pad_lt := by decide
    padded := by decide }
  after := []
  label := sampleLabel
  userData := [0x09, 0x00, 0x03, 0x05]
  messageLength_length := rfl
  tagHi := rfl
  tagLo := rfl
  value := rfl
  before_tag := by decide
  after_tag := by decide

/-- The search takes the last two octets of the Network Appearance for the tag
    and reads the OPC from what follows it. -/
theorem networkAppearance528_misread :
    ¬ networkAppearance528.DecodesOnlyProtocolData := by
  rintro ⟨d, hd, ⟨hopc, -⟩, -⟩
  have hrun : (ofBytes networkAppearance528.bytes >>= decodePayload) = .ok
      (collect networkAppearance528.bytes (fresh .TM_DATA networkAppearance528.bytes)
        [14]) := rfl
  rw [hrun] at hd
  rw [← Except.ok.inj hd] at hopc
  exact absurd hopc (by decide)

/-! ## Truncated and overlong messages -/

/-- The offsets of the Protocol Data parameters of a message, found by walking
    its parameters from the end of the common header. -/
def protocolDataOffsets (b : ByteStream) : List Nat :=
  (walk b 8).filter (hasTag b)

/-- The parameter at `q` lies inside the message: its header and routing label,
    and the octets its length field counts. -/
def FitsInside (b : ByteStream) (q : Nat) : Prop :=
  q + 16 ≤ b.length ∧ q + word b (q + 2) ≤ b.length

instance (b : ByteStream) (q : Nat) : Decidable (FitsInside b q) :=
  inferInstanceAs (Decidable (_ ∧ _))

theorem offsets_filter_of_not_tag (b : ByteStream) (ps : List Param) :
    ∀ off, (∀ q ∈ offsets off ps, hasTag b q = false) →
      (offsets off ps).filter (hasTag b) = [] := by
  intro off h
  rw [List.filter_eq_nil_iff]
  intro q hq
  simp [h q hq]

/-- The two tag octets of a parameter inside a layout. -/
theorem hasTag_layout (xs ys : ByteStream) (ps : List Param) :
    ∀ off, xs.length = off →
      (∀ p ∈ ps, ¬ (p.tagHi = 0x02 ∧ p.tagLo = 0x10)) →
      ∀ q ∈ offsets off ps, hasTag (xs ++ (layout ps ++ ys)) q = false := by
  induction ps generalizing xs with
  | nil => intro off _ _ q hq; exact nomatch hq
  | cons p rest ih =>
      intro off hoff htag q hq
      rcases List.mem_cons.mp hq with rfl | hmem
      · -- the pair at `q` is the tag of `p`
        have h0 : (xs ++ (layout (p :: rest) ++ ys))[q]? = some p.tagHi := by
          rw [← hoff, ← Nat.add_zero (List.length _), getElem?_append_right_add]
          simp [Param.bytes]
        have h1 : (xs ++ (layout (p :: rest) ++ ys))[q + 1]? = some p.tagLo := by
          rw [← hoff, getElem?_append_right_add]
          simp [Param.bytes]
        have hp := htag p (List.mem_cons_self ..)
        cases ht : hasTag (xs ++ (layout (p :: rest) ++ ys)) q with
        | false => rfl
        | true =>
            simp only [hasTag, h0, h1, Bool.and_eq_true, beq_iff_eq,
              Option.some.injEq] at ht
            exact absurd ht hp
      · have hrest := ih (xs ++ p.bytes) (off + p.bytes.length)
          (by rw [List.length_append, hoff])
          (fun p' hp' => htag p' (List.mem_cons_of_mem p hp')) q hmem
        rw [layout_cons, List.append_assoc]
        rw [List.append_assoc] at hrest
        exact hrest

/-- On a well-formed message the walk finds the one Protocol Data parameter. -/
theorem DataMessage.protocolDataOffsets_eq (msg : DataMessage) :
    protocolDataOffsets msg.bytes = [msg.offset] := by
  have hwalk : walk msg.bytes 8 = offsets 8 msg.params := by
    have := walk_layout msg.header msg.params
    rw [msg.header_length] at this
    exact this
  have hbefore : ∀ q ∈ offsets 8 msg.before, hasTag msg.bytes q = false := by
    have := hasTag_layout msg.header (layout (msg.protocolData :: msg.after))
      msg.before 8 msg.header_length msg.before_tag
    rwa [← layout_append] at this
  have hafter : ∀ q ∈ offsets (msg.offset + msg.protocolData.bytes.length) msg.after,
      hasTag msg.bytes q = false := by
    have := hasTag_layout (msg.header ++ layout msg.before ++ msg.protocolData.bytes)
      [] msg.after _ (by rw [List.length_append, msg.offset_eq]) msg.after_tag
    rwa [List.append_nil, List.append_assoc, ← msg.bytes_split] at this
  rw [protocolDataOffsets]
  rw [hwalk, DataMessage.params, offsets_append, List.filter_append,
    offsets_filter_of_not_tag _ _ _ hbefore, List.nil_append]
  show (msg.offset :: offsets _ msg.after).filter (hasTag msg.bytes) = [msg.offset]
  rw [List.filter_cons_of_pos msg.hasTag_offset]
  exact congrArg (msg.offset :: ·) (offsets_filter_of_not_tag _ _ _ hafter)

/-- **Bounded parsing**: decoding reads inside the message only, and leaves every
    field empty when a Protocol Data parameter does not fit inside it. -/
def ParsingBounded (b : ByteStream) : Prop :=
  ∃ d, (ofBytes b >>= decodePayload) = .ok d ∧
    ((∃ q ∈ protocolDataOffsets b, ¬ FitsInside b q) →
      d.getPayload = [] ∧ d.opc = [] ∧ d.dpc = [] ∧ d.si = [] ∧ d.ni = [] ∧
        d.mp = [] ∧ d.sls = [])

/-- A decoded message with a Protocol Data tag anywhere has a non-empty OPC. -/
theorem opc_ne_nil_of_hasTag {b : ByteStream} {q : Nat} (hsafe : ScanSafe b)
    (hq : hasTag b q = true) :
    (collect b (fresh .TM_DATA b) (tagHits b)).opc ≠ [] := by
  have hlen := opc_length_of_safe hsafe (tagHits b) (fun _ hp => hp)
  have hne := tagHits_ne_nil_of_hasTag hq
  intro hnil
  have hopc : (tagHits b).flatMap (opcAt b) = [] := by
    simpa [opc, collect, fresh] using hnil
  rw [hopc, List.length_nil] at hlen
  exact hne (List.length_eq_zero_iff.mp (by omega))

/-- **When parsing is bounded**: every window the scan opens lies inside the
    message, no visited `02` is its last octet, and every Protocol Data
    parameter of the message fits. -/
theorem parsing_bounded_iff {b : ByteStream} {m : M3UAmessage}
    (hb : ofBytes b = .ok m) (hm : m.M3UAtype = .TM_DATA) :
    ParsingBounded b ↔
      ScanSafe b ∧ ∀ q ∈ protocolDataOffsets b, FitsInside b q := by
  obtain ⟨hdata, -⟩ := ofBytes_tmData hb hm
  constructor
  · rintro ⟨d, hd, hempty⟩
    obtain ⟨hsafe, hcollect⟩ := (receive_data hdata d).mp hd
    refine ⟨hsafe, ?_⟩
    intro q hq
    by_cases hfit : FitsInside b q
    · exact hfit
    · -- no check empties the OPC again that the tag at `q` has brought in
      have hopc := (hempty ⟨q, hq, hfit⟩).2.1
      rw [hcollect] at hopc
      exact absurd hopc (opc_ne_nil_of_hasTag hsafe (List.mem_filter.mp hq).2)
  · rintro ⟨hsafe, hfits⟩
    refine ⟨_, (receive_data hdata _).mpr ⟨hsafe, rfl⟩, ?_⟩
    rintro ⟨q, hq, hnot⟩
    exact absurd (hfits q hq) hnot

/-- A DATA message cut off inside its routing label. -/
def truncatedData : ByteStream :=
  [0x01, 0x00, 0x01, 0x01, 0x00, 0x00, 0x00, 0x18, 0x02, 0x10, 0x00, 0x10,
    0x00, 0x00, 0x00, 0x01, 0x00, 0x00]

theorem parsing_bounded_iff_truncated :
    ParsingBounded truncatedData ↔
      ScanSafe truncatedData ∧
        ∀ q ∈ protocolDataOffsets truncatedData, FitsInside truncatedData q :=
  parsing_bounded_iff (m := fresh .TM_DATA truncatedData) rfl rfl

/-- The routing label of `truncatedData` is read past the end. -/
theorem truncatedData_overrun : ¬ ParsingBounded truncatedData := by
  rintro ⟨d, hd, -⟩
  have hrun : (ofBytes truncatedData >>= decodePayload) = .error .outOfBounds := rfl
  rw [hrun] at hd
  exact nomatch hd

end ProtoVscp
