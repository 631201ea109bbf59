import ProtoVscp.BerDecoderProofs

/-! # Strings in segments

    `OCTET_STRING_decode_ber` keeps a stack of what is left to read of the
    constructed values it is inside of.  `Segments` is the grammar of such
    values: the decoder accepts exactly these, puts the contents of the primitive
    segments behind one another, and keeps the tags and lengths too when the type
    is ANY (`OCTET_STRING_decode_ber_recognises`). -/

namespace ProtoVscp

open SelfDelimiting

/-! ## What is appended -/

/-- What is appended is appended to what is there, a null pointer or octets. -/
def join (a b : Option ByteStream) : Option ByteStream := Option.merge (· ++ ·) a b

@[simp] theorem none_join (a : Option ByteStream) : join none a = a := by
  cases a with
  | none => rfl
  | some a => rfl

@[simp] theorem join_none (a : Option ByteStream) : join a none = a := by
  cases a with
  | none => rfl
  | some a => rfl

theorem join_assoc (a b c : Option ByteStream) : join (join a b) c = join a (join b c) := by
  cases a with
  | none => rw [none_join, none_join]
  | some a =>
      cases b with
      | none => rw [none_join, join_none]
      | some b =>
          cases c with
          | none => rw [join_none, join_none]
          | some c => exact congrArg some (List.append_assoc a b c)

theorem APPEND_eq_join (st : Option ByteStream) (buf : ByteStream) :
    APPEND st buf = join st (some buf) := by
  cases st with
  | none => rfl
  | some a => rfl

section Strings

variable (td : asn_OCTET_STRING) (tag_mode : Int)

/-- What is kept of octets that are not contents. -/
def kept (level : Nat) (buf : ByteStream) : Option ByteStream := keepTL td tag_mode level none buf

/-- What is kept of the contents of a primitive segment. -/
def contentsOf (c : ByteStream) : Option ByteStream := if c.length > 0 then some c else none

theorem keepTL_eq_join (level : Nat) (st : Option ByteStream) (buf : ByteStream) :
    keepTL td tag_mode level st buf = join st (kept td tag_mode level buf) := by
  rw [kept, keepTL, keepTL]
  by_cases hkeep : td.subvariant = .ASN_OSUBV_ANY ∧ (tag_mode ≠ 1 ∨ level ≠ 0)
  · rw [if_pos hkeep, if_pos hkeep, APPEND_eq_join, APPEND_eq_join, none_join]
  · rw [if_neg hkeep, if_neg hkeep, join_none]

/-! ## Segments -/

/-- The tag that a segment at `level` is to have; the outermost may have any. -/
def SegmentTag : Nat → ber_tlv_tag_t → Prop
  | 0, _ => True
  | level + 1, tag => tag = expectedTag td (some level) tag

/-- **The octets `es` are segments at `level`, and `k` is what is kept of them.** -/
inductive Segments : Nat → Option ByteStream → List ByteStream → Prop where
  | nil {level : Nat} : Segments level none []
  /-- A primitive segment. -/
  | primitive {level : Nat} {tag : ber_tlv_tag_t} {hdr c : ByteStream} {k : Option ByteStream}
      {es : List ByteStream} (hTL : IsTL ⟨tag, false, some c.length⟩ hdr)
      (htag : SegmentTag td level tag) (hes : Segments level k es) :
      Segments level (join (join (kept td tag_mode level hdr) (contentsOf c)) k)
        ((hdr ++ c) :: es)
  /-- A segment made of segments. -/
  | definite {level : Nat} {tag : ber_tlv_tag_t} {hdr : ByteStream} {k' k : Option ByteStream}
      {es' es : List ByteStream} (hTL : IsTL ⟨tag, true, some es'.flatten.length⟩ hdr)
      (htag : SegmentTag td level tag) (hes' : Segments (level + 1) k' es')
      (hes : Segments level k es) :
      Segments level (join (join (kept td tag_mode level hdr) k') k)
        ((hdr ++ es'.flatten) :: es)
  /-- A segment made of segments, and the end-of-contents octets. -/
  | indefinite {level : Nat} {tag : ber_tlv_tag_t} {hdr : ByteStream}
      {k' k : Option ByteStream} {es' es : List ByteStream} (hTL : IsTL ⟨tag, true, none⟩ hdr)
      (htag : SegmentTag td level tag) (hes' : Segments (level + 1) k' es')
      (heoc : ∀ e ∈ es', isEndOfContents e = false) (hes : Segments level k es) :
      Segments level (join (join (kept td tag_mode level hdr)
          (join k' (kept td tag_mode level [0, 0]))) k)
        ((hdr ++ es'.flatten ++ [0, 0]) :: es)

variable {td tag_mode}

theorem Segments.isNested {level : Nat} {k : Option ByteStream} {es : List ByteStream}
    (h : Segments td tag_mode level k es) : ∀ e ∈ es, IsNested e := by
  induction h with
  | nil =>
      intro e he
      cases he
  | primitive hTL _ _ ih => exact List.forall_mem_cons.mpr ⟨.primitive hTL, ih⟩
  | definite hTL _ _ _ ih' ih => exact List.forall_mem_cons.mpr ⟨.definite hTL ih', ih⟩
  | indefinite hTL _ _ heoc _ ih' ih =>
      exact List.forall_mem_cons.mpr ⟨.indefinite hTL ih' heoc, ih⟩

/-! ## Rounds -/

/-- The level of the next element: that of the element around it, if there is one. -/
def levelOf (stck : List stack_el) : Option Nat :=
  match stck with
  | [] => none
  | _ :: below => some below.length

theorem expectedTag_levelOf (stck : List stack_el) (tag : ber_tlv_tag_t) :
    tag = expectedTag td (levelOf stck) tag ↔ SegmentTag td stck.length tag := by
  cases stck with
  | nil =>
      refine iff_of_true ?_ trivial
      cases td with
      | mk tags all_tags subvariant =>
          cases subvariant with
          | ASN_OSUBV_ANY => rfl
          | ASN_OSUBV_STR => rfl
  | cons sel below => exact Iff.rfl

/-- The next octets are the end-of-contents octets of the innermost element. -/
def EatsEoc (s : OctetStringState) : Prop :=
  ∃ sel below, s.stck = sel :: below ∧ sel.want_nulls = true ∧ isEndOfContents s.buf_ptr = true

/-- The state with a new expectation on the stack. -/
def pushed (td : asn_OCTET_STRING) (tag_mode : Int) (s : OctetStringState)
    (stck : List stack_el) (tlvl : Nat) : OctetStringState where
  stck := stck
  buf_ptr := s.buf_ptr.drop tlvl
  consumed_myself := s.consumed_myself + tlvl
  st := keepTL td tag_mode s.stck.length s.st (s.buf_ptr.take tlvl)

/-- The state with the end-of-contents octets of the element on top eaten. -/
def eaten (td : asn_OCTET_STRING) (tag_mode : Int) (s : OctetStringState) (sel : stack_el)
    (below : List stack_el) : OctetStringState where
  stck := ⟨0, sel.got + 2, false⟩ :: below
  buf_ptr := s.buf_ptr.drop 2
  consumed_myself := s.consumed_myself + 2
  st := keepTL td tag_mode below.length s.st [0, 0]

theorem next_eq_some {s s' : OctetStringState} {tag : ber_tlv_tag_t} {constr : Bool} {n : Nat}
    {len level : Option Nat} (hlevel : level = levelOf s.stck) :
    fetchStackEl.next td tag_mode s tag constr n len level = some s' ↔
      SegmentTag td s.stck.length tag ∧ ∃ stck, addStackEl s.stck n len = some stck ∧
        (if constr then some (pushed td tag_mode s stck n)
          else fillStackEl (pushed td tag_mode s stck n)) = some s' := by
  rw [fetchStackEl.next, ← expectedTag_levelOf, hlevel]
  by_cases htag : tag = expectedTag td (levelOf s.stck) tag
  · rw [if_neg (not_not.mpr htag)]
    constructor
    · intro h
      exact ⟨htag, Option.bind_eq_some_iff.mp h⟩
    · rintro ⟨-, h⟩
      exact Option.bind_eq_some_iff.mpr h
  · rw [if_pos htag]
    refine iff_of_false ?_ fun h => htag h.1
    intro h
    cases h

/-- The octets that are left to an element are the next ones. -/
theorem stackLeft_prefix (stck : List stack_el) (b : ByteStream) :
    ∃ u, b = stackLeft stck b ++ u := by
  cases stck with
  | nil => exact ⟨[], (List.append_nil b).symm⟩
  | cons sel below =>
      rw [stackLeft]
      by_cases hneg : sel.left < 0
      · rw [if_pos hneg]
        exact ⟨[], (List.append_nil b).symm⟩
      · rw [if_neg hneg]
        exact ⟨b.drop sel.left.toNat, (List.take_append_drop _ _).symm⟩

theorem constructed_stackLeft {stck : List stack_el} {b : ByteStream} {tag : ber_tlv_tag_t}
    {tl : Nat} (htag : ber_fetch_tag (stackLeft stck b) = some (tag, tl)) :
    BER_TLV_CONSTRUCTED b = BER_TLV_CONSTRUCTED (stackLeft stck b) := by
  obtain ⟨u, hu⟩ := stackLeft_prefix stck b
  have hne : stackLeft stck b ≠ [] := by
    intro hnil
    rw [hnil] at htag
    cases htag
  calc BER_TLV_CONSTRUCTED b = BER_TLV_CONSTRUCTED (stackLeft stck b ++ u) := by rw [← hu]
    _ = BER_TLV_CONSTRUCTED (stackLeft stck b) := BER_TLV_CONSTRUCTED_append hne u

/-- **A round that fetches**: it eats end-of-contents octets, or what is next is the
    tag and the length of a new element. -/
theorem fetchStackEl_eq_some {s s' : OctetStringState} :
    fetchStackEl td tag_mode s = some s' ↔
      ∃ h n, fetchTL (stackLeft s.stck s.buf_ptr) = some (h, n) ∧
        ((∃ sel below, s.stck = sel :: below ∧ sel.want_nulls = true ∧
            isEndOfContents s.buf_ptr = true ∧ s' = eaten td tag_mode s sel below) ∨
          (¬ EatsEoc s ∧ SegmentTag td s.stck.length h.tag ∧
            ∃ stck, addStackEl s.stck n h.len = some stck ∧
              (if h.constr then some (pushed td tag_mode s stck n)
                else fillStackEl (pushed td tag_mode s stck n)) = some s')) := by
  constructor
  · intro h
    obtain ⟨⟨tag, tl⟩, htag, h⟩ := Option.bind_eq_some_iff.mp h
    obtain ⟨⟨len, ll⟩, hlen, h⟩ := Option.bind_eq_some_iff.mp h
    dsimp only at hlen h
    have hTL : fetchTL (stackLeft s.stck s.buf_ptr)
        = some (⟨tag, BER_TLV_CONSTRUCTED s.buf_ptr, len⟩, tl + ll) :=
      fetchTL_eq_some.mpr ⟨tl, ll, htag, constructed_stackLeft htag, hlen, rfl⟩
    refine ⟨_, _, hTL, ?_⟩
    cases hstck : s.stck with
    | nil =>
        simp only [hstck] at h
        refine Or.inr ⟨?_, ?_⟩
        · rintro ⟨sel, below, h0, -⟩
          rw [hstck] at h0
          cases h0
        · have hnext := (next_eq_some (by rw [hstck]; rfl)).mp h
          rw [hstck] at hnext
          exact hnext
    | cons sel below =>
        simp only [hstck] at h
        by_cases heoc : sel.want_nulls = true ∧ isEndOfContents s.buf_ptr = true
        · rw [if_pos heoc] at h
          exact Or.inl ⟨sel, below, rfl, heoc.1, heoc.2, (Option.some.inj h).symm⟩
        · rw [if_neg heoc] at h
          refine Or.inr ⟨?_, ?_⟩
          · rintro ⟨sel', below', h0, h1⟩
            rw [hstck] at h0
            obtain ⟨rfl, rfl⟩ := List.cons.inj h0
            exact heoc h1
          · have hnext := (next_eq_some (by rw [hstck]; rfl)).mp h
            rw [hstck] at hnext
            exact hnext
  · rintro ⟨⟨tag, constr, len⟩, n, hTL, hcase⟩
    obtain ⟨tl, ll, htag, hconstr, hlen, rfl⟩ := fetchTL_eq_some.mp hTL
    dsimp only at htag hconstr hlen
    rw [hconstr, ← constructed_stackLeft htag] at hlen hcase
    rw [fetchStackEl, htag]
    simp only [Option.bind_eq_bind, Option.bind_some, hlen]
    rcases hcase with ⟨sel, below, hstck, hnulls, heoc, rfl⟩ | ⟨hnot, htag', hstck'⟩
    · simp only [hstck, hnulls, heoc, and_self, if_true]
      rfl
    · have hnext := (next_eq_some rfl).mpr ⟨htag', hstck'⟩
      cases hstck : s.stck with
      | nil =>
          rw [hstck] at hnext
          exact hnext
      | cons sel below =>
          have heoc : ¬ (sel.want_nulls = true ∧ isEndOfContents s.buf_ptr = true) :=
            fun h0 => hnot ⟨sel, below, hstck, h0⟩
          rw [hstck] at hnext
          simp only [if_neg heoc]
          exact hnext

/-! ## What closes a stack -/

/-- An element with one more element of `got` octets counted in. -/
def popped (prev : stack_el) (got : Int) : stack_el where
  left := if prev.left = -1 then -1 else prev.left - got
  got := prev.got + got
  want_nulls := prev.want_nulls

theorem popStackEl_eq_some {sel prev prev' : stack_el} :
    popStackEl sel prev = some prev' ↔
      (prev.left = -1 ∨ sel.got ≤ prev.left) ∧ prev' = popped prev sel.got := by
  rw [popStackEl, popped]
  by_cases hfree : prev.left = -1
  · rw [if_neg (not_not.mpr hfree), if_pos hfree, Option.some.injEq, hfree]
    exact ⟨fun h => ⟨Or.inl rfl, h.symm⟩, fun h => h.2.symm⟩
  · rw [if_pos hfree, if_neg hfree]
    by_cases hsmall : prev.left < sel.got
    · rw [if_pos hsmall]
      refine iff_of_false ?_ fun h => h.1.elim hfree (by omega)
      intro h
      cases h
    · rw [if_neg hsmall, Option.some.injEq]
      exact ⟨fun h => ⟨Or.inr (by omega), h.symm⟩, fun h => h.2.symm⟩

/-- The octets that end an element. -/
def nulls (sel : stack_el) : ByteStream := if sel.want_nulls then [0, 0] else []

/-- An element has room for `n` more octets, and is complete with them. -/
def Fits (sel : stack_el) (n : Nat) : Prop :=
  (sel.want_nulls = false → sel.left = n) ∧
    (sel.want_nulls = true → sel.left = -1 ∨ (n : Int) + 2 ≤ sel.left)

variable (td tag_mode) in
/-- The octets `b` complete the element `sel` at `level`, and keep `k` together with
    what `after` says of the octets behind. -/
def ClosesFrame (level : Nat) (sel : stack_el) (b : ByteStream) (k : Option ByteStream)
    (after : Int → ByteStream → Option ByteStream → Prop) : Prop :=
  ∃ es ks b' k', Segments td tag_mode (level + 1) ks es ∧
    b = es.flatten ++ (nulls sel ++ b') ∧
    (sel.want_nulls = true → ∀ e ∈ es, isEndOfContents e = false) ∧
    Fits sel es.flatten.length ∧
    k = join ks (join (if sel.want_nulls then kept td tag_mode level [0, 0] else none) k') ∧
    after (sel.got + es.flatten.length + (nulls sel).length) b' k'

variable (td tag_mode) in
/-- The octets `b` complete the elements of a stack, `t` is behind them, and `k` is
    kept of them. -/
def Closes : List stack_el → stack_el → ByteStream → Option ByteStream → ByteStream → Prop
  | [], sel, b, k, t => ClosesFrame td tag_mode 0 sel b k fun _ b' k' => b' = t ∧ k' = none
  | prev :: below, sel, b, k, t =>
      ClosesFrame td tag_mode (below.length + 1) sel b k fun got b' k' =>
        (prev.left = -1 ∨ got ≤ prev.left) ∧ Closes below (popped prev got) b' k' t

theorem Segments.append {level : Nat} {k₁ k₂ : Option ByteStream} {es₁ es₂ : List ByteStream}
    (h₁ : Segments td tag_mode level k₁ es₁) (h₂ : Segments td tag_mode level k₂ es₂) :
    Segments td tag_mode level (join k₁ k₂) (es₁ ++ es₂) := by
  induction h₁ with
  | nil => exact (none_join k₂).symm ▸ h₂
  | primitive hTL htag _ ih =>
      rw [join_assoc]
      exact .primitive hTL htag (ih h₂)
  | definite hTL htag hes' _ _ ih =>
      rw [join_assoc]
      exact .definite hTL htag hes' (ih h₂)
  | indefinite hTL htag hes' heoc _ _ ih =>
      rw [join_assoc]
      exact .indefinite hTL htag hes' heoc (ih h₂)

theorem Segments.eq_nil {level : Nat} {k : Option ByteStream} {es : List ByteStream}
    (h : Segments td tag_mode level k es) (hlen : es.flatten.length = 0) : es = [] ∧ k = none := by
  cases h with
  | nil => exact ⟨rfl, rfl⟩
  | primitive hTL _ _ =>
      have htwo := hTL.two_le
      rw [List.flatten_cons, List.length_append, List.length_append] at hlen
      omega
  | definite hTL _ _ _ =>
      have htwo := hTL.two_le
      rw [List.flatten_cons, List.length_append, List.length_append] at hlen
      omega
  | indefinite hTL _ _ _ _ =>
      have htwo := hTL.two_le
      rw [List.flatten_cons, List.length_append, List.length_append, List.length_append] at hlen
      omega

section Frame

variable {level : Nat} {sel : stack_el} {b : ByteStream} {k : Option ByteStream}
  {after : Int → ByteStream → Option ByteStream → Prop}

/-- A complete element. -/
theorem closesFrame_done {got : Int} :
    ClosesFrame td tag_mode level ⟨0, got, false⟩ b k after ↔ after got b k := by
  constructor
  · rintro ⟨es, ks, b', k', hes, hb, -, hfits, hk, hafter⟩
    have hzero : (0 : Int) = es.flatten.length := hfits.1 rfl
    obtain ⟨rfl, rfl⟩ := hes.eq_nil (by omega)
    obtain rfl : b = b' := hb
    rw [none_join] at hk
    change k = join none k' at hk
    rw [none_join] at hk
    subst hk
    have hgot : got + (([] : List ByteStream).flatten.length : Int) + ([] : ByteStream).length
        = got := by
      simp only [List.flatten_nil, List.length_nil]
      omega
    exact hgot ▸ hafter
  · intro hafter
    refine ⟨[], none, b, k, .nil, rfl, ?_, ⟨fun _ => rfl, ?_⟩, ?_, ?_⟩
    · intro h
      cases h
    · intro h
      cases h
    · rw [none_join]
      exact (none_join k).symm
    · have hgot : got + (([] : List ByteStream).flatten.length : Int) + ([] : ByteStream).length
          = got := by
        simp only [List.flatten_nil, List.length_nil]
        omega
      exact hgot.symm ▸ hafter

/-- The end-of-contents octets of an element. -/
theorem closesFrame_eoc (hnulls : sel.want_nulls = true)
    (hroom : sel.left = -1 ∨ 2 ≤ sel.left)
    (h : ClosesFrame td tag_mode level ⟨0, sel.got + 2, false⟩ b k after) :
    ClosesFrame td tag_mode level sel (0 :: 0 :: b)
      (join (kept td tag_mode level [0, 0]) k) after := by
  have hafter := closesFrame_done.mp h
  refine ⟨[], none, b, k, .nil, ?_, ?_, ⟨?_, ?_⟩, ?_, ?_⟩
  · rw [nulls, if_pos hnulls]
    rfl
  · intro _ e he
    cases he
  · intro hno
    rw [hnulls] at hno
    cases hno
  · intro _
    exact hroom.imp id fun h => by simpa using h
  · rw [none_join, if_pos hnulls]
  · have hgot : sel.got + (([] : List ByteStream).flatten.length : Int) + (nulls sel).length
        = sel.got + 2 := by
      rw [nulls, if_pos hnulls]
      simp only [List.flatten_nil, List.length_nil, List.length_cons]
      omega
    exact hgot.symm ▸ hafter

/-- A segment in front of what completes an element. -/
theorem closesFrame_cons {e : ByteStream} {ke : Option ByteStream}
    (he : Segments td tag_mode (level + 1) ke [e])
    (heoc : sel.want_nulls = true → isEndOfContents e = false)
    (hroom : sel.left = -1 ∨ (e.length : Int) ≤ sel.left)
    (hvalid : sel.left = -1 → sel.want_nulls = true)
    (h : ClosesFrame td tag_mode level (popped sel e.length) b k after) :
    ClosesFrame td tag_mode level sel (e ++ b) (join ke k) after := by
  obtain ⟨es, ks, b', k', hes, hb, hes', hfits, hk, hafter⟩ := h
  refine ⟨e :: es, join ke ks, b', k', he.append hes, ?_, ?_, ⟨?_, ?_⟩, ?_, ?_⟩
  · rw [hb, List.flatten_cons, List.append_assoc]
    rfl
  · intro hnulls
    exact List.forall_mem_cons.mpr ⟨heoc hnulls, hes' hnulls⟩
  · intro hno
    have hleft := hfits.1 hno
    change (if sel.left = -1 then -1 else sel.left - e.length) = _ at hleft
    have hbounded : sel.left ≠ -1 := fun h0 => by
      rw [hvalid h0] at hno
      cases hno
    rw [if_neg hbounded] at hleft
    rw [List.flatten_cons, List.length_append]
    omega
  · intro hnulls
    have hleft := hfits.2 hnulls
    change (if sel.left = -1 then (-1 : Int) else sel.left - e.length) = -1 ∨
      _ ≤ (if sel.left = -1 then (-1 : Int) else sel.left - e.length) at hleft
    by_cases hfree : sel.left = -1
    · exact Or.inl hfree
    · rw [if_neg hfree] at hleft
      rw [List.flatten_cons, List.length_append]
      omega
  · rw [hk, join_assoc]
    rfl
  · have hgot : sel.got + ((e :: es).flatten.length : Int) + (nulls sel).length
        = (popped sel e.length).got + es.flatten.length
          + (nulls (popped sel e.length)).length := by
      rw [List.flatten_cons, List.length_append]
      show _ = sel.got + e.length + _ + ((nulls sel).length : Int)
      omega
    exact hgot.symm ▸ hafter

end Frame

variable (td tag_mode) in
/-- What completes a stack completes its innermost element first. -/
theorem closes_iff (below : List stack_el) (t : ByteStream) :
    ∃ after, ∀ sel b k, Closes td tag_mode below sel b k t ↔
      ClosesFrame td tag_mode below.length sel b k after := by
  cases below with
  | nil => exact ⟨_, fun _ _ _ => Iff.rfl⟩
  | cons prev below => exact ⟨_, fun _ _ _ => Iff.rfl⟩

/-! ## New elements -/

/-- The room a new element gets in the element around it. -/
def Room (stck : List stack_el) (n : Nat) (len : Option Nat) (left : Int) : Prop :=
  match stck with
  | [] => left = len.elim (-1 : Int) fun l => (l : Int)
  | prev :: _ =>
      (prev.left = -1 ∧ left = len.elim (-1 : Int) fun l => (l : Int)) ∨
        (prev.left ≠ -1 ∧ (n : Int) + len.getD 0 ≤ prev.left ∧
          left = len.elim (prev.left - n) fun l => (l : Int))

theorem addStackEl_eq_some {stck stck' : List stack_el} {n : Nat} {len : Option Nat} :
    addStackEl stck n len = some stck' ↔
      ∃ left, Room stck n len left ∧ stck' = ⟨left, n, len.isNone⟩ :: stck := by
  cases stck with
  | nil =>
      rw [addStackEl, Option.some.injEq]
      constructor
      · intro h
        exact ⟨_, rfl, h.symm⟩
      · rintro ⟨left, hleft, rfl⟩
        obtain rfl : left = _ := hleft
        rfl
  | cons prev below =>
      rw [addStackEl]
      by_cases hfree : prev.left = -1
      · rw [if_pos hfree, Option.some.injEq]
        constructor
        · intro h
          exact ⟨_, Or.inl ⟨hfree, rfl⟩, h.symm⟩
        · rintro ⟨left, hroom, rfl⟩
          rcases hroom with ⟨-, rfl⟩ | ⟨hno, -⟩
          · rfl
          · exact absurd hfree hno
      · rw [if_neg hfree]
        by_cases hsmall : prev.left < (n : Int) + len.getD 0
        · rw [if_pos hsmall]
          refine iff_of_false ?_ ?_
          · intro h
            cases h
          · rintro ⟨left, hroom, -⟩
            rcases hroom with ⟨hno, -⟩ | ⟨-, hroom, -⟩
            · exact hfree hno
            · omega
        · rw [if_neg hsmall]
          cases len with
          | none =>
              rw [if_pos Option.isNone_none, Option.some.injEq]
              constructor
              · intro h
                exact ⟨_, Or.inr ⟨hfree, by omega, rfl⟩, h.symm⟩
              · rintro ⟨left, hroom, rfl⟩
                rcases hroom with ⟨hno, -⟩ | ⟨-, -, rfl⟩
                · exact absurd hno hfree
                · rfl
          | some l =>
              rw [if_neg (by rw [Option.isNone_some]; exact Bool.false_ne_true),
                Option.some.injEq]
              constructor
              · intro h
                exact ⟨_, Or.inr ⟨hfree, by omega, rfl⟩, h.symm⟩
              · rintro ⟨left, hroom, rfl⟩
                rcases hroom with ⟨hno, -⟩ | ⟨-, -, rfl⟩
                · exact absurd hno hfree
                · rfl

theorem fillStackEl_eq_some {s s' : OctetStringState} {sel : stack_el} {below : List stack_el}
    {n : Nat} (hstck : s.stck = sel :: below) (hleft : sel.left = n) :
    fillStackEl s = some s' ↔ ∃ c t, s.buf_ptr = c ++ t ∧ c.length = n ∧
      s' = { stck := ⟨0, sel.got + n, sel.want_nulls⟩ :: below
             buf_ptr := t
             consumed_myself := s.consumed_myself + n
             st := join s.st (contentsOf c) } := by
  rw [fillStackEl]
  simp only [hstck, hleft, Int.toNat_natCast]
  constructor
  · intro h
    by_cases hshort : (s.buf_ptr.take n).length < n
    · rw [if_pos hshort] at h
      cases h
    · rw [if_neg hshort] at h
      have hlen : (s.buf_ptr.take n).length = n := by
        rw [List.length_take] at hshort ⊢
        omega
      refine ⟨s.buf_ptr.take n, s.buf_ptr.drop n, (List.take_append_drop _ _).symm, hlen, ?_⟩
      rw [← Option.some.inj h, hlen, contentsOf, hlen]
      by_cases hpos : n > 0
      · rw [if_pos hpos, if_pos hpos, APPEND_eq_join]
      · rw [if_neg hpos, if_neg hpos, join_none]
  · rintro ⟨c, t, hptr, rfl, rfl⟩
    rw [hptr, List.take_left, if_neg (Nat.lt_irrefl _), List.drop_left, contentsOf]
    by_cases hpos : c.length > 0
    · rw [if_pos hpos, if_pos hpos, APPEND_eq_join]
    · rw [if_neg hpos, if_neg hpos, join_none]

/-- An element that has been completed is a segment, its tag and length included. -/
theorem element_of_closes {level : Nat} {h : TL} {hdr rest : ByteStream} {left : Int}
    {k : Option ByteStream} {after : Int → ByteStream → Option ByteStream → Prop}
    (hTL : IsTL h hdr) (hconstr : h.constr = true) (htag : SegmentTag td level h.tag)
    (hleft : ∀ len, h.len = some len → left = len)
    (hclose : ClosesFrame td tag_mode level ⟨left, hdr.length, h.len.isNone⟩ rest k after) :
    ∃ e ke b' k', Segments td tag_mode level ke [e] ∧ hdr ++ rest = e ++ b' ∧
      join (kept td tag_mode level hdr) k = join ke k' ∧ after e.length b' k' := by
  obtain ⟨es, ks, b', k', hes, rfl, heoc, hfits, rfl, hafter⟩ := hclose
  cases h with
  | mk tag constr len =>
      obtain rfl : constr = true := hconstr
      cases len with
      | some len =>
          have hlen : left = es.flatten.length := hfits.1 rfl
          have hsame := hleft len rfl
          obtain rfl : len = es.flatten.length := by omega
          refine ⟨hdr ++ es.flatten, _, b', k', .definite hTL htag hes .nil, ?_, ?_, ?_⟩
          · exact (List.append_assoc _ _ _).symm
          · rw [join_none, join_assoc]
            exact congrArg (fun x => join _ (join ks x)) (none_join k')
          · rw [List.length_append]
            have hgot : (hdr.length : Int) + es.flatten.length + ([] : ByteStream).length
                = ((hdr.length + es.flatten.length : Nat) : Int) := by
              rw [List.length_nil]
              omega
            exact hgot ▸ hafter
      | none =>
          refine ⟨hdr ++ es.flatten ++ [0, 0], _, b', k',
            .indefinite hTL htag hes (heoc rfl) .nil, ?_, ?_, ?_⟩
          · rw [List.append_assoc, List.append_assoc]
            rfl
          · rw [join_none, join_assoc, join_assoc]
            rfl
          · rw [List.length_append, List.length_append]
            have hgot : (hdr.length : Int) + es.flatten.length + ([0, 0] : ByteStream).length
                = ((hdr.length + es.flatten.length + ([0, 0] : ByteStream).length : Nat) : Int) := by
              omega
            exact hgot ▸ hafter

/-! ## Rounds that open an element -/

/-- An element has octets to go, or ends with end-of-contents octets. -/
def FrameInv (sel : stack_el) : Prop :=
  -1 ≤ sel.left ∧ (sel.left = -1 → sel.want_nulls = true)

theorem Room.some_eq {stck : List stack_el} {n l : Nat} {left : Int}
    (h : Room stck n (some l) left) : left = l := by
  cases stck with
  | nil => exact h
  | cons prev below =>
      rcases h with ⟨-, hleft⟩ | ⟨-, -, hleft⟩
      · exact hleft
      · exact hleft

theorem Room.frameInv {stck : List stack_el} {n : Nat} {len : Option Nat} {left : Int}
    (h : Room stck n len left) : FrameInv ⟨left, n, len.isNone⟩ := by
  cases len with
  | none =>
      refine ⟨?_, fun _ => rfl⟩
      show -1 ≤ left
      cases stck with
      | nil => exact Int.le_of_eq h.symm
      | cons prev below =>
          rcases h with ⟨-, hleft⟩ | ⟨-, hroom, hleft⟩
          · exact Int.le_of_eq hleft.symm
          · change left = prev.left - n at hleft
            change (n : Int) + (0 : Nat) ≤ _ at hroom
            omega
  | some l =>
      have hleft := h.some_eq
      refine ⟨?_, fun hneg => ?_⟩
      · show -1 ≤ left
        omega
      · change left = -1 at hneg
        omega

/-- The octets used and the octets to come. -/
def OctetStringState.total (s : OctetStringState) : Nat :=
  s.consumed_myself + s.buf_ptr.length

/-- **A round that opens an element**: once the element on top is complete, a
    segment has been read. -/
theorem pushed_sound {s s' : OctetStringState} {h : TL} {n : Nat} {stck : List stack_el}
    (hTL : fetchTL (stackLeft s.stck s.buf_ptr) = some (h, n))
    (htag : SegmentTag td s.stck.length h.tag) (hadd : addStackEl s.stck n h.len = some stck)
    (hs' : (if h.constr then some (pushed td tag_mode s stck n)
      else fillStackEl (pushed td tag_mode s stck n)) = some s') :
    s'.total = s.total ∧ ∃ sel, s'.stck = sel :: s.stck ∧ FrameInv sel ∧
      ∀ k after, ClosesFrame td tag_mode s.stck.length sel s'.buf_ptr k after →
        ∃ e ke b k', Segments td tag_mode s.stck.length ke [e] ∧ s.buf_ptr = e ++ b ∧
          join s'.st k = join s.st (join ke k') ∧ after e.length b k' := by
  obtain ⟨hdr, u, hLeft, rfl, hexact⟩ := fetchTL_stable.split hTL
  obtain ⟨v, hbuf⟩ := stackLeft_prefix s.stck s.buf_ptr
  rw [hLeft, List.append_assoc] at hbuf
  obtain ⟨left, hroom, rfl⟩ := addStackEl_eq_some.mp hadd
  have hdrop : s.buf_ptr.drop hdr.length = u ++ v := by rw [hbuf, List.drop_left]
  have htake : s.buf_ptr.take hdr.length = hdr := by rw [hbuf, List.take_left]
  have hst : (pushed td tag_mode s (⟨left, hdr.length, h.len.isNone⟩ :: s.stck) hdr.length).st
      = join s.st (kept td tag_mode s.stck.length hdr) := by
    rw [pushed, htake]
    exact keepTL_eq_join td tag_mode _ _ _
  have hlen : s.buf_ptr.length = hdr.length + (u ++ v).length := by
    rw [hbuf, List.length_append]
  cases hconstr : h.constr with
  | true =>
      -- a constructed segment stays on the stack until its segments are read
      rw [hconstr, if_pos rfl, Option.some.injEq] at hs'
      subst hs'
      refine ⟨?_, _, rfl, hroom.frameInv, ?_⟩
      · show s.consumed_myself + hdr.length + (s.buf_ptr.drop hdr.length).length
          = s.consumed_myself + s.buf_ptr.length
        rw [hdrop, hlen, Nat.add_assoc]
      · intro k after hclose
        change ClosesFrame _ _ _ _ (s.buf_ptr.drop hdr.length) _ _ at hclose
        rw [hdrop] at hclose
        obtain ⟨e, ke, b', k', hseg, he, hk, hafter⟩ := element_of_closes hexact hconstr htag
          (fun len hsome => Room.some_eq (hsome ▸ hroom)) hclose
        refine ⟨e, ke, b', k', hseg, hbuf.trans he, ?_, hafter⟩
        rw [hst, join_assoc, hk]
  | false =>
      -- a primitive one is complete with its contents
      rw [hconstr, if_neg Bool.false_ne_true] at hs'
      obtain ⟨_, _, -, -, hfetch, -⟩ := fetchTL_eq_some.mp hTL
      rw [hconstr] at hfetch
      obtain ⟨l, hl⟩ := ber_fetch_length_primitive hfetch
      have hleft : left = l := Room.some_eq (hl ▸ hroom)
      obtain ⟨c, t, hc, rfl, rfl⟩ := (fillStackEl_eq_some (s := pushed td tag_mode s _ _)
        rfl hleft).mp hs'
      change s.buf_ptr.drop hdr.length = c ++ t at hc
      rw [hdrop] at hc
      refine ⟨?_, _, rfl, ⟨show -1 ≤ (0 : Int) by omega, ?_⟩, ?_⟩
      · show s.consumed_myself + hdr.length + c.length + t.length
          = s.consumed_myself + s.buf_ptr.length
        rw [hlen, hc, List.length_append]
        omega
      · intro hneg
        change (0 : Int) = -1 at hneg
        omega
      · intro k after hclose
        change ClosesFrame _ _ _ ⟨0, hdr.length + c.length, h.len.isNone⟩ t _ _ at hclose
        rw [hl] at hclose
        have hafter := closesFrame_done.mp hclose
        refine ⟨hdr ++ c, _, t, k, .primitive (c := c) ?_ htag .nil,
          ?_, ?_, ?_⟩
        · have hsame : h = ⟨h.tag, false, some c.length⟩ := by
            rw [← hconstr, ← hl]
          rw [← hsame]
          exact hexact
        · rw [hbuf, hc, List.append_assoc]
        · rw [hst, join_none, join_assoc, join_assoc, join_assoc]
        · rw [List.length_append, Int.natCast_add]
          exact hafter

theorem popped_frameInv {prev : stack_el} {got : Int} (h : FrameInv prev)
    (hroom : prev.left = -1 ∨ got ≤ prev.left) : FrameInv (popped prev got) := by
  rw [FrameInv, popped]
  by_cases hfree : prev.left = -1
  · rw [if_pos hfree]
    exact ⟨Int.le_refl _, fun _ => h.2 hfree⟩
  · have hle := h.1
    rw [if_neg hfree]
    refine ⟨?_, fun hneg => ?_⟩
    · show -1 ≤ prev.left - got
      omega
    · change prev.left - got = -1 at hneg
      omega

/-- What is found in what is left to an element fits in it. -/
theorem stackLeft_room {sel : stack_el} {below : List stack_el} {b e u : ByteStream}
    (h : FrameInv sel) (hLeft : stackLeft (sel :: below) b = e ++ u) :
    sel.left = -1 ∨ (e.length : Int) ≤ sel.left := by
  rw [stackLeft] at hLeft
  by_cases hneg : sel.left < 0
  · have hlow := h.1
    exact Or.inl (by omega)
  · rw [if_neg hneg] at hLeft
    have hlen := congrArg List.length hLeft
    rw [List.length_take, List.length_append] at hlen
    exact Or.inr (by omega)

theorem not_eatsEoc {s : OctetStringState} {sel : stack_el} {below : List stack_el}
    {e b : ByteStream} (hstck : s.stck = sel :: below) (hnot : ¬ EatsEoc s) (he : 2 ≤ e.length)
    (hbuf : s.buf_ptr = e ++ b) : sel.want_nulls = true → isEndOfContents e = false := by
  intro hnulls
  rw [← Bool.not_eq_true, ← isEndOfContents_append he b, ← hbuf]
  exact fun h0 => hnot ⟨sel, below, hstck, hnulls, h0⟩

/-- **What the rounds use completes every element on the stack.** -/
theorem stackRounds_sound : ∀ (fuel : Nat) (s r : OctetStringState) (sel : stack_el)
    (below : List stack_el), s.stck = sel :: below → (∀ f ∈ s.stck, FrameInv f) →
    stackRounds td tag_mode fuel s = some r →
      ∃ k t, Closes td tag_mode below sel s.buf_ptr k t ∧ r.st = join s.st k ∧
        r.consumed_myself + t.length = s.total := by
  intro fuel
  induction fuel with
  | zero =>
      intro s r sel below _ _ h
      cases h
  | succ fuel ih =>
      intro s r sel below hstck hinv h
      obtain ⟨⟨s', finished⟩, hround, h⟩ := Option.bind_eq_some_iff.mp h
      dsimp only at h
      obtain ⟨hsel, hbelow⟩ := List.forall_mem_cons.mp (hstck ▸ hinv)
      rw [stackRound] at hround
      simp only [hstck] at hround
      by_cases hdone : sel.left ≤ 0 ∧ sel.want_nulls = false
      · -- the element on top is complete
        have hzero : sel = ⟨0, sel.got, false⟩ := by
          obtain ⟨left, got, want_nulls⟩ := sel
          obtain ⟨hle, hno⟩ := hdone
          obtain rfl : want_nulls = false := hno
          have hlow : -1 ≤ left := hsel.1
          have hfree : left ≠ -1 := fun h0 => Bool.false_ne_true (hsel.2 h0)
          change left ≤ 0 at hle
          obtain rfl : left = 0 := by omega
          rfl
        rw [if_pos hdone] at hround
        rw [hzero]
        cases below with
        | nil =>
            obtain ⟨rfl, rfl⟩ : _ = s' ∧ true = finished := Prod.mk.inj (Option.some.inj hround)
            rw [if_pos rfl] at h
            obtain rfl := Option.some.inj h
            exact ⟨none, s.buf_ptr, closesFrame_done.mpr ⟨rfl, rfl⟩, (join_none _).symm, rfl⟩
        | cons prev below =>
            obtain ⟨prev', hpop, heq⟩ := Option.bind_eq_some_iff.mp hround
            obtain ⟨rfl, rfl⟩ : _ = s' ∧ false = finished := Prod.mk.inj (Option.some.inj heq)
            obtain ⟨hroom, rfl⟩ := popStackEl_eq_some.mp hpop
            rw [if_neg Bool.false_ne_true] at h
            obtain ⟨hprev, hbelow⟩ := List.forall_mem_cons.mp hbelow
            obtain ⟨k, t, hclose, hst, htotal⟩ := ih _ _ _ _ rfl
              (List.forall_mem_cons.mpr ⟨popped_frameInv hprev hroom, hbelow⟩) h
            exact ⟨k, t, closesFrame_done.mpr ⟨hroom, hclose⟩, hst, htotal⟩
      · rw [if_neg hdone] at hround
        obtain ⟨s'', hfetch, heq⟩ := Option.map_eq_some_iff.mp hround
        obtain ⟨rfl, rfl⟩ : s'' = s' ∧ false = finished := Prod.mk.inj heq
        rw [if_neg Bool.false_ne_true] at h
        obtain ⟨tl, n, hTL, hcase⟩ := fetchStackEl_eq_some.mp hfetch
        rcases hcase with ⟨sel', below', hstck', hnulls, heoc, rfl⟩ |
          ⟨hnot, htag, stck, hadd, hs'⟩
        · -- the end-of-contents octets of the element on top
          rw [hstck] at hstck' hTL
          obtain ⟨rfl, rfl⟩ := List.cons.inj hstck'
          obtain ⟨b, hbuf⟩ := isEndOfContents_iff.mp heoc
          obtain ⟨hdr, u, hLeft, -, hexact⟩ := fetchTL_stable.split hTL
          have hroom := stackLeft_room hsel hLeft
          have htwo := IsTL.two_le hexact
          have hframe : FrameInv ⟨0, sel.got + 2, false⟩ := by
            refine ⟨show -1 ≤ (0 : Int) by omega, fun hneg => ?_⟩
            change (0 : Int) = -1 at hneg
            omega
          obtain ⟨k, t, hclose, hst, htotal⟩ := ih _ _ _ _ rfl
            (List.forall_mem_cons.mpr ⟨hframe, hbelow⟩) h
          obtain ⟨after, hiff⟩ := closes_iff td tag_mode below t
          rw [eaten, hbuf] at hclose
          refine ⟨join (kept td tag_mode below.length [0, 0]) k, t, ?_, ?_, ?_⟩
          · rw [hbuf]
            refine (hiff _ _ _).mpr (closesFrame_eoc hnulls ?_ ((hiff _ _ _).mp hclose))
            exact hroom.imp id fun hle => by omega
          · rw [hst, eaten, keepTL_eq_join, join_assoc]
          · rw [htotal, OctetStringState.total, OctetStringState.total, eaten, hbuf]
            show s.consumed_myself + 2 + b.length = s.consumed_myself + (b.length + 2)
            omega
        · -- the tag and the length of an element
          obtain ⟨htotal', new, hstck', hframe, hopen⟩ := pushed_sound hTL htag hadd hs'
          obtain ⟨k, t, hclose, hst, htotal⟩ := ih _ _ _ _ hstck'
            (hstck' ▸ List.forall_mem_cons.mpr ⟨hframe, hinv⟩) h
          rw [hstck] at hclose hopen
          obtain ⟨e, ke, b, k', hseg, hbuf, hk, hroom, hclose⟩ := hopen _ _ hclose
          obtain ⟨after, hiff⟩ := closes_iff td tag_mode below t
          refine ⟨join ke k', t, ?_, hst.trans hk, htotal.trans htotal'⟩
          rw [hbuf]
          have htwo := (hseg.isNested e (List.mem_singleton_self e)).isTlv.two_le
          exact (hiff _ _ _).mpr (closesFrame_cons hseg (not_eatsEoc hstck hnot htwo hbuf) hroom
            hsel.2 ((hiff _ _ _).mp hclose))

/-! ## Every segment is read -/

theorem Segments.cons_inv {level : Nat} {k : Option ByteStream} {e : ByteStream}
    {es : List ByteStream} (h : Segments td tag_mode level k (e :: es)) :
    ∃ ke k', Segments td tag_mode level ke [e] ∧ Segments td tag_mode level k' es ∧
      k = join ke k' := by
  cases h with
  | @primitive _ _ _ _ k' _ hTL htag hes =>
      refine ⟨_, k', .primitive hTL htag .nil, hes, ?_⟩
      rw [join_none]
  | @definite _ _ _ _ k' _ _ hTL htag hes' hes =>
      refine ⟨_, k', .definite hTL htag hes' .nil, hes, ?_⟩
      rw [join_none]
  | @indefinite _ _ _ _ k' _ _ hTL htag hes' heoc hes =>
      refine ⟨_, k', .indefinite hTL htag hes' heoc .nil, hes, ?_⟩
      rw [join_none]

/-- What completes an element is nothing, its end-of-contents octets, or a segment
    and what completes it behind. -/
theorem closesFrame_cases {level : Nat} {sel : stack_el} {b : ByteStream}
    {k : Option ByteStream} {after : Int → ByteStream → Option ByteStream → Prop}
    (hsel : FrameInv sel) (h : ClosesFrame td tag_mode level sel b k after) :
    (sel = ⟨0, sel.got, false⟩ ∧ after sel.got b k) ∨
      (sel.want_nulls = true ∧ (sel.left = -1 ∨ 2 ≤ sel.left) ∧ ∃ b' k', b = 0 :: 0 :: b' ∧
        k = join (kept td tag_mode level [0, 0]) k' ∧
        ClosesFrame td tag_mode level ⟨0, sel.got + 2, false⟩ b' k' after) ∨
      ∃ e ke b' k', Segments td tag_mode (level + 1) ke [e] ∧ b = e ++ b' ∧ k = join ke k' ∧
        (sel.want_nulls = true → isEndOfContents e = false) ∧
        (sel.left = -1 ∨ (e.length : Int) ≤ sel.left) ∧
        ClosesFrame td tag_mode level (popped sel e.length) b' k' after := by
  obtain ⟨es, ks, b', k', hes, rfl, heoc, hfits, rfl, hafter⟩ := h
  obtain ⟨left, got, want_nulls⟩ := sel
  cases es with
  | nil =>
      obtain ⟨-, rfl⟩ := hes.eq_nil rfl
      cases want_nulls with
      | false =>
          have hleft : left = 0 := hfits.1 rfl
          subst hleft
          refine Or.inl ⟨rfl, ?_⟩
          rw [none_join]
          change after (got + (0 : Nat) + (0 : Nat)) b' k' at hafter
          rw [Int.natCast_zero, Int.add_zero, Int.add_zero] at hafter
          exact (none_join k').symm ▸ hafter
      | true =>
          refine Or.inr (Or.inl ⟨rfl, (hfits.2 rfl).imp id fun h => ?_, b', k', rfl, ?_, ?_⟩)
          · simpa using h
          · rw [none_join]
            rfl
          · refine closesFrame_done.mpr ?_
            change after (got + (0 : Nat) + (2 : Nat)) b' k' at hafter
            rwa [Int.natCast_zero, Int.add_zero] at hafter
  | cons e es =>
      obtain ⟨ke, k'', he, hes', rfl⟩ := hes.cons_inv
      rw [List.flatten_cons, List.length_append] at hfits
      have hroom : left = -1 ∨ ((e.length + es.flatten.length : Nat) : Int) ≤ left := by
        cases want_nulls with
        | false => exact Or.inr (Int.le_of_eq (hfits.1 rfl).symm)
        | true =>
            refine (hfits.2 rfl).imp id fun h => ?_
            change ((e.length + es.flatten.length : Nat) : Int) + 2 ≤ left at h
            omega
      refine Or.inr (Or.inr ⟨e, ke, _, _, he, ?_, join_assoc _ _ _, ?_, ?_, es, k'', b', k',
        hes', rfl, ?_, ⟨?_, ?_⟩, rfl, ?_⟩)
      · rw [List.flatten_cons, List.append_assoc]
        rfl
      · exact fun hnulls => heoc hnulls e List.mem_cons_self
      · refine hroom.imp id fun h => ?_
        show (e.length : Int) ≤ left
        omega
      · exact fun hnulls e' he' => heoc hnulls e' (List.mem_cons_of_mem e he')
      · intro hno
        have hleft : left = (e.length + es.flatten.length : Nat) := hfits.1 hno
        show (if left = -1 then -1 else left - e.length) = _
        rw [if_neg (by omega)]
        omega
      · intro hnulls
        show (if left = -1 then -1 else left - (e.length : Int)) = -1 ∨
          _ ≤ (if left = -1 then -1 else left - (e.length : Int))
        by_cases hfree : left = -1
        · rw [if_pos hfree]
          exact Or.inl rfl
        · rw [if_neg hfree]
          have hle : ((e.length + es.flatten.length : Nat) : Int) + 2 ≤ left :=
            (hfits.2 hnulls).resolve_left hfree
          exact Or.inr (by omega)
      · have hgot : got + ((e :: es).flatten.length : Int)
              + (nulls ⟨left, got, want_nulls⟩).length
            = (popped ⟨left, got, want_nulls⟩ e.length).got + es.flatten.length
              + (nulls (popped ⟨left, got, want_nulls⟩ e.length)).length := by
          rw [List.flatten_cons, List.length_append]
          show _ = got + e.length + _ + ((nulls ⟨left, got, want_nulls⟩).length : Int)
          omega
        exact hgot ▸ hafter

/-- The room there is for a segment in the element around it is enough for its tag
    and length. -/
theorem exists_room {stck : List stack_el} {n : Nat} {len : Option Nat}
    (h : ∀ prev ∈ stck.head?, prev.left = -1 ∨ (n : Int) + len.getD 0 ≤ prev.left) :
    ∃ left, Room stck n len left := by
  cases stck with
  | nil => exact ⟨_, rfl⟩
  | cons prev below =>
      by_cases hfree : prev.left = -1
      · exact ⟨_, Or.inl ⟨hfree, rfl⟩⟩
      · exact ⟨_, Or.inr ⟨hfree, (h prev rfl).resolve_left hfree, rfl⟩⟩

/-- The tag and the length of a segment, what is behind them, and what is kept. -/
theorem Segments.element {level : Nat} {ke : Option ByteStream} {e : ByteStream}
    (h : Segments td tag_mode level ke [e]) :
    ∃ tl hdr rest, e = hdr ++ rest ∧ IsTL tl hdr ∧ SegmentTag td level tl.tag ∧
      tl.len.getD 0 ≤ rest.length ∧
      ((tl.constr = false ∧ tl.len = some rest.length ∧
          ke = join (kept td tag_mode level hdr) (contentsOf rest)) ∨
        (tl.constr = true ∧ ∀ left b k after,
          (tl.len.elim (left = -1 ∨ (rest.length : Int) ≤ left) fun l => left = l) →
          after e.length b k → ∃ k', join (kept td tag_mode level hdr) k' = join ke k ∧
            ClosesFrame td tag_mode level ⟨left, hdr.length, tl.len.isNone⟩ (rest ++ b) k'
              after)) := by
  cases h with
  | @primitive _ _ hdr c _ _ hTL htag hes =>
      cases hes with
      | nil =>
          refine ⟨_, hdr, c, rfl, hTL, htag, Nat.le_refl _, Or.inl ⟨rfl, rfl, ?_⟩⟩
          rw [join_none]
  | @definite _ _ hdr k' _ es' _ hTL htag hes' hes =>
      cases hes with
      | nil =>
          refine ⟨_, hdr, es'.flatten, rfl, hTL, htag, Nat.le_refl _, Or.inr ⟨rfl, ?_⟩⟩
          intro left b k after hleft hafter
          obtain rfl : left = es'.flatten.length := hleft
          refine ⟨join k' k, ?_, es', k', b, k, hes', rfl, ?_, ⟨fun _ => rfl, ?_⟩, ?_, ?_⟩
          · rw [join_none, join_assoc]
          · intro h
            cases h
          · intro h
            cases h
          · show join k' k = join k' (join none k)
            rw [none_join]
          · rw [List.length_append, Int.natCast_add] at hafter
            show after (hdr.length + es'.flatten.length + (0 : Nat)) b k
            rw [Int.natCast_zero, Int.add_zero]
            exact hafter
  | @indefinite _ _ hdr k' _ es' _ hTL htag hes' heoc hes =>
      cases hes with
      | nil =>
          refine ⟨_, hdr, es'.flatten ++ [0, 0], List.append_assoc _ _ _, hTL, htag,
            Nat.zero_le _, Or.inr ⟨rfl, ?_⟩⟩
          intro left b k after hleft hafter
          refine ⟨join k' (join (kept td tag_mode level [0, 0]) k), ?_, es', k', b, k, hes', ?_,
            fun _ => heoc, ⟨?_, ?_⟩, rfl, ?_⟩
          · rw [join_none, join_assoc, join_assoc]
          · rw [List.append_assoc]
            rfl
          · intro h
            cases h
          · intro _
            rw [List.length_append] at hleft
            exact hleft.imp id fun h => by simpa using h
          · have hgot : (hdr.length : Int) + es'.flatten.length + ([0, 0] : ByteStream).length
                = ((hdr ++ es'.flatten ++ [0, 0]).length : Nat) := by
              rw [List.length_append, List.length_append]
              omega
            exact hgot.symm ▸ hafter

/-- There is room for `n` octets in the element on top. -/
def HasRoom (stck : List stack_el) (n : Nat) : Prop :=
  ∀ prev ∈ stck.head?, prev.left = -1 ∨ (n : Int) ≤ prev.left

theorem stackLeft_append {stck : List stack_el} {e b : ByteStream} (h : HasRoom stck e.length) :
    ∃ u, stackLeft stck (e ++ b) = e ++ u := by
  cases stck with
  | nil => exact ⟨b, rfl⟩
  | cons prev below =>
      rw [stackLeft]
      by_cases hneg : prev.left < 0
      · exact ⟨b, if_pos hneg⟩
      · have hle := (h prev rfl).resolve_left (by omega)
        refine ⟨b.take (prev.left.toNat - e.length), ?_⟩
        rw [if_neg hneg, List.take_append, List.take_of_length_le (by omega)]

/-- What the room around an element leaves for its contents. -/
theorem Room.contents {stck : List stack_el} {n m : Nat} {len : Option Nat} {left : Int}
    (h : Room stck n len left) (hroom : HasRoom stck (n + m)) :
    len.elim (left = -1 ∨ (m : Int) ≤ left) fun l => left = l := by
  cases len with
  | some l => exact h.some_eq
  | none =>
      cases stck with
      | nil => exact Or.inl h
      | cons prev below =>
          rcases h with ⟨-, hleft⟩ | ⟨hno, -, hleft⟩
          · exact Or.inl hleft
          · have hle := (hroom prev rfl).resolve_left hno
            change left = prev.left - n at hleft
            refine Or.inr ?_
            omega

/-- **The round at a segment opens an element**, which what is behind completes. -/
theorem pushed_complete {s : OctetStringState} {e b : ByteStream} {ke : Option ByteStream}
    (hseg : Segments td tag_mode s.stck.length ke [e]) (hbuf : s.buf_ptr = e ++ b)
    (hroom : HasRoom s.stck e.length) (hnot : ¬ EatsEoc s) :
    ∃ s' sel, fetchStackEl td tag_mode s = some s' ∧ s'.stck = sel :: s.stck ∧ FrameInv sel ∧
      s'.total = s.total ∧ s'.buf_ptr.length + 2 ≤ s.buf_ptr.length ∧
      ∀ k after, after (e.length : Int) b k → ∃ k', join s'.st k' = join s.st (join ke k) ∧
        ClosesFrame td tag_mode s.stck.length sel s'.buf_ptr k' after := by
  obtain ⟨tl, hdr, rest, rfl, hTL, htag, hlen, hcase⟩ := hseg.element
  obtain ⟨u, hu⟩ := stackLeft_append (b := b) hroom
  rw [← hbuf, List.append_assoc] at hu
  have hfetch : fetchTL (stackLeft s.stck s.buf_ptr) = some (tl, hdr.length) := by
    rw [hu]
    exact fetchTL_stable.complete hTL _
  rw [List.length_append] at hroom
  obtain ⟨left, hleft⟩ : ∃ left, Room s.stck hdr.length tl.len left :=
    exists_room fun prev hprev => (hroom prev hprev).imp id fun h => by omega
  rw [List.append_assoc] at hbuf
  have htwo := hTL.two_le
  have hbuflen : s.buf_ptr.length = hdr.length + (rest ++ b).length := by
    rw [hbuf, List.length_append]
  have hst : keepTL td tag_mode s.stck.length s.st (s.buf_ptr.take hdr.length)
      = join s.st (kept td tag_mode s.stck.length hdr) := by
    rw [hbuf, List.take_left]
    exact keepTL_eq_join td tag_mode _ _ _
  have hadd := addStackEl_eq_some.mpr ⟨left, hleft, rfl⟩
  rcases hcase with ⟨hconstr, hl, rfl⟩ | ⟨hconstr, hclose⟩
  · have hleft : left = rest.length := Room.some_eq (hl ▸ hleft)
    have hfill := (fillStackEl_eq_some (s := pushed td tag_mode s
      (⟨left, hdr.length, tl.len.isNone⟩ :: s.stck) hdr.length) rfl hleft).mpr
      ⟨rest, b, by rw [pushed, hbuf, List.drop_left], rfl, rfl⟩
    have hround := fetchStackEl_eq_some.mpr ⟨tl, hdr.length, hfetch, Or.inr ⟨hnot, htag, _, hadd,
      by rw [hconstr, if_neg Bool.false_ne_true]; exact hfill⟩⟩
    refine ⟨_, _, hround, rfl, ⟨show -1 ≤ (0 : Int) by omega, ?_⟩, ?_, ?_, ?_⟩
    · intro hneg
      change (0 : Int) = -1 at hneg
      omega
    · show s.consumed_myself + hdr.length + rest.length + b.length
        = s.consumed_myself + s.buf_ptr.length
      rw [hbuflen, List.length_append]
      omega
    · rw [hbuflen, List.length_append]
      show b.length + 2 ≤ _
      omega
    · intro k after hafter
      refine ⟨k, ?_, ?_⟩
      · show join (join (keepTL td tag_mode s.stck.length s.st (s.buf_ptr.take hdr.length))
          (contentsOf rest)) k = _
        rw [hst, join_assoc, join_assoc, join_assoc]
      · show ClosesFrame _ _ _ ⟨0, hdr.length + rest.length, tl.len.isNone⟩ b _ _
        rw [hl]
        refine closesFrame_done.mpr ?_
        rw [List.length_append, Int.natCast_add] at hafter
        exact hafter
  · have hround : fetchStackEl td tag_mode s = some (pushed td tag_mode s
        (⟨left, hdr.length, tl.len.isNone⟩ :: s.stck) hdr.length) :=
      fetchStackEl_eq_some.mpr ⟨tl, hdr.length, hfetch, Or.inr ⟨hnot, htag, _, hadd,
        by rw [hconstr, if_pos rfl]⟩⟩
    refine ⟨_, _, hround, rfl, hleft.frameInv, ?_, ?_, ?_⟩
    · show s.consumed_myself + hdr.length + (s.buf_ptr.drop hdr.length).length
        = s.consumed_myself + s.buf_ptr.length
      rw [List.length_drop, hbuflen]
      omega
    · show (s.buf_ptr.drop hdr.length).length + 2 ≤ _
      rw [List.length_drop, hbuflen]
      omega
    · intro k after hafter
      obtain ⟨k', hk, hclose⟩ := hclose left b k after (hleft.contents hroom) hafter
      refine ⟨k', ?_, ?_⟩
      · show join (keepTL td tag_mode s.stck.length s.st (s.buf_ptr.take hdr.length)) k' = _
        rw [hst, join_assoc, hk]
      · show ClosesFrame _ _ _ _ (s.buf_ptr.drop hdr.length) _ _
        rw [hbuf, List.drop_left]
        exact hclose

/-- **The rounds complete every element on the stack when there are the octets for
    it.**  Each but the last uses two octets or takes an element off the stack. -/
theorem stackRounds_complete : ∀ (fuel : Nat) (s : OctetStringState) (sel : stack_el)
    (below : List stack_el) (k : Option ByteStream) (t : ByteStream), s.stck = sel :: below →
    (∀ f ∈ s.stck, FrameInv f) → Closes td tag_mode below sel s.buf_ptr k t →
    2 * s.buf_ptr.length + s.stck.length ≤ fuel →
      ∃ r, stackRounds td tag_mode fuel s = some r ∧ r.st = join s.st k ∧
        r.consumed_myself + t.length = s.total := by
  intro fuel
  induction fuel with
  | zero =>
      intro s sel below k t hstck _ _ hfuel
      rw [hstck, List.length_cons] at hfuel
      omega
  | succ fuel ih =>
      intro s sel below k t hstck hinv hclose hfuel
      obtain ⟨hsel, hbelow⟩ := List.forall_mem_cons.mp (hstck ▸ hinv)
      have hstcklen : s.stck.length = below.length + 1 := by rw [hstck, List.length_cons]
      obtain ⟨after, hiff⟩ := closes_iff td tag_mode below t
      rcases closesFrame_cases hsel ((hiff _ _ _).mp hclose) with ⟨hzero, -⟩ |
        ⟨hnulls, hroom, b, k', hbuf, rfl, hframe⟩ | ⟨e, ke, b, k', hseg, hbuf, rfl, heoc, hroom, hframe⟩
      · -- the element on top is complete
        rw [hzero] at hclose
        have hdone : sel.left ≤ 0 ∧ sel.want_nulls = false := by
          rw [hzero]
          exact ⟨Int.le_refl 0, rfl⟩
        cases below with
        | nil =>
            obtain ⟨rfl, rfl⟩ := closesFrame_done.mp hclose
            refine ⟨{ s with stck := [] }, ?_, (join_none _).symm, rfl⟩
            rw [stackRounds, stackRound]
            simp only [hstck, if_pos hdone, Option.bind_eq_bind, Option.bind_some, if_true]
        | cons prev below =>
            obtain ⟨hroom, hclose⟩ := closesFrame_done.mp hclose
            obtain ⟨hprev, hbelow⟩ := List.forall_mem_cons.mp hbelow
            have hpop := popStackEl_eq_some.mpr ⟨hroom, rfl⟩
            rw [List.length_cons] at hstcklen
            have hfuel' : 2 * s.buf_ptr.length + (below.length + 1) ≤ fuel := by omega
            obtain ⟨r, hrun, hr⟩ := ih { s with stck := popped prev sel.got :: below } _ _ k t rfl
              (List.forall_mem_cons.mpr ⟨popped_frameInv hprev hroom, hbelow⟩) hclose hfuel'
            refine ⟨r, ?_, hr⟩
            rw [stackRounds, stackRound]
            simp only [hstck, if_pos hdone, Option.bind_eq_bind, Option.bind_some, hpop]
            exact hrun
      · -- its end-of-contents octets are next
        have hnot : ¬ (sel.left ≤ 0 ∧ sel.want_nulls = false) := fun h0 => by
          rw [h0.2] at hnulls
          cases hnulls
        have hheoc : isEndOfContents s.buf_ptr = true := isEndOfContents_iff.mpr ⟨b, hbuf⟩
        have hspace : HasRoom s.stck 2 := by
          intro prev hprev
          rw [hstck] at hprev
          obtain rfl := Option.some.inj hprev
          exact hroom
        obtain ⟨u, hLeft⟩ := stackLeft_append (e := [0, 0]) (b := b) hspace
        have hTL : fetchTL (stackLeft s.stck s.buf_ptr) = some (⟨0, false, some 0⟩, 2) := by
          rw [hbuf]
          exact hLeft ▸ rfl
        have hfetch : fetchStackEl td tag_mode s = some (eaten td tag_mode s sel below) :=
          fetchStackEl_eq_some.mpr ⟨_, _, hTL, Or.inl ⟨sel, below, hstck, hnulls, hheoc, rfl⟩⟩
        have hframeInv : FrameInv ⟨0, sel.got + 2, false⟩ := by
          refine ⟨show -1 ≤ (0 : Int) by omega, fun hneg => ?_⟩
          change (0 : Int) = -1 at hneg
          omega
        have hdrop : s.buf_ptr.drop 2 = b := by
          rw [hbuf]
          rfl
        have hlen : s.buf_ptr.length = b.length + 2 := by rw [hbuf]; rfl
        have hclose' : Closes td tag_mode below ⟨0, sel.got + 2, false⟩ (s.buf_ptr.drop 2) k' t := by
          rw [hdrop]
          exact (hiff _ _ _).mpr hframe
        have hfuel' : 2 * (s.buf_ptr.drop 2).length + (below.length + 1) ≤ fuel := by
          rw [hdrop]
          omega
        obtain ⟨r, hrun, hst, htotal⟩ := ih (eaten td tag_mode s sel below) _ _ k' t rfl
          (List.forall_mem_cons.mpr ⟨hframeInv, hbelow⟩) hclose' hfuel'
        refine ⟨r, ?_, ?_, ?_⟩
        · rw [stackRounds, stackRound]
          simp only [hstck, if_neg hnot, Option.bind_eq_bind, hfetch, Option.map_some,
            Option.bind_some]
          exact hrun
        · rw [hst, eaten, keepTL_eq_join, join_assoc]
        · rw [htotal, OctetStringState.total, OctetStringState.total, eaten, hdrop, hlen]
          show s.consumed_myself + 2 + b.length = s.consumed_myself + (b.length + 2)
          omega
      · -- a segment is next
        have htwo := (hseg.isNested e (List.mem_singleton_self e)).isTlv.two_le
        have hnot : ¬ (sel.left ≤ 0 ∧ sel.want_nulls = false) := by
          rintro ⟨hle, hno⟩
          rcases hroom with hfree | hroom
          · rw [hsel.2 hfree] at hno
            cases hno
          · omega
        have hnot' : ¬ EatsEoc s := by
          rintro ⟨sel', below', hstck', hnulls, heoc'⟩
          rw [hstck] at hstck'
          obtain ⟨rfl, rfl⟩ := List.cons.inj hstck'
          rw [hbuf, isEndOfContents_append htwo, heoc hnulls] at heoc'
          cases heoc'
        have hhas : HasRoom s.stck e.length := by
          intro prev hprev
          rw [hstck] at hprev
          obtain rfl := Option.some.inj hprev
          exact hroom
        have hseg' : Segments td tag_mode s.stck.length ke [e] := by
          rw [hstck]
          exact hseg
        obtain ⟨s', new, hfetch, hstck', hnew, htotal, hless, hopen⟩ :=
          pushed_complete hseg' hbuf hhas hnot'
        obtain ⟨k'', hk, hclose'⟩ := hopen k' (fun got b' k' =>
          (sel.left = -1 ∨ got ≤ sel.left) ∧ Closes td tag_mode below (popped sel got) b' k' t)
          ⟨hroom, (hiff _ _ _).mpr hframe⟩
        rw [hstck] at hclose'
        obtain ⟨r, hrun, hst, htotal'⟩ := ih s' new (sel :: below) k'' t (hstck ▸ hstck')
          (hstck' ▸ List.forall_mem_cons.mpr ⟨hnew, hinv⟩) hclose'
          (by rw [hstck', List.length_cons]; omega)
        refine ⟨r, ?_, hst.trans hk, htotal'.trans htotal⟩
        rw [stackRounds, stackRound]
        simp only [hstck, if_neg hnot, Option.bind_eq_bind, hfetch, Option.map_some,
          Option.bind_some]
        exact hrun

/-! ## The decoder -/

variable (td tag_mode) in
/-- **The octets `p` are a string, of which `k` is kept**: the contents behind one
    tag, or those of the segments that a constructed string is made of. -/
inductive IsString (P : ber_tlv_tag_t → Prop) : Option ByteStream → ByteStream → Prop where
  | primitive {tag : ber_tlv_tag_t} {hdr c : ByteStream}
      (hTL : IsTL ⟨tag, false, some c.length⟩ hdr) (hP : P tag) :
      IsString P (join (kept td tag_mode 0 hdr) (some c)) (hdr ++ c)
  | constructed {tag : ber_tlv_tag_t} {len : Option Nat} {hdr rest : ByteStream}
      {k : Option ByteStream} (hTL : IsTL ⟨tag, true, len⟩ hdr) (hP : P tag)
      (hseg : Segments td tag_mode 0 k [hdr ++ rest]) : IsString P k (hdr ++ rest)

theorem IsString.isNested {P : ber_tlv_tag_t → Prop} {k : Option ByteStream} {p : ByteStream}
    (h : IsString td tag_mode P k p) : IsNested p := by
  cases h with
  | primitive hTL _ => exact .primitive hTL
  | constructed _ _ hseg => exact hseg.isNested _ (List.mem_singleton_self _)

/-- The rounds of a constructed string, from the first tag on. -/
private theorem stackRounds_start {b : ByteStream} {k : Option ByteStream} {n : Nat} :
    ((stackRounds td tag_mode (2 * b.length + 2)
        { stck := [], buf_ptr := b, consumed_myself := 0, st := none }).bind fun s =>
      some (s.st, s.consumed_myself)) = some (k, n) ↔
      ∃ p t, b = p ++ t ∧ p.length = n ∧ Segments td tag_mode 0 k [p] := by
  have hstart : ¬ EatsEoc { stck := [], buf_ptr := b, consumed_myself := 0, st := none } := by
    rintro ⟨sel, below, hnil, -⟩
    cases hnil
  rw [Option.bind_eq_some_iff]
  constructor
  · rintro ⟨r, hrun, heq⟩
    obtain ⟨rfl, rfl⟩ : r.st = k ∧ r.consumed_myself = n := Prod.mk.inj (Option.some.inj heq)
    obtain ⟨⟨s', finished⟩, hround, hrun⟩ := Option.bind_eq_some_iff.mp hrun
    obtain ⟨s'', hfetch, heq⟩ := Option.map_eq_some_iff.mp hround
    obtain ⟨rfl, rfl⟩ : s'' = s' ∧ false = finished := Prod.mk.inj heq
    dsimp only at hrun
    rw [if_neg Bool.false_ne_true] at hrun
    obtain ⟨tl, m, hTL, hcase⟩ := fetchStackEl_eq_some.mp hfetch
    rcases hcase with ⟨sel, below, hnil, -⟩ | ⟨-, htag, stck, hadd, hs'⟩
    · cases hnil
    · obtain ⟨htotal', new, hstck', hframe, hopen⟩ := pushed_sound hTL htag hadd hs'
      obtain ⟨k, t, hclose, hst, htotal⟩ := stackRounds_sound _ _ _ _ _ hstck'
        (hstck' ▸ List.forall_mem_singleton.mpr hframe) hrun
      obtain ⟨e, ke, b', k', hseg, hbuf, hk, rfl, rfl⟩ := hopen _ _ hclose
      rw [hst, hk, none_join, join_none]
      refine ⟨e, b', hbuf, ?_, hseg⟩
      have hlen : b.length = e.length + b'.length := by
        rw [show b = e ++ b' from hbuf, List.length_append]
      have hsum : r.consumed_myself + b'.length = 0 + b.length := htotal.trans htotal'
      omega
  · rintro ⟨p, t, rfl, rfl, hseg⟩
    have hroom : HasRoom [] p.length := by
      intro prev hprev
      cases hprev
    obtain ⟨s', new, hfetch, hstck', hnew, htotal, hless, hopen⟩ :=
      pushed_complete (s := { stck := [], buf_ptr := p ++ t, consumed_myself := 0, st := none })
        hseg rfl hroom hstart
    obtain ⟨k'', hk, hclose⟩ := hopen none (fun _ b' k' => b' = t ∧ k' = none) ⟨rfl, rfl⟩
    obtain ⟨r, hrun, hst, htotal'⟩ := stackRounds_complete (2 * (p ++ t).length + 1) s' new [] k'' t
      hstck' (hstck' ▸ List.forall_mem_singleton.mpr hnew) hclose (by
        rw [hstck', List.length_singleton]
        change _ + 2 ≤ (p ++ t).length at hless
        omega)
    refine ⟨r, ?_, ?_⟩
    · rw [stackRounds, stackRound]
      simp only [hfetch, Option.map_some, Option.bind_eq_bind, Option.bind_some]
      exact hrun
    · have hsum : r.consumed_myself + t.length = 0 + (p ++ t).length := htotal'.trans htotal
      rw [List.length_append] at hsum
      rw [Option.some.injEq, Prod.mk.injEq]
      refine ⟨?_, by omega⟩
      rw [hst, hk, none_join, join_none]

/-- What is kept of a primitive string. -/
private theorem primitive_st (hdr c : ByteStream) :
    APPEND (if td.subvariant = .ASN_OSUBV_ANY ∧ tag_mode ≠ 1 then APPEND none hdr else none) c
      = join (kept td tag_mode 0 hdr) (some c) := by
  rw [APPEND_eq_join, kept, keepTL]
  by_cases hkeep : td.subvariant = .ASN_OSUBV_ANY ∧ tag_mode ≠ 1
  · rw [if_pos hkeep, if_pos ⟨hkeep.1, Or.inl hkeep.2⟩]
  · rw [if_neg hkeep, if_neg fun h => hkeep ⟨h.1, h.2.resolve_right fun h0 => h0 rfl⟩]

/-- **`OCTET_STRING_decode_ber` takes a string off the buffer**, in whatever
    segments it comes. -/
theorem OCTET_STRING_decode_ber_recognises {P : ber_tlv_tag_t → Prop}
    (hT : Tagging td.tags tag_mode P) :
    Recognises (OCTET_STRING_decode_ber td tag_mode) (IsString td tag_mode P) := by
  refine recognises_of ?_ ?_
  · intro b k n h
    obtain ⟨rval, hcheck, h⟩ := Option.bind_eq_some_iff.mp h
    obtain ⟨⟨tag, constr, len⟩, m, hTL, hP, -, rfl⟩ :=
      (ber_check_tags_eq_some hT fun _ => rfl).mp hcheck
    dsimp only at h hP
    cases constr with
    | true =>
        rw [if_pos rfl] at h
        obtain ⟨p, t, rfl, hn, hseg⟩ := stackRounds_start.mp h
        refine ⟨p, t, rfl, hn, ?_⟩
        obtain ⟨tl, hdr, rest, rfl, hexact, -⟩ := hseg.element
        have hsame := fetchTL_stable.complete hexact (rest ++ t)
        rw [← List.append_assoc, hTL] at hsame
        obtain ⟨rfl, -⟩ := Prod.mk.inj (Option.some.inj hsame)
        exact .constructed hexact hP hseg
    | false =>
        obtain ⟨_, _, -, -, hfetch, -⟩ := fetchTL_eq_some.mp hTL
        obtain ⟨l, rfl⟩ := ber_fetch_length_primitive hfetch
        obtain ⟨hdr, u, rfl, rfl, hexact⟩ := fetchTL_stable.split hTL
        rw [if_neg Bool.false_ne_true] at h
        simp only [List.drop_left, List.take_left, Option.elim_some, Int.toNat_natCast] at h
        by_cases hshort : u.length < l
        · rw [if_pos hshort] at h
          cases h
        · rw [if_neg hshort, Option.some.injEq, Prod.mk.injEq, primitive_st] at h
          obtain ⟨rfl, rfl⟩ := h
          have hlen : (u.take l).length = l := by
            rw [List.length_take]
            omega
          refine ⟨hdr ++ u.take l, u.drop l, ?_, ?_, .primitive ?_ hP⟩
          · rw [List.append_assoc, List.take_append_drop]
          · rw [List.length_append, hlen]
          · rw [hlen]
            exact hexact
  · intro k p t h
    cases h with
    | @primitive tag hdr c hTL hP =>
        have hcheck := (ber_check_tags_eq_some hT fun _ => rfl).mpr
          ⟨_, _, fetchTL_stable.complete hTL (c ++ t), hP, Or.inl rfl, rfl⟩
        rw [OCTET_STRING_decode_ber, List.append_assoc, hcheck]
        simp only [Option.bind_eq_bind, Option.bind_some, List.drop_left, List.take_left,
          Option.elim_some, Int.toNat_natCast, List.length_append]
        rw [if_neg Bool.false_ne_true, if_neg (by omega), primitive_st]
    | @constructed tag len hdr rest k hTL hP hseg =>
        have hcheck := (ber_check_tags_eq_some hT fun _ => rfl).mpr
          ⟨_, _, fetchTL_stable.complete hTL (rest ++ t), hP, Or.inl rfl, rfl⟩
        rw [← List.append_assoc] at hcheck
        rw [OCTET_STRING_decode_ber, hcheck]
        exact stackRounds_start.mpr ⟨_, t, rfl, rfl, hseg⟩

theorem OCTET_STRING_decode_ber_decodesNested {P : ber_tlv_tag_t → Prop}
    (hT : Tagging td.tags tag_mode P) : DecodesNested (OCTET_STRING_decode_ber td tag_mode) :=
  decodesNested_of (OCTET_STRING_decode_ber_recognises hT) IsString.isNested

end Strings

/-! ## ANY -/

theorem kept_any (level : Nat) (hdr : ByteStream) : kept asn_DEF_ANY 0 level hdr = some hdr := by
  rw [kept, keepTL, if_pos ⟨rfl, Or.inl (by decide)⟩]
  rfl

theorem segmentTag_any (level : Nat) (tag : ber_tlv_tag_t) : SegmentTag asn_DEF_ANY level tag := by
  cases level with
  | zero => trivial
  | succ level => rfl

/-- The tag and the length, and the contents of a primitive segment. -/
theorem join_contentsOf (hdr c : ByteStream) : join (some hdr) (contentsOf c) = some (hdr ++ c) := by
  cases c with
  | nil => exact congrArg some (List.append_nil hdr).symm
  | cons oct rest => rfl

/-- What is kept of values is the values. -/
def keptOf : List ByteStream → Option ByteStream
  | [] => none
  | e :: es => some (e ++ es.flatten)

theorem join_keptOf (p : ByteStream) (es : List ByteStream) :
    join (some p) (keptOf es) = some (p ++ es.flatten) := by
  cases es with
  | nil => exact congrArg some (List.append_nil p).symm
  | cons e es => rfl

theorem segments_any_sound {level : Nat} {k : Option ByteStream} {es : List ByteStream}
    (h : Segments asn_DEF_ANY 0 level k es) : k = keptOf es ∧ ∀ e ∈ es, IsNested e := by
  induction h with
  | nil =>
      refine ⟨rfl, ?_⟩
      intro e he
      cases he
  | primitive hTL _ _ ih =>
      refine ⟨?_, List.forall_mem_cons.mpr ⟨.primitive hTL, ih.2⟩⟩
      rw [kept_any, join_contentsOf, ih.1, join_keptOf]
      rfl
  | definite hTL _ _ _ ih' ih =>
      refine ⟨?_, List.forall_mem_cons.mpr ⟨.definite hTL ih'.2, ih.2⟩⟩
      rw [kept_any, ih'.1, ih.1, join_keptOf, join_keptOf]
      rfl
  | indefinite hTL _ _ heoc _ ih' ih =>
      refine ⟨?_, List.forall_mem_cons.mpr ⟨.indefinite hTL ih'.2 heoc, ih.2⟩⟩
      rw [kept_any, kept_any, ← join_assoc, ih'.1, ih.1, join_keptOf]
      exact join_keptOf _ _

theorem segments_any_of {e : ByteStream} (h : IsNested e) :
    ∀ (level : Nat) (k : Option ByteStream) (es : List ByteStream),
      Segments asn_DEF_ANY 0 level k es →
        Segments asn_DEF_ANY 0 level (join (some e) k) (e :: es) := by
  have hlist : ∀ (es : List ByteStream), (∀ e ∈ es, ∀ level k es', Segments asn_DEF_ANY 0 level k
      es' → Segments asn_DEF_ANY 0 level (join (some e) k) (e :: es')) → ∀ level,
      Segments asn_DEF_ANY 0 level (keptOf es) es := by
    intro es
    induction es with
    | nil => exact fun _ _ => .nil
    | cons e es ih =>
        intro hes level
        obtain ⟨he, hes⟩ := List.forall_mem_cons.mp hes
        have hseg := he level _ _ (ih hes level)
        rw [join_keptOf] at hseg
        exact hseg
  induction h with
  | @primitive tag hdr c hTL =>
      intro level k es hes
      have hseg := Segments.primitive hTL (segmentTag_any level tag) hes
      rw [kept_any, join_contentsOf] at hseg
      exact hseg
  | @definite tag hdr es' hTL _ ih =>
      intro level k es hes
      have hseg := Segments.definite hTL (segmentTag_any level tag) (hlist es' ih (level + 1)) hes
      rw [kept_any, join_keptOf] at hseg
      exact hseg
  | @indefinite tag hdr es' hTL _ heoc ih =>
      intro level k es hes
      have hseg := Segments.indefinite hTL (segmentTag_any level tag) (hlist es' ih (level + 1)) heoc
        hes
      rw [kept_any, kept_any, ← join_assoc (some hdr), join_keptOf] at hseg
      exact hseg

/-- **An ANY is kept as it came**, and its constructed parts are values all the way
    down. -/
theorem ANY_decode_ber_recognises :
    Recognises (OCTET_STRING_decode_ber asn_DEF_ANY 0) fun k p => k = some p ∧ IsNested p := by
  have hiff : ∀ k p, IsString asn_DEF_ANY 0 (fun _ => True) k p ↔ k = some p ∧ IsNested p := by
    intro k p
    constructor
    · intro h
      cases h with
      | primitive hTL _ =>
          rw [kept_any]
          exact ⟨rfl, .primitive hTL⟩
      | constructed _ _ hseg =>
          obtain ⟨hk, hp⟩ := segments_any_sound hseg
          rw [hk, keptOf, List.flatten_nil, List.append_nil]
          exact ⟨rfl, hp _ (List.mem_singleton_self _)⟩
    · rintro ⟨rfl, hp⟩
      have hseg := segments_any_of hp 0 _ _ .nil
      rw [join_none] at hseg
      cases hp with
      | primitive hTL =>
          have hstr : IsString asn_DEF_ANY 0 (fun _ => True) _ _ := .primitive hTL trivial
          rw [kept_any] at hstr
          exact hstr
      | definite hTL _ => exact .constructed hTL trivial hseg
      | indefinite hTL _ _ =>
          rw [List.append_assoc] at hseg ⊢
          exact .constructed hTL trivial hseg
  intro b k n
  rw [OCTET_STRING_decode_ber_recognises .any b k n, hiff]

end ProtoVscp
