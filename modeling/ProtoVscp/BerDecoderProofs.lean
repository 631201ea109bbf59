import ProtoVscp.BerTlvProofs
import ProtoVscp.BerDecoder

/-! # What the BER decoders accept

    Each decoder recognises a format, told in terms of the formats of its parts: a
    primitive type a tag, a length and contents; a constructed type a tag, a
    length and elements (`constructed_recognises`).  Every one of them takes
    exactly one value of `IsTlv` off the buffer (`DecodesTlv`), and what it makes
    of the buffer is decided by that value.  Those that skip nothing find values
    in it all the way down (`DecodesNested`). -/

namespace ProtoVscp

open SelfDelimiting

/-- The decoder takes one value off the buffer, which decides what it gives. -/
structure DecodesTlv {α : Type} (d : ber_type_decoder_f α) : Prop where
  stable : Stable d
  isTlv : ∀ {x : α} {p : ByteStream}, Exactly d x p → IsTlv p

theorem decodesTlv_of {α : Type} {d : ber_type_decoder_f α}
    {G : α → ByteStream → Prop} (h : Recognises d G) (hG : ∀ {x p}, G x p → IsTlv p) :
    DecodesTlv d where
  stable := h.stable
  isTlv hx := hG (h.exactly_iff.mp hx)

/-- And the constructed parts of the value are values all the way down. -/
structure DecodesNested {α : Type} (d : ber_type_decoder_f α) : Prop extends DecodesTlv d where
  isNested : ∀ {x : α} {p : ByteStream}, Exactly d x p → IsNested p

theorem decodesNested_of {α : Type} {d : ber_type_decoder_f α}
    {G : α → ByteStream → Prop} (h : Recognises d G) (hG : ∀ {x p}, G x p → IsNested p) :
    DecodesNested d where
  toDecodesTlv := decodesTlv_of h fun hx => (hG hx).isTlv
  isNested hx := hG (h.exactly_iff.mp hx)

/-- What stands behind the value is not looked at. -/
theorem DecodesNested.front {α : Type} {d : ber_type_decoder_f α} (hd : DecodesNested d)
    {b : ByteStream} {x : α} {n : Nat} (h : d b = some (x, n)) :
    n ≤ b.length ∧ IsNested (b.take n) ∧ ∀ t, d (b.take n ++ t) = some (x, n) := by
  obtain ⟨hle, hx⟩ := (hd.stable b x n).mp h
  refine ⟨hle, hd.isNested hx, fun t => ?_⟩
  have hagain := hd.stable.complete hx t
  rw [List.length_take, Nat.min_eq_left hle] at hagain
  exact hagain

/-! ## Tags -/


/-- The value `p` has the tag `tag`. -/
def HasTag (tag : ber_tlv_tag_t) (p : ByteStream) : Prop :=
  ∃ tl, ber_fetch_tag p = some (tag, tl)

/-- A tag in front, seen through a longer buffer. -/
theorem HasTag.append {tag : ber_tlv_tag_t} {p : ByteStream} (h : HasTag tag p)
    (t : ByteStream) : ∃ tl, ber_fetch_tag (p ++ t) = some (tag, tl) := by
  obtain ⟨tl, htag⟩ := h
  obtain ⟨q, q', rfl, rfl, hexact⟩ := ber_fetch_tag_stable.split htag
  rw [List.append_assoc]
  exact ⟨q.length, ber_fetch_tag_stable.complete hexact (q' ++ t)⟩

theorem IsTlv.hasTag {p u : ByteStream} {tag : ber_tlv_tag_t} {tl : Nat} (h : IsTlv p)
    (htag : ber_fetch_tag (p ++ u) = some (tag, tl)) : HasTag tag p := by
  obtain ⟨tag', tl', htag', -⟩ := h.exists_tag
  obtain ⟨tl'', hsame⟩ := HasTag.append ⟨tl', htag'⟩ u
  rw [htag] at hsame
  obtain ⟨rfl, -⟩ := Prod.mk.inj (Option.some.inj hsame)
  exact ⟨tl', htag'⟩

/-- How the types in use are tagged: by the caller, by their own tag, or by the
    implicit tag of a member. -/
inductive Tagging : List ber_tlv_tag_t → Int → (ber_tlv_tag_t → Prop) → Prop where
  | any : Tagging [] 0 fun _ => True
  | own (tag : ber_tlv_tag_t) : Tagging [tag] 0 fun t => t = tag
  | implicit (tag : ber_tlv_tag_t) : Tagging [tag] (-1) fun _ => True

theorem fetchTL_eq_some {b : ByteStream} {h : TL} {n : Nat} :
    fetchTL b = some (h, n) ↔ ∃ tl ll, ber_fetch_tag b = some (h.tag, tl) ∧
      h.constr = BER_TLV_CONSTRUCTED b ∧
      ber_fetch_length h.constr (b.drop tl) = some (h.len, ll) ∧ n = tl + ll := by
  rw [fetchTL, seq_eq_some]
  constructor
  · rintro ⟨t, m, l, hT, hL, rfl⟩
    obtain ⟨⟨tag, tl⟩, htag, heq⟩ := Option.map_eq_some_iff.mp hT
    obtain ⟨rfl, rfl⟩ := Prod.mk.inj heq
    obtain ⟨⟨len, ll⟩, hlen, heq⟩ := Option.map_eq_some_iff.mp hL
    obtain ⟨rfl, rfl⟩ := Prod.mk.inj heq
    exact ⟨tl, ll, htag, rfl, hlen, rfl⟩
  · rintro ⟨tl, ll, htag, hconstr, hlen, rfl⟩
    refine ⟨(h.tag, h.constr), tl, ll, ?_, ?_, rfl⟩
    · rw [fetchT, htag, hconstr]
      rfl
    · rw [fetchL, hlen]
      rfl

/-- One tag, checked or not, and the length behind it. -/
private theorem checkTagsLoop_single {expected : Option ber_tlv_tag_t} {form : Option Bool}
    {b : ByteStream} {s : CheckTags} :
    checkTagsLoop form [expected]
        { ptr := b, consumed_myself := 0, tlv_constr := false, tlv_len := none,
          limit_len := none, expect_00_terminators := 0 } = some s ↔
      ∃ h n, fetchTL b = some (h, n) ∧ (expected = none ∨ expected = some h.tag) ∧
        (form = none ∨ form = some h.constr) ∧ s =
          { ptr := h.len.elim (b.drop n) fun len => (b.drop n).take len
            consumed_myself := n
            tlv_constr := h.constr
            tlv_len := h.len
            limit_len := h.len
            expect_00_terminators := h.len.elim 1 fun _ => 0 } := by
  rw [checkTagsLoop]
  simp only [ne_eq, not_true_eq_false, false_and, if_false, true_and, ← not_or, ite_not]
  constructor
  · intro h
    obtain ⟨⟨tag, tl⟩, htag, h⟩ := Option.bind_eq_some_iff.mp h
    by_cases hexp : expected = none ∨ expected = some tag
    · rw [if_pos hexp] at h
      by_cases hform : form = none ∨ form = some (BER_TLV_CONSTRUCTED b)
      · rw [if_pos hform] at h
        obtain ⟨⟨len, ll⟩, hlen, h⟩ := Option.bind_eq_some_iff.mp h
        refine ⟨⟨tag, BER_TLV_CONSTRUCTED b, len⟩, tl + ll,
          fetchTL_eq_some.mpr ⟨tl, ll, htag, rfl, hlen, rfl⟩, hexp, hform, ?_⟩
        cases len with
        | none =>
            simp only [checkTagsLoop, Option.some.injEq, Nat.zero_add] at h
            exact h.symm
        | some len =>
            simp only [checkTagsLoop, Option.some.injEq, Nat.zero_add] at h
            exact h.symm
      · rw [if_neg hform] at h
        cases h
    · rw [if_neg hexp] at h
      cases h
  · rintro ⟨h, n, hTL, hexp, hform, rfl⟩
    obtain ⟨tl, ll, htag, hconstr, hlen, rfl⟩ := fetchTL_eq_some.mp hTL
    rw [hconstr] at hform hlen
    simp only [htag, Option.bind_eq_bind, Option.bind_some, if_pos hexp, if_pos hform, hlen]
    cases hl : h.len with
    | none =>
        simp only [checkTagsLoop, Nat.zero_add, hconstr]
        rfl
    | some len =>
        simp only [checkTagsLoop, Nat.zero_add, hconstr]
        rfl

/-- What `ber_check_tags` makes of one round of the loop. -/
private theorem checkTagsLoop_result {expected : Option ber_tlv_tag_t} {form : Option Bool}
    {P : ber_tlv_tag_t → Prop} {b : ByteStream} {r : CheckedTags}
    (hP : ∀ t, (expected = none ∨ expected = some t) ↔ P t) :
    ((checkTagsLoop form [expected]
        { ptr := b, consumed_myself := 0, tlv_constr := false, tlv_len := none,
          limit_len := none, expect_00_terminators := 0 }).bind fun s =>
      some { consumed := s.consumed_myself
             last_length := if s.expect_00_terminators ≠ 0 then -s.expect_00_terminators
               else s.tlv_len.elim (-1) fun len => len
             tlv_form := s.tlv_constr : CheckedTags }) = some r ↔
      ∃ h n, fetchTL b = some (h, n) ∧ P h.tag ∧ (form = none ∨ form = some h.constr) ∧
        r = ⟨n, h.len.elim (-1) fun len => len, h.constr⟩ := by
  have hlast : ∀ len : Option Nat,
      (if (len.elim 1 fun _ => 0 : Nat) ≠ 0 then -((len.elim 1 fun _ => 0 : Nat) : Int)
        else len.elim (-1) fun l => (l : Int)) = len.elim (-1) fun l => (l : Int) := by
    intro len
    cases len with
    | none => rfl
    | some l => rfl
  rw [Option.bind_eq_some_iff]
  constructor
  · rintro ⟨s, hs, hr⟩
    obtain ⟨h, n, hTL, hexp, hform, rfl⟩ := checkTagsLoop_single.mp hs
    refine ⟨h, n, hTL, (hP _).mp hexp, hform, ?_⟩
    obtain rfl := Option.some.inj hr
    rw [CheckedTags.mk.injEq]
    exact ⟨rfl, hlast _, rfl⟩
  · rintro ⟨h, n, hTL, hp, hform, rfl⟩
    refine ⟨_, checkTagsLoop_single.mpr ⟨h, n, hTL, (hP _).mpr hp, hform, rfl⟩, ?_⟩
    rw [Option.some.injEq, CheckedTags.mk.injEq]
    exact ⟨rfl, hlast _, rfl⟩

/-- **`ber_check_tags`**: the tag and the length in front, when the tag is the
    expected one and the value has the expected form. -/
theorem ber_check_tags_eq_some {tags : List ber_tlv_tag_t} {tag_mode : Int}
    {P : ber_tlv_tag_t → Prop} {form : Option Bool} {b : ByteStream} {r : CheckedTags}
    (hT : Tagging tags tag_mode P) (hany : tags = [] → form = none) :
    ber_check_tags tags tag_mode form b = some r ↔
      ∃ h n, fetchTL b = some (h, n) ∧ P h.tag ∧ (form = none ∨ form = some h.constr) ∧
        r = ⟨n, h.len.elim (-1) fun len => len, h.constr⟩ := by
  rw [ber_check_tags]
  cases hT with
  | any =>
      rw [if_pos ⟨rfl, rfl⟩, hany rfl]
      constructor
      · intro h
        obtain ⟨⟨tag, tl⟩, htag, h⟩ := Option.bind_eq_some_iff.mp h
        obtain ⟨⟨len, ll⟩, hlen, h⟩ := Option.bind_eq_some_iff.mp h
        exact ⟨⟨tag, BER_TLV_CONSTRUCTED b, len⟩, tl + ll,
          fetchTL_eq_some.mpr ⟨tl, ll, htag, rfl, hlen, rfl⟩, trivial, Or.inl rfl,
          (Option.some.inj h).symm⟩
      · rintro ⟨h, n, hTL, -, -, rfl⟩
        obtain ⟨tl, ll, htag, hconstr, hlen, rfl⟩ := fetchTL_eq_some.mp hTL
        rw [hconstr] at hlen
        simp only [htag, Option.bind_eq_bind, Option.bind_some, hlen, hconstr]
  | own tag =>
      rw [if_neg (fun h => List.cons_ne_nil _ _ h.2), if_neg (fun h => List.cons_ne_nil _ _ h.2)]
      refine checkTagsLoop_result (P := fun t => t = tag) fun t => ?_
      rw [Option.some.injEq]
      exact ⟨fun h => h.elim (fun h0 => absurd h0 (Option.some_ne_none tag)) Eq.symm,
        fun h => Or.inr h.symm⟩
  | implicit tag =>
      rw [if_neg (fun h => List.cons_ne_nil _ _ h.2), if_neg (fun h => List.cons_ne_nil _ _ h.2)]
      exact checkTagsLoop_result fun t => ⟨fun _ => trivial, fun _ => Or.inl rfl⟩

/-! ## Primitive types -/

/-- The octets `p` are a primitive value with the contents `c`. -/
def IsPrimitive (P : ber_tlv_tag_t → Prop) (c p : ByteStream) : Prop :=
  ∃ tag hdr, IsTL ⟨tag, false, some c.length⟩ hdr ∧ P tag ∧ p = hdr ++ c

theorem IsPrimitive.isTlv {P : ber_tlv_tag_t → Prop} {c p : ByteStream}
    (h : IsPrimitive P c p) : IsTlv p := by
  obtain ⟨tag, hdr, hTL, -, rfl⟩ := h
  exact .definite hTL rfl

theorem IsPrimitive.isNested {P : ber_tlv_tag_t → Prop} {c p : ByteStream}
    (h : IsPrimitive P c p) : IsNested p := by
  obtain ⟨tag, hdr, hTL, -, rfl⟩ := h
  exact .primitive hTL

section Primitive

variable {tags : List ber_tlv_tag_t} {tag_mode : Int} {P : ber_tlv_tag_t → Prop}

theorem ber_decode_primitive_recognises (hT : Tagging tags tag_mode P) (hne : tags ≠ []) :
    Recognises (ber_decode_primitive tags tag_mode) (IsPrimitive P) := by
  refine recognises_of ?_ ?_
  · intro b c n h
    obtain ⟨rval, hcheck, h⟩ := Option.bind_eq_some_iff.mp h
    obtain ⟨tl, m, hTL, hP, hform, rfl⟩ :=
      (ber_check_tags_eq_some hT fun h0 => absurd h0 hne).mp hcheck
    have hprim : tl.constr = false := by
      rcases hform with hform | hform
      · cases hform
      · exact (Option.some.inj hform).symm
    obtain ⟨_, _, -, -, hfetch, -⟩ := fetchTL_eq_some.mp hTL
    rw [hprim] at hfetch
    obtain ⟨len, hlen⟩ := ber_fetch_length_primitive hfetch
    obtain ⟨hdr, rest, rfl, rfl, hexact⟩ := fetchTL_stable.split hTL
    simp only [hlen, Option.elim_some, List.drop_left, Int.toNat_natCast] at h
    by_cases hfit : (len : Int) > rest.length
    · rw [if_pos hfit] at h
      cases h
    · rw [if_neg hfit] at h
      obtain ⟨rfl, rfl⟩ := Prod.mk.inj (Option.some.inj h)
      have htake : (rest.take len).length = len := by
        rw [List.length_take, Nat.min_eq_left (by omega)]
      refine ⟨hdr ++ rest.take len, rest.drop len, ?_, ?_, tl.tag, hdr, ?_, hP, rfl⟩
      · rw [List.append_assoc, List.take_append_drop]
      · rw [List.length_append, htake]
      · rw [htake, ← hlen, ← hprim]
        exact hexact
  · rintro c p t ⟨tag, hdr, hTL, hP, rfl⟩
    have hcheck : ber_check_tags tags tag_mode (some false) (hdr ++ (c ++ t)) = some _ :=
      (ber_check_tags_eq_some hT fun h0 => absurd h0 hne).mpr
        ⟨_, _, fetchTL_stable.complete hTL (c ++ t), hP, Or.inr rfl, rfl⟩
    rw [ber_decode_primitive, List.append_assoc, hcheck]
    simp only [Option.bind_eq_bind, Option.bind_some, Option.elim_some, List.drop_left,
      Int.toNat_natCast, List.length_append, List.take_left]
    rw [if_neg (by omega)]

/-- The decoders of the primitive types decode the octets and go on from there. -/
theorem NativeInteger_decode_ber_eq :
    NativeInteger_decode_ber tags tag_mode
      = through (ber_decode_primitive tags tag_mode) asn_INTEGER2long := by
  funext b
  rw [NativeInteger_decode_ber, through, ber_decode_primitive]
  cases ber_check_tags tags tag_mode (some false) b with
  | none => rfl
  | some rval =>
      simp only [Option.bind_eq_bind, Option.bind_some]
      by_cases hfit : rval.last_length > (b.drop rval.consumed).length
      · rw [if_pos hfit, if_pos hfit, Option.bind_none]
      · rw [if_neg hfit, if_neg hfit, Option.bind_some]
        cases asn_INTEGER2long (List.take rval.last_length.toNat (List.drop rval.consumed b)) with
        | none => rfl
        | some l => rfl

theorem BOOLEAN_decode_ber_eq :
    BOOLEAN_decode_ber tags tag_mode
      = through (ber_decode_primitive tags tag_mode) fun c =>
          some ((c.find? (· ≠ 0)).getD 0) := by
  funext b
  rw [BOOLEAN_decode_ber, through, ber_decode_primitive]
  cases ber_check_tags tags tag_mode (some false) b with
  | none => rfl
  | some rval =>
      simp only [Option.bind_eq_bind, Option.bind_some]
      by_cases hfit : rval.last_length > (b.drop rval.consumed).length
      · rw [if_pos hfit, if_pos hfit, Option.bind_none]
      · rw [if_neg hfit, if_neg hfit, Option.bind_some]
        rfl

theorem NativeInteger_decode_ber_recognises (hT : Tagging tags tag_mode P) (hne : tags ≠ []) :
    Recognises (NativeInteger_decode_ber tags tag_mode) fun l p =>
      ∃ c, IsPrimitive P c p ∧ asn_INTEGER2long c = some l := by
  rw [NativeInteger_decode_ber_eq]
  exact (ber_decode_primitive_recognises hT hne).through _

theorem BOOLEAN_decode_ber_recognises (hT : Tagging tags tag_mode P) (hne : tags ≠ []) :
    Recognises (BOOLEAN_decode_ber tags tag_mode) fun x p =>
      ∃ c, IsPrimitive P c p ∧ some ((c.find? (· ≠ 0)).getD 0) = some x := by
  rw [BOOLEAN_decode_ber_eq]
  exact (ber_decode_primitive_recognises hT hne).through _

end Primitive

/-! ## Constructed types -/

/-- The octets `p` are a constructed value with the elements `es`. -/
inductive IsConstructed (P : ber_tlv_tag_t → Prop) (es : List ByteStream) : ByteStream → Prop where
  | definite {tag : ber_tlv_tag_t} {hdr : ByteStream}
      (hTL : IsTL ⟨tag, true, some es.flatten.length⟩ hdr) (hP : P tag) :
      IsConstructed P es (hdr ++ es.flatten)
  | indefinite {tag : ber_tlv_tag_t} {hdr : ByteStream} (hTL : IsTL ⟨tag, true, none⟩ hdr)
      (hP : P tag) (heoc : ∀ e ∈ es, isEndOfContents e = false) :
      IsConstructed P es (hdr ++ es.flatten ++ [0, 0])

theorem IsConstructed.isTlv {P : ber_tlv_tag_t → Prop} {es : List ByteStream} {p : ByteStream}
    (h : IsConstructed P es p) (hes : ∀ e ∈ es, IsTlv e) : IsTlv p := by
  cases h with
  | definite hTL _ => exact .definite hTL rfl
  | indefinite hTL _ heoc => exact .indefinite hTL rfl hes heoc

theorem IsConstructed.isNested {P : ber_tlv_tag_t → Prop} {es : List ByteStream}
    {p : ByteStream} (h : IsConstructed P es p) (hes : ∀ e ∈ es, IsNested e) : IsNested p := by
  cases h with
  | definite hTL _ => exact .definite hTL hes
  | indefinite hTL _ heoc => exact .indefinite hTL hes heoc

/-- What is left of the value are the elements `es`, and `t` is behind it. -/
def Inside (ctx : asn_struct_ctx) (es : List ByteStream) (t : ByteStream) : Prop :=
  (ctx.left = es.flatten.length ∧ ctx.ptr = es.flatten ++ t) ∨
    (ctx.left = -1 ∧ ctx.ptr = es.flatten ++ ([0, 0] ++ t) ∧
      ∀ e ∈ es, isEndOfContents e = false)

/-- The octets behind the last element that end the value. -/
def asn_struct_ctx.closing (ctx : asn_struct_ctx) : Nat := if ctx.left < 0 then 2 else 0

section Context

variable {ctx : asn_struct_ctx} {e : ByteStream} {es : List ByteStream} {t : ByteStream}

theorem Inside.LEFT_eq (h : Inside ctx es t) : ∃ u, ctx.LEFT = es.flatten ++ u ∧
    (ctx.left < 0 → u = [0, 0] ++ t) ∧ (0 ≤ ctx.left → u = []) := by
  rw [asn_struct_ctx.LEFT]
  rcases h with ⟨hleft, hptr⟩ | ⟨hleft, hptr, -⟩
  · refine ⟨[], ?_, fun hneg => absurd hneg (by omega), fun _ => rfl⟩
    rw [if_neg (by omega), hleft, hptr, Int.toNat_natCast, List.take_left, List.append_nil]
  · refine ⟨[0, 0] ++ t, ?_, fun _ => rfl, fun hpos => absurd hpos (by omega)⟩
    rw [if_pos (by omega), hptr]

theorem Inside.advance (h : Inside ctx (e :: es) t) : Inside (ctx.ADVANCE e.length) es t := by
  rw [Inside, asn_struct_ctx.ADVANCE]
  rcases h with ⟨hleft, hptr⟩ | ⟨hleft, hptr, heoc⟩
  · rw [List.flatten_cons, List.length_append] at hleft
    refine Or.inl ⟨?_, ?_⟩
    · show (if ctx.left ≥ 0 then ctx.left - e.length else ctx.left) = _
      rw [if_pos (by omega)]
      omega
    · rw [hptr, List.flatten_cons, List.append_assoc, List.drop_left]
  · refine Or.inr ⟨?_, ?_, (List.forall_mem_cons.mp heoc).2⟩
    · show (if ctx.left ≥ 0 then ctx.left - e.length else ctx.left) = _
      rw [if_neg (by omega), hleft]
    · rw [hptr, List.flatten_cons, List.append_assoc, List.drop_left]

/-- The octets that a decoder may look at are the first ones. -/
theorem ptr_of_LEFT {u : ByteStream} (h : ctx.LEFT = e ++ u) :
    ∃ u', ctx.ptr = e ++ u' ∧ (0 ≤ ctx.left → (e.length : Int) ≤ ctx.left) := by
  rw [asn_struct_ctx.LEFT] at h
  by_cases hneg : ctx.left < 0
  · rw [if_pos hneg] at h
    exact ⟨u, h, fun hpos => absurd hpos (by omega)⟩
  · rw [if_neg hneg] at h
    have hlen := congrArg List.length h
    rw [List.length_take, List.length_append] at hlen
    refine ⟨u ++ ctx.ptr.drop ctx.left.toNat, ?_, fun _ => by omega⟩
    rw [← List.append_assoc, ← h, List.take_append_drop]

theorem Inside.of_advance {u : ByteStream} (hLEFT : ctx.LEFT = e ++ u)
    (heoc : ctx.left < 0 → isEndOfContents e = false) (hleft : -1 ≤ ctx.left)
    (h : Inside (ctx.ADVANCE e.length) es t) : Inside ctx (e :: es) t := by
  obtain ⟨u', hptr, hfit⟩ := ptr_of_LEFT hLEFT
  rw [Inside, asn_struct_ctx.ADVANCE, hptr, List.drop_left] at h
  change (if ctx.left ≥ 0 then ctx.left - e.length else ctx.left) = _ ∧ _ ∨
    (if ctx.left ≥ 0 then ctx.left - e.length else ctx.left) = -1 ∧ _ at h
  rw [Inside, List.flatten_cons, List.length_append]
  by_cases hneg : ctx.left < 0
  · rw [if_neg (by omega)] at h
    rcases h with ⟨hbad, -⟩ | ⟨hone, hu, hes⟩
    · omega
    · refine Or.inr ⟨hone, ?_, List.forall_mem_cons.mpr ⟨heoc hneg, hes⟩⟩
      change u' = _ at hu
      rw [hptr, hu, List.append_assoc]
  · have hle := hfit (by omega)
    rw [if_pos (by omega)] at h
    rcases h with ⟨hlen, hu⟩ | ⟨hbad, -⟩
    · refine Or.inl ⟨by omega, ?_⟩
      change u' = _ at hu
      rw [hptr, hu, List.append_assoc]
    · omega

theorem advance_left {u : ByteStream} (hLEFT : ctx.LEFT = e ++ u) (hleft : -1 ≤ ctx.left) :
    -1 ≤ (ctx.ADVANCE e.length).left ∧ (ctx.ADVANCE e.length).closing = ctx.closing := by
  obtain ⟨-, -, hfit⟩ := ptr_of_LEFT hLEFT
  rw [asn_struct_ctx.closing, asn_struct_ctx.closing, asn_struct_ctx.ADVANCE]
  show -1 ≤ (if ctx.left ≥ 0 then ctx.left - e.length else ctx.left) ∧
    (if (if ctx.left ≥ 0 then ctx.left - e.length else ctx.left) < 0 then 2 else 0) = _
  by_cases hneg : ctx.left < 0
  · rw [if_neg (by omega), if_pos hneg]
    exact ⟨hleft, rfl⟩
  · have hle := hfit (by omega)
    rw [if_pos (by omega), if_neg hneg, if_neg (by omega)]
    exact ⟨by omega, rfl⟩

/-- The first octets of the elements, when there is one. -/
theorem Inside.head_ne (h : Inside ctx (e :: es) t) (he : 2 ≤ e.length) :
    ¬ (ctx.left < 0 ∧ ctx.ptr.head? = some 0 ∧ ctx.LEFT.length < 2) ∧
      ¬ (ctx.left < 0 ∧ isEndOfContents ctx.ptr = true) := by
  obtain ⟨u, hLEFT, -⟩ := h.LEFT_eq
  refine ⟨?_, ?_⟩
  · rintro ⟨-, -, hshort⟩
    rw [hLEFT, List.flatten_cons, List.length_append, List.length_append] at hshort
    omega
  · rintro ⟨hneg, heoc⟩
    rcases h with ⟨hleft, -⟩ | ⟨-, hptr, hes⟩
    · omega
    · rw [hptr, List.flatten_cons, List.append_assoc, isEndOfContents_append he,
        (List.forall_mem_cons.mp hes).1] at heoc
      cases heoc

/-- The first element is at the front. -/
theorem Inside.front (h : Inside ctx (e :: es) t) (he : 2 ≤ e.length) :
    ctx.left ≠ 0 ∧ -1 ≤ ctx.left ∧ ∃ u, ctx.LEFT = e ++ u := by
  obtain ⟨u, hLEFT, -⟩ := h.LEFT_eq
  rw [List.flatten_cons, List.append_assoc] at hLEFT
  rcases h with ⟨hleft, -⟩ | ⟨hleft, -⟩
  · rw [List.flatten_cons, List.length_append] at hleft
    exact ⟨by omega, by omega, _, hLEFT⟩
  · exact ⟨by omega, by omega, _, hLEFT⟩

/-- The decoders step over a value as `skipTlv` does. -/
theorem ber_skip_length_LEFT {tag : ber_tlv_tag_t} {tl ll : Nat}
    (htag : ber_fetch_tag ctx.LEFT = some (tag, tl)) :
    ber_skip_length (BER_TLV_CONSTRUCTED ctx.ptr) (ctx.LEFT.drop tl) = some ll ↔
      skipTlv ctx.LEFT = some ((), tl + ll) := by
  have hsame : BER_TLV_CONSTRUCTED ctx.ptr = BER_TLV_CONSTRUCTED ctx.LEFT := by
    cases hL : ctx.LEFT with
    | nil =>
        rw [hL] at htag
        cases htag
    | cons oct rest =>
        have hLEFT : ctx.LEFT = [oct] ++ rest := hL
        obtain ⟨u', hptr, -⟩ := ptr_of_LEFT hLEFT
        rw [hptr]
        rfl
  rw [hsame, skipTlv, htag]
  simp only [Option.map_eq_some_iff, Prod.mk.injEq, true_and, Nat.add_left_cancel_iff,
    exists_eq_right]

/-- The value in front is stepped over, from behind its tag. -/
theorem skip_front {u : ByteStream} {tag : ber_tlv_tag_t} {tl : Nat} (hLEFT : ctx.LEFT = e ++ u)
    (he : IsTlv e) (htag : ber_fetch_tag ctx.LEFT = some (tag, tl)) :
    ∃ ll, e.length = tl + ll ∧
      ber_skip_length (BER_TLV_CONSTRUCTED ctx.ptr) (ctx.LEFT.drop tl) = some ll := by
  have htlv : skipTlv ctx.LEFT = some ((), e.length) := by
    rw [hLEFT]
    exact skipTlv_recognises.complete (x := ()) he u
  obtain ⟨ll, hll⟩ : ∃ ll, e.length = tl + ll := by
    rw [skipTlv, htag] at htlv
    obtain ⟨ll, -, heq⟩ := Option.map_eq_some_iff.mp htlv
    exact ⟨ll, (Prod.mk.inj heq).2.symm⟩
  exact ⟨ll, hll, (ber_skip_length_LEFT htag).mpr (hll ▸ htlv)⟩

end Context

/-- What reads the elements of a value, with `n` octets of fuel for them: it takes
    lists of elements that satisfy `B`. -/
structure ReadsElements {α : Type} (body : Nat → asn_struct_ctx → Option (α × asn_struct_ctx))
    (B : α → List ByteStream → Prop) : Prop where
  sound : ∀ {n : Nat} {ctx ctx' : asn_struct_ctx} {x : α}, -1 ≤ ctx.left →
    body n ctx = some (x, ctx') → ∃ es t, Inside ctx es t ∧ B x es ∧
      ctx'.consumed_myself = ctx.consumed_myself + es.flatten.length + ctx.closing
  complete : ∀ {n : Nat} {ctx : asn_struct_ctx} {es : List ByteStream} {t : ByteStream} {x : α},
    Inside ctx es t → B x es → es.flatten.length ≤ n → ∃ ctx', body n ctx = some (x, ctx') ∧
      ctx'.consumed_myself = ctx.consumed_myself + es.flatten.length + ctx.closing

section Constructed

variable {α : Type} {body : Nat → asn_struct_ctx → Option (α × asn_struct_ctx)}
  {B : α → List ByteStream → Prop} {tags : List ber_tlv_tag_t} {tag_mode : Int}
  {P : ber_tlv_tag_t → Prop}

theorem phase0_eq_some (hT : Tagging tags tag_mode P) (hne : tags ≠ []) {b : ByteStream}
    {ctx : asn_struct_ctx} :
    phase0 tags tag_mode b = some ctx ↔
      ∃ h n, fetchTL b = some (h, n) ∧ P h.tag ∧ h.constr = true ∧
        ctx = ⟨b.drop n, h.len.elim (-1) fun len => len, n⟩ := by
  rw [phase0]
  constructor
  · intro h
    obtain ⟨rval, hcheck, h⟩ := Option.bind_eq_some_iff.mp h
    obtain ⟨tl, n, hTL, hP, hform, rfl⟩ :=
      (ber_check_tags_eq_some hT fun h0 => absurd h0 hne).mp hcheck
    refine ⟨tl, n, hTL, hP, ?_, (Option.some.inj h).symm⟩
    rcases hform with hform | hform
    · cases hform
    · exact (Option.some.inj hform).symm
  · rintro ⟨tl, n, hTL, hP, hconstr, rfl⟩
    rw [(ber_check_tags_eq_some hT fun h0 => absurd h0 hne).mpr
      ⟨tl, n, hTL, hP, Or.inr (congrArg some hconstr.symm), rfl⟩]
    rfl

/-- **A constructed type is its tag, and what its elements are to be.** -/
theorem constructed_recognises (hT : Tagging tags tag_mode P) (hne : tags ≠ [])
    (hbody : ReadsElements body B) :
    Recognises (fun b => (phase0 tags tag_mode b).bind fun ctx =>
        (body b.length ctx).map fun r => (r.1, r.2.consumed_myself))
      fun x p => ∃ es, IsConstructed P es p ∧ B x es := by
  refine recognises_of ?_ ?_
  · intro b x n h
    obtain ⟨ctx, hphase, h⟩ := Option.bind_eq_some_iff.mp h
    obtain ⟨⟨y, ctx'⟩, hrun, heq⟩ := Option.map_eq_some_iff.mp h
    obtain ⟨rfl, rfl⟩ : y = x ∧ ctx'.consumed_myself = n := Prod.mk.inj heq
    obtain ⟨⟨tag, constr, len⟩, m, hTL, hP, hconstr, rfl⟩ := (phase0_eq_some hT hne).mp hphase
    obtain rfl : constr = true := hconstr
    obtain ⟨hdr, rest, rfl, rfl, hexact⟩ := fetchTL_stable.split hTL
    rw [List.drop_left] at hrun
    cases len with
    | none =>
        obtain ⟨es, t, hin, hB, hn⟩ := hbody.sound (Int.le_refl (-1)) hrun
        rcases hin with ⟨hleft, -⟩ | ⟨-, hptr, heoc⟩
        · change (-1 : Int) = _ at hleft
          omega
        · change rest = _ at hptr
          refine ⟨hdr ++ es.flatten ++ [0, 0], t, ?_, ?_, es, .indefinite hexact hP heoc, hB⟩
          · rw [hptr, List.append_assoc, List.append_assoc]
          · rw [hn, List.length_append, List.length_append]
            rfl
    | some len =>
        obtain ⟨es, t, hin, hB, hn⟩ := hbody.sound (show (-1 : Int) ≤ len by omega) hrun
        rcases hin with ⟨hleft, hptr⟩ | ⟨hleft, -⟩
        · change rest = _ at hptr
          change (len : Int) = _ at hleft
          obtain rfl : len = es.flatten.length := by omega
          refine ⟨hdr ++ es.flatten, t, ?_, ?_, es, .definite hexact hP, hB⟩
          · rw [hptr, List.append_assoc]
          · rw [hn, List.length_append, asn_struct_ctx.closing, if_neg]
            · rfl
            · exact Int.not_lt.mpr (Int.natCast_nonneg _)
        · change (len : Int) = -1 at hleft
          omega
  · rintro x p t ⟨es, hcons, hB⟩
    cases hcons with
    | @definite tag hdr hTL hP =>
        have hphase := (phase0_eq_some hT hne).mpr
          ⟨_, _, fetchTL_stable.complete hTL (es.flatten ++ t), hP, rfl, rfl⟩
        rw [List.drop_left] at hphase
        have hin : Inside ⟨es.flatten ++ t, es.flatten.length, hdr.length⟩ es t :=
          Or.inl ⟨rfl, rfl⟩
        obtain ⟨ctx', hrun, hn⟩ := hbody.complete (n := (hdr ++ (es.flatten ++ t)).length) hin hB
          (by rw [List.length_append, List.length_append]; omega)
        rw [asn_struct_ctx.closing, if_neg (Int.not_lt.mpr (Int.natCast_nonneg _))] at hn
        change _ = hdr.length + es.flatten.length at hn
        rw [List.append_assoc, hphase, Option.bind_some, Option.elim_some, hrun,
          Option.map_some, hn, List.length_append]
    | @indefinite tag hdr hTL hP heoc =>
        have hphase := (phase0_eq_some hT hne).mpr
          ⟨_, _, fetchTL_stable.complete hTL (es.flatten ++ ([0, 0] ++ t)), hP, rfl, rfl⟩
        rw [List.drop_left] at hphase
        have hin : Inside ⟨es.flatten ++ ([0, 0] ++ t), -1, hdr.length⟩ es t :=
          Or.inr ⟨rfl, rfl, heoc⟩
        obtain ⟨ctx', hrun, hn⟩ := hbody.complete
          (n := (hdr ++ (es.flatten ++ ([0, 0] ++ t))).length) hin hB
          (by rw [List.length_append, List.length_append]; omega)
        change _ = hdr.length + es.flatten.length + 2 at hn
        rw [List.append_assoc, List.append_assoc, hphase, Option.bind_some, Option.elim_none,
          hrun, Option.map_some, hn, List.length_append, List.length_append]
        rfl

end Constructed

end ProtoVscp
