import ProtoVscp.BerDecoderProofs

/-! # Constructed types

    SEQUENCE, CHOICE and SEQUENCE OF in terms of their members.  `Members` says
    what the elements of a SEQUENCE are to be; the loops of the decoder find such
    elements, and nothing else, behind a definite and behind an indefinite
    length. -/

namespace ProtoVscp

open SelfDelimiting

/-- A decoder whose value is made into another. -/
theorem DecodesTlv.map {α β : Type} {d : ber_type_decoder_f α} (h : DecodesTlv d) (f : α → β) :
    DecodesTlv fun b => (d b).map fun r => (f r.1, r.2) := by
  have hthrough : (fun b => (d b).map fun r => (f r.1, r.2)) = through d fun x => some (f x) := by
    funext b
    rw [through]
    cases d b with
    | none => rfl
    | some r => rfl
  rw [hthrough]
  refine decodesTlv_of (h.stable.through _) ?_
  rintro y p ⟨x, hx, -⟩
  exact h.isTlv hx

theorem DecodesNested.map {α β : Type} {d : ber_type_decoder_f α} (h : DecodesNested d)
    (f : α → β) : DecodesNested fun b => (d b).map fun r => (f r.1, r.2) where
  toDecodesTlv := h.toDecodesTlv.map f
  isNested hy := by
    obtain ⟨⟨x, n⟩, hx, heq⟩ := Option.map_eq_some_iff.mp hy
    obtain ⟨-, rfl⟩ := Prod.mk.inj heq
    exact h.isNested hx

/-! ## SEQUENCE -/

section Sequence

variable {σ : Type} (td : asn_SEQUENCE σ)

/-- Behind the last member only extensions may follow. -/
def Rest (es : List ByteStream) : Prop :=
  (es ≠ [] → td.IN_EXTENSION_GROUP td.elements.length = true) ∧ ∀ e ∈ es, IsTlv e

/-- **What the elements of a SEQUENCE are to be**, from member `edx` on: each is
    the next member with its tag, or an extension that is skipped. -/
inductive Members : Nat → σ → List ByteStream → σ → Prop where
  /-- The last member is left behind. -/
  | behind {edx : Nat} {st : σ} {es : List ByteStream} (hedx : td.elements.length ≤ edx)
      (hrest : Rest td es) : Members edx st es st
  /-- Every member that is left is optional. -/
  | finish {edx : Nat} {elm : asn_TYPE_member σ} {st : σ} (helm : td.elements[edx]? = some elm)
      (hend : td.mayEnd edx elm.optional = true) : Members edx st [] st
  /-- The next member. -/
  | member {edx n : Nat} {elm m : asn_TYPE_member σ} {tag : ber_tlv_tag_t} {set : σ → σ}
      {st st' : σ} {p : ByteStream} {es : List ByteStream}
      (helm : td.elements[edx]? = some elm) (htag : HasTag tag p)
      (hnext : td.nextMember edx elm.optional tag = some n) (hm : td.elements[n]? = some m)
      (hp : Exactly m.ber_decoder set p) (hes : Members (n + 1) (set st) es st') :
      Members edx st (p :: es) st'
  /-- An extension.  The members that are optional here are left behind too. -/
  | skip {edx : Nat} {elm : asn_TYPE_member σ} {tag : ber_tlv_tag_t} {st st' : σ}
      {p : ByteStream} {es : List ByteStream} (helm : td.elements[edx]? = some elm)
      (htag : HasTag tag p) (hnext : td.nextMember edx elm.optional tag = none)
      (hext : td.IN_EXTENSION_GROUP (edx + elm.optional) = true) (hp : IsTlv p)
      (hes : Members (edx + elm.optional) st es st') : Members edx st (p :: es) st'

/-- End-of-contents octets in a place where the structure must not end are
    refused, as the tag they begin with is. -/
def EocSafe : Prop := ∀ edx elm, td.elements[edx]? = some elm →
  td.mayEnd edx elm.optional = false →
    td.nextMember edx elm.optional 0 = none ∧ td.IN_EXTENSION_GROUP (edx + elm.optional) = false

/-- A descriptor whose members are decoders of one value each. -/
structure SoundDescriptor : Prop where
  decodesTlv : ∀ m ∈ td.elements, DecodesTlv m.ber_decoder
  eocSafe : EocSafe td

/-- One that has no room for extensions, and so none that are skipped. -/
structure NestedDescriptor : Prop where
  decodesNested : ∀ m ∈ td.elements, DecodesNested m.ber_decoder
  eocSafe : EocSafe td
  noExtensions : td.ext_before = -1

variable {td}

theorem NestedDescriptor.sound (h : NestedDescriptor td) : SoundDescriptor td where
  decodesTlv m hm := (h.decodesNested m hm).toDecodesTlv
  eocSafe := h.eocSafe

theorem NestedDescriptor.not_extension (h : NestedDescriptor td) (memb_idx : Nat) :
    ¬ td.IN_EXTENSION_GROUP memb_idx = true := by
  rw [asn_SEQUENCE.IN_EXTENSION_GROUP, h.noExtensions, decide_eq_true_eq]
  omega

theorem Members.isTlv (hmembers : ∀ m ∈ td.elements, DecodesTlv m.ber_decoder) {edx : Nat}
    {st st' : σ} {es : List ByteStream} (h : Members td edx st es st') : ∀ e ∈ es, IsTlv e := by
  induction h with
  | behind _ hrest => exact hrest.2
  | finish _ _ =>
      intro e he
      cases he
  | member _ _ _ hm hp _ ih =>
      exact List.forall_mem_cons.mpr
        ⟨(hmembers _ (List.mem_of_getElem? hm)).isTlv hp, ih⟩
  | skip _ _ _ _ hp _ ih => exact List.forall_mem_cons.mpr ⟨hp, ih⟩

/-- Where nothing is skipped, the elements have been decoded. -/
theorem Members.isNested (htd : NestedDescriptor td) {edx : Nat} {st st' : σ}
    {es : List ByteStream} (h : Members td edx st es st') : ∀ e ∈ es, IsNested e := by
  induction h with
  | @behind edx st es _ hrest =>
      have hnil : es = [] := by
        by_contra hne
        exact htd.not_extension _ (hrest.1 hne)
      rw [hnil]
      intro e he
      cases he
  | finish _ _ =>
      intro e he
      cases he
  | member _ _ _ hm hp _ ih =>
      exact List.forall_mem_cons.mpr
        ⟨(htd.decodesNested _ (List.mem_of_getElem? hm)).isNested hp, ih⟩
  | skip _ _ _ hext _ _ _ => exact absurd hext (htd.not_extension _)

/-- No elements are left: the octets of a definite value are used up, or the
    end-of-contents octets are next. -/
theorem inside_nil {ctx : asn_struct_ctx}
    (h : ctx.left = 0 ∨ (ctx.left = -1 ∧ isEndOfContents ctx.ptr = true)) :
    ∃ t, Inside ctx [] t := by
  rcases h with hzero | ⟨hneg, heoc⟩
  · exact ⟨ctx.ptr, Or.inl ⟨hzero, rfl⟩⟩
  · obtain ⟨t, hptr⟩ := isEndOfContents_iff.mp heoc
    refine ⟨t, Or.inr ⟨hneg, hptr, ?_⟩⟩
    intro e he
    cases he

/-- A round that sees no end-of-contents octets takes none. -/
theorem not_endOfContents {ctx : asn_struct_ctx} {p u : ByteStream} (hLEFT : ctx.LEFT = p ++ u)
    (hp : IsTlv p) (heoc : ¬ (ctx.left < 0 ∧ isEndOfContents ctx.ptr = true)) :
    ctx.left < 0 → isEndOfContents p = false := by
  intro hneg
  obtain ⟨u', hptr, -⟩ := ptr_of_LEFT hLEFT
  rw [← Bool.not_eq_true, ← isEndOfContents_append hp.two_le u', ← hptr]
  exact fun h0 => heoc ⟨hneg, h0⟩

/-- A round of phase 3 ends the value or skips an extension. -/
private theorem phase3_cases {fuel : Nat} {ctx ctx' : asn_struct_ctx} (hleft : -1 ≤ ctx.left)
    (h : phase3 td (fuel + 1) false ctx = some ctx') :
    (ctx.left = 0 ∧ ctx' = ctx) ∨
      ((ctx.left = -1 ∧ isEndOfContents ctx.ptr = true) ∧
        ctx'.consumed_myself = ctx.consumed_myself + 2) ∨
      ∃ p u, ctx.LEFT = p ++ u ∧ IsTlv p ∧ (ctx.left < 0 → isEndOfContents p = false) ∧
        td.IN_EXTENSION_GROUP td.elements.length = true ∧
        phase3 td fuel false (ctx.ADVANCE p.length) = some ctx' := by
  rw [phase3] at h
  by_cases hzero : ctx.left = 0
  · rw [if_pos hzero] at h
    exact Or.inl ⟨hzero, (Option.some.inj h).symm⟩
  · rw [if_neg hzero] at h
    obtain ⟨⟨tag, tl⟩, htag, h⟩ := Option.bind_eq_some_iff.mp h
    dsimp only at h
    by_cases hhead : ctx.left < 0 ∧ ctx.ptr.head? = some 0 ∧ ctx.LEFT.length < 2
    · rw [if_pos hhead] at h
      cases h
    · rw [if_neg hhead] at h
      by_cases heoc : ctx.left < 0 ∧ isEndOfContents ctx.ptr = true
      · rw [if_pos heoc] at h
        have hneg : ctx.left = -1 := by omega
        refine Or.inr (Or.inl ⟨⟨hneg, heoc.2⟩, ?_⟩)
        cases fuel with
        | zero => cases h
        | succ fuel =>
            have hend : (ctx.ADVANCE 2).left + 1 = 0 := by
              show (if ctx.left ≥ 0 then ctx.left - (2 : Nat) else ctx.left) + 1 = 0
              rw [if_neg (by omega)]
              omega
            rw [phase3, if_pos hend] at h
            rw [← Option.some.inj h]
            rfl
      · rw [if_neg heoc] at h
        by_cases hext : td.IN_EXTENSION_GROUP td.elements.length = false ∨ false = true
        · rw [if_pos hext] at h
          cases h
        · rw [if_neg hext] at h
          obtain ⟨ll, hskip, h⟩ := Option.bind_eq_some_iff.mp h
          obtain ⟨p, u, hLEFT, hlen, hp⟩ :=
            skipTlv_recognises.split ((ber_skip_length_LEFT htag).mp hskip)
          rw [← hlen] at h
          refine Or.inr (Or.inr ⟨p, u, hLEFT, hp, not_endOfContents hLEFT hp heoc, ?_, h⟩)
          rw [← Bool.not_eq_false]
          exact fun h0 => hext (Or.inl h0)

private theorem phase3_sound : ∀ (fuel : Nat) (ctx ctx' : asn_struct_ctx), -1 ≤ ctx.left →
    phase3 td fuel false ctx = some ctx' → ∃ es t, Inside ctx es t ∧ Rest td es ∧
      ctx'.consumed_myself = ctx.consumed_myself + es.flatten.length + ctx.closing := by
  intro fuel
  induction fuel with
  | zero =>
      intro ctx ctx' _ h
      cases h
  | succ fuel ih =>
      intro ctx ctx' hleft h
      have hnil : Rest td [] := by
        refine ⟨fun h0 => absurd rfl h0, ?_⟩
        intro e he
        cases he
      rcases phase3_cases hleft h with ⟨hzero, rfl⟩ | ⟨hend, hn⟩ | ⟨p, u, hLEFT, hp, heoc, hext, h⟩
      · obtain ⟨t, hin⟩ := inside_nil (Or.inl hzero)
        refine ⟨[], t, hin, hnil, ?_⟩
        rw [asn_struct_ctx.closing, if_neg (by omega)]
        rfl
      · obtain ⟨t, hin⟩ := inside_nil (Or.inr hend)
        refine ⟨[], t, hin, hnil, ?_⟩
        rw [asn_struct_ctx.closing, if_pos (by omega)]
        exact hn
      · obtain ⟨hleft', hclosing⟩ := advance_left hLEFT hleft
        obtain ⟨es, t, hin, hrest, hn⟩ := ih _ _ hleft' h
        refine ⟨p :: es, t, hin.of_advance hLEFT heoc hleft,
          ⟨fun _ => hext, List.forall_mem_cons.mpr ⟨hp, hrest.2⟩⟩, ?_⟩
        rw [hn, hclosing, List.flatten_cons, List.length_append]
        show ctx.consumed_myself + p.length + _ + _ = _
        omega

private theorem phase3_complete : ∀ (es : List ByteStream) (fuel : Nat) (ctx : asn_struct_ctx)
    (t : ByteStream), Inside ctx es t → Rest td es → es.length + 2 ≤ fuel →
      ∃ ctx', phase3 td fuel false ctx = some ctx' ∧
        ctx'.consumed_myself = ctx.consumed_myself + es.flatten.length + ctx.closing := by
  intro es
  induction es with
  | nil =>
      intro fuel ctx t hin _ hfuel
      obtain ⟨fuel, rfl⟩ : ∃ fuel', fuel = fuel' + 2 := ⟨fuel - 2, by
        rw [List.length_nil] at hfuel
        omega⟩
      rw [phase3]
      rcases hin with ⟨hleft, -⟩ | ⟨hleft, hptr, -⟩
      · have hzero : ctx.left = 0 := hleft
        refine ⟨ctx, if_pos hzero, ?_⟩
        rw [asn_struct_ctx.closing, if_neg (by omega)]
        rfl
      · have hneg : ctx.left < 0 := by omega
        have hptr : ctx.ptr = 0 :: 0 :: t := hptr
        have hLEFT : ctx.LEFT = 0 :: 0 :: t := by
          rw [asn_struct_ctx.LEFT, if_pos hneg, hptr]
        have hend : (ctx.ADVANCE 2).left + 1 = 0 := by
          show (if ctx.left ≥ 0 then ctx.left - (2 : Nat) else ctx.left) + 1 = 0
          rw [if_neg (by omega)]
          omega
        have htag : ber_fetch_tag ctx.LEFT = some (0, 1) := by
          rw [hLEFT]
          rfl
        have hhead : ¬ (ctx.left < 0 ∧ ctx.ptr.head? = some 0 ∧ ctx.LEFT.length < 2) := by
          rintro ⟨-, -, hshort⟩
          rw [hLEFT, List.length_cons, List.length_cons] at hshort
          omega
        have heoc : ctx.left < 0 ∧ isEndOfContents ctx.ptr = true :=
          ⟨hneg, isEndOfContents_iff.mpr ⟨t, hptr⟩⟩
        rw [if_neg (by omega), htag]
        simp only [Option.bind_eq_bind, Option.bind_some]
        rw [if_neg hhead, if_pos heoc, phase3, if_pos hend]
        refine ⟨_, rfl, ?_⟩
        rw [asn_struct_ctx.closing, if_pos hneg]
        rfl
  | cons e es ih =>
      intro fuel ctx t hin hrest hfuel
      rw [List.length_cons] at hfuel
      obtain ⟨fuel, rfl⟩ : ∃ fuel', fuel = fuel' + 1 := ⟨fuel - 1, by omega⟩
      obtain ⟨he, hes⟩ := List.forall_mem_cons.mp hrest.2
      obtain ⟨hzero, hminus, u, hLEFT⟩ := hin.front he.two_le
      obtain ⟨tag, tl, htag, -⟩ := he.exists_tag
      obtain ⟨tl, htag⟩ := HasTag.append ⟨tl, htag⟩ u
      rw [← hLEFT] at htag
      obtain ⟨hhead, heoc⟩ := hin.head_ne he.two_le
      have hext := hrest.1 (List.cons_ne_nil e es)
      obtain ⟨ll, hll, hskip⟩ := skip_front hLEFT he htag
      obtain ⟨ctx', hrun, hn⟩ := ih fuel (ctx.ADVANCE e.length) t hin.advance
        ⟨fun _ => hext, hes⟩ (by omega)
      refine ⟨ctx', ?_, ?_⟩
      · rw [phase3, if_neg hzero, htag]
        simp only [Option.bind_eq_bind, Option.bind_some]
        rw [if_neg hhead, if_neg heoc, if_neg (by rw [hext]; decide), hskip, Option.bind_some,
          ← hll]
        exact hrun
      · rw [hn, (advance_left hLEFT hminus).2, List.flatten_cons, List.length_append]
        show ctx.consumed_myself + e.length + _ + _ = _
        omega

/-- A round of phase 1 ends the value, decodes the next member, or skips an
    extension. -/
private theorem phase1_cases (htd : SoundDescriptor td) {fuel edx : Nat} {st st' : σ}
    {ctx ctx' : asn_struct_ctx} (hleft : -1 ≤ ctx.left)
    (h : phase1 td (fuel + 1) edx st ctx = some (st', ctx')) :
    (td.elements.length ≤ edx ∧ st = st' ∧
        phase3 td (ctx.ptr.length + 2) false ctx = some ctx') ∨
      ∃ elm, td.elements[edx]? = some elm ∧
        ((td.mayEnd edx elm.optional = true ∧ st = st' ∧
            ((ctx.left = 0 ∧ ctx' = ctx) ∨ ((ctx.left = -1 ∧ isEndOfContents ctx.ptr = true) ∧
              phase3 td (ctx.ptr.length + 2) false ctx = some ctx'))) ∨
          ∃ tag p u, ctx.LEFT = p ++ u ∧ HasTag tag p ∧ IsTlv p ∧
            (ctx.left < 0 → isEndOfContents p = false) ∧
            ((∃ n m set, td.nextMember edx elm.optional tag = some n ∧
                td.elements[n]? = some m ∧ Exactly m.ber_decoder set p ∧
                phase1 td fuel (n + 1) (set st) (ctx.ADVANCE p.length) = some (st', ctx')) ∨
              (td.nextMember edx elm.optional tag = none ∧
                td.IN_EXTENSION_GROUP (edx + elm.optional) = true ∧
                phase1 td fuel (edx + elm.optional) st (ctx.ADVANCE p.length)
                  = some (st', ctx')))) := by
  rw [phase1] at h
  cases helm : td.elements[edx]? with
  | none =>
      rw [helm] at h
      obtain ⟨c, hc, heq⟩ := Option.map_eq_some_iff.mp h
      obtain ⟨rfl, rfl⟩ : st = st' ∧ c = ctx' := Prod.mk.inj heq
      exact Or.inl ⟨List.getElem?_eq_none_iff.mp helm, rfl, hc⟩
  | some elm =>
      refine Or.inr ⟨elm, rfl, ?_⟩
      simp only [helm] at h
      by_cases hend : ctx.left = 0 ∧ td.mayEnd edx elm.optional = true
      · rw [if_pos hend] at h
        obtain ⟨rfl, rfl⟩ : st = st' ∧ ctx = ctx' := Prod.mk.inj (Option.some.inj h)
        exact Or.inl ⟨hend.2, rfl, Or.inl ⟨hend.1, rfl⟩⟩
      · rw [if_neg hend] at h
        obtain ⟨⟨tag, tl⟩, htag, h⟩ := Option.bind_eq_some_iff.mp h
        dsimp only at h
        by_cases hhead : ctx.left < 0 ∧ ctx.ptr.head? = some 0 ∧ ctx.LEFT.length < 2
        · rw [if_pos hhead] at h
          cases h
        · rw [if_neg hhead] at h
          by_cases heoc : ctx.left < 0 ∧ isEndOfContents ctx.ptr = true ∧
              td.mayEnd edx elm.optional = true
          · rw [if_pos heoc] at h
            obtain ⟨c, hc, heq⟩ := Option.map_eq_some_iff.mp h
            obtain ⟨rfl, rfl⟩ : st = st' ∧ c = ctx' := Prod.mk.inj heq
            exact Or.inl ⟨heoc.2.2, rfl, Or.inr ⟨⟨by omega, heoc.2.1⟩, hc⟩⟩
          · rw [if_neg heoc] at h
            refine Or.inr ?_
            -- in any other place the octets 00 00 are refused
            have hnone : ∀ n, td.nextMember edx elm.optional tag = some n ∨
                td.IN_EXTENSION_GROUP (edx + elm.optional) = true →
                ¬ (ctx.left < 0 ∧ isEndOfContents ctx.ptr = true) := by
              rintro n hgo ⟨hneg, heoc'⟩
              have hnot : td.mayEnd edx elm.optional = false := by
                rw [← Bool.not_eq_true]
                exact fun h0 => heoc ⟨hneg, heoc', h0⟩
              obtain ⟨t, hptr⟩ := isEndOfContents_iff.mp heoc'
              have hzero : tag = 0 := by
                rw [asn_struct_ctx.LEFT, if_pos hneg, hptr] at htag
                exact (Prod.mk.inj (Option.some.inj htag)).1.symm
              obtain ⟨hnext, hext⟩ := htd.eocSafe edx elm helm hnot
              rcases hgo with hgo | hgo
              · rw [hzero, hnext] at hgo
                cases hgo
              · rw [hext] at hgo
                cases hgo
            cases hnext : td.nextMember edx elm.optional tag with
            | some n =>
                simp only [hnext] at h
                obtain ⟨m, hm, h⟩ := Option.bind_eq_some_iff.mp h
                obtain ⟨⟨set, k⟩, hdec, h⟩ := Option.bind_eq_some_iff.mp h
                have hmember := htd.decodesTlv m (List.mem_of_getElem? hm)
                obtain ⟨p, u, hLEFT, rfl, hp⟩ := hmember.stable.split hdec
                have htlv := hmember.isTlv hp
                rw [hLEFT] at htag
                exact ⟨tag, p, u, hLEFT, htlv.hasTag htag, htlv,
                  not_endOfContents hLEFT htlv (hnone n (Or.inl hnext)),
                  Or.inl ⟨n, m, set, hnext, hm, hp, h⟩⟩
            | none =>
                simp only [hnext] at h
                by_cases hext : td.IN_EXTENSION_GROUP (edx + elm.optional) = false
                · rw [if_pos hext] at h
                  cases h
                · rw [if_neg hext] at h
                  rw [Bool.not_eq_false] at hext
                  obtain ⟨ll, hskip, h⟩ := Option.bind_eq_some_iff.mp h
                  obtain ⟨p, u, hLEFT, hlen, htlv⟩ :=
                    skipTlv_recognises.split ((ber_skip_length_LEFT htag).mp hskip)
                  rw [Nat.add_comm ll tl, ← hlen] at h
                  rw [hLEFT] at htag
                  exact ⟨tag, p, u, hLEFT, htlv.hasTag htag, htlv,
                    not_endOfContents hLEFT htlv (hnone 0 (Or.inr hext)),
                    Or.inr ⟨hnext, hext, h⟩⟩

private theorem phase1_sound (htd : SoundDescriptor td) :
    ∀ (fuel edx : Nat) (st st' : σ) (ctx ctx' : asn_struct_ctx), -1 ≤ ctx.left →
      phase1 td fuel edx st ctx = some (st', ctx') → ∃ es t, Inside ctx es t ∧
        Members td edx st es st' ∧
        ctx'.consumed_myself = ctx.consumed_myself + es.flatten.length + ctx.closing := by
  intro fuel
  induction fuel with
  | zero =>
      intro edx st st' ctx ctx' _ h
      cases h
  | succ fuel ih =>
      intro edx st st' ctx ctx' hleft h
      have hcons : ∀ {p u es t c}, ctx.LEFT = p ++ u → (ctx.left < 0 → isEndOfContents p = false) →
          Inside (ctx.ADVANCE p.length) es t →
          c = (ctx.ADVANCE p.length).consumed_myself + es.flatten.length
            + (ctx.ADVANCE p.length).closing →
          Inside ctx (p :: es) t ∧
            c = ctx.consumed_myself + (p :: es).flatten.length + ctx.closing := by
        intro p u es t c hLEFT heoc hin hc
        refine ⟨hin.of_advance hLEFT heoc hleft, ?_⟩
        rw [hc, (advance_left hLEFT hleft).2, List.flatten_cons, List.length_append]
        show ctx.consumed_myself + p.length + _ + _ = _
        omega
      rcases phase1_cases htd hleft h with ⟨hedx, rfl, h3⟩ | ⟨elm, helm, hcase⟩
      · -- all members have been read
        obtain ⟨es, t, hin, hrest, hn⟩ := phase3_sound _ _ _ hleft h3
        exact ⟨es, t, hin, .behind hedx hrest, hn⟩
      · rcases hcase with ⟨hend, rfl, hstop⟩ | ⟨tag, p, u, hLEFT, htag, htlv, heoc, hgo⟩
        · -- the end of a definite length, or the end-of-contents octets
          rcases hstop with ⟨hzero, rfl⟩ | ⟨heoc, h3⟩
          · obtain ⟨t, hin⟩ := inside_nil (Or.inl hzero)
            refine ⟨[], t, hin, .finish helm hend, ?_⟩
            rw [asn_struct_ctx.closing, if_neg (by omega)]
            rfl
          · obtain ⟨t, hin⟩ := inside_nil (Or.inr heoc)
            refine ⟨[], t, hin, .finish helm hend, ?_⟩
            rw [asn_struct_ctx.closing, if_pos (by omega)]
            rcases phase3_cases hleft h3 with ⟨hzero, -⟩ | ⟨-, hn⟩ | ⟨p, u, hLEFT, hp, hnot, -⟩
            · omega
            · exact hn
            · obtain ⟨u', hptr, -⟩ := ptr_of_LEFT hLEFT
              have hfront := hnot (by omega)
              rw [← isEndOfContents_append hp.two_le u', ← hptr, heoc.2] at hfront
              cases hfront
        · -- one element is used, by a member or as an extension
          have hleft' := (advance_left hLEFT hleft).1
          rcases hgo with ⟨n, m, set, hnext, hm, hp, h⟩ | ⟨hnext, hext, h⟩
          · obtain ⟨es, t, hin, hes, hn⟩ := ih _ _ _ _ _ hleft' h
            obtain ⟨hin, hn⟩ := hcons hLEFT heoc hin hn
            exact ⟨p :: es, t, hin, .member helm htag hnext hm hp hes, hn⟩
          · obtain ⟨es, t, hin, hes, hn⟩ := ih _ _ _ _ _ hleft' h
            obtain ⟨hin, hn⟩ := hcons hLEFT heoc hin hn
            exact ⟨p :: es, t, hin, .skip helm htag hnext hext htlv hes, hn⟩

private theorem linearSearch_ge {tag : ber_tlv_tag_t} {use : Bool} {n : Nat} :
    ∀ (l : List (asn_TYPE_member σ)) (start : Nat), linearSearch tag use start l = .inl n →
      start ≤ n := by
  intro l
  induction l with
  | nil =>
      intro start h
      cases h
  | cons elm rest ih =>
      intro start h
      rw [linearSearch] at h
      by_cases hhit : tag = elm.tag ∨ elm.open_type = true
      · rw [if_pos hhit] at h
        exact Nat.le_of_eq (Sum.inl.inj h)
      · rw [if_neg hhit] at h
        by_cases hstop : elm.tag = noTag
        · rw [if_pos hstop] at h
          cases h
        · rw [if_neg hstop] at h
          exact Nat.le_of_succ_le (ih _ h)

/-- The search does not go back. -/
theorem nextMember_ge {edx optional n : Nat} {tag : ber_tlv_tag_t}
    (h : td.nextMember edx optional tag = some n) : edx ≤ n := by
  rw [asn_SEQUENCE.nextMember] at h
  dsimp only at h
  split at h
  · next m hm =>
      obtain rfl := Option.some.inj h
      exact linearSearch_ge _ _ hm
  · obtain ⟨r, hr, rfl⟩ := Option.map_eq_some_iff.mp h
    have hmem := List.mem_of_mem_getLast? hr
    exact (of_decide_eq_true (List.mem_filter.mp hmem).2).2.1
  · cases h

private theorem length_le_flatten : ∀ {es : List ByteStream}, (∀ e ∈ es, IsTlv e) →
    es.length ≤ es.flatten.length := by
  intro es
  induction es with
  | nil =>
      intro _
      exact Nat.le_refl 0
  | cons e es ih =>
      intro h
      obtain ⟨he, hes⟩ := List.forall_mem_cons.mp h
      have htwo := he.two_le
      have hle := ih hes
      rw [List.flatten_cons, List.length_append, List.length_cons]
      omega

theorem Inside.flatten_le {ctx : asn_struct_ctx} {es : List ByteStream} {t : ByteStream}
    (h : Inside ctx es t) : es.flatten.length ≤ ctx.ptr.length := by
  rcases h with ⟨-, hptr⟩ | ⟨-, hptr, -⟩
  · rw [hptr, List.length_append]
    omega
  · rw [hptr, List.length_append]
    omega

private theorem phase1_complete (hmembers : ∀ m ∈ td.elements, DecodesTlv m.ber_decoder)
    {edx : Nat} {st st' : σ} {es : List ByteStream} (h : Members td edx st es st') :
    ∀ (fuel : Nat) (ctx : asn_struct_ctx) (t : ByteStream), Inside ctx es t →
      (td.elements.length - edx) + es.flatten.length + 1 ≤ fuel →
      ∃ ctx', phase1 td fuel edx st ctx = some (st', ctx') ∧
        ctx'.consumed_myself = ctx.consumed_myself + es.flatten.length + ctx.closing := by
  -- on the elements; a round takes a member or an octet at least, which is the fuel
  induction h with
  | @behind edx st es hedx hrest =>
      intro fuel ctx t hin hfuel
      obtain ⟨fuel, rfl⟩ : ∃ fuel', fuel = fuel' + 1 := ⟨fuel - 1, by omega⟩
      have hle := Nat.le_trans (length_le_flatten hrest.2) hin.flatten_le
      obtain ⟨ctx', hrun, hn⟩ := phase3_complete es (ctx.ptr.length + 2) ctx t hin hrest (by omega)
      refine ⟨ctx', ?_, hn⟩
      rw [phase1, List.getElem?_eq_none hedx, hrun]
      rfl
  | @finish edx elm st helm hend =>
      intro fuel ctx t hin hfuel
      obtain ⟨fuel, rfl⟩ : ∃ fuel', fuel = fuel' + 1 := ⟨fuel - 1, by omega⟩
      rw [phase1]
      simp only [helm]
      have hnil : Rest td [] := by
        refine ⟨fun h0 => absurd rfl h0, ?_⟩
        intro e he
        cases he
      rcases hin with ⟨hleft, hptr⟩ | ⟨hleft, hptr, heoc⟩
      · -- a definite length: nothing is left
        have hzero : ctx.left = 0 := hleft
        refine ⟨ctx, if_pos ⟨hzero, hend⟩, ?_⟩
        rw [asn_struct_ctx.closing, if_neg (by omega)]
        rfl
      · -- an indefinite one: phase 3 takes the end-of-contents octets
        obtain ⟨ctx', hrun, hn⟩ := phase3_complete [] (ctx.ptr.length + 2) ctx t
          (Or.inr ⟨hleft, hptr, heoc⟩) hnil (by rw [List.length_nil]; omega)
        have hneg : ctx.left < 0 := by omega
        have hptr : ctx.ptr = 0 :: 0 :: t := hptr
        have hLEFT : ctx.LEFT = 0 :: 0 :: t := by
          rw [asn_struct_ctx.LEFT, if_pos hneg, hptr]
        have htag : ber_fetch_tag ctx.LEFT = some (0, 1) := by
          rw [hLEFT]
          rfl
        have hhead : ¬ (ctx.left < 0 ∧ ctx.ptr.head? = some 0 ∧ ctx.LEFT.length < 2) := by
          rintro ⟨-, -, hshort⟩
          rw [hLEFT, List.length_cons, List.length_cons] at hshort
          omega
        refine ⟨ctx', ?_, hn⟩
        rw [if_neg (fun h0 => by omega), htag]
        simp only [Option.bind_eq_bind, Option.bind_some]
        rw [if_neg hhead, if_pos ⟨hneg, isEndOfContents_iff.mpr ⟨t, hptr⟩, hend⟩, hrun]
        rfl
  | @member edx n elm m tag set st st' p es helm htag hnext hm hp hes ih =>
      intro fuel ctx t hin hfuel
      obtain ⟨fuel, rfl⟩ : ∃ fuel', fuel = fuel' + 1 := ⟨fuel - 1, by omega⟩
      have hmember := hmembers m (List.mem_of_getElem? hm)
      have htlv := hmember.isTlv hp
      have htwo := htlv.two_le
      have hge := nextMember_ge hnext
      have hlt := (List.getElem?_eq_some_iff.mp helm).1
      rw [List.flatten_cons, List.length_append] at hfuel
      obtain ⟨hzero, hminus, u, hLEFT⟩ := hin.front htwo
      obtain ⟨tl, htag'⟩ := htag.append u
      rw [← hLEFT] at htag'
      obtain ⟨hhead, heoc⟩ := hin.head_ne htwo
      obtain ⟨ctx', hrun, hn⟩ := ih fuel (ctx.ADVANCE p.length) t hin.advance (by omega)
      refine ⟨ctx', ?_, ?_⟩
      · rw [phase1]
        simp only [helm, if_neg (fun h0 : ctx.left = 0 ∧ _ => hzero h0.1), htag',
          Option.bind_eq_bind, Option.bind_some]
        rw [if_neg hhead, if_neg (fun h0 => heoc ⟨h0.1, h0.2.1⟩)]
        simp only [hnext, hm, Option.bind_some, hLEFT, hmember.stable.complete hp u]
        exact hrun
      · rw [hn, (advance_left hLEFT hminus).2, List.flatten_cons, List.length_append]
        show ctx.consumed_myself + p.length + _ + _ = _
        omega
  | @skip edx elm tag st st' p es helm htag hnext hext hp hes ih =>
      intro fuel ctx t hin hfuel
      obtain ⟨fuel, rfl⟩ : ∃ fuel', fuel = fuel' + 1 := ⟨fuel - 1, by omega⟩
      have htwo := hp.two_le
      rw [List.flatten_cons, List.length_append] at hfuel
      obtain ⟨hzero, hminus, u, hLEFT⟩ := hin.front htwo
      obtain ⟨tl, htag'⟩ := htag.append u
      rw [← hLEFT] at htag'
      obtain ⟨hhead, heoc⟩ := hin.head_ne htwo
      obtain ⟨ll, hll, hskip⟩ := skip_front hLEFT hp htag'
      obtain ⟨ctx', hrun, hn⟩ := ih fuel (ctx.ADVANCE p.length) t hin.advance (by omega)
      refine ⟨ctx', ?_, ?_⟩
      · rw [phase1]
        simp only [helm, if_neg (fun h0 : ctx.left = 0 ∧ _ => hzero h0.1), htag',
          Option.bind_eq_bind, Option.bind_some]
        rw [if_neg hhead, if_neg (fun h0 => heoc ⟨h0.1, h0.2.1⟩)]
        simp only [hnext, hext, Bool.true_eq_false, if_false, hskip, Option.bind_some]
        rw [Nat.add_comm ll tl, ← hll]
        exact hrun
      · rw [hn, (advance_left hLEFT hminus).2, List.flatten_cons, List.length_append]
        show ctx.consumed_myself + p.length + _ + _ = _
        omega

/-- **A SEQUENCE is its tag, and behind it the members in their order, the optional
    ones or not, with extensions where the descriptor has room for them; a definite
    length and an indefinite one make no difference.** -/
theorem SEQUENCE_decode_ber_recognises (htd : SoundDescriptor td) {zero : σ} {tag_mode : Int}
    {P : ber_tlv_tag_t → Prop} (hT : Tagging td.tags tag_mode P) (hne : td.tags ≠ []) :
    Recognises (SEQUENCE_decode_ber td zero tag_mode) fun st p =>
      ∃ es, IsConstructed P es p ∧ Members td 0 zero es st := by
  have hbody : ReadsElements
      (fun n ctx => phase1 td (td.elements.length + n + 1) 0 zero ctx)
      (fun st es => Members td 0 zero es st) := by
    refine ⟨?_, ?_⟩
    · intro n ctx ctx' st hleft h
      exact phase1_sound htd _ _ _ _ _ _ hleft h
    · intro n ctx es t st hin hes hn
      exact phase1_complete htd.decodesTlv hes _ ctx t hin (by omega)
  have hsame : SEQUENCE_decode_ber td zero tag_mode = fun b =>
      (phase0 td.tags tag_mode b).bind fun ctx =>
        (phase1 td (td.elements.length + b.length + 1) 0 zero ctx).map fun r =>
          (r.1, r.2.consumed_myself) := by
    funext b
    rw [SEQUENCE_decode_ber]
    cases phase0 td.tags tag_mode b with
    | none => rfl
    | some ctx =>
        simp only [Option.bind_eq_bind, Option.bind_some]
        cases phase1 td (td.elements.length + b.length + 1) 0 zero ctx with
        | none => rfl
        | some r => rfl
  rw [hsame]
  exact constructed_recognises hT hne hbody

theorem SEQUENCE_decode_ber_decodesTlv (htd : SoundDescriptor td) {zero : σ} {tag_mode : Int}
    {P : ber_tlv_tag_t → Prop} (hT : Tagging td.tags tag_mode P) (hne : td.tags ≠ []) :
    DecodesTlv (SEQUENCE_decode_ber td zero tag_mode) := by
  refine decodesTlv_of (SEQUENCE_decode_ber_recognises htd hT hne) ?_
  rintro st p ⟨es, hp, hes⟩
  exact hp.isTlv (hes.isTlv htd.decodesTlv)

theorem SEQUENCE_decode_ber_decodesNested (htd : NestedDescriptor td) {zero : σ} {tag_mode : Int}
    {P : ber_tlv_tag_t → Prop} (hT : Tagging td.tags tag_mode P) (hne : td.tags ≠ []) :
    DecodesNested (SEQUENCE_decode_ber td zero tag_mode) := by
  refine decodesNested_of (SEQUENCE_decode_ber_recognises htd.sound hT hne) ?_
  rintro st p ⟨es, hp, hes⟩
  exact hp.isNested (hes.isNested htd)

end Sequence

/-! ## CHOICE -/

section Choice

variable {α : Type} {td : asn_CHOICE α}

/-- **A CHOICE is the alternative that the table has for the tag.** -/
theorem CHOICE_decode_ber_recognises (htd : ∀ d ∈ td.elements, DecodesTlv d) :
    Recognises (CHOICE_decode_ber td) fun x p => ∃ tag t2m d, HasTag tag p ∧
      (td.tag2el.find? fun t2m => t2m.1 = tag) = some t2m ∧
      td.elements[t2m.2]? = some d ∧ Exactly d x p := by
  refine recognises_of ?_ ?_
  · intro b x n h
    obtain ⟨⟨tag, tl⟩, htag, h⟩ := Option.bind_eq_some_iff.mp h
    obtain ⟨t2m, ht2m, h⟩ := Option.bind_eq_some_iff.mp h
    obtain ⟨d, hd, h⟩ := Option.bind_eq_some_iff.mp h
    have hdec := htd d (List.mem_of_getElem? hd)
    obtain ⟨p, t, rfl, hn, hp⟩ := hdec.stable.split h
    exact ⟨p, t, rfl, hn, tag, t2m, d, (hdec.isTlv hp).hasTag htag, ht2m, hd, hp⟩
  · rintro x p t ⟨tag, t2m, d, htag, ht2m, hd, hp⟩
    obtain ⟨tl, htag⟩ := htag.append t
    have hdec := htd d (List.mem_of_getElem? hd)
    rw [CHOICE_decode_ber, htag]
    simp only [Option.bind_eq_bind, Option.bind_some, ht2m, hd]
    exact hdec.stable.complete hp t

theorem CHOICE_decode_ber_decodesNested (htd : ∀ d ∈ td.elements, DecodesNested d) :
    DecodesNested (CHOICE_decode_ber td) := by
  refine decodesNested_of
    (CHOICE_decode_ber_recognises fun d hd => (htd d hd).toDecodesTlv) ?_
  rintro x p ⟨tag, t2m, d, -, -, hd, hp⟩
  exact (htd d (List.mem_of_getElem? hd)).isNested hp

end Choice

/-! ## SEQUENCE OF -/

section SequenceOf

variable {α : Type} {elm_tag : ber_tlv_tag_t} {ber_decoder : ber_type_decoder_f α}

/-- An element of a list: a value of the element type, with its tag if it has one. -/
def IsElement (elm_tag : ber_tlv_tag_t) (ber_decoder : ber_type_decoder_f α) (x : α)
    (e : ByteStream) : Prop :=
  Exactly ber_decoder x e ∧ (elm_tag ≠ noTag → HasTag elm_tag e)

/-- A round of phase 1 ends the value or decodes an element. -/
private theorem phase1Of_cases (hd : DecodesTlv ber_decoder) {fuel : Nat} {list list' : List α}
    {ctx ctx' : asn_struct_ctx} (hleft : -1 ≤ ctx.left)
    (h : phase1Of elm_tag ber_decoder (fuel + 1) list ctx = some (list', ctx')) :
    (list = list' ∧ ((ctx.left = 0 ∧ ctx' = ctx) ∨
        ((ctx.left = -1 ∧ isEndOfContents ctx.ptr = true) ∧
          ctx'.consumed_myself = ctx.consumed_myself + 2))) ∨
      ∃ x p u, ctx.LEFT = p ++ u ∧ IsElement elm_tag ber_decoder x p ∧
        (ctx.left < 0 → isEndOfContents p = false) ∧
        phase1Of elm_tag ber_decoder fuel (list ++ [x]) (ctx.ADVANCE p.length)
          = some (list', ctx') := by
  rw [phase1Of] at h
  by_cases hzero : ctx.left = 0
  · rw [if_pos hzero] at h
    obtain ⟨rfl, rfl⟩ : list = list' ∧ ctx = ctx' := Prod.mk.inj (Option.some.inj h)
    exact Or.inl ⟨rfl, Or.inl ⟨hzero, rfl⟩⟩
  · rw [if_neg hzero] at h
    obtain ⟨⟨tag, tl⟩, htag, h⟩ := Option.bind_eq_some_iff.mp h
    dsimp only at h
    by_cases hhead : ctx.left < 0 ∧ ctx.ptr.head? = some 0 ∧ ctx.LEFT.length < 2
    · rw [if_pos hhead] at h
      cases h
    · rw [if_neg hhead] at h
      by_cases heoc : ctx.left < 0 ∧ isEndOfContents ctx.ptr = true
      · rw [if_pos heoc] at h
        obtain ⟨c, hc, heq⟩ := Option.map_eq_some_iff.mp h
        obtain ⟨rfl, rfl⟩ : list = list' ∧ c = ctx' := Prod.mk.inj heq
        refine Or.inl ⟨rfl, Or.inr ⟨⟨by omega, heoc.2⟩, ?_⟩⟩
        obtain ⟨t, hptr⟩ := isEndOfContents_iff.mp heoc.2
        have hLEFT : ctx.LEFT = 0 :: 0 :: t := by
          rw [asn_struct_ctx.LEFT, if_pos heoc.1, hptr]
        have hend : ¬ (ctx.ADVANCE 2).left + 1 < 0 := by
          show ¬ (if ctx.left ≥ 0 then ctx.left - (2 : Nat) else ctx.left) + 1 < 0
          rw [if_neg (by omega)]
          omega
        rw [hptr, List.length_cons, phase2Of, if_pos heoc.1,
          if_neg (by rw [hLEFT, List.length_cons, List.length_cons]; omega), if_pos heoc.2,
          List.length_cons, phase2Of, if_neg hend] at hc
        rw [← Option.some.inj hc]
        rfl
      · rw [if_neg heoc] at h
        by_cases hbad : elm_tag ≠ noTag ∧ tag ≠ elm_tag
        · rw [if_pos hbad] at h
          cases h
        · rw [if_neg hbad] at h
          obtain ⟨⟨x, k⟩, hdec, h⟩ := Option.bind_eq_some_iff.mp h
          obtain ⟨p, u, hLEFT, rfl, hp⟩ := hd.stable.split hdec
          have htlv := hd.isTlv hp
          rw [hLEFT] at htag
          refine Or.inr ⟨x, p, u, hLEFT, ⟨hp, fun hne => ?_⟩,
            not_endOfContents hLEFT htlv heoc, h⟩
          have hsame : tag = elm_tag := by
            by_contra hdiff
            exact hbad ⟨hne, hdiff⟩
          exact hsame ▸ htlv.hasTag htag

private theorem phase1Of_sound (hd : DecodesTlv ber_decoder) :
    ∀ (fuel : Nat) (list list' : List α) (ctx ctx' : asn_struct_ctx), -1 ≤ ctx.left →
      phase1Of elm_tag ber_decoder fuel list ctx = some (list', ctx') →
      ∃ xs es t, Inside ctx es t ∧ list' = list ++ xs ∧
        List.Forall₂ (IsElement elm_tag ber_decoder) xs es ∧
        ctx'.consumed_myself = ctx.consumed_myself + es.flatten.length + ctx.closing := by
  intro fuel
  induction fuel with
  | zero =>
      intro list list' ctx ctx' _ h
      cases h
  | succ fuel ih =>
      intro list list' ctx ctx' hleft h
      rcases phase1Of_cases hd hleft h with ⟨rfl, hstop⟩ | ⟨x, p, u, hLEFT, hx, heoc, h⟩
      · rcases hstop with ⟨hzero, rfl⟩ | ⟨hend, hn⟩
        · obtain ⟨t, hin⟩ := inside_nil (Or.inl hzero)
          refine ⟨[], [], t, hin, (List.append_nil _).symm, .nil, ?_⟩
          rw [asn_struct_ctx.closing, if_neg (by omega)]
          rfl
        · obtain ⟨t, hin⟩ := inside_nil (Or.inr hend)
          refine ⟨[], [], t, hin, (List.append_nil _).symm, .nil, ?_⟩
          rw [asn_struct_ctx.closing, if_pos (by omega)]
          exact hn
      · obtain ⟨hleft', hclosing⟩ := advance_left hLEFT hleft
        obtain ⟨xs, es, t, hin, rfl, hes, hn⟩ := ih _ _ _ _ hleft' h
        refine ⟨x :: xs, p :: es, t, hin.of_advance hLEFT heoc hleft,
          List.append_assoc list [x] xs, .cons hx hes, ?_⟩
        rw [hn, hclosing, List.flatten_cons, List.length_append]
        show ctx.consumed_myself + p.length + _ + _ = _
        omega

private theorem phase1Of_complete (hd : DecodesTlv ber_decoder) {xs : List α}
    {es : List ByteStream} (h : List.Forall₂ (IsElement elm_tag ber_decoder) xs es) :
    ∀ (fuel : Nat) (list : List α) (ctx : asn_struct_ctx) (t : ByteStream), Inside ctx es t →
      es.flatten.length + 1 ≤ fuel →
      ∃ ctx', phase1Of elm_tag ber_decoder fuel list ctx = some (list ++ xs, ctx') ∧
        ctx'.consumed_myself = ctx.consumed_myself + es.flatten.length + ctx.closing := by
  induction h with
  | nil =>
      intro fuel list ctx t hin hfuel
      obtain ⟨fuel, rfl⟩ : ∃ fuel', fuel = fuel' + 1 := ⟨fuel - 1, by omega⟩
      rw [List.append_nil, phase1Of]
      rcases hin with ⟨hleft, -⟩ | ⟨hleft, hptr, -⟩
      · have hzero : ctx.left = 0 := hleft
        refine ⟨ctx, if_pos hzero, ?_⟩
        rw [asn_struct_ctx.closing, if_neg (by omega)]
        rfl
      · have hneg : ctx.left < 0 := by omega
        have hptr : ctx.ptr = 0 :: 0 :: t := hptr
        have hLEFT : ctx.LEFT = 0 :: 0 :: t := by
          rw [asn_struct_ctx.LEFT, if_pos hneg, hptr]
        have heoc : isEndOfContents ctx.ptr = true := isEndOfContents_iff.mpr ⟨t, hptr⟩
        have hlong : ¬ ctx.LEFT.length < 2 := by
          rw [hLEFT, List.length_cons, List.length_cons]
          omega
        have htag : ber_fetch_tag ctx.LEFT = some (0, 1) := by
          rw [hLEFT]
          rfl
        have hend : ¬ (ctx.ADVANCE 2).left + 1 < 0 := by
          show ¬ (if ctx.left ≥ 0 then ctx.left - (2 : Nat) else ctx.left) + 1 < 0
          rw [if_neg (by omega)]
          omega
        have hphase2 : phase2Of ctx ctx.ptr.length
            = some { ctx.ADVANCE 2 with left := (ctx.ADVANCE 2).left + 1 } := by
          rw [hptr, List.length_cons, phase2Of, if_pos hneg, if_neg hlong, if_pos heoc,
            List.length_cons, phase2Of, if_neg hend]
        rw [if_neg (by omega), htag]
        simp only [Option.bind_eq_bind, Option.bind_some]
        rw [if_neg (fun h0 => hlong h0.2.2), if_pos ⟨hneg, heoc⟩, hphase2]
        refine ⟨_, rfl, ?_⟩
        rw [asn_struct_ctx.closing, if_pos hneg]
        rfl
  | @cons x e xs es hx _ ih =>
      intro fuel list ctx t hin hfuel
      rw [List.flatten_cons, List.length_append] at hfuel
      obtain ⟨fuel, rfl⟩ : ∃ fuel', fuel = fuel' + 1 := ⟨fuel - 1, by omega⟩
      have htlv := hd.isTlv hx.1
      have htwo := htlv.two_le
      obtain ⟨hzero, hminus, u, hLEFT⟩ := hin.front htwo
      obtain ⟨hhead, heoc⟩ := hin.head_ne htwo
      obtain ⟨tag, tl, htag, -⟩ := htlv.exists_tag
      obtain ⟨tl, htag'⟩ := HasTag.append ⟨tl, htag⟩ u
      have hgood : ¬ (elm_tag ≠ noTag ∧ tag ≠ elm_tag) := by
        rintro ⟨hne, hdiff⟩
        obtain ⟨tl', htag''⟩ := hx.2 hne
        rw [htag] at htag''
        exact hdiff (Prod.mk.inj (Option.some.inj htag'')).1
      rw [← hLEFT] at htag'
      obtain ⟨ctx', hrun, hn⟩ := ih fuel (list ++ [x]) (ctx.ADVANCE e.length) t hin.advance
        (by omega)
      refine ⟨ctx', ?_, ?_⟩
      · rw [phase1Of, if_neg hzero, htag']
        simp only [Option.bind_eq_bind, Option.bind_some]
        rw [if_neg hhead, if_neg heoc, if_neg hgood, hLEFT, hd.stable.complete hx.1 u]
        simp only [Option.bind_some]
        rw [hrun, List.append_assoc]
        rfl
      · rw [hn, (advance_left hLEFT hminus).2, List.flatten_cons, List.length_append]
        show ctx.consumed_myself + e.length + _ + _ = _
        omega

/-- **A SEQUENCE OF is its tag, and behind it elements in their order.** -/
theorem SET_OF_decode_ber_recognises (hd : DecodesTlv ber_decoder) {tags : List ber_tlv_tag_t}
    {tag_mode : Int} {P : ber_tlv_tag_t → Prop} (hT : Tagging tags tag_mode P)
    (hne : tags ≠ []) :
    Recognises (SET_OF_decode_ber elm_tag ber_decoder tags tag_mode) fun xs p =>
      ∃ es, IsConstructed P es p ∧ List.Forall₂ (IsElement elm_tag ber_decoder) xs es := by
  have hbody : ReadsElements (fun n ctx => phase1Of elm_tag ber_decoder (n + 1) [] ctx)
      (fun xs es => List.Forall₂ (IsElement elm_tag ber_decoder) xs es) := by
    refine ⟨?_, ?_⟩
    · intro n ctx ctx' xs hleft h
      obtain ⟨ys, es, t, hin, rfl, hes, hn⟩ := phase1Of_sound hd _ _ _ _ _ hleft h
      exact ⟨es, t, hin, hes, hn⟩
    · intro n ctx es t xs hin hes hn
      exact phase1Of_complete hd hes (n + 1) [] ctx t hin (by omega)
  have hsame : SET_OF_decode_ber elm_tag ber_decoder tags tag_mode = fun b =>
      (phase0 tags tag_mode b).bind fun ctx =>
        (phase1Of elm_tag ber_decoder (b.length + 1) [] ctx).map fun r =>
          (r.1, r.2.consumed_myself) := by
    funext b
    rw [SET_OF_decode_ber]
    cases phase0 tags tag_mode b with
    | none => rfl
    | some ctx =>
        simp only [Option.bind_eq_bind, Option.bind_some]
        cases phase1Of elm_tag ber_decoder (b.length + 1) [] ctx with
        | none => rfl
        | some r => rfl
  rw [hsame]
  exact constructed_recognises hT hne hbody

theorem SET_OF_decode_ber_decodesNested (hd : DecodesNested ber_decoder)
    {tags : List ber_tlv_tag_t} {tag_mode : Int} {P : ber_tlv_tag_t → Prop}
    (hT : Tagging tags tag_mode P) (hne : tags ≠ []) :
    DecodesNested (SET_OF_decode_ber elm_tag ber_decoder tags tag_mode) := by
  refine decodesNested_of (SET_OF_decode_ber_recognises hd.toDecodesTlv hT hne) ?_
  rintro xs p ⟨es, hp, hes⟩
  refine hp.isNested ?_
  clear hp
  induction hes with
  | nil =>
      intro e he
      cases he
  | cons hx _ ih => exact List.forall_mem_cons.mpr ⟨hd.isNested hx.1, ih⟩

end SequenceOf

end ProtoVscp
