import ProtoVscp.SelfDelimiting
import ProtoVscp.BerTlv
import ProtoVscp.DerEncoder

/-! # Tags, lengths and values

    The readers of a tag and of a length are stable.  What `ber_skip_length` steps
    over is a value of the grammar `IsTlv`, and it steps over each of them
    whatever follows (`skipTlv_recognises`). -/

namespace ProtoVscp

open SelfDelimiting

/-! ## Readers are stable -/

private theorem fetchTagLoop_split (tclass : Nat) :
    ∀ (b : ByteStream) (val : Nat) (tag : ber_tlv_tag_t) (n : Nat),
      fetchTagLoop tclass val b = some (tag, n) →
        ∃ p t, b = p ++ t ∧ p.length = n ∧
          ∀ t', fetchTagLoop tclass val (p ++ t') = some (tag, n) := by
  intro b
  induction b with
  | nil =>
      intro val tag n h
      cases h
  | cons oct rest ih =>
      intro val tag n h
      rw [fetchTagLoop] at h
      by_cases hmore : oct.toNat &&& 0x80 ≠ 0
      · rw [if_pos hmore] at h
        by_cases hbig : ((val <<< 7) ||| (oct.toNat &&& 0x7F)) >>> 23 ≠ 0
        · rw [if_pos hbig] at h
          cases h
        · rw [if_neg hbig, Option.map_eq_some_iff] at h
          obtain ⟨⟨tag', n'⟩, hrest, heq⟩ := h
          obtain ⟨rfl, rfl⟩ := Prod.mk.inj heq
          obtain ⟨p, t, rfl, hp, hsame⟩ := ih _ _ _ hrest
          refine ⟨oct :: p, t, rfl, congrArg Nat.succ hp, fun t' => ?_⟩
          rw [List.cons_append, fetchTagLoop, if_pos hmore, if_neg hbig, hsame t']
          rfl
      · rw [if_neg hmore] at h
        obtain ⟨rfl, rfl⟩ := Prod.mk.inj (Option.some.inj h)
        refine ⟨[oct], rest, rfl, rfl, fun t' => ?_⟩
        rw [List.cons_append, fetchTagLoop, if_neg hmore]

theorem ber_fetch_tag_stable : Stable ber_fetch_tag := by
  refine stable_of ?_
  intro b tag n h
  cases b with
  | nil => cases h
  | cons oct rest =>
      rw [ber_fetch_tag] at h
      by_cases hlow : oct.toNat &&& 0x1F ≠ 0x1F
      · rw [if_pos hlow] at h
        obtain ⟨rfl, rfl⟩ := Prod.mk.inj (Option.some.inj h)
        refine ⟨[oct], rest, rfl, rfl, fun t' => ?_⟩
        rw [List.cons_append, ber_fetch_tag, if_pos hlow]
      · rw [if_neg hlow, Option.map_eq_some_iff] at h
        obtain ⟨⟨tag', n'⟩, hrest, heq⟩ := h
        obtain ⟨rfl, rfl⟩ := Prod.mk.inj heq
        obtain ⟨p, t, rfl, hp, hsame⟩ := fetchTagLoop_split _ _ _ _ _ hrest
        refine ⟨oct :: p, t, rfl, congrArg Nat.succ hp, fun t' => ?_⟩
        rw [List.cons_append, ber_fetch_tag, if_neg hlow, hsame t']
        rfl

private theorem fetchLengthLoop_split :
    ∀ (oct len : Nat) (b : ByteStream) (r : Nat),
      fetchLengthLoop oct len b = some r →
        ∃ p t, b = p ++ t ∧ p.length = oct ∧
          ∀ t', fetchLengthLoop oct len (p ++ t') = some r := by
  intro oct
  induction oct with
  | zero =>
      intro len b r h
      exact ⟨[], b, rfl, rfl, fun _ => h⟩
  | succ oct ih =>
      intro len b r h
      cases b with
      | nil => cases h
      | cons x rest =>
          rw [fetchLengthLoop] at h
          by_cases hbig : ber_tlv_len_max ≤ ((len <<< 8) ||| x.toNat) ∨
              (((len <<< 8) ||| x.toNat) >>> 56 ≠ 0 ∧ oct + 1 > 1)
          · rw [if_pos hbig] at h
            cases h
          · rw [if_neg hbig] at h
            obtain ⟨p, t, rfl, hp, hsame⟩ := ih _ _ _ h
            refine ⟨x :: p, t, rfl, congrArg Nat.succ hp, fun t' => ?_⟩
            rw [List.cons_append, fetchLengthLoop, if_neg hbig]
            exact hsame t'

theorem ber_fetch_length_stable (constr : Bool) : Stable (ber_fetch_length constr) := by
  refine stable_of ?_
  intro b len n h
  cases b with
  | nil => cases h
  | cons oct rest =>
      have hone : ∀ r, ber_fetch_length constr (oct :: rest) = some (r, 1) →
          (∀ t', ber_fetch_length constr (oct :: t') = some (r, 1)) →
          ber_fetch_length constr (oct :: rest) = some (len, n) →
          ∃ p t, oct :: rest = p ++ t ∧ p.length = n ∧
            ∀ t', ber_fetch_length constr (p ++ t') = some (len, n) := by
        intro r hr hsame hn
        rw [hr] at hn
        obtain ⟨rfl, rfl⟩ := Prod.mk.inj (Option.some.inj hn)
        exact ⟨[oct], rest, rfl, rfl, hsame⟩
      by_cases hshort : oct &&& 0x80 = 0
      · exact hone _ (by rw [ber_fetch_length, if_pos hshort])
          (fun t' => by rw [ber_fetch_length, if_pos hshort]) h
      · by_cases hindef : constr = true ∧ oct = 0x80
        · exact hone _ (by rw [ber_fetch_length, if_neg hshort, if_pos hindef])
            (fun t' => by rw [ber_fetch_length, if_neg hshort, if_pos hindef]) h
        · by_cases hff : oct = 0xff
          · rw [ber_fetch_length, if_neg hshort, if_neg hindef, if_pos hff] at h
            cases h
          · rw [ber_fetch_length, if_neg hshort, if_neg hindef, if_neg hff] at h
            cases hloop : fetchLengthLoop (oct.toNat &&& 0x7F) 0 rest with
            | none =>
                rw [hloop] at h
                cases h
            | some r =>
                obtain ⟨p, t, rfl, hp, hsame⟩ := fetchLengthLoop_split _ _ _ _ hloop
                simp only [hloop] at h
                by_cases hmax : ber_tlv_len_max ≤ r + 1024
                · rw [if_pos hmax] at h
                  cases h
                · rw [if_neg hmax] at h
                  obtain ⟨rfl, rfl⟩ := Prod.mk.inj (Option.some.inj h)
                  refine ⟨oct :: p, t, rfl, congrArg Nat.succ hp, fun t' => ?_⟩
                  rw [List.cons_append, ber_fetch_length, if_neg hshort, if_neg hindef,
                    if_neg hff, hsame t']
                  exact if_neg hmax

/-! ## Tag and length -/

/-- What stands in front of the contents of a value. -/
structure TL where
  tag : ber_tlv_tag_t
  constr : Bool
  len : Option Nat
  deriving DecidableEq

/-- A tag, and whether the value behind it is constructed. -/
def fetchT : Decoder UInt8 (ber_tlv_tag_t × Bool) := fun b =>
  (ber_fetch_tag b).map fun r => ((r.1, BER_TLV_CONSTRUCTED b), r.2)

/-- The length behind a tag. -/
def fetchL (t : ber_tlv_tag_t × Bool) : Decoder UInt8 TL := fun b =>
  (ber_fetch_length t.2 b).map fun r => (⟨t.1, t.2, r.1⟩, r.2)

/-- Tag and length, as every decoder fetches them. -/
def fetchTL : Decoder UInt8 TL := seq fetchT fetchL

/-- The octets `T` are a tag. -/
def IsTag (t : ber_tlv_tag_t × Bool) (T : ByteStream) : Prop :=
  Exactly ber_fetch_tag t.1 T ∧ BER_TLV_CONSTRUCTED T = t.2

/-- The octets `L` are the length of a value with the tag `t`. -/
def IsLength (t : ber_tlv_tag_t × Bool) (h : TL) (L : ByteStream) : Prop :=
  h.tag = t.1 ∧ h.constr = t.2 ∧ Exactly (ber_fetch_length t.2) h.len L

theorem IsTag.ne_nil {t : ber_tlv_tag_t × Bool} {T : ByteStream} (h : IsTag t T) : T ≠ [] := by
  intro hnil
  rw [IsTag, hnil] at h
  cases h.1

theorem IsLength.ne_nil {t : ber_tlv_tag_t × Bool} {h : TL} {L : ByteStream}
    (hL : IsLength t h L) : L ≠ [] := by
  intro hnil
  rw [IsLength, hnil] at hL
  cases hL.2.2

/-- The first octet tells whether a value is constructed. -/
theorem BER_TLV_CONSTRUCTED_append {p : ByteStream} (h : p ≠ []) (t : ByteStream) :
    BER_TLV_CONSTRUCTED (p ++ t) = BER_TLV_CONSTRUCTED p := by
  cases p with
  | nil => exact absurd rfl h
  | cons oct rest => rfl

theorem fetchT_recognises : Recognises fetchT IsTag := by
  refine recognises_of ?_ ?_
  · intro b t n h
    rw [fetchT, Option.map_eq_some_iff] at h
    obtain ⟨⟨tag, n'⟩, htag, heq⟩ := h
    obtain ⟨rfl, rfl⟩ := Prod.mk.inj heq
    obtain ⟨p, t, rfl, hn, hp⟩ := ber_fetch_tag_stable.split htag
    have hne : p ≠ [] := by
      rintro rfl
      cases hp
    exact ⟨p, t, rfl, hn, hp, (BER_TLV_CONSTRUCTED_append hne t).symm⟩
  · intro t p rest h
    rw [fetchT, ber_fetch_tag_stable.complete h.1, BER_TLV_CONSTRUCTED_append h.ne_nil, h.2]
    rfl

theorem fetchL_recognises (t : ber_tlv_tag_t × Bool) :
    Recognises (fetchL t) (IsLength t) := by
  refine recognises_of ?_ ?_
  · intro b h n hrun
    rw [fetchL, Option.map_eq_some_iff] at hrun
    obtain ⟨⟨len, n'⟩, hlen, heq⟩ := hrun
    obtain ⟨rfl, rfl⟩ := Prod.mk.inj heq
    obtain ⟨p, rest, rfl, hn, hp⟩ := (ber_fetch_length_stable t.2).split hlen
    exact ⟨p, rest, rfl, hn, rfl, rfl, hp⟩
  · intro h p rest hL
    obtain ⟨htag, hconstr, hlen⟩ := hL
    rw [fetchL, (ber_fetch_length_stable t.2).complete hlen]
    cases h with
    | mk tag constr len =>
        obtain rfl := htag
        obtain rfl := hconstr
        rfl

/-- The octets `p` are a tag and a length. -/
def IsTL (h : TL) (p : ByteStream) : Prop := Exactly fetchTL h p

theorem fetchTL_recognises_seq : Recognises fetchTL (Seq IsTag IsLength) :=
  fetchT_recognises.seq fetchL_recognises

theorem fetchTL_stable : Stable fetchTL := fetchTL_recognises_seq.stable

theorem isTL_iff {h : TL} {p : ByteStream} :
    IsTL h p ↔ ∃ T L, p = T ++ L ∧ IsTag (h.tag, h.constr) T ∧
      Exactly (ber_fetch_length h.constr) h.len L := by
  rw [IsTL, fetchTL_recognises_seq.exactly_iff]
  constructor
  · rintro ⟨t, T, L, rfl, hT, htag, hconstr, hlen⟩
    rw [htag, hconstr]
    exact ⟨T, L, rfl, hT, hlen⟩
  · rintro ⟨T, L, rfl, hT, hlen⟩
    exact ⟨_, T, L, rfl, hT, rfl, rfl, hlen⟩

/-- Tag and length are two octets at least. -/
theorem IsTL.two_le {h : TL} {p : ByteStream} (hp : IsTL h p) : 2 ≤ p.length := by
  obtain ⟨t, T, L, rfl, hT, hL⟩ := fetchTL_recognises_seq.exactly_iff.mp hp
  have hTpos := List.length_pos_of_ne_nil hT.ne_nil
  have hLpos := List.length_pos_of_ne_nil hL.ne_nil
  rw [List.length_append]
  omega

/-- Only a constructed value has an indefinite length. -/
theorem ber_fetch_length_primitive {b : ByteStream} {len : Option Nat} {n : Nat}
    (h : ber_fetch_length false b = some (len, n)) : ∃ l, len = some l := by
  cases b with
  | nil => cases h
  | cons oct rest =>
      rw [ber_fetch_length] at h
      by_cases hshort : oct &&& 0x80 = 0
      · rw [if_pos hshort] at h
        exact ⟨_, (Prod.mk.inj (Option.some.inj h)).1.symm⟩
      · rw [if_neg hshort, if_neg (fun h0 => Bool.false_ne_true h0.1)] at h
        by_cases hff : oct = 0xff
        · rw [if_pos hff] at h
          cases h
        · rw [if_neg hff] at h
          cases hloop : fetchLengthLoop (oct.toNat &&& 0x7F) 0 rest with
          | none =>
              rw [hloop] at h
              cases h
          | some r =>
              simp only [hloop] at h
              by_cases hmax : ber_tlv_len_max ≤ r + 1024
              · rw [if_pos hmax] at h
                cases h
              · rw [if_neg hmax] at h
                exact ⟨_, (Prod.mk.inj (Option.some.inj h)).1.symm⟩

/-! ## Values -/

/-- A value: tag, length, and as many octets of contents as the length says, or,
    when the length is indefinite, elements and the end-of-contents octets. -/
inductive IsTlv : ByteStream → Prop
  | definite {h : TL} {p c : ByteStream} (hp : IsTL h p) (hlen : h.len = some c.length) :
      IsTlv (p ++ c)
  | indefinite {h : TL} {p : ByteStream} {es : List ByteStream} (hp : IsTL h p)
      (hlen : h.len = none) (hes : ∀ e ∈ es, IsTlv e)
      (heoc : ∀ e ∈ es, isEndOfContents e = false) : IsTlv (p ++ es.flatten ++ [0, 0])

/-- A value whose constructed parts are made of values all the way down. -/
inductive IsNested : ByteStream → Prop where
  | primitive {tag : ber_tlv_tag_t} {hdr c : ByteStream}
      (hTL : IsTL ⟨tag, false, some c.length⟩ hdr) : IsNested (hdr ++ c)
  | definite {tag : ber_tlv_tag_t} {hdr : ByteStream} {es : List ByteStream}
      (hTL : IsTL ⟨tag, true, some es.flatten.length⟩ hdr) (hes : ∀ e ∈ es, IsNested e) :
      IsNested (hdr ++ es.flatten)
  | indefinite {tag : ber_tlv_tag_t} {hdr : ByteStream} {es : List ByteStream}
      (hTL : IsTL ⟨tag, true, none⟩ hdr) (hes : ∀ e ∈ es, IsNested e)
      (heoc : ∀ e ∈ es, isEndOfContents e = false) : IsNested (hdr ++ es.flatten ++ [0, 0])

theorem IsNested.isTlv {p : ByteStream} (h : IsNested p) : IsTlv p := by
  induction h with
  | primitive hTL => exact .definite hTL rfl
  | definite hTL _ _ => exact .definite hTL rfl
  | indefinite hTL _ heoc ih => exact .indefinite hTL rfl ih heoc

/-- The tag, and `ber_skip_length` from behind it, to a given depth. -/
def skipTlvTo (fuel : Nat) (b : ByteStream) : Option Nat :=
  match ber_fetch_tag b with
  | none => none
  | some (_, tl) => (skipLength fuel (BER_TLV_CONSTRUCTED b) (b.drop tl)).map (tl + ·)

/-- The tag, and `ber_skip_length` from behind it, as the decoders step over a
    value. -/
def skipTlv : Decoder UInt8 Unit := fun b =>
  match ber_fetch_tag b with
  | none => none
  | some (_, tl) =>
      (ber_skip_length (BER_TLV_CONSTRUCTED b) (b.drop tl)).map fun ll => ((), tl + ll)

/-- One round of the loop over elements. -/
theorem skipElements_succ (fuel : Nat) (b : ByteStream) :
    skipElements (fuel + 1) b = (skipTlvTo fuel b).bind fun n =>
      if isEndOfContents b then some n else (skipElements fuel (b.drop n)).map (n + ·) := by
  rw [skipElements, skipTlvTo]
  cases ber_fetch_tag b with
  | none => rfl
  | some r =>
      cases hskip : skipLength fuel (BER_TLV_CONSTRUCTED b) (b.drop r.2) with
      | none => simp only [hskip, Option.map_none, Option.bind_none]
      | some ll => simp only [hskip, Option.map_some, Option.bind_some]

/-- What a call of `skipTlvTo` steps over: tag and length, and behind them the
    contents or the elements. -/
theorem skipTlvTo_succ (fuel : Nat) (b : ByteStream) :
    skipTlvTo (fuel + 1) b = (fetchTL b).bind fun r =>
      match r.1.len with
      | some vlen => if r.2 + vlen > b.length then none else some (r.2 + vlen)
      | none => (skipElements fuel (b.drop r.2)).map (r.2 + ·) := by
  rw [skipTlvTo, fetchTL, seq, fetchT]
  cases htag : ber_fetch_tag b with
  | none => rfl
  | some r =>
      obtain ⟨p, t, rfl, hn, -⟩ := ber_fetch_tag_stable.split htag
      simp only [skipLength, fetchL, ← hn, List.drop_left, Option.map_some, Option.bind_eq_bind,
        Option.bind_some]
      cases hlen : ber_fetch_length (BER_TLV_CONSTRUCTED (p ++ t)) t with
      | none => rfl
      | some s =>
          cases hs : s.1 with
          | none =>
              obtain ⟨len, m⟩ := s
              obtain rfl := hs
              simp only [Option.map_some, Option.bind_some, Option.map_map, ← List.drop_drop,
                List.drop_left]
              congr 1
              funext k
              exact (Nat.add_assoc _ _ _).symm
          | some vlen =>
              obtain ⟨len, m⟩ := s
              obtain rfl := hs
              simp only [Option.map_some, Option.bind_some, List.length_append]
              by_cases hfit : m + vlen > t.length
              · rw [if_pos hfit, if_pos (by omega)]
                rfl
              · rw [if_neg hfit, if_neg (by omega), Option.map_some, Nat.add_assoc]

theorem isEndOfContents_iff {b : ByteStream} :
    isEndOfContents b = true ↔ ∃ t, b = 0 :: 0 :: t := by
  rw [isEndOfContents, decide_eq_true_iff]
  constructor
  · intro h
    refine ⟨b.drop 2, ?_⟩
    calc b = b.take 2 ++ b.drop 2 := (List.take_append_drop 2 b).symm
      _ = 0 :: 0 :: b.drop 2 := by rw [h]; rfl
  · rintro ⟨t, rfl⟩
    rfl

/-- The end-of-contents octets at the front of a value of two octets or more. -/
theorem isEndOfContents_append {p : ByteStream} (h : 2 ≤ p.length) (t : ByteStream) :
    isEndOfContents (p ++ t) = isEndOfContents p := by
  rw [isEndOfContents, isEndOfContents, List.take_append_of_le_length h]

/-- The end-of-contents octets are a tag and a length. -/
theorem skipTlvTo_endOfContents (fuel : Nat) (t : ByteStream) :
    skipTlvTo (fuel + 1) (0 :: 0 :: t) = some 2 := rfl

theorem IsTlv.two_le {p : ByteStream} (h : IsTlv p) : 2 ≤ p.length := by
  cases h with
  | definite hp _ =>
      have htwo := hp.two_le
      rw [List.length_append]
      omega
  | indefinite hp _ _ _ =>
      have htwo := hp.two_le
      rw [List.length_append, List.length_append]
      omega

private theorem skipTlvTo_sound : ∀ fuel : Nat,
    (∀ b n, skipTlvTo fuel b = some n → ∃ p t, b = p ++ t ∧ p.length = n ∧ IsTlv p) ∧
    (∀ b n, skipElements fuel b = some n → ∃ (es : List ByteStream) (t : ByteStream),
      b = es.flatten ++ ([0, 0] ++ t) ∧ es.flatten.length + 2 = n ∧ (∀ e ∈ es, IsTlv e) ∧
      ∀ e ∈ es, isEndOfContents e = false) := by
  intro fuel
  induction fuel with
  | zero =>
      refine ⟨?_, ?_⟩
      · intro b n h
        rw [skipTlvTo] at h
        cases htag : ber_fetch_tag b with
        | none =>
            rw [htag] at h
            cases h
        | some r =>
            simp only [htag, skipLength] at h
            cases h
      · intro b n h
        cases h
  | succ fuel ih =>
      obtain ⟨ihtlv, ihelements⟩ := ih
      have htlv : ∀ b n, skipTlvTo (fuel + 1) b = some n →
          ∃ p t, b = p ++ t ∧ p.length = n ∧ IsTlv p := by
        intro b n h
        rw [skipTlvTo_succ, Option.bind_eq_some_iff] at h
        obtain ⟨⟨tl, m⟩, hTL, h⟩ := h
        obtain ⟨p, t, rfl, rfl, hp⟩ := fetchTL_stable.split hTL
        cases hlen : tl.len with
        | some vlen =>
            simp only [hlen, List.length_append] at h
            by_cases hfit : p.length + vlen > p.length + t.length
            · rw [if_pos hfit] at h
              cases h
            · rw [if_neg hfit] at h
              obtain rfl := Option.some.inj h
              have htake : (t.take vlen).length = vlen := by
                rw [List.length_take, Nat.min_eq_left (by omega)]
              refine ⟨p ++ t.take vlen, t.drop vlen, ?_, ?_, ?_⟩
              · rw [List.append_assoc, List.take_append_drop]
              · rw [List.length_append, htake]
              · exact .definite hp (by rw [hlen, htake])
        | none =>
            simp only [hlen, List.drop_left, Option.map_eq_some_iff] at h
            obtain ⟨k, hk, rfl⟩ := h
            obtain ⟨es, t', rfl, rfl, hes, heoc⟩ := ihelements _ _ hk
            refine ⟨p ++ es.flatten ++ [0, 0], t', ?_, ?_, .indefinite hp hlen hes heoc⟩
            · simp only [List.append_assoc]
            · simp only [List.length_append, List.length_cons, List.length_nil, Nat.add_assoc]
      refine ⟨htlv, ?_⟩
      intro b n h
      rw [skipElements_succ, Option.bind_eq_some_iff] at h
      obtain ⟨m, hm, h⟩ := h
      by_cases heoc : isEndOfContents b = true
      · rw [if_pos heoc] at h
        obtain rfl := Option.some.inj h
        obtain ⟨t, rfl⟩ := isEndOfContents_iff.mp heoc
        obtain ⟨fuel', rfl⟩ : ∃ fuel', fuel = fuel' + 1 := by
          cases fuel with
          | zero => cases hm
          | succ fuel' => exact ⟨fuel', rfl⟩
        rw [skipTlvTo_endOfContents] at hm
        obtain rfl := Option.some.inj hm
        refine ⟨[], t, rfl, rfl, ?_, ?_⟩
        · intro e he
          cases he
        · intro e he
          cases he
      · rw [if_neg heoc, Option.map_eq_some_iff] at h
        obtain ⟨k, hk, rfl⟩ := h
        obtain ⟨p, t, rfl, rfl, hp⟩ := ihtlv _ _ hm
        rw [List.drop_left] at hk
        obtain ⟨es, t', rfl, rfl, hes, hnone⟩ := ihelements _ _ hk
        rw [isEndOfContents_append hp.two_le, Bool.not_eq_true] at heoc
        refine ⟨p :: es, t', ?_, ?_, ?_, ?_⟩
        · rw [List.flatten_cons, List.append_assoc]
        · rw [List.flatten_cons, List.length_append, Nat.add_assoc]
        · exact List.forall_mem_cons.mpr ⟨hp, hes⟩
        · exact List.forall_mem_cons.mpr ⟨heoc, hnone⟩

/-- A value starts with a tag. -/
theorem IsTlv.exists_tag {p : ByteStream} (h : IsTlv p) :
    ∃ tag tl, ber_fetch_tag p = some (tag, tl) ∧ 1 ≤ tl := by
  have hfront : ∀ {h : TL} {q t : ByteStream}, IsTL h q →
      ∃ tag tl, ber_fetch_tag (q ++ t) = some (tag, tl) ∧ 1 ≤ tl := by
    intro h q t hq
    obtain ⟨T, L, rfl, hT, -⟩ := isTL_iff.mp hq
    rw [List.append_assoc]
    exact ⟨h.tag, T.length, ber_fetch_tag_stable.complete hT.1 _,
      List.length_pos_of_ne_nil hT.ne_nil⟩
  cases h with
  | definite hp _ => exact hfront hp
  | indefinite hp _ _ _ =>
      rw [List.append_assoc]
      exact hfront hp

/-- The loop over elements, with an octet of fuel for each of theirs. -/
private theorem skipElements_complete (t : ByteStream) : ∀ (es : List ByteStream),
    (∀ e ∈ es, IsTlv e) → (∀ e ∈ es, isEndOfContents e = false) →
    (∀ e ∈ es, ∀ fuel t, e.length ≤ fuel + 1 → skipTlvTo fuel (e ++ t) = some e.length) →
    ∀ fuel, es.flatten.length + 2 ≤ fuel →
      skipElements fuel (es.flatten ++ ([0, 0] ++ t)) = some (es.flatten.length + 2) := by
  intro es
  induction es with
  | nil =>
      intro _ _ _ fuel hfuel
      rw [List.flatten_nil, List.length_nil] at hfuel
      obtain ⟨fuel, rfl⟩ : ∃ fuel', fuel = fuel' + 2 := ⟨fuel - 2, by omega⟩
      rw [skipElements_succ]
      rfl
  | cons e es ih =>
      intro hes heoc hskip fuel hfuel
      obtain ⟨he, hes⟩ := List.forall_mem_cons.mp hes
      obtain ⟨hnot, heoc⟩ := List.forall_mem_cons.mp heoc
      obtain ⟨hfirst, hskip⟩ := List.forall_mem_cons.mp hskip
      rw [List.flatten_cons, List.length_append] at hfuel
      obtain ⟨fuel, rfl⟩ : ∃ fuel', fuel = fuel' + 1 := ⟨fuel - 1, by omega⟩
      have htwo := he.two_le
      rw [skipElements_succ, List.flatten_cons, List.append_assoc, hfirst _ _ (by omega),
        Option.bind_some, isEndOfContents_append htwo, hnot, if_neg Bool.false_ne_true,
        List.drop_left, ih hes heoc hskip fuel (by omega), Option.map_some, List.length_append,
        Nat.add_assoc]

/-- A value that is behind its tag no longer than `fuel` is stepped over. -/
private theorem skipTlvTo_complete {p : ByteStream} (h : IsTlv p) :
    ∀ (fuel : Nat) (t : ByteStream) (tag : ber_tlv_tag_t) (tl : Nat),
      ber_fetch_tag p = some (tag, tl) → p.length ≤ fuel + tl →
        skipTlvTo fuel (p ++ t) = some p.length := by
  induction h with
  | @definite h p c hp hlen =>
      intro fuel t tag tl htag hfuel
      obtain ⟨T, L, rfl, hT, hL⟩ := isTL_iff.mp hp
      rw [List.append_assoc, ber_fetch_tag_stable.complete hT.1] at htag
      obtain ⟨-, rfl⟩ := Prod.mk.inj (Option.some.inj htag)
      have hLpos := List.length_pos_of_ne_nil
        (IsLength.ne_nil (t := (h.tag, h.constr)) ⟨rfl, rfl, hL⟩)
      simp only [List.length_append] at hfuel
      obtain ⟨fuel, rfl⟩ : ∃ fuel', fuel = fuel' + 1 := ⟨fuel - 1, by omega⟩
      rw [skipTlvTo_succ, List.append_assoc, fetchTL_stable.complete hp, Option.bind_some]
      simp only [hlen, List.length_append]
      rw [if_neg (by omega)]
  | @indefinite h p es hp hlen hes heoc ih =>
      intro fuel t tag tl htag hfuel
      obtain ⟨T, L, rfl, hT, hL⟩ := isTL_iff.mp hp
      rw [List.append_assoc, List.append_assoc, ber_fetch_tag_stable.complete hT.1] at htag
      obtain ⟨-, rfl⟩ := Prod.mk.inj (Option.some.inj htag)
      have hLpos := List.length_pos_of_ne_nil
        (IsLength.ne_nil (t := (h.tag, h.constr)) ⟨rfl, rfl, hL⟩)
      simp only [List.length_append, List.length_cons, List.length_nil] at hfuel
      obtain ⟨fuel, rfl⟩ : ∃ fuel', fuel = fuel' + 1 := ⟨fuel - 1, by omega⟩
      have hskip : ∀ e ∈ es, ∀ fuel t, e.length ≤ fuel + 1 →
          skipTlvTo fuel (e ++ t) = some e.length := by
        intro e he fuel t hfuel
        obtain ⟨tag, tl, htag, hpos⟩ := (hes e he).exists_tag
        exact ih e he fuel t tag tl htag (by omega)
      rw [skipTlvTo_succ, List.append_assoc, List.append_assoc,
        fetchTL_stable.complete hp, Option.bind_some]
      simp only [hlen, List.drop_left]
      rw [skipElements_complete t es hes heoc hskip fuel (by omega), Option.map_some]
      simp only [List.length_append, List.length_cons, List.length_nil, Nat.add_assoc]

theorem skipTlv_eq (b : ByteStream) :
    skipTlv b = match ber_fetch_tag b with
      | none => none
      | some (_, tl) => (skipTlvTo ((b.drop tl).length + 1) b).map fun n => ((), n) := by
  rw [skipTlv]
  cases htag : ber_fetch_tag b with
  | none => rfl
  | some r =>
      simp only [skipTlvTo, htag, ber_skip_length, Option.map_map]
      rfl

/-- **`ber_skip_length` steps over a value of the grammar, and over each of
    them.** -/
theorem skipTlv_recognises : Recognises skipTlv fun _ p => IsTlv p := by
  refine recognises_of ?_ ?_
  · intro b x n h
    rw [skipTlv_eq] at h
    cases htag : ber_fetch_tag b with
    | none =>
        rw [htag] at h
        cases h
    | some r =>
        simp only [htag, Option.map_eq_some_iff] at h
        obtain ⟨m, hm, heq⟩ := h
        obtain ⟨-, rfl⟩ := Prod.mk.inj heq
        exact (skipTlvTo_sound _).1 _ _ hm
  · intro x p t h
    obtain ⟨tag, tl, htag, -⟩ := h.exists_tag
    obtain ⟨q, q', rfl, hq, hexact⟩ := ber_fetch_tag_stable.split htag
    have hwhole := ber_fetch_tag_stable.complete hexact (q' ++ t)
    rw [← List.append_assoc] at hwhole
    rw [skipTlv_eq, hwhole]
    simp only []
    rw [skipTlvTo_complete h _ t tag tl htag ?_, Option.map_some]
    rw [List.append_assoc, List.drop_left, List.length_append, List.length_append]
    omega

end ProtoVscp
