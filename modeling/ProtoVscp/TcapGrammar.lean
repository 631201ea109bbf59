import ProtoVscp.TcapTypesProofs

/-! # The elements of the messages

    What the elements of a Begin, an Invoke and an InitialDPArg are to be, spelled
    out member by member.  Begin, End and InitialDPArg have one member that must be
    there and two that need not (`threeMembers_iff`); an InitialDPArg goes on with
    whatever values follow. -/

namespace ProtoVscp

open SelfDelimiting

/-! ## Fields -/

/-- A value with the tag `tag`, which the decoder takes as `x`. -/
def Field {α : Type} (tag : ber_tlv_tag_t) (d : ber_type_decoder_f α) (x : α) (p : ByteStream) :
    Prop := HasTag tag p ∧ Exactly d x p

/-- A member that need not be there. -/
inductive Opt {α : Type} (R : α → ByteStream → Prop) : Option α → List ByteStream → Prop where
  | absent : Opt R none []
  | present {x : α} {p : ByteStream} (h : R x p) : Opt R (some x) [p]

theorem HasTag.unique {a b : ber_tlv_tag_t} {p : ByteStream} (ha : HasTag a p) (hb : HasTag b p) :
    a = b := by
  obtain ⟨n, ha⟩ := ha
  obtain ⟨m, hb⟩ := hb
  rw [ha] at hb
  exact (Prod.mk.inj (Option.some.inj hb)).1

theorem exactly_map {α β : Type} {d : ber_type_decoder_f α} {f : α → β} {y : β} {p : ByteStream} :
    Exactly (fun b => (d b).map fun r => (f r.1, r.2)) y p ↔ ∃ x, Exactly d x p ∧ f x = y := by
  rw [Exactly, Option.map_eq_some_iff]
  constructor
  · rintro ⟨⟨x, n⟩, hd, heq⟩
    obtain ⟨hf, rfl⟩ := Prod.mk.inj heq
    exact ⟨x, hd, hf⟩
  · rintro ⟨x, hd, rfl⟩
    exact ⟨_, hd, rfl⟩

/-! ## A round at a time -/

section Members

variable {σ : Type} {td : asn_SEQUENCE σ} {edx : Nat} {st st' : σ} {es : List ByteStream}

theorem members_behind_iff (hedx : td.elements.length ≤ edx) :
    Members td edx st es st' ↔ st = st' ∧ Rest td es := by
  constructor
  · intro h
    cases h with
    | behind _ hrest => exact ⟨rfl, hrest⟩
    | finish helm _ => exact absurd (List.getElem?_eq_some_iff.mp helm).1 (Nat.not_lt.mpr hedx)
    | member helm _ _ _ _ _ =>
        exact absurd (List.getElem?_eq_some_iff.mp helm).1 (Nat.not_lt.mpr hedx)
    | skip helm _ _ _ _ _ =>
        exact absurd (List.getElem?_eq_some_iff.mp helm).1 (Nat.not_lt.mpr hedx)
  · rintro ⟨rfl, hrest⟩
    exact .behind hedx hrest

theorem members_nil_iff {elm : asn_TYPE_member σ} (helm : td.elements[edx]? = some elm) :
    Members td edx st [] st' ↔ st = st' ∧ td.mayEnd edx elm.optional = true := by
  constructor
  · intro h
    cases h with
    | behind hedx _ => exact absurd (List.getElem?_eq_some_iff.mp helm).1 (Nat.not_lt.mpr hedx)
    | finish helm' hend =>
        rw [helm] at helm'
        exact ⟨rfl, Option.some.inj helm' ▸ hend⟩
  · rintro ⟨rfl, hend⟩
    exact .finish helm hend

theorem members_cons_iff {elm : asn_TYPE_member σ} (helm : td.elements[edx]? = some elm)
    {p : ByteStream} :
    Members td edx st (p :: es) st' ↔ ∃ tag, HasTag tag p ∧
      ((∃ n m set, td.nextMember edx elm.optional tag = some n ∧ td.elements[n]? = some m ∧
          Exactly m.ber_decoder set p ∧ Members td (n + 1) (set st) es st') ∨
        (td.nextMember edx elm.optional tag = none ∧
          td.IN_EXTENSION_GROUP (edx + elm.optional) = true ∧ IsTlv p ∧
          Members td (edx + elm.optional) st es st')) := by
  constructor
  · intro h
    cases h with
    | behind hedx _ => exact absurd (List.getElem?_eq_some_iff.mp helm).1 (Nat.not_lt.mpr hedx)
    | member helm' htag hnext hm hp hes =>
        rw [helm] at helm'
        obtain rfl := Option.some.inj helm'
        exact ⟨_, htag, Or.inl ⟨_, _, _, hnext, hm, hp, hes⟩⟩
    | skip helm' htag hnext hext hp hes =>
        rw [helm] at helm'
        obtain rfl := Option.some.inj helm'
        exact ⟨_, htag, Or.inr ⟨hnext, hext, hp, hes⟩⟩
  · rintro ⟨tag, htag, ⟨n, m, set, hnext, hm, hp, hes⟩ | ⟨hnext, hext, hp, hes⟩⟩
    · exact .member helm htag hnext hm hp hes
    · exact .skip helm htag hnext hext hp hes

end Members

/-! ## Begin, End and InitialDPArg -/

section Three

variable {α₀ α₁ α₂ σ : Type}

/-- A SEQUENCE of one member that must be there and two that need not. -/
structure ThreeMembers (td : asn_SEQUENCE σ) (t₀ t₁ t₂ : ber_tlv_tag_t)
    (d₀ : ber_type_decoder_f α₀) (d₁ : ber_type_decoder_f α₁) (d₂ : ber_type_decoder_f α₂)
    (set₀ : α₀ → σ → σ) (set₁ : α₁ → σ → σ) (set₂ : α₂ → σ → σ) : Prop where
  elements : td.elements = [asn_MBR 0 t₀ d₀ set₀, asn_MBR 2 t₁ d₁ set₁, asn_MBR 1 t₂ d₂ set₂]
  noTags : t₀ ≠ noTag ∧ t₁ ≠ noTag ∧ t₂ ≠ noTag
  distinct : t₁ ≠ t₂
  notFirst : td.IN_EXTENSION_GROUP 0 = false

variable {td : asn_SEQUENCE σ} {t₀ t₁ t₂ : ber_tlv_tag_t} {d₀ : ber_type_decoder_f α₀}
  {d₁ : ber_type_decoder_f α₁} {d₂ : ber_type_decoder_f α₂} {set₀ : α₀ → σ → σ}
  {set₁ : α₁ → σ → σ} {set₂ : α₂ → σ → σ}

/-- Values behind the members. -/
structure Behind (td : asn_SEQUENCE σ) (es : List ByteStream) : Prop where
  allowed : es ≠ [] → td.IN_EXTENSION_GROUP 3 = true
  isTlv : ∀ e ∈ es, IsTlv e

/-- The value that comes first is not the member with the tag `tag`. -/
def FirstIsNot (tag : ber_tlv_tag_t) (es : List ByteStream) : Prop :=
  ∀ e ∈ es.head?, ¬ HasTag tag e

/-- The linear search steps over a member with another tag. -/
theorem linearSearch_mbr {α : Type} {tag t : ber_tlv_tag_t} {use_bsearch : Bool}
    {n optional : Nat} {d : ber_type_decoder_f α} {set : α → σ → σ} (ht : t ≠ noTag)
    (rest : List (asn_TYPE_member σ)) :
    linearSearch tag use_bsearch n (asn_MBR optional t d set :: rest)
      = if tag = t then .inl n else linearSearch tag use_bsearch (n + 1) rest := by
  rw [linearSearch]
  by_cases htag : tag = t
  · have hyes : tag = (asn_MBR optional t d set).tag ∨
        (asn_MBR optional t d set).open_type = true := Or.inl htag
    rw [if_pos hyes, if_pos htag]
  · have hnot : ¬ (tag = (asn_MBR optional t d set).tag ∨
        (asn_MBR optional t d set).open_type = true) := by
      rintro (h | h)
      · exact htag h
      · cases h
    rw [if_neg hnot, if_neg htag]
    exact if_neg ht

/-- The next member, where no more than eight may be it. -/
theorem nextMember_eq {edx optional : Nat} (hfew : optional < 8) (tag : ber_tlv_tag_t) :
    td.nextMember edx optional tag
      = (linearSearch tag false edx ((td.elements.take (edx + optional + 1)).drop edx)).elim some
          fun use_bsearch =>
            bif use_bsearch then binarySearch td tag edx (edx + optional) else none := by
  have hend : (if edx + optional + 1 > td.elements.length then (td.elements.length, false)
      else if edx + optional + 1 - edx > 8 then (edx + 8, true) else (edx + optional + 1, false)).2
        = false ∧
      td.elements.take (if edx + optional + 1 > td.elements.length then (td.elements.length, false)
        else if edx + optional + 1 - edx > 8 then (edx + 8, true)
          else (edx + optional + 1, false)).1 = td.elements.take (edx + optional + 1) := by
    by_cases hlong : edx + optional + 1 > td.elements.length
    · rw [if_pos hlong, List.take_length, List.take_of_length_le (Nat.le_of_lt hlong)]
      exact ⟨rfl, rfl⟩
    · rw [if_neg hlong, if_neg (show ¬ edx + optional + 1 - edx > 8 by omega)]
      exact ⟨rfl, rfl⟩
  -- the search is linear, and past the last element there is nothing to find
  rw [asn_SEQUENCE.nextMember]
  simp only [hend.1, hend.2]
  cases linearSearch tag false edx ((td.elements.take (edx + optional + 1)).drop edx) with
  | inl n => rfl
  | inr use_bsearch =>
      cases use_bsearch with
      | false => rfl
      | true => rfl

theorem ThreeMembers.nextMember (h : ThreeMembers td t₀ t₁ t₂ d₀ d₁ d₂ set₀ set₁ set₂)
    (tag : ber_tlv_tag_t) :
    td.nextMember 0 0 tag = (if tag = t₀ then some 0 else none) ∧
      td.nextMember 1 2 tag = (if tag = t₁ then some 1 else if tag = t₂ then some 2 else none) ∧
      td.nextMember 2 1 tag = (if tag = t₂ then some 2 else none) := by
  obtain ⟨h₀, h₁, h₂⟩ := h.noTags
  refine ⟨?_, ?_, ?_⟩
  · rw [nextMember_eq (by decide), h.elements]
    change (linearSearch tag false 0 [asn_MBR 0 t₀ d₀ set₀]).elim some _ = _
    rw [linearSearch_mbr h₀]
    by_cases htag : tag = t₀
    · rw [if_pos htag, if_pos htag]
      rfl
    · rw [if_neg htag, if_neg htag]
      rfl
  · rw [nextMember_eq (by decide), h.elements]
    change (linearSearch tag false 1 [asn_MBR 2 t₁ d₁ set₁, asn_MBR 1 t₂ d₂ set₂]).elim some _ = _
    rw [linearSearch_mbr h₁, linearSearch_mbr h₂]
    by_cases htag : tag = t₁
    · rw [if_pos htag, if_pos htag]
      rfl
    · rw [if_neg htag, if_neg htag]
      by_cases htag' : tag = t₂
      · rw [if_pos htag', if_pos htag']
        rfl
      · rw [if_neg htag', if_neg htag']
        rfl
  · rw [nextMember_eq (by decide), h.elements]
    change (linearSearch tag false 2 [asn_MBR 1 t₂ d₂ set₂]).elim some _ = _
    rw [linearSearch_mbr h₂]
    by_cases htag : tag = t₂
    · rw [if_pos htag, if_pos htag]
      rfl
    · rw [if_neg htag, if_neg htag]
      rfl

variable {st st' : σ} {es : List ByteStream}

theorem exactly_open {α : Type} {d : ber_type_decoder_f α} {set : α → σ → σ} {optional : Nat}
    {f : σ → σ} {p : ByteStream} :
    Exactly (asn_MBR_open optional d set).ber_decoder f p ↔ ∃ x, Exactly d x p ∧ set x = f :=
  exactly_map

/-- A member that is stored. -/
theorem exactly_mbr {α : Type} {d : ber_type_decoder_f α} {set : α → σ → σ} {optional : Nat}
    {t : ber_tlv_tag_t} {f : σ → σ} {p : ByteStream} :
    Exactly (asn_MBR optional t d set).ber_decoder f p ↔ ∃ x, Exactly d x p ∧ set x = f :=
  exactly_map

/-- **A member that need not be there**: it is taken when its tag comes first, and
    otherwise it is left behind. -/
theorem members_opt {α : Type} {d : ber_type_decoder_f α} {set : α → σ → σ} {t : ber_tlv_tag_t}
    {edx k : Nat} (helm : td.elements[edx]? = some (asn_MBR k t d set))
    (htake : td.nextMember edx k t = some edx)
    (hnil : Members td edx st [] st' ↔ Members td (edx + 1) st [] st')
    (hpass : ∀ p es, ¬ HasTag t p →
      (Members td edx st (p :: es) st' ↔ Members td (edx + 1) st (p :: es) st')) :
    Members td edx st es st' ↔ ∃ o ps es', es = ps ++ es' ∧ Opt (Field t d) o ps ∧
      (o = none → FirstIsNot t es') ∧
      Members td (edx + 1) (o.elim st fun x => set x st) es' st' := by
  have habsent : FirstIsNot t es →
      (Members td edx st es st' ↔ Members td (edx + 1) st es st') := by
    intro hfirst
    cases es with
    | nil => exact hnil
    | cons p es => exact hpass p es (hfirst p rfl)
  constructor
  · intro h
    by_cases hfirst : FirstIsNot t es
    · exact ⟨none, [], es, rfl, .absent, fun _ => hfirst, (habsent hfirst).mp h⟩
    · obtain ⟨p, es', rfl, htag⟩ : ∃ p es', es = p :: es' ∧ HasTag t p := by
        cases es with
        | nil => exact absurd (fun e he => absurd he (Option.not_mem_none e)) hfirst
        | cons p es' =>
            refine ⟨p, es', rfl, ?_⟩
            by_contra hno
            refine hfirst fun e he => ?_
            obtain rfl := Option.some.inj he
            exact hno
      obtain ⟨tag, htag', hcase⟩ := (members_cons_iff helm).mp h
      obtain rfl := htag'.unique htag
      rcases hcase with ⟨n, m, f, hn, hm, hp, hes⟩ | ⟨hnone, -⟩
      · rw [show (asn_MBR k tag d set).optional = k from rfl, htake] at hn
        obtain rfl := Option.some.inj hn
        rw [helm] at hm
        obtain rfl := Option.some.inj hm
        obtain ⟨x, hx, rfl⟩ := exactly_mbr.mp hp
        refine ⟨some x, [p], es', rfl, .present ⟨htag, hx⟩, ?_, hes⟩
        intro hno
        cases hno
      · rw [show (asn_MBR k tag d set).optional = k from rfl, htake] at hnone
        cases hnone
  · rintro ⟨o, ps, es', rfl, ho, hfirst, hes⟩
    cases ho with
    | absent => exact (habsent (hfirst rfl)).mpr hes
    | @present x p hx =>
        exact .member helm hx.1 htake helm (exactly_mbr.mpr ⟨x, hx.2, rfl⟩) hes

/-- **The elements of a SEQUENCE of three members**: the first, the two others as far
    as they are there, in this order, and values behind them. -/
theorem threeMembers_iff (h : ThreeMembers td t₀ t₁ t₂ d₀ d₁ d₂ set₀ set₁ set₂) :
    Members td 0 st es st' ↔ ∃ x₀ p₀ o₁ ps₁ o₂ ps₂ xs, es = p₀ :: (ps₁ ++ (ps₂ ++ xs)) ∧
      Field t₀ d₀ x₀ p₀ ∧ Opt (Field t₁ d₁) o₁ ps₁ ∧ Opt (Field t₂ d₂) o₂ ps₂ ∧
      (o₁ = none → FirstIsNot t₁ (ps₂ ++ xs)) ∧ (o₂ = none → FirstIsNot t₂ xs) ∧ Behind td xs ∧
      st' = o₂.elim (o₁.elim (set₀ x₀ st) fun x => set₁ x (set₀ x₀ st)) fun y =>
        set₂ y (o₁.elim (set₀ x₀ st) fun x => set₁ x (set₀ x₀ st)) := by
  have hlen : td.elements.length = 3 := by
    rw [h.elements]
    rfl
  have helm₀ : td.elements[0]? = some (asn_MBR 0 t₀ d₀ set₀) := by rw [h.elements]; rfl
  have helm₁ : td.elements[1]? = some (asn_MBR 2 t₁ d₁ set₁) := by rw [h.elements]; rfl
  have helm₂ : td.elements[2]? = some (asn_MBR 1 t₂ d₂ set₂) := by rw [h.elements]; rfl
  have hend₁ : td.mayEnd 1 2 = true := decide_eq_true (Or.inl hlen.symm)
  have hend₂ : td.mayEnd 2 1 = true := decide_eq_true (Or.inl hlen.symm)
  have hnotEnd : ¬ td.mayEnd 0 0 = true := by
    intro h0
    rcases of_decide_eq_true h0 with h0 | h0
    · omega
    · rw [h.notFirst] at h0
      cases h0.1
  have hbehind : ∀ {st st' : σ} {es}, Members td 3 st es st' ↔ st = st' ∧ Behind td es := by
    intro st st' es
    rw [members_behind_iff (Nat.le_of_eq hlen), Rest, hlen]
    exact and_congr_right fun _ => ⟨fun h => ⟨h.1, h.2⟩, fun h => ⟨h.1, h.2⟩⟩
  -- from the last member on, then from the middle one, then the whole
  have hlast : ∀ {st st' : σ} {es}, Members td 2 st es st' ↔ ∃ o ps xs, es = ps ++ xs ∧
      Opt (Field t₂ d₂) o ps ∧ (o = none → FirstIsNot t₂ xs) ∧
      Members td 3 (o.elim st fun x => set₂ x st) xs st' := by
    intro st st' es
    refine members_opt helm₂ ?_ ?_ ?_
    · rw [(h.nextMember t₂).2.2, if_pos rfl]
    · rw [members_nil_iff helm₂, hbehind]
      exact and_congr_right fun _ => ⟨fun _ => ⟨fun h0 => absurd rfl h0, List.forall_mem_nil _⟩,
        fun _ => hend₂⟩
    · intro p es hnot
      rw [members_cons_iff helm₂, hbehind]
      constructor
      · rintro ⟨tag, htag, hcase⟩
        rw [show (asn_MBR 1 t₂ d₂ set₂).optional = 1 from rfl, (h.nextMember tag).2.2,
          if_neg fun h0 : tag = t₂ => hnot (h0 ▸ htag)] at hcase
        rcases hcase with ⟨n, m, f, hn, -⟩ | ⟨-, hext, hp, hes⟩
        · cases hn
        · obtain ⟨rfl, hxs⟩ := hbehind.mp hes
          exact ⟨rfl, fun _ => hext, List.forall_mem_cons.mpr ⟨hp, hxs.isTlv⟩⟩
      · -- a value that is not the member is skipped, as the ones behind it are
        rintro ⟨rfl, hxs⟩
        obtain ⟨hp, hes⟩ := List.forall_mem_cons.mp hxs.isTlv
        have hext := hxs.allowed (List.cons_ne_nil p es)
        obtain ⟨tag, tl, htag, -⟩ := hp.exists_tag
        refine ⟨tag, ⟨tl, htag⟩, Or.inr ⟨?_, hext, hp, hbehind.mpr ⟨rfl, fun _ => hext, hes⟩⟩⟩
        show td.nextMember 2 1 tag = none
        rw [(h.nextMember tag).2.2, if_neg fun h0 : tag = t₂ => hnot (h0 ▸ ⟨tl, htag⟩)]
  have hmiddle : ∀ {st st' : σ} {es}, Members td 1 st es st' ↔ ∃ o ps es', es = ps ++ es' ∧
      Opt (Field t₁ d₁) o ps ∧ (o = none → FirstIsNot t₁ es') ∧
      Members td 2 (o.elim st fun x => set₁ x st) es' st' := by
    intro st st' es
    refine members_opt helm₁ ?_ ?_ ?_
    · rw [(h.nextMember t₁).2.1, if_pos rfl]
    · rw [members_nil_iff helm₁, members_nil_iff helm₂]
      exact and_congr_right fun _ => iff_of_true hend₁ hend₂
    · intro p es hnot
      rw [members_cons_iff helm₁, members_cons_iff helm₂]
      refine exists_congr fun tag => and_congr_right fun htag => ?_
      rw [show (asn_MBR 2 t₁ d₁ set₁).optional = 2 from rfl,
        show (asn_MBR 1 t₂ d₂ set₂).optional = 1 from rfl, (h.nextMember tag).2.1,
        (h.nextMember tag).2.2, if_neg fun h0 : tag = t₁ => hnot (h0 ▸ htag)]
  constructor
  · intro hes
    cases es with
    | nil => exact absurd ((members_nil_iff helm₀).mp hes).2 hnotEnd
    | cons p es =>
        -- nothing but the first member is looked for in front
        obtain ⟨tag, htag, hcase⟩ := (members_cons_iff helm₀).mp hes
        rw [show (asn_MBR 0 t₀ d₀ set₀).optional = 0 from rfl, (h.nextMember tag).1] at hcase
        rcases hcase with ⟨n, m, f, hn, hm, hp, hes⟩ | ⟨-, hext, -⟩
        · by_cases hsame : tag = t₀
          · rw [if_pos hsame] at hn
            obtain rfl := Option.some.inj hn
            rw [helm₀] at hm
            obtain rfl := Option.some.inj hm
            obtain ⟨x₀, hx₀, rfl⟩ := exactly_mbr.mp hp
            obtain ⟨o₁, ps₁, es₂, rfl, ho₁, hfirst₁, hes⟩ := hmiddle.mp hes
            obtain ⟨o₂, ps₂, xs, rfl, ho₂, hfirst₂, hes⟩ := hlast.mp hes
            obtain ⟨rfl, hxs⟩ := hbehind.mp hes
            exact ⟨x₀, p, o₁, ps₁, o₂, ps₂, xs, rfl, ⟨hsame ▸ htag, hx₀⟩, ho₁, ho₂, hfirst₁,
              hfirst₂, hxs, rfl⟩
          · rw [if_neg hsame] at hn
            cases hn
        · rw [h.notFirst] at hext
          cases hext
  · rintro ⟨x₀, p, o₁, ps₁, o₂, ps₂, xs, rfl, hx₀, ho₁, ho₂, hfirst₁, hfirst₂, hxs, rfl⟩
    refine .member helm₀ hx₀.1 ?_ helm₀ (exactly_mbr.mpr ⟨x₀, hx₀.2, rfl⟩)
      (hmiddle.mpr ⟨o₁, ps₁, _, rfl, ho₁, hfirst₁, hlast.mpr
        ⟨o₂, ps₂, xs, rfl, ho₂, hfirst₂, hbehind.mpr ⟨rfl, hxs⟩⟩⟩)
    show td.nextMember 0 0 t₀ = some 0
    rw [(h.nextMember t₀).1, if_pos rfl]

/-- Two members with different tags. -/
theorem firstIsNot_of_field {α : Type} {t t' : ber_tlv_tag_t} {d : ber_type_decoder_f α} {x : α}
    {p : ByteStream} {es : List ByteStream} (h : Field t d x p) (hne : t' ≠ t) :
    FirstIsNot t' (p :: es) := by
  intro e he htag
  obtain rfl := Option.some.inj he
  exact hne (htag.unique h.1)

/-- The same, when nothing may follow the members. -/
theorem threeMembers_closed (h : ThreeMembers td t₀ t₁ t₂ d₀ d₁ d₂ set₀ set₁ set₂)
    (hclosed : td.IN_EXTENSION_GROUP 3 = false) :
    Members td 0 st es st' ↔ ∃ x₀ p₀ o₁ ps₁ o₂ ps₂, es = p₀ :: (ps₁ ++ ps₂) ∧
      Field t₀ d₀ x₀ p₀ ∧ Opt (Field t₁ d₁) o₁ ps₁ ∧ Opt (Field t₂ d₂) o₂ ps₂ ∧
      st' = o₂.elim (o₁.elim (set₀ x₀ st) fun x => set₁ x (set₀ x₀ st)) fun y =>
        set₂ y (o₁.elim (set₀ x₀ st) fun x => set₁ x (set₀ x₀ st)) := by
  rw [threeMembers_iff h]
  constructor
  · rintro ⟨x₀, p₀, o₁, ps₁, o₂, ps₂, xs, rfl, hx₀, ho₁, ho₂, -, -, hxs, hst⟩
    have hnil : xs = [] := by
      by_contra hne
      rw [hxs.allowed hne] at hclosed
      cases hclosed
    rw [hnil, List.append_nil]
    exact ⟨x₀, p₀, o₁, ps₁, o₂, ps₂, rfl, hx₀, ho₁, ho₂, hst⟩
  · rintro ⟨x₀, p₀, o₁, ps₁, o₂, ps₂, rfl, hx₀, ho₁, ho₂, hst⟩
    have hnone : ∀ t, FirstIsNot t [] := fun t e he => absurd he (Option.not_mem_none e)
    refine ⟨x₀, p₀, o₁, ps₁, o₂, ps₂, [], by rw [List.append_nil], hx₀, ho₁, ho₂, fun _ => ?_,
      fun _ => hnone _, ⟨fun h0 => absurd rfl h0, List.forall_mem_nil _⟩, hst⟩
    cases ho₂ with
    | absent => exact hnone _
    | present hx => exact firstIsNot_of_field hx h.distinct

end Three

/-! ## Tags of values -/

theorem IsTL.hasTag {h : TL} {hdr : ByteStream} (hTL : IsTL h hdr) (rest : ByteStream) :
    HasTag h.tag (hdr ++ rest) := by
  obtain ⟨T, L, rfl, hT, -⟩ := isTL_iff.mp hTL
  rw [List.append_assoc]
  exact ⟨T.length, ber_fetch_tag_stable.complete hT.1 _⟩

/-- A tag that a value has in fact. -/
def Is (tag t : ber_tlv_tag_t) : Prop := t = tag

section Tags

variable {tag : ber_tlv_tag_t}

theorem isPrimitive_iff {c p : ByteStream} :
    IsPrimitive (Is tag) c p ↔ HasTag tag p ∧ IsPrimitive (fun _ => True) c p := by
  constructor
  · rintro ⟨t, hdr, hTL, rfl, rfl⟩
    exact ⟨hTL.hasTag c, t, hdr, hTL, trivial, rfl⟩
  · rintro ⟨htag, t, hdr, hTL, -, rfl⟩
    exact ⟨t, hdr, hTL, (hTL.hasTag c).unique htag, rfl⟩

theorem isConstructed_iff {es : List ByteStream} {p : ByteStream} :
    IsConstructed (Is tag) es p ↔ HasTag tag p ∧ IsConstructed (fun _ => True) es p := by
  constructor
  · intro h
    cases h with
    | definite hTL hP =>
        obtain rfl := hP
        exact ⟨hTL.hasTag _, .definite hTL trivial⟩
    | indefinite hTL hP heoc =>
        obtain rfl := hP
        rw [List.append_assoc]
        exact ⟨hTL.hasTag _, List.append_assoc .. ▸ .indefinite hTL trivial heoc⟩
  · rintro ⟨htag, h⟩
    cases h with
    | definite hTL _ => exact .definite hTL ((hTL.hasTag _).unique htag)
    | indefinite hTL _ heoc =>
        rw [List.append_assoc] at htag
        exact .indefinite hTL ((hTL.hasTag _).unique htag) heoc

theorem isString_iff {td : asn_OCTET_STRING} {tag_mode : Int} {k : Option ByteStream}
    {p : ByteStream} :
    IsString td tag_mode (Is tag) k p ↔
      HasTag tag p ∧ IsString td tag_mode (fun _ => True) k p := by
  constructor
  · intro h
    cases h with
    | primitive hTL hP =>
        obtain rfl := hP
        exact ⟨hTL.hasTag _, .primitive hTL trivial⟩
    | constructed hTL hP hseg =>
        obtain rfl := hP
        exact ⟨hTL.hasTag _, .constructed hTL trivial hseg⟩
  · rintro ⟨htag, h⟩
    cases h with
    | primitive hTL _ => exact .primitive hTL ((hTL.hasTag _).unique htag)
    | constructed hTL _ hseg => exact .constructed hTL ((hTL.hasTag _).unique htag) hseg

/-- An INTEGER. -/
def IsInteger (tag : ber_tlv_tag_t) (l : Int64) (p : ByteStream) : Prop :=
  ∃ c, IsPrimitive (Is tag) c p ∧ asn_INTEGER2long c = some l

/-- A field with a tag of its own, and a field with the tag of the member. -/
theorem field_own {α : Type} {d : ber_type_decoder_f α} {G : α → ByteStream → Prop}
    (hd : Recognises d G) (hG : ∀ {x p}, G x p → HasTag tag p) {x : α} {p : ByteStream} :
    Field tag d x p ↔ G x p := by
  rw [Field, hd.exactly_iff]
  exact and_iff_right_of_imp hG

theorem field_integer {l : Int64} {p : ByteStream} :
    Field (ASN_TAG_CLASS_UNIVERSAL ||| (2 <<< 2)) (Integer_decode_ber 0) l p ↔
      IsInteger (ASN_TAG_CLASS_UNIVERSAL ||| (2 <<< 2)) l p := by
  refine field_own (NativeInteger_decode_ber_recognises (.own _) (List.cons_ne_nil _ _)) ?_
  rintro x p ⟨c, hc, -⟩
  exact (isPrimitive_iff.mp hc).1

theorem field_integer_implicit {l : Int64} {p : ByteStream} :
    Field tag (Integer_decode_ber (-1)) l p ↔ IsInteger tag l p := by
  rw [Field, Integer_decode_ber, (NativeInteger_decode_ber_recognises (.implicit _)
    (List.cons_ne_nil _ _)).exactly_iff, IsInteger]
  constructor
  · rintro ⟨htag, c, hc, hl⟩
    exact ⟨c, isPrimitive_iff.mpr ⟨htag, hc⟩, hl⟩
  · rintro ⟨c, hc, hl⟩
    obtain ⟨htag, hc⟩ := isPrimitive_iff.mp hc
    exact ⟨htag, c, hc, hl⟩

theorem field_tagged {k : Option ByteStream} {p : ByteStream} :
    Field tag (OCTET_STRING_decode_ber (asn_DEF_tagged tag) 0) k p ↔
      IsString (asn_DEF_tagged tag) 0 (Is tag) k p :=
  field_own (OCTET_STRING_decode_ber_recognises (.own tag)) fun h => (isString_iff.mp h).1

theorem field_party {k : Option ByteStream} {p : ByteStream} :
    Field tag (OCTET_STRING_decode_ber asn_DEF_plain (-1)) k p ↔
      IsString asn_DEF_plain (-1) (Is tag) k p := by
  rw [Field, (OCTET_STRING_decode_ber_recognises (.implicit _)).exactly_iff, isString_iff]

end Tags

/-! ## Components -/

/-- A component portion: components behind one another. -/
def IsComponentPortion (cs : List Component) (p : ByteStream) : Prop :=
  ∃ es, IsConstructed (Is (ASN_TAG_CLASS_APPLICATION ||| (12 <<< 2))) es p ∧
    List.Forall₂ (Exactly (CHOICE_decode_ber asn_DEF_Component)) cs es

theorem field_components {cs : List Component} {p : ByteStream} :
    Field (ASN_TAG_CLASS_APPLICATION ||| (12 <<< 2)) ComponentPortion_decode_ber cs p ↔
      IsComponentPortion cs p := by
  have hsame : ∀ cs p, (∃ es, IsConstructed (Is (ASN_TAG_CLASS_APPLICATION ||| (12 <<< 2))) es p ∧
        List.Forall₂ (IsElement noTag (CHOICE_decode_ber asn_DEF_Component)) cs es) ↔
      IsComponentPortion cs p := by
    intro cs p
    have hone : ∀ c e, IsElement noTag (CHOICE_decode_ber asn_DEF_Component) c e ↔
        Exactly (CHOICE_decode_ber asn_DEF_Component) c e := by
      intro c e
      rw [IsElement]
      exact and_iff_left fun h => absurd rfl h
    rw [IsComponentPortion]
    refine exists_congr fun es => and_congr_right fun _ => ?_
    exact ⟨List.Forall₂.imp fun c e => (hone c e).mp, List.Forall₂.imp fun c e => (hone c e).mpr⟩
  refine (field_own (SET_OF_decode_ber_recognises Component_decodesNested.toDecodesTlv
    (.own _) (List.cons_ne_nil _ _)) ?_).trans (hsame cs p)
  rintro x p ⟨es, hes, -⟩
  exact (isConstructed_iff.mp hes).1

/-! ## Begin and End -/

section Messages

variable {heap : Nat → UInt8}

theorem asn_DEF_Begin_three :
    ThreeMembers (asn_DEF_Begin heap) (ASN_TAG_CLASS_APPLICATION ||| (8 <<< 2))
      (ASN_TAG_CLASS_APPLICATION ||| (11 <<< 2)) (ASN_TAG_CLASS_APPLICATION ||| (12 <<< 2))
      (TransactionID_decode_ber heap asn_DEF_OrigTransactionID)
      (OCTET_STRING_decode_ber asn_DEF_DialoguePortion 0) ComponentPortion_decode_ber
      (fun x st => { st with otid := x }) (fun _ st => st)
      (fun x st => { st with components := some x }) where
  elements := rfl
  noTags := by decide
  distinct := by decide
  notFirst := rfl

theorem asn_DEF_End_three :
    ThreeMembers (asn_DEF_End heap) (ASN_TAG_CLASS_APPLICATION ||| (9 <<< 2))
      (ASN_TAG_CLASS_APPLICATION ||| (11 <<< 2)) (ASN_TAG_CLASS_APPLICATION ||| (12 <<< 2))
      (TransactionID_decode_ber heap asn_DEF_DestTransactionID)
      (OCTET_STRING_decode_ber asn_DEF_DialoguePortion 0) ComponentPortion_decode_ber
      (fun x st => { st with dtid := x }) (fun _ st => st)
      (fun x st => { st with components := some x }) where
  elements := rfl
  noTags := by decide
  distinct := by decide
  notFirst := rfl

/-- A transaction identifier, and a dialogue portion and a component portion as far
    as they are there. -/
def IsDialogue (t₀ : ber_tlv_tag_t) (k : Option ByteStream) (cs : Option (List Component))
    (es : List ByteStream) : Prop :=
  ∃ o d ps qs, es = o :: (ps ++ qs) ∧ IsString (asn_DEF_tagged t₀) 0 (Is t₀) k o ∧
    Opt (IsString asn_DEF_DialoguePortion 0 (Is (ASN_TAG_CLASS_APPLICATION ||| (11 <<< 2)))) d ps ∧
    Opt IsComponentPortion cs qs

theorem opt_congr {α : Type} {R S : α → ByteStream → Prop} (h : ∀ x p, R x p ↔ S x p)
    {o : Option α} {ps : List ByteStream} : Opt R o ps ↔ Opt S o ps := by
  constructor
  · intro ho
    cases ho with
    | absent => exact .absent
    | present hx => exact .present ((h _ _).mp hx)
  · intro ho
    cases ho with
    | absent => exact .absent
    | present hx => exact .present ((h _ _).mpr hx)

theorem exactly_wrap {α β : Type} {d : ber_type_decoder_f α} {f : α → β} {y : β}
    {p : ByteStream} : Exactly (wrap d f) y p ↔ ∃ x, Exactly d x p ∧ f x = y := exactly_map

theorem field_transactionId {t₀ : ber_tlv_tag_t} {x : OCTET_STRING} {p : ByteStream} :
    Field t₀ (TransactionID_decode_ber heap (asn_DEF_tagged t₀)) x p ↔
      ∃ k, IsString (asn_DEF_tagged t₀) 0 (Is t₀) k p ∧ allocate heap k = x := by
  rw [Field, TransactionID_decode_ber, exactly_wrap]
  constructor
  · rintro ⟨htag, k, hk, rfl⟩
    exact ⟨k, field_tagged.mp ⟨htag, hk⟩, rfl⟩
  · rintro ⟨k, hk, rfl⟩
    obtain ⟨htag, hk⟩ := field_tagged.mpr hk
    exact ⟨htag, k, hk, rfl⟩

/-- What a Begin is made of. -/
theorem begin_elements {b : Begin} {es : List ByteStream} :
    Members (asn_DEF_Begin heap) 0 (Begin.zero heap) es b ↔
      ∃ k, IsDialogue (ASN_TAG_CLASS_APPLICATION ||| (8 <<< 2)) k b.components es ∧
        b.otid = allocate heap k := by
  have hst : ∀ (x : OCTET_STRING) (d : Option (Option ByteStream)) (cs : Option (List Component)),
      cs.elim (d.elim { Begin.zero heap with otid := x } fun _ => { Begin.zero heap with otid := x })
        (fun l => { (d.elim { Begin.zero heap with otid := x } fun _ =>
          { Begin.zero heap with otid := x }) with components := some l }) = ⟨x, cs⟩ := by
    intro x d cs
    cases d with
    | none =>
        cases cs with
        | none => rfl
        | some l => rfl
    | some _ =>
        cases cs with
        | none => rfl
        | some l => rfl
  rw [threeMembers_closed asn_DEF_Begin_three rfl]
  constructor
  · rintro ⟨x, o, d, ps, cs, qs, rfl, hx, hd, hcs, hb⟩
    obtain ⟨k, hk, rfl⟩ := field_transactionId.mp hx
    obtain rfl := hb.trans (hst _ d cs)
    exact ⟨k, ⟨o, d, ps, qs, rfl, hk, (opt_congr fun _ _ => field_tagged).mp hd,
      (opt_congr fun _ _ => field_components).mp hcs⟩, rfl⟩
  · rintro ⟨k, ⟨o, d, ps, qs, rfl, hk, hd, hcs⟩, hotid⟩
    obtain ⟨otid, components⟩ := b
    obtain rfl : otid = allocate heap k := hotid
    exact ⟨_, o, d, ps, components, qs, rfl, field_transactionId.mpr ⟨k, hk, rfl⟩,
      (opt_congr fun _ _ => field_tagged).mpr hd, (opt_congr fun _ _ => field_components).mpr hcs,
      (hst _ d components).symm⟩

/-- What an End is made of. -/
theorem end_elements {e : End} {es : List ByteStream} :
    Members (asn_DEF_End heap) 0 (End.zero heap) es e ↔
      ∃ k, IsDialogue (ASN_TAG_CLASS_APPLICATION ||| (9 <<< 2)) k e.components es ∧
        e.dtid = allocate heap k := by
  have hst : ∀ (x : OCTET_STRING) (d : Option (Option ByteStream)) (cs : Option (List Component)),
      cs.elim (d.elim { End.zero heap with dtid := x } fun _ => { End.zero heap with dtid := x })
        (fun l => { (d.elim { End.zero heap with dtid := x } fun _ =>
          { End.zero heap with dtid := x }) with components := some l }) = ⟨x, cs⟩ := by
    intro x d cs
    cases d with
    | none =>
        cases cs with
        | none => rfl
        | some l => rfl
    | some _ =>
        cases cs with
        | none => rfl
        | some l => rfl
  rw [threeMembers_closed asn_DEF_End_three rfl]
  constructor
  · rintro ⟨x, o, d, ps, cs, qs, rfl, hx, hd, hcs, he⟩
    obtain ⟨k, hk, rfl⟩ := field_transactionId.mp hx
    obtain rfl := he.trans (hst _ d cs)
    exact ⟨k, ⟨o, d, ps, qs, rfl, hk, (opt_congr fun _ _ => field_tagged).mp hd,
      (opt_congr fun _ _ => field_components).mp hcs⟩, rfl⟩
  · rintro ⟨k, ⟨o, d, ps, qs, rfl, hk, hd, hcs⟩, hdtid⟩
    obtain ⟨dtid, components⟩ := e
    obtain rfl : dtid = allocate heap k := hdtid
    exact ⟨_, o, d, ps, components, qs, rfl, field_transactionId.mpr ⟨k, hk, rfl⟩,
      (opt_congr fun _ _ => field_tagged).mpr hd, (opt_congr fun _ _ => field_components).mpr hcs,
      (hst _ d components).symm⟩

end Messages

/-! ## Alternatives -/

/-- **A CHOICE is the alternative with its tag.** -/
theorem choice_exactly {α : Type} {td : asn_CHOICE α}
    (htd : ∀ d ∈ td.elements, DecodesNested d)
    (hnodup : (td.tag2el.map Prod.fst).Nodup) {x : α} {p : ByteStream} :
    Exactly (CHOICE_decode_ber td) x p ↔
      ∃ t2m ∈ td.tag2el, ∃ d, td.elements[t2m.2]? = some d ∧ Field t2m.1 d x p := by
  rw [(CHOICE_decode_ber_recognises fun d hd => (htd d hd).toDecodesTlv).exactly_iff]
  constructor
  · rintro ⟨tag, t2m, d, htag, hfind, hd, hx⟩
    have hsame : t2m.1 = tag := by simpa using List.find?_some hfind
    exact ⟨t2m, List.mem_of_find?_eq_some hfind, d, hd, hsame ▸ htag, hx⟩
  · rintro ⟨t2m, hmem, d, hd, htag, hx⟩
    cases hfind : td.tag2el.find? (fun t2m' => decide (t2m'.1 = t2m.1)) with
    | none => exact absurd (decide_eq_true rfl) (List.find?_eq_none.mp hfind t2m hmem)
    | some t2m' =>
        have hsame : t2m'.1 = t2m.1 := by simpa using List.find?_some hfind
        obtain rfl := List.inj_on_of_nodup_map hnodup (List.mem_of_find?_eq_some hfind) hmem hsame
        exact ⟨t2m'.1, t2m', d, htag, hfind, hd, hx⟩

/-- A SEQUENCE with an IMPLICIT tag, as an alternative with the tag `t`. -/
theorem field_sequence {α σ : Type} {td : asn_SEQUENCE σ} {tag t : ber_tlv_tag_t} {zero : σ}
    {f : σ → α} {y : α} {p : ByteStream} (htd : SoundDescriptor td) (htags : td.tags = [tag]) :
    Field t (wrap (SEQUENCE_decode_ber td zero (-1)) f) y p ↔
      ∃ st es, IsConstructed (Is t) es p ∧ Members td 0 zero es st ∧ f st = y := by
  have hrec : Recognises (SEQUENCE_decode_ber td zero (-1)) fun st p =>
      ∃ es, IsConstructed (fun _ => True) es p ∧ Members td 0 zero es st := by
    refine SEQUENCE_decode_ber_recognises htd ?_ ?_
    · rw [htags]
      exact .implicit tag
    · rw [htags]
      exact List.cons_ne_nil _ _
  rw [Field, exactly_wrap]
  constructor
  · rintro ⟨htag, st, hst, rfl⟩
    obtain ⟨es, hes, hmembers⟩ := hrec.exactly_iff.mp hst
    exact ⟨st, es, isConstructed_iff.mpr ⟨htag, hes⟩, hmembers, rfl⟩
  · rintro ⟨st, es, hes, hmembers, rfl⟩
    obtain ⟨htag, hes⟩ := isConstructed_iff.mp hes
    exact ⟨htag, st, hrec.exactly_iff.mpr ⟨es, hes, hmembers⟩, rfl⟩

section Messages

variable {heap : Nat → UInt8}

theorem TCMessage_tags : ((asn_DEF_TCMessage heap).tag2el.map Prod.fst).Nodup := by
  show ([5, 9, 17, 21, 29] : List Nat).Nodup
  decide

/-- **The Begins that are accepted**: a transaction identifier, and a dialogue portion
    and a component portion as far as they are there. -/
theorem tcMessage_begin {b : Begin} {p : ByteStream} :
    Exactly (TCMessage_decode_ber heap) (.PR_begin b) p ↔
      ∃ k es, IsConstructed (Is (ASN_TAG_CLASS_APPLICATION ||| (2 <<< 2))) es p ∧
        IsDialogue (ASN_TAG_CLASS_APPLICATION ||| (8 <<< 2)) k b.components es ∧
        b.otid = allocate heap k := by
  rw [TCMessage_decode_ber, choice_exactly (TCMessage_alternatives heap) TCMessage_tags]
  constructor
  · rintro ⟨t2m, hmem, d, hd, hx⟩
    simp only [asn_DEF_TCMessage, List.mem_cons, List.not_mem_nil, or_false] at hmem
    rcases hmem with rfl | rfl | rfl | rfl | rfl
    · obtain rfl := Option.some.inj hd
      obtain ⟨st, es, -, -, hy⟩ := (field_sequence asn_DEF_Unidirectional_nested.sound rfl).mp hx
      cases hy
    · obtain rfl := Option.some.inj hd
      obtain ⟨st, es, hes, hmembers, hy⟩ :=
        (field_sequence (asn_DEF_Begin_nested heap).sound rfl).mp hx
      obtain rfl := TCMessage.PR_begin.inj hy
      obtain ⟨k, hk, hotid⟩ := begin_elements.mp hmembers
      exact ⟨k, es, hes, hk, hotid⟩
    · obtain rfl := Option.some.inj hd
      obtain ⟨st, es, -, -, hy⟩ := (field_sequence (asn_DEF_End_nested heap).sound rfl).mp hx
      cases hy
    · obtain rfl := Option.some.inj hd
      obtain ⟨st, es, -, -, hy⟩ := (field_sequence asn_DEF_Continue_nested.sound rfl).mp hx
      cases hy
    · obtain rfl := Option.some.inj hd
      obtain ⟨st, es, -, -, hy⟩ := (field_sequence asn_DEF_Abort_nested.sound rfl).mp hx
      cases hy
  · rintro ⟨k, es, hes, hk, hotid⟩
    exact ⟨(ASN_TAG_CLASS_APPLICATION ||| (2 <<< 2), 1),
      List.mem_cons_of_mem _ List.mem_cons_self, _, rfl,
      (field_sequence (asn_DEF_Begin_nested heap).sound rfl).mpr
        ⟨b, es, hes, begin_elements.mpr ⟨k, hk, hotid⟩, rfl⟩⟩

/-- **The Ends that are accepted.** -/
theorem tcMessage_end {e : End} {p : ByteStream} :
    Exactly (TCMessage_decode_ber heap) (.PR_end e) p ↔
      ∃ k es, IsConstructed (Is (ASN_TAG_CLASS_APPLICATION ||| (4 <<< 2))) es p ∧
        IsDialogue (ASN_TAG_CLASS_APPLICATION ||| (9 <<< 2)) k e.components es ∧
        e.dtid = allocate heap k := by
  rw [TCMessage_decode_ber, choice_exactly (TCMessage_alternatives heap) TCMessage_tags]
  constructor
  · rintro ⟨t2m, hmem, d, hd, hx⟩
    simp only [asn_DEF_TCMessage, List.mem_cons, List.not_mem_nil, or_false] at hmem
    rcases hmem with rfl | rfl | rfl | rfl | rfl
    · obtain rfl := Option.some.inj hd
      obtain ⟨st, es, -, -, hy⟩ := (field_sequence asn_DEF_Unidirectional_nested.sound rfl).mp hx
      cases hy
    · obtain rfl := Option.some.inj hd
      obtain ⟨st, es, -, -, hy⟩ := (field_sequence (asn_DEF_Begin_nested heap).sound rfl).mp hx
      cases hy
    · obtain rfl := Option.some.inj hd
      obtain ⟨st, es, hes, hmembers, hy⟩ :=
        (field_sequence (asn_DEF_End_nested heap).sound rfl).mp hx
      obtain rfl := TCMessage.PR_end.inj hy
      obtain ⟨k, hk, hdtid⟩ := end_elements.mp hmembers
      exact ⟨k, es, hes, hk, hdtid⟩
    · obtain rfl := Option.some.inj hd
      obtain ⟨st, es, -, -, hy⟩ := (field_sequence asn_DEF_Continue_nested.sound rfl).mp hx
      cases hy
    · obtain rfl := Option.some.inj hd
      obtain ⟨st, es, -, -, hy⟩ := (field_sequence asn_DEF_Abort_nested.sound rfl).mp hx
      cases hy
  · rintro ⟨k, es, hes, hk, hdtid⟩
    exact ⟨(ASN_TAG_CLASS_APPLICATION ||| (4 <<< 2), 2),
      List.mem_cons_of_mem _ (List.mem_cons_of_mem _ List.mem_cons_self), _, rfl,
      (field_sequence (asn_DEF_End_nested heap).sound rfl).mpr
        ⟨e, es, hes, end_elements.mpr ⟨k, hk, hdtid⟩, rfl⟩⟩

end Messages

/-! ## Invoke -/

/-- An OPERATION: a local or a global value. -/
def IsOperation : OPERATION → ByteStream → Prop
  | .PR_localValue localValue, p => IsInteger (ASN_TAG_CLASS_UNIVERSAL ||| (2 <<< 2)) localValue p
  | .PR_globalValue globalValue, p =>
      IsPrimitive (Is (ASN_TAG_CLASS_UNIVERSAL ||| (6 <<< 2))) globalValue p

theorem OPERATION_exactly {x : OPERATION} {p : ByteStream} :
    Exactly (CHOICE_decode_ber asn_DEF_OPERATION) x p ↔ IsOperation x p := by
  have hlocal := wrap_decodesNested integer_decodesNested OPERATION.PR_localValue
  have hrec : Recognises (ber_decode_primitive [ASN_TAG_CLASS_UNIVERSAL ||| (6 <<< 2)] 0)
      (IsPrimitive (Is (ASN_TAG_CLASS_UNIVERSAL ||| (6 <<< 2)))) :=
    ber_decode_primitive_recognises (.own _) (List.cons_ne_nil _ _)
  have hglobal := wrap_decodesNested (decodesNested_of hrec IsPrimitive.isNested)
    OPERATION.PR_globalValue
  have halt : ∀ d ∈ asn_DEF_OPERATION.elements, DecodesNested d :=
    List.forall_mem_cons.mpr ⟨hlocal, List.forall_mem_singleton.mpr hglobal⟩
  rw [choice_exactly halt (by decide)]
  constructor
  · rintro ⟨t2m, hmem, d, hd, htag, hx⟩
    simp only [asn_DEF_OPERATION, List.mem_cons, List.not_mem_nil, or_false] at hmem
    rcases hmem with rfl | rfl
    · obtain rfl := Option.some.inj hd
      obtain ⟨l, hl, rfl⟩ := exactly_wrap.mp hx
      exact field_integer.mp ⟨htag, hl⟩
    · obtain rfl := Option.some.inj hd
      obtain ⟨c, hc, rfl⟩ := exactly_wrap.mp hx
      exact hrec.exactly_iff.mp hc
  · intro hx
    cases x with
    | PR_localValue l =>
        obtain ⟨htag, hl⟩ := field_integer.mpr hx
        exact ⟨_, List.mem_cons_self, _, rfl, htag, exactly_wrap.mpr ⟨l, hl, rfl⟩⟩
    | PR_globalValue c =>
        have htag := (isPrimitive_iff.mp hx).1
        exact ⟨_, List.mem_cons_of_mem _ List.mem_cons_self, _, rfl, htag,
          exactly_wrap.mpr ⟨c, hrec.exactly_iff.mpr hx, rfl⟩⟩

theorem IsOperation.hasTag {x : OPERATION} {p : ByteStream} (h : IsOperation x p) :
    HasTag (ASN_TAG_CLASS_UNIVERSAL ||| (2 <<< 2)) p ∨
      HasTag (ASN_TAG_CLASS_UNIVERSAL ||| (6 <<< 2)) p := by
  cases x with
  | PR_localValue l => exact Or.inl (field_integer.mpr h).1
  | PR_globalValue c => exact Or.inr (isPrimitive_iff.mp h).1

/-- A parameter, as it came. -/
def IsParameter (k : ByteStream) (p : ByteStream) : Prop := k = p ∧ IsNested p

/-- What an Invoke is made of: an invoke identifier, a linked identifier if there is
    one, an operation, and a parameter if there is one. -/
def IsInvoke (v : Invoke) (es : List ByteStream) : Prop :=
  ∃ i l ls o qs, es = i :: (ls ++ (o :: qs)) ∧
    IsInteger (ASN_TAG_CLASS_UNIVERSAL ||| (2 <<< 2)) v.invokeID i ∧
    Opt (IsInteger (ASN_TAG_CLASS_CONTEXT ||| (0 <<< 2))) l ls ∧ IsOperation v.opCode o ∧
    Opt IsParameter v.parameter qs

private theorem linearSearch_noTag {α σ : Type} {tag : ber_tlv_tag_t} {use_bsearch : Bool}
    {n optional : Nat} {d : ber_type_decoder_f α} {set : α → σ → σ}
    (rest : List (asn_TYPE_member σ)) :
    linearSearch tag use_bsearch n (asn_MBR optional noTag d set :: rest)
      = if tag = noTag then .inl n else .inr true := by
  rw [linearSearch]
  by_cases htag : tag = noTag
  · have hyes : tag = (asn_MBR optional noTag d set).tag ∨
        (asn_MBR optional noTag d set).open_type = true := Or.inl htag
    rw [if_pos hyes, if_pos htag]
  · have hnot : ¬ (tag = (asn_MBR optional noTag d set).tag ∨
        (asn_MBR optional noTag d set).open_type = true) := by
      rintro (h | h)
      · exact htag h
      · cases h
    rw [if_neg hnot, if_neg htag]
    exact if_pos rfl

/-- The operation is found in the table, from the linked identifier on and from its
    own place on. -/
private theorem invoke_binarySearch {tag : ber_tlv_tag_t}
    (htag : tag ≠ ASN_TAG_CLASS_CONTEXT ||| (0 <<< 2)) (edx : Nat) (hedx : edx = 1 ∨ edx = 2) :
    binarySearch asn_DEF_Invoke tag edx 2
      = if tag = ASN_TAG_CLASS_UNIVERSAL ||| (2 <<< 2) ∨
          tag = ASN_TAG_CLASS_UNIVERSAL ||| (6 <<< 2) then some 2 else none := by
  by_cases hop : tag = ASN_TAG_CLASS_UNIVERSAL ||| (2 <<< 2) ∨
      tag = ASN_TAG_CLASS_UNIVERSAL ||| (6 <<< 2)
  · rw [if_pos hop]
    rcases hop with rfl | rfl
    · rcases hedx with rfl | rfl
      · rfl
      · rfl
    · rcases hedx with rfl | rfl
      · rfl
      · rfl
  · rw [if_neg hop, binarySearch]
    have hnone : (asn_DEF_Invoke.tag2el.filter
        fun t2m => t2m.1 = tag ∧ edx ≤ t2m.2 ∧ t2m.2 ≤ 2) = [] := by
      refine List.filter_eq_nil_iff.mpr fun t2m hmem hyes => ?_
      have hsame : t2m.1 = tag := (of_decide_eq_true hyes).1
      simp only [asn_DEF_Invoke, List.mem_cons, List.not_mem_nil, or_false] at hmem
      rcases hmem with rfl | rfl | rfl | rfl
      · exact hop (Or.inl hsame.symm)
      · exact hop (Or.inl hsame.symm)
      · exact hop (Or.inr hsame.symm)
      · exact htag hsame.symm
    rw [hnone]
    rfl

/-- The operation, from the linked identifier on and from its own place on. -/
private theorem invoke_nextMember_operation {tag : ber_tlv_tag_t}
    (htag : tag ≠ ASN_TAG_CLASS_CONTEXT ||| (0 <<< 2)) :
    asn_DEF_Invoke.nextMember 1 1 tag = asn_DEF_Invoke.nextMember 2 0 tag ∧
      asn_DEF_Invoke.nextMember 2 0 tag
        = if tag = noTag ∨ tag = ASN_TAG_CLASS_UNIVERSAL ||| (2 <<< 2) ∨
            tag = ASN_TAG_CLASS_UNIVERSAL ||| (6 <<< 2) then some 2 else none := by
  have hlinked : asn_DEF_Invoke.nextMember 1 1 tag
      = (linearSearch tag false 1
          [(asn_MBR_unread 1 (ASN_TAG_CLASS_CONTEXT ||| (0 <<< 2)) (Integer_decode_ber (-1)) :
              asn_TYPE_member Invoke),
            asn_MBR 0 noTag (CHOICE_decode_ber asn_DEF_OPERATION)
              fun x st => { st with opCode := x }]).elim some
          fun use_bsearch => bif use_bsearch then binarySearch asn_DEF_Invoke tag 1 2 else none :=
    nextMember_eq (by decide) tag
  have hplace : asn_DEF_Invoke.nextMember 2 0 tag
      = (linearSearch tag false 2
          [asn_MBR 0 noTag (CHOICE_decode_ber asn_DEF_OPERATION)
            fun x (st : Invoke) => { st with opCode := x }]).elim some
          fun use_bsearch => bif use_bsearch then binarySearch asn_DEF_Invoke tag 2 2 else none :=
    nextMember_eq (by decide) tag
  rw [asn_MBR_unread, linearSearch_mbr (by decide), if_neg htag, linearSearch_noTag] at hlinked
  rw [linearSearch_noTag] at hplace
  rw [hlinked, hplace]
  -- an element without a tag sends the search to the table
  by_cases hno : tag = noTag
  · simp only [if_pos hno, if_pos (Or.inl hno), Sum.elim_inl, and_self]
  · rw [if_neg hno]
    simp only [Sum.elim_inr, cond_true, invoke_binarySearch htag 1 (Or.inl rfl),
      invoke_binarySearch htag 2 (Or.inr rfl), hno, false_or, and_self]

private theorem invoke_nextMember_parameter (tag : ber_tlv_tag_t) :
    asn_DEF_Invoke.nextMember 3 1 tag = some 3 := by
  have hopen : asn_DEF_Invoke.nextMember 3 1 tag
      = (linearSearch tag false 3
          [asn_MBR_open 1 (OCTET_STRING_decode_ber asn_DEF_Parameter 0)
            fun x (st : Invoke) => { st with parameter := x }]).elim some _ :=
    nextMember_eq (by decide) tag
  have hfound : linearSearch tag false 3
      [asn_MBR_open 1 (OCTET_STRING_decode_ber asn_DEF_Parameter 0)
        fun x (st : Invoke) => { st with parameter := x }] = .inl 3 := if_pos (Or.inr rfl)
  rw [hopen, hfound]
  rfl

section Invoke

variable {v w : Invoke} {es : List ByteStream}

private theorem invoke_behind : Members asn_DEF_Invoke 4 v es w ↔ v = w ∧ es = [] := by
  rw [members_behind_iff (Nat.le_refl 4)]
  refine and_congr_right fun _ => ⟨fun h => ?_, ?_⟩
  · by_contra hne
    exact Bool.false_ne_true (h.1 hne)
  · rintro rfl
    exact ⟨fun h0 => absurd rfl h0, List.forall_mem_nil _⟩

private theorem exactly_parameter {f : Invoke → Invoke} {p : ByteStream} :
    Exactly (asn_MBR_open 1 (OCTET_STRING_decode_ber asn_DEF_Parameter 0)
      fun x (st : Invoke) => { st with parameter := x }).ber_decoder f p ↔
      IsNested p ∧ (fun st => { st with parameter := some p }) = f := by
  rw [exactly_open]
  constructor
  · rintro ⟨k, hk, rfl⟩
    obtain ⟨rfl, hp⟩ := ANY_decode_ber_recognises.exactly_iff.mp hk
    exact ⟨hp, rfl⟩
  · rintro ⟨hp, rfl⟩
    exact ⟨some p, ANY_decode_ber_recognises.exactly_iff.mpr ⟨rfl, hp⟩, rfl⟩

private theorem invoke_parameter (hnone : v.parameter = none) :
    Members asn_DEF_Invoke 3 v es w ↔ ∃ k, Opt IsParameter k es ∧
      { v with parameter := k } = w := by
  have hend : asn_DEF_Invoke.mayEnd 3 1 = true := rfl
  cases es with
  | nil =>
      rw [members_nil_iff rfl]
      constructor
      · rintro ⟨rfl, -⟩
        exact ⟨none, .absent, by rw [← hnone]⟩
      · rintro ⟨k, hk, rfl⟩
        cases hk
        exact ⟨by rw [← hnone], hend⟩
  | cons p es =>
      rw [members_cons_iff rfl]
      constructor
      · rintro ⟨tag, htag, hcase⟩
        change (∃ n m set, asn_DEF_Invoke.nextMember 3 1 tag = some n ∧ _) ∨
          (asn_DEF_Invoke.nextMember 3 1 tag = none ∧ _) at hcase
        rw [invoke_nextMember_parameter] at hcase
        rcases hcase with ⟨n, m, f, hn, hm, hp, hes⟩ | ⟨hno, -⟩
        · obtain rfl := Option.some.inj hn
          obtain rfl := Option.some.inj hm
          obtain ⟨hnested, rfl⟩ := exactly_parameter.mp hp
          obtain ⟨rfl, rfl⟩ := invoke_behind.mp hes
          exact ⟨some p, .present ⟨rfl, hnested⟩, rfl⟩
        · cases hno
      · rintro ⟨k, hk, rfl⟩
        cases hk with
        | present hp =>
            obtain ⟨rfl, hp⟩ := hp
            obtain ⟨tag, tl, htag, -⟩ := hp.isTlv.exists_tag
            exact ⟨tag, ⟨tl, htag⟩, Or.inl ⟨3, _, _, invoke_nextMember_parameter tag, rfl,
              exactly_parameter.mpr ⟨hp, rfl⟩, invoke_behind.mpr ⟨rfl, rfl⟩⟩⟩

private theorem invoke_operation (hnone : v.parameter = none) :
    Members asn_DEF_Invoke 2 v es w ↔ ∃ x o qs k, es = o :: qs ∧ IsOperation x o ∧
      Opt IsParameter k qs ∧ { v with opCode := x, parameter := k } = w := by
  have hend : asn_DEF_Invoke.mayEnd 2 0 = false := rfl
  cases es with
  | nil =>
      rw [members_nil_iff rfl]
      refine iff_of_false ?_ ?_
      · rintro ⟨-, h⟩
        exact Bool.false_ne_true (hend.symm.trans h)
      · rintro ⟨x, o, qs, k, hnil, -⟩
        cases hnil
  | cons p es =>
      rw [members_cons_iff rfl]
      constructor
      · rintro ⟨tag, htag, hcase⟩
        change (∃ n m set, asn_DEF_Invoke.nextMember 2 0 tag = some n ∧ _) ∨
          (_ ∧ asn_DEF_Invoke.IN_EXTENSION_GROUP 2 = true ∧ _) at hcase
        rcases hcase with ⟨n, m, f, hn, hm, hp, hes⟩ | ⟨-, hext, -⟩
        · have hplace : n = 2 := by
            by_cases hlinked : tag = ASN_TAG_CLASS_CONTEXT ||| (0 <<< 2)
            · subst hlinked
              cases hn
            · rw [(invoke_nextMember_operation hlinked).2] at hn
              split at hn
              · exact (Option.some.inj hn).symm
              · cases hn
          subst hplace
          obtain rfl := Option.some.inj hm
          obtain ⟨x, hx, rfl⟩ := exactly_mbr.mp hp
          obtain ⟨k, hk, hw⟩ := (invoke_parameter (v := { v with opCode := x }) hnone).mp hes
          exact ⟨x, p, es, k, rfl, OPERATION_exactly.mp hx, hk, hw⟩
        · cases hext
      · rintro ⟨x, o, qs, k, hcons, hx, hk, hw⟩
        obtain ⟨rfl, rfl⟩ := List.cons.inj hcons
        obtain ⟨tag, htag, hnext⟩ : ∃ tag, HasTag tag p ∧
            asn_DEF_Invoke.nextMember 2 0 tag = some 2 := by
          rcases hx.hasTag with htag | htag
          · exact ⟨_, htag, rfl⟩
          · exact ⟨_, htag, rfl⟩
        exact ⟨tag, htag, Or.inl ⟨2, _, _, hnext, rfl,
          exactly_mbr.mpr ⟨x, OPERATION_exactly.mpr hx, rfl⟩,
          (invoke_parameter (v := { v with opCode := x }) hnone).mpr ⟨k, hk, hw⟩⟩⟩

/-- **What the elements of an Invoke are to be.** -/
theorem invoke_elements : Members asn_DEF_Invoke 0 Invoke.zero es w ↔ IsInvoke w es := by
  -- the linked identifier is decoded and not kept
  have hlinked : ∀ {v : Invoke} {es}, Members asn_DEF_Invoke 1 v es w ↔ ∃ o ps es',
      es = ps ++ es' ∧ Opt (Field (ASN_TAG_CLASS_CONTEXT ||| (0 <<< 2)) (Integer_decode_ber (-1)))
        o ps ∧ (o = none → FirstIsNot (ASN_TAG_CLASS_CONTEXT ||| (0 <<< 2)) es') ∧
      Members asn_DEF_Invoke 2 (o.elim v fun _ => v) es' w := by
    intro v es
    have htake : asn_DEF_Invoke.nextMember 1 1 (ASN_TAG_CLASS_CONTEXT ||| (0 <<< 2)) = some 1 := rfl
    refine members_opt rfl htake ?_ ?_
    · rw [members_nil_iff rfl, members_nil_iff rfl]
      exact and_congr_right fun _ => iff_of_false Bool.false_ne_true Bool.false_ne_true
    · intro p es hnot
      rw [members_cons_iff rfl, members_cons_iff rfl]
      refine exists_congr fun tag => and_congr_right fun htag => ?_
      have hne : tag ≠ ASN_TAG_CLASS_CONTEXT ||| (0 <<< 2) := fun h0 => hnot (h0 ▸ htag)
      change ((∃ n m set, asn_DEF_Invoke.nextMember 1 1 tag = some n ∧ _) ∨
        (asn_DEF_Invoke.nextMember 1 1 tag = none ∧ _)) ↔ _
      rw [(invoke_nextMember_operation hne).1]
      rfl
  have hsame : ∀ (o : Option Int64) (v : Invoke), (o.elim v fun _ => v) = v := by
    intro o v
    cases o with
    | none => rfl
    | some _ => rfl
  have hfirst : ∀ tag, asn_DEF_Invoke.nextMember 0 0 tag
      = if tag = ASN_TAG_CLASS_UNIVERSAL ||| (2 <<< 2) then some 0 else none := by
    intro tag
    have hsearch : asn_DEF_Invoke.nextMember 0 0 tag
        = (linearSearch tag false 0
            [asn_MBR 0 (ASN_TAG_CLASS_UNIVERSAL ||| (2 <<< 2)) (Integer_decode_ber 0)
              fun x (st : Invoke) => { st with invokeID := x }]).elim some _ :=
      nextMember_eq (by decide) tag
    rw [hsearch, linearSearch_mbr (by decide)]
    by_cases htag : tag = ASN_TAG_CLASS_UNIVERSAL ||| (2 <<< 2)
    · rw [if_pos htag, if_pos htag]
      rfl
    · rw [if_neg htag, if_neg htag]
      rfl
  constructor
  · intro h
    cases es with
    | nil =>
        have hend : asn_DEF_Invoke.mayEnd 0 0 = true := ((members_nil_iff rfl).mp h).2
        cases hend
    | cons i es =>
        obtain ⟨tag, htag, hcase⟩ := (members_cons_iff rfl).mp h
        change (∃ n m set, asn_DEF_Invoke.nextMember 0 0 tag = some n ∧ _) ∨
          (_ ∧ asn_DEF_Invoke.IN_EXTENSION_GROUP 0 = true ∧ _) at hcase
        rcases hcase with ⟨n, m, f, hn, hm, hp, hes⟩ | ⟨-, hext, -⟩
        · rw [hfirst] at hn
          by_cases hid : tag = ASN_TAG_CLASS_UNIVERSAL ||| (2 <<< 2)
          · rw [if_pos hid] at hn
            obtain rfl := Option.some.inj hn
            obtain rfl := Option.some.inj hm
            obtain ⟨l, hl, rfl⟩ := exactly_mbr.mp hp
            obtain ⟨o, ls, es', rfl, ho, -, hes⟩ := hlinked.mp hes
            rw [hsame] at hes
            obtain ⟨x, q, qs, k, rfl, hx, hk, rfl⟩ := (invoke_operation rfl).mp hes
            exact ⟨i, o, ls, q, qs, rfl, field_integer.mp ⟨hid ▸ htag, hl⟩,
              (opt_congr fun _ _ => field_integer_implicit).mp ho, hx, hk⟩
          · rw [if_neg hid] at hn
            cases hn
        · cases hext
  · rintro ⟨i, o, ls, q, qs, rfl, hi, ho, hq, hk⟩
    obtain ⟨htag, hl⟩ := field_integer.mpr hi
    refine .member rfl htag ?_ rfl (exactly_mbr.mpr ⟨w.invokeID, hl, rfl⟩)
      (hlinked.mpr ⟨o, ls, q :: qs, rfl, (opt_congr fun _ _ => field_integer_implicit).mpr ho, ?_,
        ?_⟩)
    · exact (hfirst _).trans (if_pos rfl)
    · intro _ e he htag'
      obtain rfl := Option.some.inj he
      rcases hq.hasTag with hop | hop
      · exact absurd (htag'.unique hop) (by decide)
      · exact absurd (htag'.unique hop) (by decide)
    · rw [hsame]
      exact (invoke_operation rfl).mpr ⟨w.opCode, q, qs, w.parameter, rfl, hq, hk, rfl⟩

end Invoke

/-- **The Invokes that are accepted as a component.** -/
theorem component_invoke {v : Invoke} {p : ByteStream} :
    Exactly (CHOICE_decode_ber asn_DEF_Component) (.PR_invoke v) p ↔
      ∃ es, IsConstructed (Is (ASN_TAG_CLASS_CONTEXT ||| (1 <<< 2))) es p ∧ IsInvoke v es := by
  rw [choice_exactly Component_alternatives (by decide)]
  constructor
  · rintro ⟨t2m, hmem, d, hd, hx⟩
    simp only [asn_DEF_Component, List.mem_cons, List.not_mem_nil, or_false] at hmem
    rcases hmem with rfl | rfl | rfl | rfl | rfl
    · obtain rfl := Option.some.inj hd
      obtain ⟨st, es, hes, hmembers, hy⟩ := (field_sequence asn_DEF_Invoke_nested.sound rfl).mp hx
      obtain rfl := Component.PR_invoke.inj hy
      exact ⟨es, hes, invoke_elements.mp hmembers⟩
    · obtain rfl := Option.some.inj hd
      obtain ⟨st, es, -, -, hy⟩ := (field_sequence asn_DEF_ReturnResult_nested.sound rfl).mp hx
      cases hy
    · obtain rfl := Option.some.inj hd
      obtain ⟨st, es, -, -, hy⟩ := (field_sequence asn_DEF_ReturnError_nested.sound rfl).mp hx
      cases hy
    · obtain rfl := Option.some.inj hd
      obtain ⟨st, es, -, -, hy⟩ := (field_sequence asn_DEF_Reject_nested.sound rfl).mp hx
      cases hy
    · obtain rfl := Option.some.inj hd
      obtain ⟨st, es, -, -, hy⟩ := (field_sequence asn_DEF_ReturnResult_nested.sound rfl).mp hx
      cases hy
  · rintro ⟨es, hes, hv⟩
    exact ⟨_, List.mem_cons_self, _, rfl, (field_sequence asn_DEF_Invoke_nested.sound rfl).mpr
      ⟨v, es, hes, invoke_elements.mpr hv, rfl⟩⟩

/-! ## InitialDPArg -/

theorem asn_DEF_InitialDPArg_three :
    ThreeMembers asn_DEF_InitialDPArg (ASN_TAG_CLASS_CONTEXT ||| (0 <<< 2))
      (ASN_TAG_CLASS_CONTEXT ||| (2 <<< 2)) (ASN_TAG_CLASS_CONTEXT ||| (3 <<< 2))
      (Integer_decode_ber (-1)) (OCTET_STRING_decode_ber asn_DEF_CalledPartyNumber (-1))
      (OCTET_STRING_decode_ber asn_DEF_CallingPartyNumber (-1))
      (fun x st => { st with serviceKey := x }) (fun x st => { st with calledPartyNumber := some x })
      (fun x st => { st with callingPartyNumber := some x }) where
  elements := rfl
  noTags := by decide
  distinct := by decide
  notFirst := rfl

/-- A party number. -/
abbrev IsParty (tag : ber_tlv_tag_t) : Option ByteStream → ByteStream → Prop :=
  IsString asn_DEF_plain (-1) (Is tag)

/-- What an InitialDPArg is made of: a service key, the called and the calling party
    number if they are there, and other values.  The first value that is none of the
    members ends the search for them. -/
def IsInitialDPArg (st : InitialDPArg_t) (es : List ByteStream) : Prop :=
  ∃ s ps qs xs, es = s :: (ps ++ (qs ++ xs)) ∧
    IsInteger (ASN_TAG_CLASS_CONTEXT ||| (0 <<< 2)) st.serviceKey s ∧
    Opt (IsParty (ASN_TAG_CLASS_CONTEXT ||| (2 <<< 2))) st.calledPartyNumber ps ∧
    Opt (IsParty (ASN_TAG_CLASS_CONTEXT ||| (3 <<< 2))) st.callingPartyNumber qs ∧
    (st.calledPartyNumber = none →
      FirstIsNot (ASN_TAG_CLASS_CONTEXT ||| (2 <<< 2)) (qs ++ xs)) ∧
    (st.callingPartyNumber = none → FirstIsNot (ASN_TAG_CLASS_CONTEXT ||| (3 <<< 2)) xs) ∧
    ∀ e ∈ xs, IsTlv e

theorem initialDPArg_elements {st : InitialDPArg_t} {es : List ByteStream} :
    Members asn_DEF_InitialDPArg 0 InitialDPArg_t.zero es st ↔ IsInitialDPArg st es := by
  have hst : ∀ (l : Int64) (o₁ o₂ : Option (Option ByteStream)),
      o₂.elim (o₁.elim { InitialDPArg_t.zero with serviceKey := l } fun x =>
          { InitialDPArg_t.zero with serviceKey := l, calledPartyNumber := some x })
        (fun y => { (o₁.elim { InitialDPArg_t.zero with serviceKey := l } fun x =>
          { InitialDPArg_t.zero with serviceKey := l, calledPartyNumber := some x }) with
            callingPartyNumber := some y }) = ⟨l, o₁, o₂⟩ := by
    intro l o₁ o₂
    cases o₁ with
    | none =>
        cases o₂ with
        | none => rfl
        | some y => rfl
    | some x =>
        cases o₂ with
        | none => rfl
        | some y => rfl
  have hparty : ∀ {tag : ber_tlv_tag_t} {o ps}, Opt (Field tag
      (OCTET_STRING_decode_ber asn_DEF_plain (-1))) o ps ↔ Opt (IsParty tag) o ps :=
    fun {tag o ps} => opt_congr fun _ _ => field_party
  rw [threeMembers_iff asn_DEF_InitialDPArg_three]
  constructor
  · rintro ⟨l, s, o₁, ps, o₂, qs, xs, rfl, hs, ho₁, ho₂, hfirst₁, hfirst₂, hxs, h⟩
    obtain rfl := h.trans (hst l o₁ o₂)
    exact ⟨s, ps, qs, xs, rfl, field_integer_implicit.mp hs, hparty.mp ho₁, hparty.mp ho₂, hfirst₁,
      hfirst₂, hxs.isTlv⟩
  · rintro ⟨s, ps, qs, xs, rfl, hs, ho₁, ho₂, hfirst₁, hfirst₂, hxs⟩
    exact ⟨st.serviceKey, s, st.calledPartyNumber, ps, st.callingPartyNumber, qs, xs, rfl,
      field_integer_implicit.mpr hs, hparty.mpr ho₁, hparty.mpr ho₂, hfirst₁, hfirst₂,
      ⟨fun _ => rfl, hxs⟩, (hst _ _ _).symm⟩

/-- **The InitialDPArgs that are accepted.** -/
theorem InitialDPArg_decode_ber_recognises :
    Recognises InitialDPArg_decode_ber fun st p =>
      ∃ es, IsConstructed (Is (ASN_TAG_CLASS_UNIVERSAL ||| (16 <<< 2))) es p ∧
        IsInitialDPArg st es := by
  have hrec : Recognises InitialDPArg_decode_ber fun st p =>
      ∃ es, IsConstructed (Is (ASN_TAG_CLASS_UNIVERSAL ||| (16 <<< 2))) es p ∧
        Members asn_DEF_InitialDPArg 0 InitialDPArg_t.zero es st :=
    SEQUENCE_decode_ber_recognises asn_DEF_InitialDPArg_sound (.own _) (List.cons_ne_nil _ _)
  refine hrec.stable.recognises fun st p => ?_
  rw [hrec.exactly_iff]
  exact exists_congr fun es => and_congr_right fun _ => initialDPArg_elements

end ProtoVscp
