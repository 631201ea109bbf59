import Mathlib

/-! # Self-delimiting decoders

    A decoder takes a value off the front of a buffer and tells how many elements
    it has used.  A format is a relation `G x b`: the list `b` is an encoding of
    `x`, and nothing else.  A decoder that `Recognises` a format finds an encoding
    at the front of a buffer exactly when there is one, whatever follows it.  Then
    a buffer begins with one encoding at most (`front_inj`), encodings can be put
    behind one another (`seq`) and are told apart there (`flatten_inj`), and their
    values may be looked at further (`through`).

    A decoder is `Stable` when what it makes of a buffer is decided by the
    elements it uses: it then recognises the format that it defines by itself. -/

namespace SelfDelimiting

variable {α β γ : Type}

/-- What a decoder takes off the front of a buffer, and how many elements of the
    buffer it uses for it. -/
abbrev Decoder (α β : Type) := List α → Option (β × Nat)

/-- The decoder finds the encodings of the format `G`. -/
def Recognises (d : Decoder α β) (G : β → List α → Prop) : Prop :=
  ∀ b x n, d b = some (x, n) ↔ n ≤ b.length ∧ G x (b.take n)

/-- The format that a decoder defines by itself: the lists it uses as a whole. -/
def Exactly (d : Decoder α β) (x : β) (b : List α) : Prop := d b = some (x, b.length)

/-- What the decoder makes of a buffer is decided by the elements it uses. -/
def Stable (d : Decoder α β) : Prop := Recognises d (Exactly d)

section Recognises

variable {d : Decoder α β} {G : β → List α → Prop}

/-- A decoder that finds nothing but encodings, and each of them whatever follows,
    recognises the format. -/
theorem recognises_of
    (hsound : ∀ b x n, d b = some (x, n) → ∃ p t, b = p ++ t ∧ p.length = n ∧ G x p)
    (hcomplete : ∀ x p t, G x p → d (p ++ t) = some (x, p.length)) : Recognises d G := by
  intro b x n
  constructor
  · intro hd
    obtain ⟨p, t, rfl, rfl, hG⟩ := hsound b x n hd
    refine ⟨?_, ?_⟩
    · rw [List.length_append]
      exact Nat.le_add_right _ _
    · rw [List.take_left]
      exact hG
  · rintro ⟨hn, hG⟩
    have hrun := hcomplete x (b.take n) (b.drop n) hG
    rw [List.take_append_drop, List.length_take, Nat.min_eq_left hn] at hrun
    exact hrun

/-- What is found is an encoding, and what is behind it. -/
theorem Recognises.split (h : Recognises d G) {b : List α} {x : β} {n : Nat}
    (hd : d b = some (x, n)) : ∃ p t, b = p ++ t ∧ p.length = n ∧ G x p := by
  obtain ⟨hn, hG⟩ := (h b x n).mp hd
  refine ⟨b.take n, b.drop n, (List.take_append_drop n b).symm, ?_, hG⟩
  rw [List.length_take, Nat.min_eq_left hn]

/-- An encoding is found whatever follows it. -/
theorem Recognises.complete (h : Recognises d G) {x : β} {p : List α} (hG : G x p)
    (t : List α) : d (p ++ t) = some (x, p.length) := by
  refine (h _ _ _).mpr ⟨?_, ?_⟩
  · rw [List.length_append]
    exact Nat.le_add_right _ _
  · rw [List.take_left]
    exact hG

theorem Recognises.exactly_iff (h : Recognises d G) {x : β} {p : List α} :
    Exactly d x p ↔ G x p := by
  rw [Exactly, h, List.take_length]
  exact and_iff_right (Nat.le_refl _)

/-- A decoder that recognises some format is stable. -/
theorem Recognises.stable (h : Recognises d G) : Stable d := by
  refine recognises_of ?_ ?_
  · intro b x n hd
    obtain ⟨p, t, hb, hn, hG⟩ := h.split hd
    exact ⟨p, t, hb, hn, h.exactly_iff.mpr hG⟩
  · intro x p t hG
    exact h.complete (h.exactly_iff.mp hG) t

/-- A stable decoder recognises what it defines, in whatever words. -/
theorem Stable.recognises (h : Stable d) (hG : ∀ x p, Exactly d x p ↔ G x p) :
    Recognises d G := by
  intro b x n
  rw [h b x n, hG]

/-- **A buffer begins with one encoding.** -/
theorem Recognises.front_inj (h : Recognises d G) {x y : β} {p q t u : List α} (hx : G x p)
    (hy : G y q) (heq : p ++ t = q ++ u) : x = y ∧ p = q ∧ t = u := by
  have hxrun := h.complete hx t
  have hyrun := h.complete hy u
  rw [heq, hyrun] at hxrun
  obtain ⟨hxy, hlen⟩ := Prod.mk.inj (Option.some.inj hxrun)
  exact ⟨hxy.symm, List.append_inj heq hlen.symm⟩

/-- **Encodings behind one another are told apart**, when none of them is empty. -/
theorem Recognises.flatten_inj (h : Recognises d G) (hne : ∀ {x p}, G x p → p ≠ [])
    {ps qs : List (List α)} (heq : ps.flatten = qs.flatten) (hps : ∀ p ∈ ps, ∃ x, G x p)
    (hqs : ∀ q ∈ qs, ∃ x, G x q) : ps = qs := by
  have hcons : ∀ {p : List α} {ps : List (List α)}, (∃ x, G x p) → (p :: ps).flatten ≠ [] := by
    rintro p ps ⟨x, hx⟩ hnil
    rw [List.flatten_cons, List.append_eq_nil_iff] at hnil
    exact hne hx hnil.1
  induction ps generalizing qs with
  | nil =>
      cases qs with
      | nil => rfl
      | cons q qs => exact absurd heq.symm (hcons (List.forall_mem_cons.mp hqs).1)
  | cons p ps ih =>
      obtain ⟨hp, hps⟩ := List.forall_mem_cons.mp hps
      cases qs with
      | nil => exact absurd heq (hcons hp)
      | cons q qs =>
          obtain ⟨hq, hqs'⟩ := List.forall_mem_cons.mp hqs
          obtain ⟨x, hx⟩ := hp
          obtain ⟨y, hy⟩ := hq
          obtain ⟨-, rfl, hrest⟩ := h.front_inj hx hy heq
          rw [ih hrest hps hqs']

/-- A decoder whose every find stays the same in front of other elements is
    stable. -/
theorem stable_of
    (h : ∀ b x n, d b = some (x, n) →
      ∃ p t, b = p ++ t ∧ p.length = n ∧ ∀ t', d (p ++ t') = some (x, n)) : Stable d := by
  refine recognises_of ?_ ?_
  · intro b x n hd
    obtain ⟨p, t, hb, hn, hsame⟩ := h b x n hd
    refine ⟨p, t, hb, hn, ?_⟩
    have hp := hsame []
    rw [List.append_nil] at hp
    rw [Exactly, hp, hn]
  · intro x p t hG
    obtain ⟨p', t', hp, hn, hsame⟩ := h p x _ hG
    have ht : t' = [] := by
      have hlen := congrArg List.length hp
      rw [List.length_append] at hlen
      exact List.eq_nil_of_length_eq_zero (by omega)
    rw [ht, List.append_nil] at hp
    subst hp
    exact hsame t

end Recognises

/-! ## Putting encodings behind one another -/

/-- One decoder, and behind what it has used another. -/
def seq (d : Decoder α β) (k : β → Decoder α γ) : Decoder α γ := fun b => do
  let (x, n) ← d b
  let (y, m) ← k x (b.drop n)
  some (y, n + m)

/-- The encodings of one format, and behind them those of another. -/
def Seq (G : β → List α → Prop) (H : β → γ → List α → Prop) (y : γ) (b : List α) : Prop :=
  ∃ x p q, b = p ++ q ∧ G x p ∧ H x y q

theorem seq_eq_some {d : Decoder α β} {k : β → Decoder α γ} {b : List α} {y : γ} {n : Nat} :
    seq d k b = some (y, n) ↔
      ∃ x m l, d b = some (x, m) ∧ k x (b.drop m) = some (y, l) ∧ n = m + l := by
  simp only [seq, Option.bind_eq_bind, Option.bind_eq_some_iff, Prod.exists, Option.some.injEq,
    Prod.mk.injEq]
  constructor
  · rintro ⟨x, m, hd, y', l, hk, rfl, rfl⟩
    exact ⟨x, m, l, hd, hk, rfl⟩
  · rintro ⟨x, m, l, hd, hk, rfl⟩
    exact ⟨x, m, hd, y, l, hk, rfl, rfl⟩

/-- **A sequence of recognising decoders recognises the sequence of the formats.** -/
theorem Recognises.seq {d : Decoder α β} {G : β → List α → Prop} {k : β → Decoder α γ}
    {H : β → γ → List α → Prop} (hd : Recognises d G) (hk : ∀ x, Recognises (k x) (H x)) :
    Recognises (SelfDelimiting.seq d k) (Seq G H) := by
  refine recognises_of ?_ ?_
  · intro b y n hrun
    obtain ⟨x, m, l, hfirst, hsecond, rfl⟩ := seq_eq_some.mp hrun
    obtain ⟨p, b', rfl, rfl, hG⟩ := hd.split hfirst
    rw [List.drop_left] at hsecond
    obtain ⟨q, t, rfl, rfl, hH⟩ := (hk x).split hsecond
    exact ⟨p ++ q, t, (List.append_assoc p q t).symm, List.length_append, x, p, q, rfl, hG, hH⟩
  · rintro y b t ⟨x, p, q, rfl, hG, hH⟩
    refine seq_eq_some.mpr ⟨x, p.length, q.length, ?_, ?_, List.length_append⟩
    · rw [List.append_assoc]
      exact hd.complete hG _
    · rw [List.append_assoc, List.drop_left]
      exact (hk x).complete hH t

/-! ## Looking at the value -/

/-- A decoder that goes on with what it has decoded, and may refuse it. -/
def through (d : Decoder α β) (f : β → Option γ) : Decoder α γ := fun b =>
  (d b).bind fun r => (f r.1).map fun y => (y, r.2)

theorem Recognises.through {d : Decoder α β} {G : β → List α → Prop} (hd : Recognises d G)
    (f : β → Option γ) :
    Recognises (SelfDelimiting.through d f) fun y p => ∃ x, G x p ∧ f x = some y := by
  refine recognises_of ?_ ?_
  · intro b y n h
    obtain ⟨⟨x, m⟩, hrun, hf⟩ := Option.bind_eq_some_iff.mp h
    obtain ⟨z, hz, heq⟩ := Option.map_eq_some_iff.mp hf
    obtain ⟨rfl, rfl⟩ : z = y ∧ m = n := Prod.mk.inj heq
    obtain ⟨p, t, hb, hn, hG⟩ := hd.split hrun
    exact ⟨p, t, hb, hn, x, hG, hz⟩
  · rintro y p t ⟨x, hG, hf⟩
    rw [SelfDelimiting.through, hd.complete hG, Option.bind_some, hf]
    rfl

end SelfDelimiting
