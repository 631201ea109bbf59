import ProtoVscp.CheckedLoops

/-! # Scanners that skip after a hit

    A scanner walks the positions `0 .. size - 1` from the left, tests each
    position it visits, and after a hit at `p` jumps over the next `skip`
    positions.  Which positions it visits is decided by the hits alone: `j` is
    visited exactly when no hit lies in the `skip` positions before it.

    `visits` and `hits` are that abstract scan, as lists of positions.  The last
    section shows that the loop which performs such a scan with a fallible test
    and a fallible action on each hit computes exactly it. -/

namespace SkipScan

open CheckedLoops

variable {ε α σ : Type}

/-- The positions a scan visits from `i` on, in at most `n` rounds. -/
def visitsFrom (hit : Nat → Bool) (skip size : Nat) : Nat → Nat → List Nat
  | 0, _ => []
  | n + 1, i =>
      if i < size then
        i :: visitsFrom hit skip size n (if hit i then i + skip + 1 else i + 1)
      else []

/-- The positions a scan of `size` positions visits. -/
def visits (hit : Nat → Bool) (skip size : Nat) : List Nat :=
  visitsFrom hit skip size size 0

/-- The hits of a scan, from the left. -/
def hits (hit : Nat → Bool) (skip size : Nat) : List Nat :=
  (visits hit skip size).filter hit

section Visits

variable {hit : Nat → Bool} {skip size : Nat}

theorem visitsFrom_of_lt {n i : Nat} (h : i < size) :
    visitsFrom hit skip size (n + 1) i
      = i :: visitsFrom hit skip size n
          (if hit i then i + skip + 1 else i + 1) := by
  rw [visitsFrom, if_pos h]

theorem visitsFrom_of_ge {n i : Nat} (h : size ≤ i) :
    visitsFrom hit skip size n i = [] := by
  cases n with
  | zero => rfl
  | succ n => rw [visitsFrom, if_neg (by omega)]

/-- Visited positions lie between the start and the end of the scan. -/
theorem visitsFrom_bounds :
    ∀ (n i : Nat), ∀ j ∈ visitsFrom hit skip size n i, i ≤ j ∧ j < size := by
  intro n
  induction n with
  | zero => intro i j hj; exact nomatch hj
  | succ n ih =>
      intro i j hj
      by_cases hi : i < size
      · rw [visitsFrom_of_lt hi] at hj
        rcases List.mem_cons.mp hj with rfl | hmem
        · exact ⟨Nat.le_refl j, hi⟩
        · have := ih _ j hmem
          refine ⟨?_, this.2⟩
          split at this <;> omega
      · rw [visitsFrom_of_ge (by omega)] at hj
        exact nomatch hj

/-- What a round does to the positions behind it: the next one visited is
    behind, and what lies before that is skipped by a hit. -/
private theorem visitsFrom_step {n i : Nat} (h : i < size) :
    ∃ next, visitsFrom hit skip size (n + 1) i = i :: visitsFrom hit skip size n next ∧
      i < next ∧
      ∀ j, i < j → (next ≤ j ↔ ¬ (hit i = true ∧ j ≤ i + skip)) := by
  rw [visitsFrom_of_lt h]
  refine ⟨_, rfl, ?_, ?_⟩
  · split <;> omega
  · intro j hj
    by_cases hh : hit i = true
    · rw [if_pos hh]
      constructor
      · rintro hle ⟨-, hskip⟩
        omega
      · intro hno
        have : ¬ j ≤ i + skip := fun hskip => hno ⟨hh, hskip⟩
        omega
    · rw [if_neg hh]
      exact iff_of_true hj (fun hno => hh hno.1)

/-- **Which positions are visited**: those with no hit in the `skip` positions
    before them. -/
theorem mem_visitsFrom :
    ∀ (n i j : Nat), size - i ≤ n →
      (j ∈ visitsFrom hit skip size n i ↔
        i ≤ j ∧ j < size ∧
          ¬ ∃ p ∈ visitsFrom hit skip size n i,
            hit p = true ∧ p < j ∧ j ≤ p + skip) := by
  intro n
  induction n with
  | zero =>
      intro i j hn
      constructor
      · intro h; exact absurd h List.not_mem_nil
      · rintro ⟨h1, h2, -⟩; omega
  | succ n ih =>
      intro i j hn
      by_cases hi : i < size
      · obtain ⟨next, htail, hnext, hskipped⟩ :=
          @visitsFrom_step hit skip size n i hi
        rw [htail]
        have hlo : ∀ p ∈ visitsFrom hit skip size n next, next ≤ p :=
          fun p hp => (visitsFrom_bounds n next p hp).1
        simp only [List.mem_cons, ih next j (by omega)]
        constructor
        · rintro (rfl | ⟨h1, h2, h3⟩)
          · refine ⟨Nat.le_refl j, hi, ?_⟩
            rintro ⟨p, rfl | hp, -, hlt, -⟩
            · omega
            · have := hlo p hp; omega
          · refine ⟨by omega, h2, ?_⟩
            rintro ⟨p, rfl | hp, hph, hlt, hle⟩
            · exact (hskipped j hlt).mp h1 ⟨hph, hle⟩
            · exact h3 ⟨p, hp, hph, hlt, hle⟩
        · rintro ⟨h1, h2, h3⟩
          by_cases hj : j = i
          · exact Or.inl hj
          · have hlt : i < j := by omega
            refine Or.inr ⟨(hskipped j hlt).mpr ?_, h2, ?_⟩
            · rintro ⟨hh, hle⟩
              exact h3 ⟨i, Or.inl rfl, hh, hlt, hle⟩
            · rintro ⟨p, hp, hrest⟩
              exact h3 ⟨p, Or.inr hp, hrest⟩
      · rw [visitsFrom_of_ge (by omega)]
        constructor
        · intro h; exact absurd h List.not_mem_nil
        · rintro ⟨h1, h2, -⟩; omega

theorem mem_hits {j : Nat} :
    j ∈ hits hit skip size ↔ j ∈ visits hit skip size ∧ hit j = true :=
  List.mem_filter

/-- A position is visited exactly when no hit of the scan jumps over it. -/
theorem mem_visits {j : Nat} :
    j ∈ visits hit skip size ↔
      j < size ∧ ¬ ∃ p ∈ hits hit skip size, p < j ∧ j ≤ p + skip := by
  rw [visits]
  rw [mem_visitsFrom size 0 j (by omega)]
  constructor
  · rintro ⟨-, h2, h3⟩
    refine ⟨h2, ?_⟩
    rintro ⟨p, hp, hlt, hle⟩
    obtain ⟨hpv, hph⟩ := mem_hits.mp hp
    exact h3 ⟨p, hpv, hph, hlt, hle⟩
  · rintro ⟨h2, h3⟩
    refine ⟨Nat.zero_le j, h2, ?_⟩
    rintro ⟨p, hpv, hph, hlt, hle⟩
    exact h3 ⟨p, mem_hits.mpr ⟨hpv, hph⟩, hlt, hle⟩

theorem hits_lt {j : Nat} (h : j ∈ hits hit skip size) : j < size :=
  (mem_visits.mp (mem_hits.mp h).1).1

/-- Every position that tests as a hit is one, or is jumped over by one. -/
theorem exists_hit_near (skip : Nat) {j : Nat} (hj : j < size) (hh : hit j = true) :
    ∃ p ∈ hits hit skip size, p ≤ j ∧ j ≤ p + skip := by
  by_cases hv : j ∈ visits hit skip size
  · exact ⟨j, mem_hits.mpr ⟨hv, hh⟩, Nat.le_refl j, by omega⟩
  · rw [mem_visits] at hv
    by_cases hex : ∃ p ∈ hits hit skip size, p < j ∧ j ≤ p + skip
    · obtain ⟨p, hp, hlt, hle⟩ := hex
      exact ⟨p, hp, by omega, hle⟩
    · exact absurd ⟨hj, hex⟩ hv

/-- Two hits are at least `skip + 1` apart. -/
theorem hits_apart {p q : Nat} (hp : p ∈ hits hit skip size)
    (hq : q ∈ hits hit skip size) (hlt : p < q) : p + skip < q := by
  by_cases hle : q ≤ p + skip
  · exact absurd ⟨p, hp, hlt, hle⟩ (mem_visits.mp (mem_hits.mp hq).1).2
  · omega

/-- Visits come in increasing order. -/
theorem visitsFrom_sorted :
    ∀ (n i : Nat), (visitsFrom hit skip size n i).Pairwise (· < ·) := by
  intro n
  induction n with
  | zero => intro i; exact List.Pairwise.nil
  | succ n ih =>
      intro i
      by_cases hi : i < size
      · rw [visitsFrom_of_lt hi]
        refine List.Pairwise.cons ?_ (ih _)
        intro p hp
        have := (visitsFrom_bounds n _ p hp).1
        split at this <;> omega
      · rw [visitsFrom_of_ge (by omega)]
        exact List.Pairwise.nil

theorem hits_sorted : (hits hit skip size).Pairwise (· < ·) :=
  (visitsFrom_sorted size 0).filter hit

/-- A scan all of whose hits are at `q` hits once. -/
theorem hits_eq_singleton_of_forall {q : Nat}
    (hq : q ∈ hits hit skip size) (hall : ∀ p ∈ hits hit skip size, p = q) :
    hits hit skip size = [q] := by
  have hsorted : (hits hit skip size).Pairwise (· < ·) := hits_sorted
  cases hl : hits hit skip size with
  | nil => rw [hl] at hq; exact nomatch hq
  | cons a rest =>
      rw [hl] at hall hsorted
      have ha : a = q := hall a (List.mem_cons_self ..)
      cases rest with
      | nil => rw [ha]
      | cons b rest' =>
          have hb : b = q :=
            hall b (List.mem_cons_of_mem _ (List.mem_cons_self ..))
          have hab := (List.pairwise_cons.mp hsorted).1 b (List.mem_cons_self ..)
          omega

/-- **A scan hits exactly `q`** when `q` tests as a hit and every other
    position that does lies in the window the hit at `q` jumps over. -/
theorem hits_eq_singleton_iff {q : Nat} :
    hits hit skip size = [q] ↔
      (q < size ∧ hit q = true) ∧
        ∀ j, j < size → hit j = true → q ≤ j ∧ j ≤ q + skip := by
  constructor
  · intro h
    have hq : q ∈ hits hit skip size := by rw [h]; exact List.mem_singleton.mpr rfl
    refine ⟨⟨hits_lt hq, (mem_hits.mp hq).2⟩, ?_⟩
    intro j hj hh
    obtain ⟨p, hp, hle, hle'⟩ := exists_hit_near skip hj hh
    rw [h, List.mem_singleton] at hp
    subst hp
    exact ⟨hle, hle'⟩
  · rintro ⟨⟨hq, hqh⟩, hall⟩
    -- the hit that covers `q` is in the window of `q`, so it is `q` itself
    obtain ⟨p, hp, hpq, -⟩ := exists_hit_near skip hq hqh
    have hpw := hall p (hits_lt hp) (mem_hits.mp hp).2
    have hpeq : p = q := by omega
    subst hpeq
    refine hits_eq_singleton_of_forall hp ?_
    intro j hj
    have hjw := hall j (hits_lt hj) (mem_hits.mp hj).2
    by_cases hlt : p < j
    · have := hits_apart hp hj hlt
      omega
    · omega

end Visits

/-! ## The loop that scans -/

/-- One round of a scanning loop: test the position, and on a hit act on it and
    leave the index at the last position jumped over. -/
def scanRound (skip : Nat) (test : Nat → Except ε Bool)
    (act : Nat → σ → Except ε σ) (i : Nat) (s : σ) : Except ε (Nat × σ) := do
  if ← test i then
    let t ← act i s
    pure (i + skip, t)
  else
    pure (i, s)

/-- The hits of a fallible test: the positions where it returns `true`. -/
def hitOf (test : Nat → Except ε Bool) (i : Nat) : Bool :=
  match test i with
  | .ok b => b
  | .error _ => false

theorem hitOf_eq_true {test : Nat → Except ε Bool} {i : Nat} :
    hitOf test i = true ↔ test i = .ok true := by
  rw [hitOf]
  cases test i with
  | error e => simp
  | ok b => simp

theorem hitOf_eq_false {test : Nat → Except ε Bool} {i : Nat}
    (h : test i = .ok false) : hitOf test i = false := by
  rw [hitOf, h]

/-- **What a round does**: nothing at a position that is no hit, and at a hit
    it acts and moves the index over the window. -/
theorem scanRound_cases {skip : Nat} {test : Nat → Except ε Bool}
    {act : Nat → σ → Except ε σ} {i j : Nat} {s t : σ}
    (h : scanRound skip test act i s = .ok (j, t)) :
    (test i = .ok false ∧ j = i ∧ t = s) ∨
      (test i = .ok true ∧ j = i + skip ∧ act i s = .ok t) := by
  rw [scanRound, bind_eq_ok] at h
  obtain ⟨b, ht, h⟩ := h
  cases b with
  | false =>
      obtain ⟨hj, hs⟩ := ok_pair_inj h
      exact Or.inl ⟨ht, hj.symm, hs.symm⟩
  | true =>
      rw [if_pos rfl, bind_eq_ok] at h
      obtain ⟨u, ha, h⟩ := h
      obtain ⟨hj, hu⟩ := ok_pair_inj h
      exact Or.inr ⟨ht, hj.symm, hu ▸ ha⟩

/-- A round never moves the index back. -/
theorem scanRound_forward {skip : Nat} {test : Nat → Except ε Bool}
    {act : Nat → σ → Except ε σ} {i j : Nat} {s t : σ}
    (h : scanRound skip test act i s = .ok (j, t)) : i ≤ j := by
  rcases scanRound_cases h with ⟨-, rfl, -⟩ | ⟨-, rfl, -⟩
  · exact Nat.le_refl j
  · exact Nat.le_add_right i skip

private theorem scan_rounds (skip size : Nat) (test : Nat → Except ε Bool)
    (act : Nat → σ → Except ε σ) :
    ∀ (n i : Nat) (s r : σ),
      forUntil size (scanRound skip test act) n i s = .ok r ↔
        (∀ j ∈ visitsFrom (hitOf test) skip size n i, ∃ b, test j = .ok b) ∧
        ((visitsFrom (hitOf test) skip size n i).filter (hitOf test)).foldlM
          (fun t p => act p t) s = .ok r := by
  intro n
  induction n with
  | zero => intro i s r; simp [forUntil, visitsFrom]
  | succ n ih =>
      intro i s r
      rw [forUntil]
      by_cases hi : i < size
      · rw [if_pos hi, visitsFrom_of_lt hi, List.forall_mem_cons,
          List.filter_cons]
        cases ht : test i with
        | error e =>
            simp [scanRound, ht]
        | ok b =>
            cases b with
            | false =>
                have hh : hitOf test i = false := by simp [hitOf, ht]
                simp [scanRound, ht, hh, ih]
            | true =>
                have hh : hitOf test i = true := by simp [hitOf, ht]
                simp only [scanRound, ht, hh, ok_bind, pure_eq_ok, if_true,
                  List.foldlM_cons]
                cases ha : act i s with
                | error e => simp
                | ok t => simp [ih]
      · rw [if_neg hi, visitsFrom_of_ge (by omega)]
        simp

/-- **The scanning loop is the scan**: it returns `r` exactly when no visited
    position faults in the test and acting on the hits from the left gives
    `r`. -/
theorem forUntil_scan (skip size : Nat) (test : Nat → Except ε Bool)
    (act : Nat → σ → Except ε σ) (s r : σ) :
    forUntil size (scanRound skip test act) size 0 s = .ok r ↔
      (∀ j ∈ visits (hitOf test) skip size, ∃ b, test j = .ok b) ∧
      (hits (hitOf test) skip size).foldlM (fun t p => act p t) s = .ok r :=
  scan_rounds skip size test act size 0 s r

/-- Every round the loop starts inside the buffer is at a visited position. -/
theorem mem_visits_of_reaches {skip size : Nat} {test : Nat → Except ε Bool}
    {act : Nat → σ → Except ε σ} {s₀ s : σ} {i : Nat}
    (h : Reaches size (scanRound skip test act) s₀ i s) (hi : i < size) :
    i ∈ visits (hitOf test) skip size := by
  -- induction on the run: where it stands, no hit has jumped over
  have key : ∀ p ∈ hits (hitOf test) skip size, ¬ (p < i ∧ i ≤ p + skip) := by
    clear hi
    induction h with
    | start => rintro p - ⟨h, -⟩; omega
    | @next i j s t hprev hi hround ih =>
        rcases scanRound_cases hround with ⟨ht, rfl, -⟩ | ⟨ht, rfl, -⟩
        · rintro p hp ⟨h1, h2⟩
          by_cases hpi : p = j
          · subst hpi
            have hhit := (mem_hits.mp hp).2
            rw [hitOf_eq_false ht] at hhit
            exact Bool.false_ne_true hhit
          · exact ih p hp ⟨by omega, by omega⟩
        · have hih : i ∈ hits (hitOf test) skip size :=
            mem_hits.mpr ⟨mem_visits.mpr ⟨hi, fun ⟨p, hp, h1, h2⟩ =>
              ih p hp ⟨h1, h2⟩⟩, hitOf_eq_true.mpr ht⟩
          rintro p hp ⟨h1, h2⟩
          have := hits_apart hih hp (by omega)
          omega
  refine mem_visits.mpr ⟨hi, ?_⟩
  rintro ⟨p, hp, h1, h2⟩
  exact key p hp ⟨h1, h2⟩

private theorem reaches_visits {skip size : Nat} {test : Nat → Except ε Bool}
    {act : Nat → σ → Except ε σ} {s₀ : σ} :
    ∀ (n i : Nat) (s r : σ), Reaches size (scanRound skip test act) s₀ i s →
      forUntil size (scanRound skip test act) n i s = .ok r →
      ∀ j ∈ visitsFrom (hitOf test) skip size n i,
        ∃ t, Reaches size (scanRound skip test act) s₀ j t := by
  intro n
  induction n with
  | zero => intro i s r _ _ j hj; exact absurd hj List.not_mem_nil
  | succ n ih =>
      intro i s r hreach hrun j hj
      rw [forUntil] at hrun
      by_cases hi : i < size
      · rw [if_pos hi, bind_eq_ok] at hrun
        obtain ⟨⟨k, t⟩, hround, hrest⟩ := hrun
        rw [visitsFrom_of_lt hi] at hj
        rcases List.mem_cons.mp hj with rfl | hmem
        · exact ⟨s, hreach⟩
        · refine ih (k + 1) t r (.next hreach hi hround) hrest j ?_
          -- the index the round leaves behind is where the scan goes on
          rcases scanRound_cases hround with ⟨ht, rfl, -⟩ | ⟨ht, rfl, -⟩
          · rw [hitOf_eq_false ht] at hmem
            exact hmem
          · rw [if_pos (hitOf_eq_true.mpr ht)] at hmem
            exact hmem
      · rw [visitsFrom_of_ge (by omega)] at hj
        exact absurd hj List.not_mem_nil

/-- A loop that returns has started a round at every visited position. -/
theorem reaches_of_mem_visits {skip size : Nat} {test : Nat → Except ε Bool}
    {act : Nat → σ → Except ε σ} {s r : σ} {j : Nat}
    (hrun : forUntil size (scanRound skip test act) size 0 s = .ok r)
    (hj : j ∈ visits (hitOf test) skip size) :
    ∃ t, Reaches size (scanRound skip test act) s j t :=
  reaches_visits size 0 s r .start hrun j hj

/-- Acting on a list of hits when each action either faults on its position or
    has a plain effect. -/
theorem foldlM_guarded (good : Nat → Prop) [DecidablePred good]
    {act : Nat → σ → Except ε σ} (upd : σ → Nat → σ)
    (hgood : ∀ p s, good p → act p s = .ok (upd s p))
    (hbad : ∀ p s, ¬ good p → ∃ e, act p s = .error e) :
    ∀ (l : List Nat) (s r : σ),
      l.foldlM (fun t p => act p t) s = .ok r ↔
        (∀ p ∈ l, good p) ∧ r = l.foldl upd s := by
  intro l
  induction l with
  | nil => intro s r; simp [eq_comm]
  | cons p rest ih =>
      intro s r
      rw [List.foldlM_cons, List.forall_mem_cons, List.foldl_cons]
      by_cases hp : good p
      · rw [hgood p s hp, ok_bind, ih]
        simp [hp]
      · obtain ⟨e, he⟩ := hbad p s hp
        rw [he, error_bind]
        simp [hp]

end SkipScan
