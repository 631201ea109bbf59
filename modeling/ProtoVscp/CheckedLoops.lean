import Mathlib

/-! # Checked reads and C-style loops in an error monad

    A C or C++ function over a buffer does three things that can go wrong or
    run on: it reads `xs[i]`, it counts `for (i = lo; i < hi; i++)`, and it
    walks `for (i = 0; i < n; i++)` while the body itself moves `i` forward.
    This file gives each of them as a total function in `Except ε` and the
    rules by which a proof uses it:

    * `readAt` faults exactly past the end of the buffer;
    * `forN` / `forRange` count; `readRange` is the counting loop that reads one
      element of the buffer a round, and `copyRange` the one that pushes what
      it reads, which is a slice when the range is inside;
    * `forUntil` is the loop whose body may move the index, run on a fuel that
      the size of the buffer always covers;
    * `Avoids` says of a computation that it does not end in a given fault, and
      is proved along its structure. -/

namespace CheckedLoops

variable {ε α β σ : Type}

/-! ## The error monad -/

@[simp] theorem ok_bind (a : α) (f : α → Except ε β) :
    (Except.ok a >>= f) = f a := rfl

@[simp] theorem error_bind (e : ε) (f : α → Except ε β) :
    ((Except.error e : Except ε α) >>= f) = Except.error e := rfl

@[simp] theorem pure_eq_ok (a : α) : (pure a : Except ε α) = Except.ok a := rfl

/-- A sequence returns exactly when both halves do. -/
theorem bind_eq_ok {x : Except ε α} {f : α → Except ε β} {b : β} :
    (x >>= f) = .ok b ↔ ∃ a, x = .ok a ∧ f a = .ok b := by
  cases x with
  | error e => simp
  | ok a => simp

/-- A sequence fails in its first half, or behind it in the second. -/
theorem bind_eq_error {x : Except ε α} {f : α → Except ε β} {e : ε} :
    (x >>= f) = .error e ↔ x = .error e ∨ ∃ a, x = .ok a ∧ f a = .error e := by
  cases x with
  | error e' => simp
  | ok a => simp

/-- Two results with a state are the same when both parts are. -/
theorem ok_pair_inj {a b : α} {s t : σ}
    (h : (Except.ok (a, s) : Except ε (α × σ)) = .ok (b, t)) : a = b ∧ s = t :=
  Prod.mk.inj (Except.ok.inj h)

/-! ## Checked reads -/

/-- `xs[i]`, with the fault `oob` past the end. -/
def readAt (oob : ε) (xs : List α) (i : Nat) : Except ε α :=
  match xs[i]? with
  | some x => .ok x
  | none => .error oob

theorem readAt_eq_ok {oob : ε} {xs : List α} {i : Nat} {x : α} :
    readAt oob xs i = .ok x ↔ xs[i]? = some x := by
  rw [readAt]
  cases xs[i]? with
  | none => simp
  | some y => simp

theorem readAt_of_lt (oob : ε) {xs : List α} {i : Nat} (h : i < xs.length) :
    readAt oob xs i = .ok xs[i] :=
  readAt_eq_ok.mpr (List.getElem?_eq_getElem h)

theorem readAt_of_ge (oob : ε) {xs : List α} {i : Nat} (h : xs.length ≤ i) :
    readAt oob xs i = .error oob := by
  rw [readAt]
  rw [List.getElem?_eq_none h]

/-- A read returns exactly when its index is inside the buffer. -/
theorem readAt_isOk {oob : ε} {xs : List α} {i : Nat} :
    (∃ x, readAt oob xs i = .ok x) ↔ i < xs.length := by
  constructor
  · rintro ⟨x, hx⟩
    exact (List.getElem?_eq_some_iff.mp (readAt_eq_ok.mp hx)).1
  · intro h
    exact ⟨xs[i], readAt_of_lt oob h⟩

/-! ## Slices -/

/-- The `n` elements of `xs` from position `lo` on. -/
def slice (xs : List α) (lo n : Nat) : List α := (xs.drop lo).take n

@[simp] theorem slice_zero (xs : List α) (lo : Nat) : slice xs lo 0 = [] := by
  simp [slice]

theorem slice_length {xs : List α} {lo n : Nat} (h : lo + n ≤ xs.length) :
    (slice xs lo n).length = n := by
  simp [slice]
  omega

/-- The slice of a range that is empty or inside. -/
theorem slice_range_length {xs : List α} {lo hi : Nat} (h : hi ≤ lo ∨ hi ≤ xs.length) :
    (slice xs lo (hi - lo)).length = hi - lo := by
  by_cases hle : hi ≤ lo
  · rw [Nat.sub_eq_zero_of_le hle, slice_zero]
    rfl
  · exact slice_length (by omega)

theorem slice_succ {xs : List α} {lo n : Nat} (h : lo < xs.length) :
    slice xs lo (n + 1) = xs[lo] :: slice xs (lo + 1) n := by
  simp only [slice]
  rw [List.drop_eq_getElem_cons h, List.take_succ_cons]

/-- A slice in two parts. -/
theorem slice_add (xs : List α) (lo n m : Nat) :
    slice xs lo (n + m) = slice xs lo n ++ slice xs (lo + n) m := by
  simp only [slice]
  rw [List.take_add, List.drop_drop]

/-- A slice inside a slice. -/
theorem slice_slice (xs : List α) {lo k n m : Nat} (h : k + n ≤ m) :
    slice (slice xs lo m) k n = slice xs (lo + k) n := by
  simp only [slice]
  rw [List.drop_take, List.take_take, List.drop_drop,
    Nat.min_eq_left (by omega)]

/-- A slice that starts after a prefix is a slice of the rest. -/
theorem slice_append_right (xs ys : List α) (lo n : Nat) :
    slice (xs ++ ys) (xs.length + lo) n = slice ys lo n := by
  simp only [slice]
  rw [List.drop_length_add_append]

/-- A slice of exactly the first part of an append. -/
theorem slice_append_left (xs ys : List α) :
    slice (xs ++ ys) 0 xs.length = xs := by
  simp [slice]

/-! ## Counting loops -/

/-- `n` rounds of a loop body, the index starting at `i`. -/
def forN (body : Nat → σ → Except ε σ) : Nat → Nat → σ → Except ε σ
  | 0, _, s => .ok s
  | n + 1, i, s => body i s >>= forN body n (i + 1)

/-- `for (i = lo; i < hi; i++) s = body(i, s);` -/
def forRange (lo hi : Nat) (body : Nat → σ → Except ε σ) (s : σ) :
    Except ε σ :=
  forN body (hi - lo) lo s

/-- One round of a reading loop: `s = upd(y, xs[y + off], s);` -/
def readRound (oob : ε) (xs : List α) (off : Nat) (upd : Nat → α → σ → σ)
    (y : Nat) (s : σ) : Except ε σ :=
  readAt oob xs (y + off) >>= fun x => .ok (upd y x s)

/-- `for (y = lo; y < hi; y++) s = upd(y, xs[y + off], s);` -/
def readRange (oob : ε) (xs : List α) (off lo hi : Nat)
    (upd : Nat → α → σ → σ) (s : σ) : Except ε σ :=
  forRange lo hi (readRound oob xs off upd) s

/-- The effect of a reading loop: the updates of the elements, in order, with
    the index each was read under. -/
def foldFrom (upd : Nat → α → σ → σ) : Nat → List α → σ → σ
  | _, [], s => s
  | y, x :: rest, s => foldFrom upd (y + 1) rest (upd y x s)

private theorem readRange_rounds (oob : ε) (xs : List α) (off : Nat)
    (upd : Nat → α → σ → σ) :
    ∀ (n lo : Nat) (s : σ),
      forN (readRound oob xs off upd) n lo s
        = if n = 0 ∨ lo + n + off ≤ xs.length then
            .ok (foldFrom upd lo (slice xs (lo + off) n) s)
          else .error oob := by
  intro n
  induction n with
  | zero => intro lo s; simp [forN, foldFrom]
  | succ n ih =>
      intro lo s
      rw [forN]
      by_cases hlo : lo + off < xs.length
      · have hnext : lo + 1 + off = lo + off + 1 := by omega
        rw [readRound, readAt_of_lt oob hlo, slice_succ hlo, ok_bind, ok_bind, ih,
          hnext, foldFrom]
        by_cases hn : n = 0
        · subst hn
          rw [if_pos (Or.inl rfl), if_pos (Or.inr (by omega))]
        · by_cases hin : lo + 1 + n + off ≤ xs.length
          · rw [if_pos (Or.inr hin), if_pos (Or.inr (by omega))]
          · rw [if_neg (by omega), if_neg (by omega)]
      · rw [readRound, readAt_of_ge oob (by omega), if_neg (by omega)]
        rfl

/-- **A reading loop folds a slice** when its range is empty or inside the
    buffer, and faults otherwise. -/
theorem readRange_eq (oob : ε) (xs : List α) (off lo hi : Nat)
    (upd : Nat → α → σ → σ) (s : σ) :
    readRange oob xs off lo hi upd s
      = if hi ≤ lo ∨ hi + off ≤ xs.length then
          .ok (foldFrom upd lo (slice xs (lo + off) (hi - lo)) s)
        else .error oob := by
  rw [readRange, forRange]
  rw [readRange_rounds]
  by_cases h : hi ≤ lo ∨ hi + off ≤ xs.length
  · rw [if_pos h, if_pos (by omega)]
  · rw [if_neg h, if_neg (by omega)]

/-- `for (i = lo; i < hi; i++) out.push_back(xs[i]);` -/
def copyRange (oob : ε) (xs : List α) (lo hi : Nat) (out : List α) :
    Except ε (List α) :=
  readRange oob xs 0 lo hi (fun _ x out => out ++ [x]) out

theorem foldFrom_push (l : List α) :
    ∀ (y : Nat) (out : List α),
      foldFrom (fun _ x out => out ++ [x]) y l out = out ++ l := by
  induction l with
  | nil => intro y out; simp [foldFrom]
  | cons x rest ih => intro y out; simp [foldFrom, ih]

/-- **The push-back loop is a slice** when the range is empty or inside the
    buffer, and faults otherwise. -/
theorem copyRange_eq (oob : ε) (xs : List α) (lo hi : Nat) (out : List α) :
    copyRange oob xs lo hi out
      = if hi ≤ lo ∨ hi ≤ xs.length then .ok (out ++ slice xs lo (hi - lo))
        else .error oob := by
  rw [copyRange]
  rw [readRange_eq, foldFrom_push, Nat.add_zero, Nat.add_zero]

/-- A push-back loop that returns has added as many elements as it counts. -/
theorem copyRange_length {oob : ε} {xs out r : List α} {lo hi : Nat}
    (h : copyRange oob xs lo hi out = .ok r) : r.length = out.length + (hi - lo) := by
  rw [copyRange_eq] at h
  by_cases hin : hi ≤ lo ∨ hi ≤ xs.length
  · rw [if_pos hin] at h
    rw [← Except.ok.inj h, List.length_append, slice_range_length hin]
  · rw [if_neg hin] at h
    cases h

/-! ## Loops whose body moves the index -/

/-- `for (; i < size; i++) body(i, s);` where the body returns the index it
    leaves off at.  The first argument bounds the rounds; at `0` the loop
    returns as it does past `size`, so any bound of at least `size - i` gives
    the same result (`forUntil_fuel`). -/
def forUntil (size : Nat) (body : Nat → σ → Except ε (Nat × σ)) :
    Nat → Nat → σ → Except ε σ
  | 0, _, s => .ok s
  | n + 1, i, s =>
      if i < size then do
        let (j, t) ← body i s
        forUntil size body n (j + 1) t
      else .ok s

/-- Enough fuel is all that matters: a body that never moves the index back
    cannot use more than `size - i` rounds. -/
theorem forUntil_fuel {size : Nat} {body : Nat → σ → Except ε (Nat × σ)}
    (hfwd : ∀ i s j t, body i s = .ok (j, t) → i ≤ j) :
    ∀ (n m i : Nat) (s : σ), size - i ≤ n → size - i ≤ m →
      forUntil size body n i s = forUntil size body m i s := by
  intro n
  induction n with
  | zero =>
      intro m i s hn _
      cases m with
      | zero => rfl
      | succ m => rw [forUntil, forUntil, if_neg (by omega)]
  | succ n ih =>
      intro m i s hn hm
      cases m with
      | zero => rw [forUntil, forUntil, if_neg (by omega)]
      | succ m =>
          rw [forUntil, forUntil]
          by_cases hi : i < size
          · rw [if_pos hi, if_pos hi]
            cases hb : body i s with
            | error e => rfl
            | ok r =>
                obtain ⟨j, t⟩ := r
                have hij := hfwd i s j t hb
                exact ih m (j + 1) t (by omega) (by omega)
          · rw [if_neg hi, if_neg hi]

/-- The rounds of a `forUntil` loop: the index and the state at the head of
    each round it starts. -/
inductive Reaches (size : Nat) (body : Nat → σ → Except ε (Nat × σ)) (s₀ : σ) :
    Nat → σ → Prop where
  | start : Reaches size body s₀ 0 s₀
  | next {i j : Nat} {s t : σ} : Reaches size body s₀ i s → i < size →
      body i s = .ok (j, t) → Reaches size body s₀ (j + 1) t

/-! ## Faults a computation cannot end in -/

/-- The computation does not end in the fault `e`. -/
def Avoids (e : ε) (x : Except ε α) : Prop := x ≠ .error e

section Avoids

variable {e oob : ε}

theorem avoids_ok (a : α) : Avoids e (.ok a : Except ε α) := by
  intro h
  cases h

theorem avoids_error {e' : ε} (h : e' ≠ e) : Avoids e (.error e' : Except ε α) :=
  fun h0 => h (Except.error.inj h0)

theorem avoids_ite {c : Prop} [Decidable c] {x y : Except ε α} (hx : Avoids e x)
    (hy : Avoids e y) : Avoids e (if c then x else y) := by
  by_cases h : c
  · rw [if_pos h]
    exact hx
  · rw [if_neg h]
    exact hy

/-- What avoids every other fault can only end in this one. -/
theorem eq_of_avoids {x : Except ε α} (h : ∀ e', e' ≠ e → Avoids e' x) {e' : ε}
    (hx : x = .error e') : e' = e := by
  by_contra hne
  exact h e' hne hx

/-- Behind a first half that avoids the fault, it comes from the second. -/
theorem Avoids.bind_eq_error {x : Except ε α} (hx : Avoids e x) {f : α → Except ε β} :
    (x >>= f) = .error e ↔ ∃ a, x = .ok a ∧ f a = .error e := by
  cases x with
  | error e' =>
      have hne : e' ≠ e := fun h => hx (by rw [h])
      simp [hne]
  | ok a => simp

/-- In front of a second half that avoids the fault, it comes from the first. -/
theorem bind_eq_error_of_avoids {x : Except ε α} {f : α → Except ε β}
    (hf : ∀ a, Avoids e (f a)) : (x >>= f) = .error e ↔ x = .error e := by
  cases x with
  | error e' => simp
  | ok a => simpa [Avoids] using hf a

theorem Avoids.bind {x : Except ε α} {f : α → Except ε β} (hx : Avoids e x)
    (hf : ∀ a, Avoids e (f a)) : Avoids e (x >>= f) := by
  intro h
  obtain ⟨a, -, ha⟩ := hx.bind_eq_error.mp h
  exact hf a ha

theorem avoids_readAt (h : oob ≠ e) (xs : List α) (i : Nat) :
    Avoids e (readAt oob xs i) := by
  rw [readAt]
  cases xs[i]? with
  | some x => exact avoids_ok x
  | none => exact avoids_error h

theorem avoids_readRange (h : oob ≠ e) (xs : List α) (off lo hi : Nat)
    (upd : Nat → α → σ → σ) (s : σ) : Avoids e (readRange oob xs off lo hi upd s) := by
  rw [readRange_eq]
  exact avoids_ite (avoids_ok _) (avoids_error h)

theorem avoids_copyRange (h : oob ≠ e) (xs : List α) (lo hi : Nat) (out : List α) :
    Avoids e (copyRange oob xs lo hi out) :=
  avoids_readRange h xs 0 lo hi _ out

/-- A loop avoids what its body avoids. -/
theorem avoids_forUntil {size : Nat} {body : Nat → σ → Except ε (Nat × σ)}
    (h : ∀ i s, Avoids e (body i s)) :
    ∀ (n i : Nat) (s : σ), Avoids e (forUntil size body n i s) := by
  intro n
  induction n with
  | zero => intro i s; exact avoids_ok s
  | succ n ih =>
      intro i s
      rw [forUntil]
      exact avoids_ite ((h i s).bind fun r => ih (r.1 + 1) r.2) (avoids_ok s)

end Avoids

end CheckedLoops
