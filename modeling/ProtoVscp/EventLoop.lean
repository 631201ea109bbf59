import Mathlib

/-! # Event loops

    A server is a loop `while (true)` that takes one input after the other,
    emits outputs, keeps a state, and ends by a `break` or by a fault.  `run` is
    that loop on a finite sequence of inputs; what it has emitted up to any
    point is a prefix of what it emits in the end, so a property of all runs is
    a property of every moment of a run.

    Three rules carry what one step emits over to the whole run: `run_emits` for a
    property of output lists that holds of an append when it holds of both
    parts, `run_oblivious` for steps that do the same in every state, and
    `run_filter` for inputs on which nothing is done.
    `Precedes` is such a property: no output of one kind without an earlier one
    of another.  `Agree` is how a step written in an error monad is shown to do
    the same in every state. -/

namespace EventLoop

variable {ε σ ι ο α β : Type}

/-- How a step ends: in a state the loop goes on from, by leaving the loop, or
    by a fault. -/
inductive Next (ε σ : Type) where
  | again (s : σ)
  | stop
  | fault (e : ε)

namespace Next

/-- The end without the state. -/
def forget : Next ε σ → Next ε Unit
  | again _ => again ()
  | stop => stop
  | fault e => fault e

/-- The loop has not run into a fault. -/
def Fine : Next ε σ → Prop
  | again _ => True
  | stop => True
  | fault _ => False

end Next

/-- The loop over a finite sequence of inputs: all that is emitted, and how the
    loop stands after the last input it has taken. -/
def run (step : σ → ι → List ο × Next ε σ) : σ → List ι → List ο × Next ε σ
  | s, [] => ([], .again s)
  | s, i :: rest =>
      match step s i with
      | (out, .again t) => (out ++ (run step t rest).1, (run step t rest).2)
      | (out, .stop) => (out, .stop)
      | (out, .fault e) => (out, .fault e)

section Run

variable {step : σ → ι → List ο × Next ε σ}

theorem run_again {s t : σ} {i : ι} {out : List ο} (h : step s i = (out, .again t))
    (rest : List ι) :
    run step s (i :: rest) = (out ++ (run step t rest).1, (run step t rest).2) := by
  rw [run, h]

theorem run_stop {s : σ} {i : ι} {out : List ο} (h : step s i = (out, .stop))
    (rest : List ι) : run step s (i :: rest) = (out, .stop) := by
  rw [run, h]

theorem run_fault {s : σ} {i : ι} {out : List ο} {e : ε}
    (h : step s i = (out, .fault e)) (rest : List ι) :
    run step s (i :: rest) = (out, .fault e) := by
  rw [run, h]

/-- **What every step emits, the run emits**, for a property that passes to
    appends. -/
theorem run_emits {P : List ο → Prop} (hnil : P [])
    (happend : ∀ l₁ l₂, P l₁ → P l₂ → P (l₁ ++ l₂)) :
    ∀ (is : List ι) (s : σ), (∀ t, ∀ i ∈ is, P (step t i).1) → P (run step s is).1 := by
  intro is
  induction is with
  | nil => intro s _; exact hnil
  | cons i rest ih =>
      intro s hstep
      have hfirst := hstep s i (List.mem_cons_self ..)
      have hrest : ∀ t, ∀ j ∈ rest, P (step t j).1 := fun t j hj =>
        hstep t j (List.mem_cons_of_mem i hj)
      cases hs : step s i with
      | mk out next =>
          rw [hs] at hfirst
          cases next with
          | again t =>
              rw [run_again hs]
              exact happend _ _ hfirst (ih t hrest)
          | stop => rw [run_stop hs]; exact hfirst
          | fault e => rw [run_fault hs]; exact hfirst

/-- **A loop whose steps do not look at the state** emits the same, and ends the
    same way, from every state. -/
theorem run_oblivious
    (hstep : ∀ s t i, (step s i).1 = (step t i).1 ∧
      (step s i).2.forget = (step t i).2.forget) :
    ∀ (is : List ι) (s t : σ), (run step s is).1 = (run step t is).1 ∧
      (run step s is).2.forget = (run step t is).2.forget := by
  intro is
  induction is with
  | nil => intro s t; exact ⟨rfl, rfl⟩
  | cons i rest ih =>
      intro s t
      obtain ⟨hout, hnext⟩ := hstep s t i
      cases hs : step s i with
      | mk outs nexts =>
          cases ht : step t i with
          | mk outt nextt =>
              rw [hs, ht] at hout hnext
              -- both ends have the same form, by `hnext`
              cases nexts with
              | again s' =>
                  cases nextt with
                  | again t' =>
                      rw [run_again hs, run_again ht]
                      obtain ⟨h1, h2⟩ := ih s' t'
                      exact ⟨by rw [h1]; exact congrArg (· ++ _) hout, h2⟩
                  | stop => cases hnext
                  | fault e => cases hnext
              | stop =>
                  cases nextt with
                  | again t' => cases hnext
                  | stop => rw [run_stop hs, run_stop ht]; exact ⟨hout, rfl⟩
                  | fault e => cases hnext
              | fault e =>
                  cases nextt with
                  | again t' => cases hnext
                  | stop => cases hnext
                  | fault e' => rw [run_fault hs, run_fault ht]; exact ⟨hout, hnext⟩

/-- **Inputs that leave no trace can be left out**: those on which a step shows
    nothing to `view` and goes on from the state it is in. -/
theorem run_filter {keep : ι → Bool} {view : ο → Option β}
    (hskip : ∀ s i, keep i = false →
      (step s i).1.filterMap view = [] ∧ (step s i).2 = .again s) :
    ∀ (is : List ι) (s : σ),
      (run step s (is.filter keep)).1.filterMap view = (run step s is).1.filterMap view ∧
        (run step s (is.filter keep)).2 = (run step s is).2 := by
  intro is
  induction is with
  | nil => intro s; exact ⟨rfl, rfl⟩
  | cons i rest ih =>
      intro s
      cases hs : step s i with
      | mk out next =>
          cases hkeep : keep i with
          | false =>
              obtain ⟨hout, hnext⟩ := hskip s i hkeep
              rw [hs] at hout hnext
              cases hnext
              rw [List.filter_cons_of_neg (by rw [hkeep]; exact Bool.false_ne_true),
                run_again hs, List.filterMap_append, hout, List.nil_append]
              exact ih s
          | true =>
              rw [List.filter_cons_of_pos hkeep]
              cases next with
              | again t =>
                  obtain ⟨hview, hend⟩ := ih t
                  rw [run_again hs, run_again hs, List.filterMap_append, List.filterMap_append,
                    hview]
                  exact ⟨rfl, hend⟩
              | stop => rw [run_stop hs, run_stop hs]; exact ⟨rfl, rfl⟩
              | fault e => rw [run_fault hs, run_fault hs]; exact ⟨rfl, rfl⟩

end Run

/-! ## Computations that do not look at the state -/

/-- Two outcomes with the same value and maybe different states. -/
def Agree (x y : Except ε (α × σ)) : Prop := x.map Prod.fst = y.map Prod.fst

theorem Agree.refl (x : Except ε (α × σ)) : Agree x x := rfl

theorem agree_ok (a : α) (s t : σ) :
    Agree (.ok (a, s) : Except ε (α × σ)) (.ok (a, t)) := rfl

/-- Both outcomes are the same fault, or values that are the same. -/
theorem agree_iff {x y : Except ε (α × σ)} :
    Agree x y ↔ (∃ e, x = .error e ∧ y = .error e) ∨
      ∃ a s t, x = .ok (a, s) ∧ y = .ok (a, t) := by
  constructor
  · intro h
    cases x with
    | error e =>
        cases y with
        | error e' => exact Or.inl ⟨e, rfl, congrArg Except.error (Except.error.inj h).symm⟩
        | ok q => cases h
    | ok p =>
        cases y with
        | error e => cases h
        | ok q =>
            obtain ⟨a, s⟩ := p
            obtain ⟨b, t⟩ := q
            have hab : a = b := Except.ok.inj h
            exact Or.inr ⟨a, s, t, rfl, by rw [hab]⟩
  · rintro (⟨e, rfl, rfl⟩ | ⟨a, s, t, rfl, rfl⟩)
    · rfl
    · rfl

/-- Agreement goes through a sequence. -/
theorem Agree.bind {x y : Except ε (α × σ)} {f g : α × σ → Except ε (β × σ)}
    (h : Agree x y) (hfg : ∀ a s t, Agree (f (a, s)) (g (a, t))) :
    Agree (x >>= f) (y >>= g) := by
  rcases agree_iff.mp h with ⟨e, rfl, rfl⟩ | ⟨a, s, t, rfl, rfl⟩
  · rfl
  · exact hfg a s t

/-- A first part without the state is the same for both. -/
theorem agree_bind (x : Except ε β) {f g : β → Except ε (α × σ)}
    (hfg : ∀ b, Agree (f b) (g b)) : Agree (x >>= f) (x >>= g) := by
  cases x with
  | error e => rfl
  | ok b => exact hfg b

/-! ## Order of outputs -/

/-- Every element of the second kind has one of the first kind before it. -/
def Precedes (Q P : ο → Prop) (l : List ο) : Prop :=
  ∀ before x after, l = before ++ x :: after → P x → ∃ y ∈ before, Q y

variable {P Q : ο → Prop}

theorem precedes_nil : Precedes Q P ([] : List ο) := by
  intro before x after h
  exact absurd h.symm (by simp)

/-- A list without the second kind. -/
theorem precedes_of_none {l : List ο} (h : ∀ x ∈ l, ¬ P x) : Precedes Q P l := by
  rintro before x after rfl hx
  exact absurd hx (h x (by simp))

/-- Behind an element of the first kind anything may come. -/
theorem precedes_cons {y : ο} {l : List ο} (hy : Q y) (hP : ¬ P y) :
    Precedes Q P (y :: l) := by
  intro before x after h hx
  cases before with
  | nil =>
      rw [List.nil_append] at h
      rw [← (List.cons.inj h).1] at hx
      exact absurd hx hP
  | cons z before =>
      refine ⟨y, ?_, hy⟩
      rw [(List.cons.inj h).1]
      exact List.mem_cons_self ..

/-- Putting something in front takes no predecessor away. -/
theorem Precedes.cons {l : List ο} (h : Precedes Q P l) {y : ο} (hP : ¬ P y) :
    Precedes Q P (y :: l) := by
  intro before x after heq hx
  cases before with
  | nil =>
      rw [List.nil_append] at heq
      rw [← (List.cons.inj heq).1] at hx
      exact absurd hx hP
  | cons z before =>
      obtain ⟨w, hw, hq⟩ := h before x after (List.cons.inj heq).2 hx
      exact ⟨w, List.mem_cons_of_mem z hw, hq⟩

theorem Precedes.append {l₁ l₂ : List ο} (h₁ : Precedes Q P l₁) (h₂ : Precedes Q P l₂) :
    Precedes Q P (l₁ ++ l₂) := by
  intro before x after h hx
  rcases List.append_eq_append_iff.mp h with ⟨m, rfl, hsecond⟩ | ⟨m, hfirst, hm⟩
  · -- `x` stands in the second list
    obtain ⟨y, hy, hq⟩ := h₂ m x after hsecond hx
    exact ⟨y, List.mem_append_right l₁ hy, hq⟩
  · cases m with
    | nil =>
        rw [List.nil_append] at hm
        obtain ⟨y, hy, -⟩ := h₂ [] x after hm.symm hx
        exact absurd hy List.not_mem_nil
    | cons z m =>
        -- `x` stands in the first list
        rw [List.cons_append] at hm
        rw [(List.cons.inj hm).1] at hx
        exact h₁ before z m hfirst hx

end EventLoop
