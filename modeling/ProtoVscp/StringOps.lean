import ProtoVscp.CheckedLoops

/-! # Strings that are searched, cut and permuted in place

    The string operations a C++ program works with, over any alphabet: `find`,
    reading a text line by line for the last line that holds a pattern,
    `substr` and `erase` with their range checks, and `swap` of two characters.
    A string is the list of its characters, and an operation that can fail
    takes the fault to fail with. -/

namespace StringOps

open CheckedLoops

variable {ε α : Type}

/-! ## Searching -/

section Find

variable [DecidableEq α]

/-- `s.find(pat)`: the first position at which `pat` stands in `s`. -/
def find (pat : List α) : List α → Option Nat
  | [] => if pat.isPrefixOf [] then some 0 else none
  | x :: rest =>
      if pat.isPrefixOf (x :: rest) then some 0
      else (find pat rest).map (· + 1)

/-- The pattern stands where `find` says it does. -/
theorem prefix_of_find {pat : List α} :
    ∀ {s : List α} {k : Nat}, find pat s = some k → pat <+: s.drop k := by
  intro s
  induction s with
  | nil =>
      intro k h
      by_cases hp : pat.isPrefixOf ([] : List α) = true
      · rw [List.isPrefixOf_iff_prefix] at hp
        rw [List.drop_nil]
        exact hp
      · rw [find, if_neg hp] at h
        exact nomatch h
  | cons x rest ih =>
      intro k h
      by_cases hp : pat.isPrefixOf (x :: rest) = true
      · rw [find, if_pos hp] at h
        rw [← Option.some.inj h]
        exact List.isPrefixOf_iff_prefix.mp hp
      · rw [find, if_neg hp, Option.map_eq_some_iff] at h
        obtain ⟨j, hj, rfl⟩ := h
        exact ih hj

/-- What is appended to a string does not move its first match. -/
theorem find_append {pat : List α} (t : List α) :
    ∀ {s : List α} {k : Nat}, find pat s = some k → find pat (s ++ t) = some k := by
  intro s
  induction s with
  | nil =>
      intro k h
      have hnil : pat = [] := List.prefix_nil.mp (by simpa using prefix_of_find h)
      subst hnil
      rw [← h]
      cases t with
      | nil => rfl
      | cons y t => rfl
  | cons x rest ih =>
      intro k h
      rw [List.cons_append, find]
      by_cases hp : pat.isPrefixOf (x :: rest) = true
      · rw [find, if_pos hp] at h
        have hlonger : pat <+: x :: (rest ++ t) :=
          (List.isPrefixOf_iff_prefix.mp hp).trans (List.prefix_append (x :: rest) t)
        rw [if_pos (List.isPrefixOf_iff_prefix.mpr hlonger)]
        exact h
      · rw [find, if_neg hp, Option.map_eq_some_iff] at h
        obtain ⟨j, hj, rfl⟩ := h
        -- the match inside `rest` bounds the length of the pattern
        have hlen : pat.length ≤ (x :: rest).length := by
          have := (prefix_of_find hj).length_le
          rw [List.length_drop] at this
          rw [List.length_cons]
          omega
        have hq : ¬ pat.isPrefixOf (x :: (rest ++ t)) = true := by
          intro hq
          refine hp (List.isPrefixOf_iff_prefix.mpr ?_)
          exact List.prefix_of_prefix_length_le (List.isPrefixOf_iff_prefix.mp hq)
            (List.prefix_append (x :: rest) t) hlen
        rw [if_neg hq, ih hj]
        rfl

/-- A pattern with a character the string lacks does not stand in it. -/
theorem find_eq_none_of_not_mem {pat : List α} {c : α} (hc : c ∈ pat) :
    ∀ {s : List α}, c ∉ s → find pat s = none := by
  have hstart : ∀ u : List α, c ∉ u → ¬ pat.isPrefixOf u = true := by
    intro u hu hp
    rw [List.isPrefixOf_iff_prefix] at hp
    exact hu (hp.subset hc)
  intro s
  induction s with
  | nil => intro hs; rw [find, if_neg (hstart _ hs)]
  | cons x rest ih =>
      intro hs
      rw [find, if_neg (hstart _ hs), ih (fun h => hs (List.mem_cons_of_mem x h))]
      rfl

end Find

/-! ## The last line that holds a pattern -/

section Lines

variable [DecidableEq α]

/-- Read `text` line by line and keep the last line in which `pat` stands; no
    line, no characters. -/
def lastLineWith (nl : α) (pat text : List α) : List α :=
  (text.splitOn nl).foldl
    (fun line tmp => if (find pat tmp).isSome then tmp else line) []

private theorem not_mem_of_mem_splitOn {nl c : α} {text l : List α}
    (hl : l ∈ text.splitOn nl) (hc : c ∉ text) : c ∉ l := by
  intro hmem
  apply hc
  have hjoin : [nl].intercalate (text.splitOn nl) = text := List.intercalate_splitOn nl
  rw [← hjoin]
  generalize text.splitOn nl = ls at hl
  induction ls with
  | nil => exact nomatch hl
  | cons hd rest ih =>
      by_cases hrest : rest = []
      · subst hrest
        rw [List.mem_singleton.mp hl] at hmem
        simpa using hmem
      · rw [List.intercalate_cons_of_ne_nil hrest, List.mem_append]
        rcases List.mem_cons.mp hl with rfl | htail
        · exact Or.inl (List.mem_append_left _ hmem)
        · exact Or.inr (ih htail)

private theorem foldl_keep {pat : List α} :
    ∀ {ls : List (List α)} (line : List α), (∀ l ∈ ls, find pat l = none) →
      ls.foldl (fun line tmp => if (find pat tmp).isSome then tmp else line) line = line := by
  intro ls
  induction ls with
  | nil => intro line _; rfl
  | cons hd rest ih =>
      intro line h
      rw [List.foldl_cons, h hd List.mem_cons_self]
      exact ih line (fun l hl => h l (List.mem_cons_of_mem hd hl))

/-- A matching line is the last one when some character of the pattern does
    not occur behind it.  What stands in front of it does not matter. -/
theorem lastLineWith_eq {nl c : α} {pat before l after : List α}
    (hnl : nl ∉ l) (hl : (find pat l).isSome) (hc : c ∈ pat) (hafter : c ∉ after) :
    lastLineWith nl pat (before ++ nl :: (l ++ nl :: after)) = l := by
  have hnone : ∀ tmp ∈ after.splitOn nl, find pat tmp = none :=
    fun tmp htmp => find_eq_none_of_not_mem hc (not_mem_of_mem_splitOn htmp hafter)
  rw [lastLineWith]
  rw [List.splitOn_append_cons_self, List.splitOn_append_cons_self_of_not_mem hnl,
    List.foldl_append, List.foldl_cons, if_pos hl]
  exact foldl_keep l hnone

end Lines

/-! ## Cutting -/

/-- `s.substr(pos)`: the rest from `pos` on, or the fault past the end. -/
def substr (oor : ε) (s : List α) (pos : Nat) : Except ε (List α) :=
  if pos ≤ s.length then .ok (s.drop pos) else .error oor

/-- `s.erase(pos)`: the rest from `pos` on is gone, or the fault past the
    end. -/
def erase (oor : ε) (s : List α) (pos : Nat) : Except ε (List α) :=
  if pos ≤ s.length then .ok (s.take pos) else .error oor

/-- `s.size() - 1` in a word of `2 ^ w` values: the greatest of them when the
    string is empty. -/
def lastPos (w : Nat) (s : List α) : Nat :=
  if s.length = 0 then 2 ^ w - 1 else s.length - 1

/-- Erasing from the last character on drops that character. -/
theorem erase_lastPos (oor : ε) (w : Nat) {s : List α} (h : s ≠ []) :
    erase oor s (lastPos w s) = .ok s.dropLast := by
  have hlen : s.length ≠ 0 := fun h0 => h (List.length_eq_zero_iff.mp h0)
  rw [erase, lastPos]
  rw [if_neg hlen, if_pos (Nat.sub_le _ _), List.dropLast_eq_take]

/-- The empty string has no last character to erase. -/
theorem erase_lastPos_nil (oor : ε) (w : Nat) :
    erase oor ([] : List α) (lastPos (w + 1) ([] : List α)) = .error oor := by
  have hpow : 2 ≤ 2 ^ (w + 1) := by
    have := Nat.one_le_two_pow (n := w)
    rw [Nat.pow_succ]
    omega
  rw [erase, lastPos]
  rw [if_pos List.length_nil, List.length_nil]
  exact if_neg (by omega)

/-! ## Swapping -/

/-- `std::swap(s[i], s[j])` -/
def swapAt (oob : ε) (s : List α) (i j : Nat) : Except ε (List α) := do
  let x ← readAt oob s i
  let y ← readAt oob s j
  .ok ((s.set i y).set j x)

/-- Swapping two neighbours. -/
theorem swapAt_append (oob : ε) (before after : List α) (x y : α) :
    swapAt oob (before ++ x :: y :: after) (before.length + 1) before.length
      = .ok (before ++ y :: x :: after) := by
  have hy : (before ++ x :: y :: after)[before.length + 1]? = some y := by
    rw [List.getElem?_append_right (by omega), Nat.add_sub_cancel_left]
    rfl
  have hx : (before ++ x :: y :: after)[before.length]? = some x := by
    rw [List.getElem?_append_right (Nat.le_refl _), Nat.sub_self]
    rfl
  rw [swapAt]
  rw [readAt_eq_ok.mpr hy, ok_bind, readAt_eq_ok.mpr hx, ok_bind,
    List.set_append_right _ _ (by omega), Nat.add_sub_cancel_left,
    List.set_append_right _ _ (Nat.le_refl _), Nat.sub_self]
  rfl

/-- Every two neighbours exchanged; a last one without a partner stays. -/
def swapPairs : List α → List α
  | x :: y :: rest => y :: x :: swapPairs rest
  | rest => rest

@[simp] theorem swapPairs_length :
    ∀ s : List α, (swapPairs s).length = s.length
  | [] => rfl
  | [_] => rfl
  | x :: y :: rest => by
      simp [swapPairs, swapPairs_length rest]

/-- The two places of a pair after the exchange. -/
theorem swapPairs_pair :
    ∀ {s : List α} {j : Nat}, 2 * j + 1 < s.length →
      (swapPairs s)[2 * j]? = s[2 * j + 1]? ∧ (swapPairs s)[2 * j + 1]? = s[2 * j]?
  | [], _, h => by simp at h
  | [_], _, h => by simp at h
  | _ :: _ :: _, 0, _ => ⟨rfl, rfl⟩
  | x :: y :: rest, j + 1, h => by
      have hrest : 2 * j + 1 < rest.length := by
        simp only [List.length_cons] at h
        omega
      rw [show 2 * (j + 1) = 2 * j + 1 + 1 by omega]
      simpa [swapPairs] using swapPairs_pair hrest

/-- Pairs laid out one after the other are exchanged one by one. -/
theorem swapPairs_flatMap {β : Type} (f g : β → α) (l : List β) :
    swapPairs (l.flatMap (fun x => [f x, g x])) = l.flatMap (fun x => [g x, f x]) := by
  induction l with
  | nil => rfl
  | cons x rest ih =>
      rw [List.flatMap_cons, List.flatMap_cons, ← ih]
      rfl

end StringOps
