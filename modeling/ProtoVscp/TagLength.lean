import ProtoVscp.CheckedLoops

/-! # Tag, length, value parameters on a 4-octet grid

    The parameter format of the Sigtran adaptation layers and of SCTP chunks: a
    16-bit tag, a 16-bit length that counts tag, length and value, the value,
    and up to three octets of padding that the length does not count.

    `Param` is a parameter that carries its own well-formedness, `walk` the
    reader that goes from one parameter to the next by their lengths.  The one
    result is that walking what was laid out finds the offsets at which it was
    laid out (`walk_layout`). -/

namespace TagLength

open CheckedLoops

/-- A parameter.  Its length field can hold its length, and its padding brings
    it to a multiple of four octets; what the padding holds is left open. -/
structure Param where
  tagHi : UInt8
  tagLo : UInt8
  value : List UInt8
  pad : List UInt8
  length_fits : value.length + 4 < 65536
  pad_lt : pad.length < 4
  padded : (value.length + pad.length) % 4 = 0

namespace Param

/-- What the length field says. -/
def len (p : Param) : Nat := p.value.length + 4

/-- The octets of a parameter. -/
def bytes (p : Param) : List UInt8 :=
  [p.tagHi, p.tagLo, UInt8.ofNat (p.len / 256), UInt8.ofNat (p.len % 256)]
    ++ p.value ++ p.pad

end Param

/-- The octets of parameters one after the other. -/
def layout (ps : List Param) : List UInt8 := ps.flatMap Param.bytes

/-- The 16-bit word at position `i`, most significant octet first. -/
def word (b : List UInt8) (i : Nat) : Nat :=
  (b[i]?.getD 0).toNat * 256 + (b[i + 1]?.getD 0).toNat

/-- The next multiple of four. -/
def roundUp (n : Nat) : Nat := (n + 3) / 4 * 4

/-- The offsets of the parameters from `off` on, as far as their tags are
    inside the buffer; a length under four ends the walk. -/
def walkFrom (b : List UInt8) : Nat → Nat → List Nat
  | 0, _ => []
  | n + 1, off =>
      if off + 2 ≤ b.length then
        off :: (if off + 4 ≤ b.length ∧ 4 ≤ word b (off + 2) then
            walkFrom b n (off + roundUp (word b (off + 2)))
          else [])
      else []

/-- The offsets of the parameters of a message whose header ends at `start`. -/
def walk (b : List UInt8) (start : Nat) : List Nat :=
  walkFrom b b.length start

/-! ## Walking a layout -/

namespace Param

theorem bytes_length (p : Param) :
    p.bytes.length = 4 + p.value.length + p.pad.length := by
  simp [bytes]
  omega

/-- Padding fills exactly up to the next multiple of four. -/
theorem bytes_length_eq_roundUp (p : Param) : p.bytes.length = roundUp p.len := by
  have h1 := p.pad_lt
  have h2 := p.padded
  rw [bytes_length]
  rw [roundUp, len]
  omega

end Param

@[simp] theorem layout_nil : layout [] = [] := rfl

@[simp] theorem layout_cons (p : Param) (ps : List Param) :
    layout (p :: ps) = p.bytes ++ layout ps := rfl

@[simp] theorem layout_append (ps qs : List Param) :
    layout (ps ++ qs) = layout ps ++ layout qs := by
  simp [layout]

/-- The offsets at which parameters laid out from `off` on start. -/
def offsets : Nat → List Param → List Nat
  | _, [] => []
  | off, p :: ps => off :: offsets (off + p.bytes.length) ps

theorem offsets_append (ps qs : List Param) :
    ∀ off, offsets off (ps ++ qs)
      = offsets off ps ++ offsets (off + (layout ps).length) qs := by
  induction ps with
  | nil => intro off; rfl
  | cons p rest ih =>
      intro off
      simp only [List.cons_append, offsets, ih, layout_cons, List.length_append,
        Nat.add_assoc]

/-- Reading past a prefix. -/
theorem getElem?_append_right_add (xs ys : List UInt8) (k : Nat) :
    (xs ++ ys)[xs.length + k]? = ys[k]? := by
  rw [List.getElem?_append_right (Nat.le_add_right ..), Nat.add_sub_cancel_left]

/-- The length field of a parameter holds its length. -/
theorem word_length (xs ys : List UInt8) (p : Param) :
    word (xs ++ (p.bytes ++ ys)) (xs.length + 2) = p.len := by
  have hfit := p.length_fits
  have hlen : p.len < 65536 := hfit
  have hhi : (UInt8.ofNat (p.len / 256)).toNat = p.len / 256 := by
    rw [UInt8.toNat_ofNat']; omega
  have hlo : (UInt8.ofNat (p.len % 256)).toNat = p.len % 256 := by
    rw [UInt8.toNat_ofNat']; omega
  have h2 : (xs ++ (p.bytes ++ ys))[xs.length + 2]?
      = some (UInt8.ofNat (p.len / 256)) := by
    rw [getElem?_append_right_add]
    simp [Param.bytes]
  have h3 : (xs ++ (p.bytes ++ ys))[xs.length + 3]?
      = some (UInt8.ofNat (p.len % 256)) := by
    rw [getElem?_append_right_add]
    simp [Param.bytes]
  rw [word]
  rw [h2, show xs.length + 2 + 1 = xs.length + 3 from rfl, h3]
  simp only [Option.getD_some, hhi, hlo]
  omega

private theorem walkFrom_layout (ps : List Param) :
    ∀ (xs : List UInt8) (n : Nat), ps.length ≤ n →
      walkFrom (xs ++ layout ps) n xs.length = offsets xs.length ps := by
  induction ps with
  | nil =>
      intro xs n _
      cases n with
      | zero => rfl
      | succ n => rw [walkFrom, if_neg (by simp)]; rfl
  | cons p rest ih =>
      intro xs n hn
      cases n with
      | zero => exact absurd hn (by simp)
      | succ n =>
          -- the first parameter's length leads to the layout of the rest
          have hsize := p.bytes_length
          rw [layout_cons, walkFrom, if_pos (by simp; omega),
            if_pos (by
              constructor
              · simp; omega
              · rw [word_length, Param.len]; omega),
            word_length, ← p.bytes_length_eq_roundUp]
          have hrest := ih (xs ++ p.bytes) n (by simp at hn; omega)
          rw [List.append_assoc, List.length_append] at hrest
          rw [hrest]
          rfl

/-- **Walking a layout finds the parameters laid out.** -/
theorem walk_layout (header : List UInt8) (ps : List Param) :
    walk (header ++ layout ps) header.length = offsets header.length ps := by
  refine walkFrom_layout ps header _ ?_
  have hcount : ps.length ≤ (layout ps).length := by
    induction ps with
    | nil => exact Nat.le_refl 0
    | cons p rest ih =>
        have hsize := p.bytes_length
        rw [layout_cons, List.length_append, List.length_cons]
        omega
  rw [List.length_append]
  omega

end TagLength
