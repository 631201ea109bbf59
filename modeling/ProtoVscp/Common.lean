import ProtoVscp.CheckedLoops

/-! # Byte streams, strings and faults

    `Common.h` makes `ByteStream` a `std::vector<unsigned char>`; here it is the
    list of its octets.  Every function of the program that can leave the
    defined behaviour of C++ or throw runs in `Outcome`: a value, or the
    `Fault` at which the process stops being the program the source
    describes. -/

namespace ProtoVscp

open CheckedLoops

/-- `typedef std::vector<unsigned char> ByteStream;` -/
abbrev ByteStream := List UInt8

/-- A `std::string`, as its characters. -/
abbrev CString := List Char

/-- The ways a run of the program ends other than by returning. -/
inductive Fault where
  /-- `operator[]` of a vector, a string or a C array past its end. -/
  | outOfBounds
  /-- A member read through a null pointer. -/
  | nullDeref
  /-- A thrown `std::out_of_range`; nothing in the program catches it. -/
  | outOfRange
  /-- A thrown `std::logic_error`: a `std::string` made out of a null pointer. -/
  | logicError
  /-- An `int` addition whose result is not an `int`. -/
  | signedOverflow
  deriving DecidableEq

/-- A computation of the program. -/
abbrev Outcome := Except Fault

/-- `b[i]` on a `ByteStream`. -/
abbrev octetAt (b : ByteStream) (i : Nat) : Outcome UInt8 :=
  readAt Fault.outOfBounds b i

end ProtoVscp
