import ProtoVscp.DerEncoder

/-! # `ber_tlv_tag.c`, `ber_tlv_length.c`

    The tag and the length in front of a BER value, read and written, and the
    function that steps over a value.  A reader gives what it has read and the
    number of octets it has used, or `none`: the C functions answer 0 for too few
    octets and −1 for octets they refuse, and no caller in the program tells the
    two apart. -/

namespace ProtoVscp

/-! ## Tags -/

/-- `ber_tlv_tag_t`: the number of the tag, and below it two bits for the class. -/
abbrev ber_tlv_tag_t := Nat

/-- `ber_tlv_tag_t` is an `unsigned`. -/
abbrev ber_tlv_tag_max : Nat := 2 ^ 32

/-- `BER_TLV_CONSTRUCTED(ptr)` -/
def BER_TLV_CONSTRUCTED : ByteStream → Bool
  | [] => false
  | oct :: _ => oct &&& 0x20 ≠ 0

/-- The loop of `ber_fetch_tag`: seven bits an octet, the highest bit set in all
    but the last.  An octet that leaves fewer than nine bits spare is refused. -/
def fetchTagLoop (tclass : Nat) : Nat → ByteStream → Option (ber_tlv_tag_t × Nat)
  | _, [] => none
  | val, oct :: rest =>
      if oct.toNat &&& 0x80 ≠ 0 then
        let val := (val <<< 7) ||| (oct.toNat &&& 0x7F)
        if val >>> 23 ≠ 0 then none
        else (fetchTagLoop tclass val rest).map fun r => (r.1, r.2 + 1)
      else some ((((val <<< 7) ||| oct.toNat) <<< 2) ||| tclass, 1)

/-- `ber_fetch_tag` -/
def ber_fetch_tag : ByteStream → Option (ber_tlv_tag_t × Nat)
  | [] => none
  | oct :: rest =>
      let tclass := oct.toNat >>> 6
      let val := oct.toNat &&& 0x1F
      if val ≠ 0x1F then some ((val <<< 2) ||| tclass, 1)
      else (fetchTagLoop tclass 0 rest).map fun r => (r.1, r.2 + 1)

/-- The loop of `ber_tlv_tag_serialize` that counts the octets of a number. -/
def requiredTagSize (tval : Nat) : Nat :=
  1 + ((List.range 4).takeWhile (fun k => tval >>> (7 * (k + 1)) ≠ 0)).length

/-- The octets of a number: all but the last have the highest bit set. -/
def tagOctets (tval : Nat) : Nat → ByteStream
  | 0 => [UInt8.ofNat (tval &&& 0x7F)]
  | k + 1 => UInt8.ofNat (0x80 ||| ((tval >>> (7 * (k + 1))) &&& 0x7F)) :: tagOctets tval k

/-- `ber_tlv_tag_serialize` -/
def ber_tlv_tag_serialize (tag : ber_tlv_tag_t) : ByteStream :=
  let tclass := tag &&& 0x3
  let tval := tag >>> 2
  if tval ≤ 30 then [UInt8.ofNat ((tclass <<< 6) ||| tval)]
  else UInt8.ofNat ((tclass <<< 6) ||| 0x1F) :: tagOctets tval (requiredTagSize tval - 1)

/-! ## Lengths -/

/-- `ber_tlv_len_t` is a `ssize_t`: the lengths from here on are negative. -/
abbrev ber_tlv_len_max : Nat := 2 ^ 63

/-- The loop of `ber_fetch_length` with `oct` octets to go. -/
def fetchLengthLoop : Nat → Nat → ByteStream → Option Nat
  | 0, len, _ => some len
  | _ + 1, _, [] => none
  | oct + 1, len, b :: rest =>
      let len := (len <<< 8) ||| b.toNat
      if ber_tlv_len_max ≤ len ∨ (len >>> 56 ≠ 0 ∧ oct + 1 > 1) then none
      else fetchLengthLoop oct len rest

/-- `ber_fetch_length`: the length is `none` where the C function gives −1, the
    indefinite length of a constructed value. -/
def ber_fetch_length (_is_constructed : Bool) : ByteStream → Option (Option Nat × Nat)
  | [] => none
  | oct :: rest =>
      if oct &&& 0x80 = 0 then some (some oct.toNat, 1)
      else if _is_constructed = true ∧ oct = 0x80 then some (none, 1)
      else if oct = 0xff then none
      else
        match fetchLengthLoop (oct.toNat &&& 0x7F) 0 rest with
        | none => none
        | some len =>
            -- lenplusepsilon < 0
            if ber_tlv_len_max ≤ len + 1024 then none
            else some (some len, (oct.toNat &&& 0x7F) + 1)

/-- `der_write_TL` -/
def der_write_TL (tag : ber_tlv_tag_t) (len : Nat) (constructed : Bool) : ByteStream :=
  let buf := ber_tlv_tag_serialize tag ++ der_tlv_length_serialize len
  if constructed then buf.modifyHead (· ||| 0x20) else buf

/-! ## Stepping over a value -/

/-- The octets `00 00` at the front. -/
def isEndOfContents (b : ByteStream) : Bool := b.take 2 = [0, 0]

mutual

/-- `ber_skip_length` from the length on, to a depth of `fuel` at most. -/
def skipLength : Nat → Bool → ByteStream → Option Nat
  | 0, _, _ => none
  | fuel + 1, _is_constructed, b =>
      match ber_fetch_length _is_constructed b with
      | none => none
      | some (some vlen, ll) => if ll + vlen > b.length then none else some (ll + vlen)
      | some (none, ll) => (skipElements fuel (b.drop ll)).map (ll + ·)

/-- The loop of `ber_skip_length` over the elements of an indefinite length; the
    end-of-contents octets are read as one more element. -/
def skipElements : Nat → ByteStream → Option Nat
  | 0, _ => none
  | fuel + 1, b =>
      match ber_fetch_tag b with
      | none => none
      | some (_, tl) =>
          match skipLength fuel (BER_TLV_CONSTRUCTED b) (b.drop tl) with
          | none => none
          | some ll =>
              if isEndOfContents b then some (tl + ll)
              else (skipElements fuel (b.drop (tl + ll))).map (tl + ll + ·)

end

/-- `ber_skip_length`; every call is on fewer octets than the one around it. -/
def ber_skip_length (_is_constructed : Bool) (b : ByteStream) : Option Nat :=
  skipLength (b.length + 1) _is_constructed b

end ProtoVscp
