import ProtoVscp.Common

/-! # The `asn1c` support code

    The values the program exchanges with the generated codecs of `asn/`, with
    the members its functions read or write, and the printer `asn_fprint` as it
    prints an `InitialDPArg`.  The BER decoders and DER encoders themselves are
    the parameter `Asn1c`. -/

namespace ProtoVscp

/-! ## Values -/

/-- `OCTET_STRING_t`: the octets allocated at `buf`, the first `size` of which
    are the value.  There are none when `buf` is null. -/
structure OCTET_STRING where
  buf : ByteStream
  size : Nat
  size_le : size ≤ buf.length
  deriving DecidableEq

/-- The octets of the value. -/
def OCTET_STRING.value (o : OCTET_STRING) : ByteStream := o.buf.take o.size

/-- A string of exactly the given octets. -/
def OCTET_STRING.ofBytes (b : ByteStream) : OCTET_STRING where
  buf := b
  size := b.length
  size_le := Nat.le_refl _

/-- `OPERATION_t` -/
inductive OPERATION where
  | PR_localValue (localValue : Int64)
  | PR_globalValue (globalValue : ByteStream)
  deriving DecidableEq

/-- `Invoke_t`: a null `parameter` pointer is `none`. -/
structure Invoke where
  invokeID : Int64
  opCode : OPERATION
  parameter : Option ByteStream
  deriving DecidableEq

/-- `Component_t` -/
inductive Component where
  | PR_invoke (invoke : Invoke)
  | PR_returnResultLast
  | PR_returnError
  | PR_reject
  | PR_returnResultNotLast
  deriving DecidableEq

/-- `Begin_t`: the component portion is a pointer, null when the portion is
    absent. -/
structure Begin where
  otid : OCTET_STRING
  components : Option (List Component)
  deriving DecidableEq

/-- `End_t` -/
structure End where
  dtid : OCTET_STRING
  components : Option (List Component)
  deriving DecidableEq

/-- `TCMessage_t` -/
inductive TCMessage where
  | PR_unidirectional
  | PR_begin (begin_ : Begin)
  | PR_end (end_ : End)
  | PR_continue
  | PR_abort
  deriving DecidableEq

/-- `InitialDPArg_t` -/
structure InitialDPArg where
  serviceKey : Int64
  calledPartyNumber : Option ByteStream
  callingPartyNumber : Option ByteStream
  deriving DecidableEq

/-- `ConnectArg_t` -/
structure ConnectArg where
  destinationRoutingAddress : List ByteStream
  cutAndPaste : Option Int64
  callingPartyNumber : Option ByteStream
  deriving DecidableEq

/-! ## Codecs -/

/-- The codecs: a decoder gives the decoded structure when its code is `RC_OK`,
    an encoder what it has written. -/
structure Asn1c where
  decodeTCMessage : ByteStream → Option TCMessage
  decodeInitialDPArg : ByteStream → Option InitialDPArg
  encodeTCMessage : TCMessage → ByteStream
  encodeConnectArg : ConnectArg → ByteStream

/-- A BER value of at most 127 octets. -/
def tlv (tag : UInt8) (content : ByteStream) : ByteStream :=
  tag :: UInt8.ofNat content.length :: content

/-- The codecs of a table of values and their encodings. -/
def Asn1c.ofTable (tcMessages : List (ByteStream × TCMessage))
    (initialDPArgs : List (ByteStream × InitialDPArg))
    (connectArgs : List (ByteStream × ConnectArg)) : Asn1c where
  decodeTCMessage b := tcMessages.lookup b
  decodeInitialDPArg b := initialDPArgs.lookup b
  encodeTCMessage m := ((tcMessages.map Prod.swap).lookup m).getD []
  encodeConnectArg a := ((connectArgs.map Prod.swap).lookup a).getD []

/-! ## Printing -/

/-- `_i_INDENT(1)` -/
def i_INDENT (ilevel : Nat) : CString := '\n' :: List.replicate (4 * ilevel) ' '

/-- `h2c[n]` -/
def h2c (n : UInt8) : Char := "0123456789ABCDEF".toList.getD n.toNat '0'

/-- What one octet adds to `scratch`. -/
def hexOctet (b : UInt8) : CString :=
  [h2c ((b >>> 4) &&& 0x0F), h2c (b &&& 0x0F), ' ']

/-- The loop of `OCTET_STRING_print` from octet `i` on, with `scratch` not yet
    written.  Every sixteen octets, and at once when there are more than
    sixteen, it goes on in a new line. -/
def printOctets (ilevel size : Nat) : Nat → ByteStream → CString → CString
  | _, [], scratch => scratch.dropLast        -- Remove the tail space
  | i, b :: rest, scratch =>
      if i % 16 = 0 ∧ (i ≠ 0 ∨ size > 16) then
        scratch ++ i_INDENT ilevel ++ printOctets ilevel size (i + 1) rest (hexOctet b)
      else printOctets ilevel size (i + 1) rest (scratch ++ hexOctet b)

/-- `OCTET_STRING_print` -/
def OCTET_STRING_print (ilevel : Nat) (st : ByteStream) : CString :=
  printOctets ilevel st.length 0 st []

/-- `NativeInteger_print`: `"%ld"`. -/
def NativeInteger_print (native : Int64) : CString :=
  if native.toInt < 0 then '-' :: Nat.toDigits 10 native.toInt.natAbs
  else Nat.toDigits 10 native.toInt.natAbs

/-- One round of the element loop of `SEQUENCE_print`. -/
def printMember (ilevel : Nat) (name : CString) (value : CString) : CString :=
  i_INDENT ilevel ++ name ++ ": ".toList ++ value

/-- A member that is a pointer to an optional OCTET STRING: nothing is printed
    when it is null. -/
def printOptional (ilevel : Nat) (name : CString) : Option ByteStream → CString
  | none => []
  | some st => printMember ilevel name (OCTET_STRING_print (ilevel + 1) st)

/-- `SEQUENCE_print` on an `InitialDPArg`. -/
def SEQUENCE_print (ilevel : Nat) (sptr : InitialDPArg) : CString :=
  "InitialDPArg".toList ++ " ::= \x7b".toList
    ++ printMember ilevel "serviceKey".toList (NativeInteger_print sptr.serviceKey)
    ++ printOptional ilevel "calledPartyNumber".toList sptr.calledPartyNumber
    ++ printOptional ilevel "callingPartyNumber".toList sptr.callingPartyNumber
    ++ i_INDENT (ilevel - 1) ++ "\x7d".toList

/-- `asn_fprint` -/
def asn_fprint (struct_ptr : InitialDPArg) : CString :=
  SEQUENCE_print 1 struct_ptr ++ "\n".toList

end ProtoVscp
