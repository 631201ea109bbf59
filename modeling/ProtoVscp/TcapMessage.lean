import ProtoVscp.Asn1c

/-! # `TcapMessage.cpp`

    The TCAP layer: what the constructor takes out of a received Begin, and the
    End that carries the reply.  An `int` is an `Int32`, a `long` an `Int64`. -/

namespace ProtoVscp

open CheckedLoops

/-- A `TcapMessage` object. -/
structure TcapMessage where
  m_operationLocalCode : Int32
  m_transactionId : Int32
  m_invokeId : Int32
  m_parameterData : ByteStream
  deriving DecidableEq

namespace TcapMessage

/-- `TcapMessage::TcapMessage()`, and the member initialisers of the receiving
    constructor. -/
def empty : TcapMessage where
  m_operationLocalCode := 0
  m_transactionId := 0
  m_invokeId := -1
  m_parameterData := []

/-- The four octets read at `otid.buf`, whatever `otid.size` is, the first one
    in the lowest place.  `otid.buf` is null when nothing was allocated for it. -/
def transactionIdOf (otid : OCTET_STRING) : Outcome Int32 :=
  if otid.buf = [] then .error .nullDeref
  else do
    let b0 ← octetAt otid.buf 0
    let b1 ← octetAt otid.buf 1
    let b2 ← octetAt otid.buf 2
    let b3 ← octetAt otid.buf 3
    pure (b0.toUInt32 ||| (b1.toUInt32 <<< 8) ||| (b2.toUInt32 <<< 16)
      ||| (b3.toUInt32 <<< 24)).toInt32

/-- The case `Component_PR_invoke`.  A `globalValue` leaves the local code as it
    was. -/
def takeInvoke (invoke : Invoke) (m : TcapMessage) : TcapMessage :=
  let m := { m with m_invokeId := invoke.invokeID.toInt32 }
  let m := match invoke.opCode with
    | .PR_localValue localValue => { m with m_operationLocalCode := localValue.toInt32 }
    | .PR_globalValue _ => m
  match invoke.parameter with
  | none => m
  | some parameter =>
      if m.m_operationLocalCode = 0 then
        { m with m_parameterData := m.m_parameterData ++ parameter }
      else m

/-- The case `TCMessage_PR_begin`.  The component portion is read without a look
    at its pointer. -/
def takeBegin (begin_ : Begin) (m : TcapMessage) : Outcome TcapMessage := do
  let transactionId ← transactionIdOf begin_.otid
  let m := { m with m_transactionId := transactionId }
  match begin_.components with
  | none => .error .nullDeref
  | some [component] =>
      match component with
      | .PR_invoke invoke => .ok (takeInvoke invoke m)
      | _ => .ok m                              -- TCAP/BEGIN/unknown comp
  | some _ => .ok m                             -- compCount != 1

/-- `TcapMessage::TcapMessage(ByteStream)` -/
def ofBytes (asn : Asn1c) (_incoming : ByteStream) : Outcome TcapMessage :=
  match asn.decodeTCMessage _incoming with
  | some (.PR_begin begin_) => takeBegin begin_ empty
  | some _ => .ok empty                         -- TCAP/unknown prim
  | none => .ok empty                           -- ASN.1 DECODING FAILED

/-- `operationLocalCode()`, `transactionId()`, `invokeId()`, `parameterData()` -/
def operationLocalCode (m : TcapMessage) : Int32 := m.m_operationLocalCode
def transactionId (m : TcapMessage) : Int32 := m.m_transactionId
def invokeId (m : TcapMessage) : Int32 := m.m_invokeId
def parameterData (m : TcapMessage) : ByteStream := m.m_parameterData

/-- `(_transactionId >> k) & 0xff`, stored in a `uint8_t`. -/
def idOctet (_transactionId k : Int32) : UInt8 :=
  ((_transactionId >>> k) &&& 0xff).toUInt32.toUInt8

/-- The End that `TcapMessage::end` fills in. -/
def endOf (_invokeId _transactionId : Int32) (_resultData : ByteStream) : End where
  dtid := .ofBytes [idOctet _transactionId 0, idOctet _transactionId 8,
    idOctet _transactionId 16, idOctet _transactionId 24]
  components := some [.PR_invoke
    { invokeID := _invokeId.toInt64
      opCode := .PR_localValue 0x14
      parameter := some _resultData }]

/-- `TcapMessage::end` -/
def end_ (asn : Asn1c) (_invokeId _transactionId : Int32) (_resultData : ByteStream) :
    ByteStream :=
  asn.encodeTCMessage (.PR_end (endOf _invokeId _transactionId _resultData))

end TcapMessage

end ProtoVscp
