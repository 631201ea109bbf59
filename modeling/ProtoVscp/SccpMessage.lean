import ProtoVscp.Common

/-! # `SccpMessage.cpp`

    The SCCP layer: accepting a received UDT message, cutting it at its three
    pointers, and encoding the UDT reply. -/

namespace ProtoVscp

open CheckedLoops

/-- `enum valChk` -/
inductive ValChk where
  | INVALID
  | VALID
  deriving DecidableEq

/-- An `SccpMessage` object. -/
structure SccpMessage where
  valChk : ValChk
  m_msg : ByteStream
  calledPartyAddress : ByteStream
  callingPartyAddress : ByteStream
  payload : ByteStream
  deriving DecidableEq

namespace SccpMessage

/-- An object whose decoded fields are still empty. -/
def fresh (valChk : ValChk) (m_msg : ByteStream) : SccpMessage where
  valChk := valChk
  m_msg := m_msg
  calledPartyAddress := []
  callingPartyAddress := []
  payload := []

/-- `SccpMessage::SccpMessage(ByteStream&)`: the first octet is read without a
    look at the size. -/
def ofBytes (_incoming : ByteStream) : Outcome SccpMessage := do
  let messageType ← octetAt _incoming 0
  if messageType ≠ 0x09 then .ok (fresh .INVALID [])     -- SCCP is not UDT
  else .ok (fresh .VALID _incoming)

/-- `bool valid(void)` -/
def valid (m : SccpMessage) : Bool :=
  if m.valChk = .INVALID then false else true

/-- `SccpMessage::decodeSccp()`: each address runs from its own pointer to the
    next one, the data to the end of the message. -/
def decodeSccp (m : SccpMessage) : Outcome SccpMessage := do
  let calledPointer ← octetAt m.m_msg 2
  let callingPointer ← octetAt m.m_msg 3
  let dataPointer ← octetAt m.m_msg 4
  let calledPartyStart := calledPointer.toNat + 3
  let callingPartyStart := callingPointer.toNat + 4
  let dataStart := dataPointer.toNat + 5
  let called ← copyRange Fault.outOfBounds m.m_msg calledPartyStart
    callingPartyStart m.calledPartyAddress
  let calling ← copyRange Fault.outOfBounds m.m_msg callingPartyStart dataStart
    m.callingPartyAddress
  let data ← copyRange Fault.outOfBounds m.m_msg dataStart m.m_msg.length m.payload
  .ok { m with
    calledPartyAddress := called
    callingPartyAddress := calling
    payload := data }

/-- `SccpMessage::encodeSccp`.  The sizes are `unsigned int`, each address less
    its last octet, and `push_back` cuts every pointer and length to one
    octet. -/
def encodeSccp (tcapMsg calledAdd callingAdd : ByteStream) : Outcome ByteStream := do
  let calledSize : UInt32 := UInt32.ofNat calledAdd.length - 1
  let callingSize : UInt32 := UInt32.ofNat callingAdd.length - 1
  let callingPointer : UInt32 := UInt32.ofNat (calledAdd.length + 2)
  let dataPointer : UInt32 := callingSize + callingPointer
  let msg := [0x09, 0x00, 0x03, callingPointer.toUInt8, dataPointer.toUInt8]
  let msg ← copyRange Fault.outOfBounds calledAdd 0 calledSize.toNat
    (msg ++ [calledSize.toUInt8])
  let msg ← copyRange Fault.outOfBounds callingAdd 0 callingSize.toNat
    (msg ++ [callingSize.toUInt8])
  let tcSize : UInt32 := UInt32.ofNat tcapMsg.length
  copyRange Fault.outOfBounds tcapMsg 0 tcSize.toNat (msg ++ [tcSize.toUInt8])

/-- `getData()`, `getCalledPartyAddress()`, `getCallingPartyAddress()` -/
def getData (m : SccpMessage) : ByteStream := m.payload
def getCalledPartyAddress (m : SccpMessage) : ByteStream := m.calledPartyAddress
def getCallingPartyAddress (m : SccpMessage) : ByteStream := m.callingPartyAddress

end SccpMessage

end ProtoVscp
