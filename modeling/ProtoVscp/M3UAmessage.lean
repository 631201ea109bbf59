import ProtoVscp.Common
import ProtoVscp.SkipScan

/-! # `M3UAmessage.cpp`

    The M3UA layer: classifying a received message, decoding the Protocol Data
    parameter of a DATA message, and encoding the messages the server sends.
    Names follow the source.  `LOG` lines and the padding notice on standard
    output are left out: nothing reads them. -/

namespace ProtoVscp

open CheckedLoops SkipScan

/-- `enum M3UAMessages` -/
inductive M3UAMessages where
  | UNKNOWN
  | MGMT_NTFY
  | ASPSM_ASPUP_ACK
  | ASPTM_ASPAC_ACK
  | TM_DATA
  deriving DecidableEq

/-- An `M3UAmessage` object: the message it was built from and the fields that
    `decodePayload` fills. -/
structure M3UAmessage where
  M3UAtype : M3UAMessages
  m_msg : ByteStream
  payload : ByteStream
  m_opc : ByteStream
  m_dpc : ByteStream
  m_si : ByteStream
  m_ni : ByteStream
  m_mp : ByteStream
  m_sls : ByteStream
  deriving DecidableEq

namespace M3UAmessage

/-- An object of a type and a message whose decoded fields are still empty. -/
def fresh (M3UAtype : M3UAMessages) (m_msg : ByteStream) : M3UAmessage where
  M3UAtype := M3UAtype
  m_msg := m_msg
  payload := []
  m_opc := []
  m_dpc := []
  m_si := []
  m_ni := []
  m_mp := []
  m_sls := []

/-- `M3UAmessage::M3UAmessage()` -/
def empty : M3UAmessage := fresh .UNKNOWN []

/-! ## Receiving -/

/-- The `switch(msgClass)` of the receiving constructor. -/
def typeOf (msgClass msgType : UInt8) : M3UAMessages :=
  if msgClass = 0 then                       -- MGMT
    if msgType = 1 then .MGMT_NTFY else .UNKNOWN
  else if msgClass = 3 then                  -- ASPSM
    if msgType = 4 then .ASPSM_ASPUP_ACK else .UNKNOWN
  else if msgClass = 4 then                  -- ASPTM
    if msgType = 3 then .ASPTM_ASPAC_ACK else .UNKNOWN
  else if msgClass = 1 then                  -- Transfer Messages
    if msgType = 1 then .TM_DATA else .UNKNOWN
  else .UNKNOWN

/-- The local `messageLength` of the receiving constructor: four octets, each
    masked at its place in the word but not shifted there. -/
def messageLength (_incoming : ByteStream) : Outcome Int32 := do
  let b4 ← octetAt _incoming 4
  let b5 ← octetAt _incoming 5
  let b6 ← octetAt _incoming 6
  let b7 ← octetAt _incoming 7
  pure ((b4.toUInt32 &&& 0xff000000) ||| (b5.toUInt32 &&& 0x00ff0000)
    ||| (b6.toUInt32 &&& 0x0000ff00) ||| (b7.toUInt32 &&& 0x000000ff)).toInt32

/-- `M3UAmessage::M3UAmessage(ByteStream&)` -/
def ofBytes (_incoming : ByteStream) : Outcome M3UAmessage :=
  if _incoming.length < 8 then .ok empty     -- message too short
  else do
    let version ← octetAt _incoming 0
    if version ≠ 0x01 then .ok empty         -- invalid protocol version
    else do
      let msgClass ← octetAt _incoming 2
      let msgType ← octetAt _incoming 3
      if typeOf msgClass msgType = .UNKNOWN then .ok empty
      else do
        let _ ← messageLength _incoming      -- only logged
        .ok (fresh (typeOf msgClass msgType) _incoming)

/-- `bool valid(void)` -/
def valid (m : M3UAmessage) : Bool :=
  if m.M3UAtype = .UNKNOWN then false else true

/-! ## Decoding a DATA message -/

/-- The test of the search loop: `m_msg[i] == 0x02 && m_msg[i+1] == 0x10`, the
    second read only when the first octet matches. -/
def isProtocolDataTag (m_msg : ByteStream) (i : Nat) : Outcome Bool := do
  let b ← octetAt m_msg i
  if b = 0x02 then do
    let c ← octetAt m_msg (i + 1)
    pure (c == 0x10)
  else pure false

/-- One round of the routing label loop: the octet read at `y` goes to the
    field its offset belongs to. -/
def pushLabel (y : Nat) (b : UInt8) (m : M3UAmessage) : M3UAmessage :=
  if y < 8 then { m with m_opc := m.m_opc ++ [b] }
  else if y > 7 ∧ y < 12 then { m with m_dpc := m.m_dpc ++ [b] }
  else if y > 11 ∧ y < 13 then { m with m_si := m.m_si ++ [b] }
  else if y > 12 ∧ y < 14 then { m with m_ni := m.m_ni ++ [b] }
  else if y > 13 ∧ y < 15 then { m with m_mp := m.m_mp ++ [b] }
  else if y > 14 ∧ y < 16 then { m with m_sls := m.m_sls ++ [b] }
  else m

/-- One round of the user data loop. -/
def pushPayload (_x : Nat) (b : UInt8) (m : M3UAmessage) : M3UAmessage :=
  { m with payload := m.payload ++ [b] }

/-- The body of the search loop after a match at `i`: one length octet, the
    twelve octets of the routing label, then `dataLen - 16` octets of user data.
    The check that the data fits only writes a log line. -/
def takeProtocolData (m_msg : ByteStream) (i : Nat) (m : M3UAmessage) :
    Outcome M3UAmessage := do
  let len ← octetAt m_msg (i + 3)
  let m ← readRange Fault.outOfBounds m_msg i 4 16 pushLabel m
  let dataLen : Int := len.toNat - 16
  readRange Fault.outOfBounds m_msg (i + 16) 0 dataLen.toNat pushPayload m

/-- `M3UAmessage::decodePayload()`: the `for` loop over every position of
    `m_msg`; a match moves `i` on by 16. -/
def decodePayload (m : M3UAmessage) : Outcome M3UAmessage :=
  if m.M3UAtype ≠ .TM_DATA then .ok m
  else
    forUntil m.m_msg.length
      (scanRound 16 (isProtocolDataTag m.m_msg) (takeProtocolData m.m_msg))
      m.m_msg.length 0 m

/-- `M3UAmessage::getPayload() const` -/
def getPayload (m : M3UAmessage) : ByteStream :=
  if m.M3UAtype ≠ .TM_DATA then [] else m.payload

/-- `opc() const` and its five siblings. -/
def opc (m : M3UAmessage) : ByteStream := m.m_opc
def dpc (m : M3UAmessage) : ByteStream := m.m_dpc
def si (m : M3UAmessage) : ByteStream := m.m_si
def ni (m : M3UAmessage) : ByteStream := m.m_ni
def mp (m : M3UAmessage) : ByteStream := m.m_mp
def sls (m : M3UAmessage) : ByteStream := m.m_sls

/-! ## Sending -/

/-- `M3UAmessage::commonHeader` -/
def commonHeader (_msgClass _msgType : UInt8) (_tlvLength : UInt32) : ByteStream :=
  let totLength : UInt32 := _tlvLength + 8
  [0x01, 0x00, _msgClass, _msgType,
    ((totLength >>> 24) &&& 0xff).toUInt8, ((totLength >>> 16) &&& 0xff).toUInt8,
    ((totLength >>> 8) &&& 0xff).toUInt8, (totLength &&& 0xff).toUInt8]

/-- The message `M3UAmessage::aspUP` sends. -/
def aspUP : ByteStream := commonHeader 0x03 0x01 0

/-- The message `M3UAmessage::aspACTIVE` sends: the header in front of the
    Traffic Mode Type parameter (Loadshare). -/
def aspACTIVE : ByteStream :=
  commonHeader 0x04 0x01 8 ++ [0x00, 0x0B, 0x00, 0x08, 0x00, 0x00, 0x00, 0x02]

/-- The Routing Context parameter `encodeMsg` writes in front of the data. -/
def routingContext : ByteStream := [0x00, 0x06, 0x00, 0x08, 0x00, 0x00, 0x00, 0x02]

/-- `padsToBeAdded` zero octets, when that is less than four. -/
def padding (dataLen : UInt32) : ByteStream :=
  let padsToBeAdded := 4 - dataLen % 4
  if padsToBeAdded < 4 then List.replicate padsToBeAdded.toNat 0x00 else []

/-- `M3UAmessage::encodeMsg`.  The second length octet is `dataLen + 4` cut to
    an `unsigned char` by `push_back`; the first is the constant 0. -/
def encodeMsg (_sccpMsg opc dpc si ni mp sls : ByteStream) : ByteStream :=
  let dataLen : UInt32 := UInt32.ofNat (_sccpMsg.length + opc.length + dpc.length
    + si.length + ni.length + mp.length + sls.length)
  if dataLen = 0 then []
  else
    let msg := routingContext ++ [0x02, 0x10, 0x00, (dataLen + 4).toUInt8]
      ++ opc ++ dpc ++ si ++ ni ++ mp ++ sls ++ _sccpMsg ++ padding dataLen
    let tlvLength := UInt32.ofNat msg.length
    commonHeader 0x01 0x01 tlvLength ++ msg

end M3UAmessage

end ProtoVscp
