import ProtoVscp.Asn1c
import ProtoVscp.StringOps

/-! # `InapMessage.cpp`

    The INAP layer.  The called party number of an InitialDP travels through
    the file `data.txt`: the decoded argument is printed into it, read back line
    by line, and the digits are cut out of one line.  The file is part of the
    state; whether the system calls on it succeed is in `Files`. -/

namespace ProtoVscp

open CheckedLoops StringOps

/-- The outcome of the system calls on `data.txt` while one message is
    handled. -/
structure Files where
  fopen : Bool         -- fopen("data.txt", "w") != NULL
  open_ : Bool         -- the ifstream may open the file when it exists
  remove : Bool        -- remove("data.txt") == 0
  deriving DecidableEq

/-- The content of `data.txt`, `none` when there is no such file. -/
abbrev DataTxt := Option CString

/-- An `InapMessage` object. -/
structure InapMessage where
  strCpn : CString
  rawNum : CString
  deriving DecidableEq

namespace InapMessage

/-- `InapMessage::InapMessage()` -/
def empty : InapMessage where
  strCpn := []
  rawNum := []

/-- `isspace` in the C locale. -/
def isspace (c : Char) : Bool :=
  c = ' ' || c = '\t' || c = '\n' || c = '\x0b' || c = '\x0c' || c = '\r'

/-- `line[pos]` of a `std::string`: the null character at `line.size()`. -/
def charAt (line : CString) (pos : Nat) : Outcome Char :=
  if pos = line.length then .ok '\x00'
  else readAt Fault.outOfBounds line pos

/-- One round of the swap loop: the first pair every time, and the pair at `i`
    when `i` is even. -/
def swapRound (i : Nat) (line : CString) : Outcome CString := do
  let line ← swapAt Fault.outOfBounds line 1 0
  if i % 2 = 0 then swapAt Fault.outOfBounds line (i + 1) i
  else pure line

/-- `for(unsigned int i = 0; i < line.size(); i++)`; the rounds do not change
    the size. -/
def swapLoop (line : CString) : Outcome CString :=
  forRange 0 line.length swapRound line

/-- The part of `parseNum` that turns the line into the number. -/
def numberOf (line : CString) : Outcome CString := do
  -- line.find(":") + 2, where npos + 2 wraps to 1
  let pos := match find ":".toList line with
    | some k => k + 2
    | none => 1
  let c ← charAt line pos
  let _isOdd := 8 ≤ c.toNat
  let line := line.filter (fun c => !isspace c)
  let line ← substr Fault.outOfRange line (pos - 1)
  let line ← swapLoop line
  -- if((isOdd = true)) assigns: the last character always goes
  erase Fault.outOfRange line (lastPos 64 line)

/-- `InapMessage::parseNum()` -/
def parseNum (files : Files) (m : InapMessage) (dataTxt : DataTxt) :
    Outcome (InapMessage × DataTxt) :=
  match dataTxt with
  | none => .ok (m, none)                       -- FILE NOT OPEN
  | some text =>
      if files.open_ then do
        let line := lastLineWith '\n' "calledPartyNumber:".toList text
        let dataTxt := if files.remove then none else some text
        if line.isEmpty then .ok (m, dataTxt)   -- CALLEDPARTYNUMBER NOT FOUND
        else do
          let strCpn ← numberOf line
          .ok ({ m with rawNum := line, strCpn := strCpn }, dataTxt)
      else .ok (m, some text)

/-- `InapMessage::decodeInitialDP`.  When `fopen` fails, `fclose` gets its null
    pointer. -/
def decodeInitialDP (asn : Asn1c) (files : Files) (_msg : ByteStream) (m : InapMessage)
    (dataTxt : DataTxt) : Outcome (InapMessage × DataTxt) :=
  match asn.decodeInitialDPArg _msg with
  | none => .ok (m, dataTxt)                    -- InitialDPArg decoding failed
  | some msg =>
      if msg.calledPartyNumber.isNone then .ok (m, dataTxt)
      else if files.fopen then parseNum files m (some (asn_fprint msg))
      else .error .nullDeref

/-- `InapMessage::InapMessage(int, const ByteStream&)`: only local code 0,
    InitialDP, is decoded; 20 (Connect), 22 (ReleaseCall) and every other code
    are logged. -/
def ofBytes (asn : Asn1c) (files : Files) (_localCode : Int32) (_incoming : ByteStream)
    (dataTxt : DataTxt) : Outcome (InapMessage × DataTxt) :=
  if _localCode = 0 then decodeInitialDP asn files _incoming empty dataTxt
  else .ok (empty, dataTxt)

/-- `string getCalledPartyNumber()` -/
def getCalledPartyNumber (m : InapMessage) : CString := m.strCpn

/-- `addr.c_str()` as the octets in front of its first null character. -/
def c_str (addr : CString) : ByteStream :=
  (addr.takeWhile (· ≠ '\x00')).map (fun c => UInt8.ofNat c.toNat)

/-- `InapMessage::encodeConnect` -/
def encodeConnect (asn : Asn1c) (addr : CString) : ByteStream :=
  asn.encodeConnectArg
    { destinationRoutingAddress := [c_str addr]
      cutAndPaste := some 0
      callingPartyNumber := none }

end InapMessage

end ProtoVscp
