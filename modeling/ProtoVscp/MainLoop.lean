import ProtoVscp.M3UAmessage
import ProtoVscp.SccpMessage
import ProtoVscp.TcapMessage
import ProtoVscp.InapMessage

/-! # `protoVSCP.cpp`, `Database.cpp` and `SctpConnection::sendMsg`

    One iteration of the main loop on a received message: the switch on the
    M3UA message type and, for DATA, the way of the request through SCCP, TCAP
    and INAP to the database and back. -/

namespace ProtoVscp

open CheckedLoops

/-! ## `Database.cpp` -/

/-- What SQLite does with a query: preparing it fails, the first step gives a
    row with the text of column 1 (null for a NULL), it gives no row, or it
    fails. -/
inductive Sqlite where
  | PREPARE_ERROR
  | ROW (column_text : Option CString)
  | DONE
  | STEP_ERROR
  deriving DecidableEq

/-- What the main loop runs in: the codecs, the file system and the database. -/
structure Env where
  asn : Asn1c
  files : Files
  sqlite : CString → Sqlite

namespace Database

/-- The text of the query. -/
def sql (fNum : CString) : CString :=
  "SELECT * FROM NUMS WHERE ORIGNUM = '".toList ++ fNum ++ "';".toList

/-- The text returned for a number that is not in the database. -/
def noNum : CString := "3BD".toList

/-- `Database::find`.  The row's text goes through a `std::string` made out of a
    `const char*`: it ends at the first NUL, and a NULL column has no text. -/
def find (sqlite : CString → Sqlite) (fNum : CString) : Outcome CString :=
  match sqlite (sql fNum) with
  | .PREPARE_ERROR => .ok noNum                 -- SQL QUERY ERROR
  | .ROW (some transNum) => .ok (transNum.takeWhile (· ≠ '\x00'))
  | .ROW none => .error .logicError
  | .DONE => .ok noNum                          -- number not in database
  | .STEP_ERROR => .ok []

end Database

/-! ## `SctpConnection::sendMsg` -/

/-- A message given to `sctp_sendmsg`. -/
structure Sent where
  msg : ByteStream
  ppid : UInt8
  stream_no : UInt16
  deriving DecidableEq

/-- `#define SCTP_PID_M3UA 3` -/
def SCTP_PID_M3UA : UInt8 := 3

/-- `SctpConnection::sendMsg`: the message is copied into `buf[1024]` without a
    look at its size.  The copy of a longer one is undefined behaviour, at which a
    run of the model ends; the program may still get to `sctp_sendmsg` after it. -/
def sendMsg (_msg : ByteStream) (_ppid : UInt8) (_stream_no : UInt16) : Outcome Sent :=
  if _msg.length > 1024 then .error .outOfBounds
  else .ok { msg := _msg, ppid := _ppid, stream_no := _stream_no }

/-! ## The main loop -/

/-- The locals of the `TM_DATA` case once the INAP argument is decoded. -/
structure Request where
  incomingM3uaMsg : M3UAmessage
  incomingSccp : SccpMessage
  incomingTcap : TcapMessage
  invokeID : Int32
  inapMsg : InapMessage

/-- `incomingTcap.invokeId() + 1` -/
def nextInvokeId (invokeId : Int32) : Outcome Int32 :=
  if invokeId = Int32.maxValue then .error .signedOverflow
  else .ok (invokeId + 1)

/-- The `TM_DATA` case up to `getCalledPartyNumber`, and `none` when the user
    data is not a UDT message. -/
def decodeRequest (env : Env) (dataTxt : DataTxt) (incoming : M3UAmessage) :
    Outcome (Option Request × DataTxt) := do
  let incomingM3uaMsg ← incoming.decodePayload
  let incomingSccp ← SccpMessage.ofBytes incomingM3uaMsg.getPayload
  if incomingSccp.valid then do
    let incomingSccp ← incomingSccp.decodeSccp
    let incomingTcap ← TcapMessage.ofBytes env.asn incomingSccp.getData
    let invokeID ← nextInvokeId incomingTcap.invokeId
    let (inapMsg, dataTxt) ← InapMessage.ofBytes env.asn env.files
      incomingTcap.operationLocalCode incomingTcap.parameterData dataTxt
    .ok (some
      { incomingM3uaMsg := incomingM3uaMsg
        incomingSccp := incomingSccp
        incomingTcap := incomingTcap
        invokeID := invokeID
        inapMsg := inapMsg }, dataTxt)
  else .ok (none, dataTxt)

/-- The SCCP message of the reply to a number `newNum` from the database. -/
def encodeReply (env : Env) (q : Request) (newNum : CString) : Outcome ByteStream :=
  let inapPayload := InapMessage.encodeConnect env.asn newNum
  let outTcap := TcapMessage.end_ env.asn q.invokeID q.incomingTcap.transactionId inapPayload
  SccpMessage.encodeSccp outTcap q.incomingSccp.getCallingPartyAddress
    q.incomingSccp.getCalledPartyAddress

/-- The `TM_DATA` case behind `getCalledPartyNumber`: the stream handed to
    `sendMsg`, empty when the loop sends nothing. -/
def buildReply (env : Env) (q : Request) : Outcome ByteStream := do
  if q.inapMsg.getCalledPartyNumber.isEmpty then .ok []
  else do
    let newNum ← Database.find env.sqlite q.inapMsg.getCalledPartyNumber
    if newNum.isEmpty then .ok []
    else do
      let sccpStream ← encodeReply env q newNum
      if sccpStream.length = 0 then .ok []
      else
        let m := q.incomingM3uaMsg
        .ok (M3UAmessage.encodeMsg sccpStream m.opc m.dpc m.si m.ni m.mp m.sls)

/-- The `TM_DATA` case. -/
def handleData (env : Env) (dataTxt : DataTxt) (incoming : M3UAmessage) :
    Outcome (List Sent × DataTxt) := do
  let (q, dataTxt) ← decodeRequest env dataTxt incoming
  match q with
  | none => .ok ([], dataTxt)
  | some q => do
      let m3uaStream ← buildReply env q
      if m3uaStream.length = 0 then .ok ([], dataTxt)
      else do
        let s ← sendMsg m3uaStream SCTP_PID_M3UA 1
        .ok ([s], dataTxt)

/-- One iteration of the `while(true)` on the message `waitForMsg` returned:
    what it sends, and the `data.txt` it leaves behind. -/
def handleMessage (env : Env) (dataTxt : DataTxt) (incomingMsg : ByteStream) :
    Outcome (List Sent × DataTxt) := do
  let incomingM3uaMsg ← M3UAmessage.ofBytes incomingMsg
  if incomingM3uaMsg.valid = false then .ok ([], dataTxt)
  else
    match incomingM3uaMsg.M3UAtype with
    | .ASPSM_ASPUP_ACK => do
        let s ← sendMsg M3UAmessage.aspACTIVE SCTP_PID_M3UA 0
        .ok ([s], dataTxt)
    | .TM_DATA => handleData env dataTxt incomingM3uaMsg
    | _ => .ok ([], dataTxt)                    -- ASPTM_ASPAC_ACK, MGMT_NTFY

end ProtoVscp
