import ProtoVscp.EventLoop
import ProtoVscp.MainLoop

/-! # `SctpConnection::waitForMsg` and `main`

    A run of the server from the established connection on: ASP Up is sent, and
    then each iteration of the `while(true)` either empties standard input or
    receives one message and handles it.  What the system calls give an
    iteration is its input; `data.txt` is the state that one iteration leaves to
    the next. -/

namespace ProtoVscp

open CheckedLoops EventLoop

/-! ## Receiving -/

/-- What `sctp_recvmsg` puts into the buffer of 1024 octets, and whether it sets
    `MSG_EOR` in `msg_flags`. -/
structure Piece where
  buf : ByteStream
  MSG_EOR : Bool
  fits : buf.length ≤ 1024
  deriving DecidableEq

/-- The outcome of `sctp_recvmsg`. -/
inductive Recvmsg where
  | error
  | octets (piece : Piece)
  deriving DecidableEq

/-- `SctpConnection::waitForMsg`: the return value and `_incoming` behind the
    call.  `msg_flags` is not looked at. -/
def waitForMsg (recv : Recvmsg) (_incoming : ByteStream) : Int × ByteStream :=
  match recv with
  | .error => (-1, _incoming)
  | .octets piece => (piece.buf.length, _incoming ++ piece.buf)

/-! ## The run -/

/-- What the file system and the database answer during one iteration. -/
structure World where
  files : Files
  sqlite : CString → Sqlite

/-- One iteration of the `while(true)`: `select` reports standard input, or it
    does not and a message is waited for. -/
inductive Iteration where
  | stdin
  | socket (recv : Recvmsg) (world : World)

/-- What is seen of a run: a byte string handed to `M3UAmessage`, with what the
    iteration is answered, and a message given to `sctp_sendmsg`. -/
inductive Event where
  | received (incomingMsg : ByteStream) (world : World)
  | sent (s : Sent)

/-- The environment of one iteration. -/
def World.env (asn : Asn1c) (world : World) : Env where
  asn := asn
  files := world.files
  sqlite := world.sqlite

/-- The body of the `while(true)`.  `read(0, ..)` has no effect on the rest, and
    `waitForMsg` starts from an empty `incomingMsg` every time. -/
def iterate (asn : Asn1c) (dataTxt : DataTxt) :
    Iteration → List Event × Next Fault DataTxt
  | .stdin => ([], .again dataTxt)
  | .socket recv world =>
      let (ret, incomingMsg) := waitForMsg recv []
      if ret < 1 then ([], .stop)
      else
        match handleMessage (world.env asn) dataTxt incomingMsg with
        | .ok (sent, dataTxt) =>
            (.received incomingMsg world :: sent.map .sent, .again dataTxt)
        | .error fault => ([.received incomingMsg world], .fault fault)

/-- `main`, once the connection stands. -/
def main (asn : Asn1c) (dataTxt : DataTxt) (iterations : List Iteration) :
    List Event × Next Fault DataTxt :=
  match sendMsg M3UAmessage.aspUP SCTP_PID_M3UA 0 with
  | .error fault => ([], .fault fault)
  | .ok s =>
      (.sent s :: (run (iterate asn) dataTxt iterations).1,
        (run (iterate asn) dataTxt iterations).2)

end ProtoVscp
