import TeleopLedBenchmarks.Machine
import TeleopLedBenchmarks.AppState

namespace TeleopLedBenchmarks
set_option autoImplicit true

/-- The connection as seen from outside the two programs. On TCP the peer sends bytes, on a
WebSocket messages; the `Sent` fields keep everything, the `In` fields what the desktop has
not read. -/
structure Network where
  toPeer : List Byte
  peerReceived : List Byte
  written : Nat  -- commands whose bytes have all been handed to the network
  tcpSent : List Byte
  tcpIn : List Byte
  wsSent : List (List Byte)
  wsIn : List (List Byte)
  deriving DecidableEq, Repr

def Network.new : Network := ⟨[], [], 0, [], [], [], []⟩

/-- `runApp` between two handlers: its state, the flags other parties set, and the network. -/
structure System where
  app : AppState
  started : Bool  -- the call of `runAppLoop` before `run()` is over
  windowShouldClose : Bool
  stopFlag : Bool
  fault : Option Fault
  net : Network
  deriving DecidableEq, Repr

inductive Event
  | frame (clicked : Bool)
  | acceptHandler (i : Nat) (ec : ErrorCode) (socket : TcpSocket) (handshake : Bool)
  | readSome (i n : Nat)
  | readHandler (i : Nat) (ec : ErrorCode)
  | writeSome (i n : Nat)
  | writeHandler (i : Nat) (ec : ErrorCode)
  | peerRecv (n : Nat)
  | peerSendBytes (bytes : List Byte)
  | peerSendMessage (msg : List Byte)
  | setStopFlag
  | closeWindow
  deriving DecidableEq, Repr

/-- The event is a step of the peer. -/
def Event.fromPeer : Event → Bool
  | .peerRecv _ => true
  | .peerSendBytes _ => true
  | .peerSendMessage _ => true
  | _ => false

/-- `std::string` storage after a read wrote `bytes` from index `start` on. -/
def overwrite (buffer : List Byte) (start : Nat) (bytes : List Byte) : List Byte :=
  buffer.take start ++ bytes ++ buffer.drop (start + bytes.length)

namespace System

def new (c : ConnectionType) : System :=
  ⟨.new c, false, false, false, none, .new⟩

/-- `run()` is not going to run another handler, or never got to run one. -/
def halted (w : System) : Bool := w.app.ioc.stopped || w.fault.isSome

/-- `run()` may run a completion handler. -/
def running (w : System) : Bool := w.started && !w.halted

def withApp (w : System) : Except Fault AppState → System
  | .ok s => { w with app := s }
  | .error f => { w with fault := some f }

/-- The state in which the next `runAppLoop` starts: called directly the first time, taken
from the queue later. -/
def takeFrame (w : System) : Option AppState :=
  if w.halted then none
  else if !w.started then some w.app
  else match w.app.ioc.posted with
    | 0 => none
    | n + 1 => some { w.app with ioc := { w.app.ioc with posted := n } }

section
variable (clock : Nat → Time)

def frame (w : System) (clicked : Bool) : Option System :=
  w.takeFrame.map fun s =>
    { w.withApp (runAppLoop clock w.windowShouldClose w.stopFlag clicked s) with started := true }

end

def acceptHandler (w : System) (i : Nat) (ec : ErrorCode) (socket : TcpSocket)
    (handshake : Bool) : Option System :=
  match w.running, w.app.ioc.accepts[i]? with
  | true, some c =>
    let s := { w.app with ioc := { w.app.ioc with accepts := w.app.ioc.accepts.eraseIdx i } }
    match c with
    | .webSocket => some (w.withApp (wsAcceptHandler ec socket handshake s))
    | .customTcp => some { w with app := tcpAcceptHandler ec socket s }
  | _, _ => none

/-- An outstanding read stores the next `n` bytes: of the stream on TCP, of the current
message on a WebSocket. -/
def readSome (w : System) (i n : Nat) : Option System :=
  match w.running, w.app.ioc.reads[i]? with
  | true, some op =>
    let ioc := { w.app.ioc with reads := w.app.ioc.reads.set i { op with got := op.got + n } }
    match op.conn with
    | .customTcp =>
      if 0 < n ∧ op.got + n ≤ w.app.tcpReadBuf.length ∧ n ≤ w.net.tcpIn.length then
        some { w with
          app := { w.app with
            ioc := ioc, tcpReadBuf := overwrite w.app.tcpReadBuf op.got (w.net.tcpIn.take n) }
          net := { w.net with tcpIn := w.net.tcpIn.drop n } }
      else none
    | .webSocket =>
      match w.net.wsIn with
      | [] => none
      | msg :: rest =>
        if 0 < n ∧ n ≤ msg.length then
          some { w with
            app := { w.app with
              ioc := ioc, wsReadBuffer := w.app.wsReadBuffer ++ msg.take n }
            net := { w.net with wsIn := msg.drop n :: rest } }
        else none
  | _, _ => none

/-- The completion handler of a read. It sees success only when the whole buffer is filled
(TCP) or the current message is read to its end (WebSocket), an error at any time. -/
def readHandler (w : System) (i : Nat) (ec : ErrorCode) : Option System :=
  match w.running, w.app.ioc.reads[i]? with
  | true, some op =>
    let s := { w.app with ioc := { w.app.ioc with reads := w.app.ioc.reads.eraseIdx i } }
    match op.conn, ec with
    | .webSocket, some e => some { w with app := wsReadHandler (some e) op.got s }
    | .customTcp, some e => some { w with app := tcpReadHandler (some e) s }
    | .webSocket, none =>
      match w.net.wsIn with
      | [] :: rest =>
        some { w with app := wsReadHandler none op.got s, net := { w.net with wsIn := rest } }
      | _ => none
    | .customTcp, none =>
      if op.got = w.app.tcpReadBuf.length then some { w with app := tcpReadHandler none s }
      else none
  | _, _ => none

/-- An outstanding write hands `n` more bytes to the network. -/
def writeSome (w : System) (i n : Nat) : Option System :=
  match w.running, w.app.ioc.writes[i]? with
  | true, some op =>
    if 0 < n ∧ n ≤ op.left.length then
      let left := op.left.drop n
      some { w with
        app := { w.app with
          ioc := { w.app.ioc with writes := w.app.ioc.writes.set i { op with left := left } } }
        net := { w.net with
          toPeer := w.net.toPeer ++ op.left.take n
          written := if left = [] then w.net.written + 1 else w.net.written } }
    else none
  | _, _ => none

/-- The completion handlers of both writes only print. -/
def writeHandler (w : System) (i : Nat) (ec : ErrorCode) : Option System :=
  match w.running, w.app.ioc.writes[i]? with
  | true, some op =>
    if ec.isSome ∨ op.left = [] then
      some { w with app := { w.app with
        ioc := { w.app.ioc with writes := w.app.ioc.writes.eraseIdx i } } }
    else none
  | _, _ => none

def peerRecv (w : System) (n : Nat) : Option System :=
  if 0 < n ∧ n ≤ w.net.toPeer.length then
    some { w with net := { w.net with
      toPeer := w.net.toPeer.drop n
      peerReceived := w.net.peerReceived ++ w.net.toPeer.take n } }
  else none

def peerSendBytes (w : System) (bytes : List Byte) : Option System :=
  if w.app.connType = .customTcp then
    some { w with net := { w.net with
      tcpSent := w.net.tcpSent ++ bytes, tcpIn := w.net.tcpIn ++ bytes } }
  else none

def peerSendMessage (w : System) (msg : List Byte) : Option System :=
  if w.app.connType = .webSocket then
    some { w with net := { w.net with
      wsSent := w.net.wsSent ++ [msg], wsIn := w.net.wsIn ++ [msg] } }
  else none

end System

/-- The desktop program with an arbitrary user, network and peer. -/
def system (clock : Nat → Time) : Machine System Event where
  step w
    | .frame clicked => w.frame clock clicked
    | .acceptHandler i ec socket handshake => w.acceptHandler i ec socket handshake
    | .readSome i n => w.readSome i n
    | .readHandler i ec => w.readHandler i ec
    | .writeSome i n => w.writeSome i n
    | .writeHandler i ec => w.writeHandler i ec
    | .peerRecv n => w.peerRecv n
    | .peerSendBytes bytes => w.peerSendBytes bytes
    | .peerSendMessage msg => w.peerSendMessage msg
    | .setStopFlag => some { w with stopFlag := true }
    | .closeWindow => some { w with windowShouldClose := true }

end TeleopLedBenchmarks
