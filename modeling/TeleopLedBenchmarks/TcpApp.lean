import TeleopLedBenchmarks.System
import TeleopLedBenchmarks.WebsocketHandler

namespace TeleopLedBenchmarks
set_option autoImplicit true

/-- `TcpClient` between connecting and disconnecting. -/
structure TcpClient where
  sock : Int
  deriving DecidableEq, Repr

namespace TcpClient

/-- `receiveData` on the cells of a string, its terminator among them. `recv` is what the
system call gives: an error, or the bytes it has stored. -/
def receiveData (c : TcpClient) (recv : Option (List Byte)) (data : List Byte) :
    Int × List Byte :=
  if c.sock < 0 then (-1, data)
  else match recv with
    | none => (-1, data)
    | some bytes => (0, overwrite data 0 bytes)

/-- `sendData`, where `send` gives an error or the number of bytes it accepts. -/
def sendData (c : TcpClient) (send : Option Nat) : Int :=
  if c.sock < 0 then -1
  else match send with
    | none => -1
    | some _ => 0

end TcpClient

/-- Where the loop of `tcpAppStart` stands: in front of one of its calls, or after a break. -/
inductive LoopPoint
  | receiving
  | sending
  | stopped
  deriving DecidableEq, Repr

structure TcpApp where
  client : TcpClient
  buffer : List Byte
  point : LoopPoint
  log : List (List Byte)
  replies : Nat  -- calls of `sendData` that returned 0
  deriving DecidableEq, Repr

namespace TcpApp

/-- `tcpAppStart` with a client that is connected on `fd`. -/
def new (fd : Nat) : TcpApp where
  client := ⟨fd⟩
  buffer := List.replicate (chars "button clicked\n").length 0 ++ [0]
  point := .receiving
  log := []
  replies := 0

/-- From the call of `receiveData` to the call of `sendData`. -/
def receive (recv : Option (List Byte)) (a : TcpApp) : TcpApp :=
  let (err, buffer) := a.client.receiveData recv a.buffer
  if err ≠ 0 then { a with buffer := buffer, point := .stopped }
  else { a with
    buffer := buffer, log := a.log ++ [buffer.takeWhile (· ≠ 0)], point := .sending }

/-- From the call of `sendData` to the next turn of the loop. -/
def send (send : Option Nat) (a : TcpApp) : TcpApp :=
  if a.client.sendData send ≠ 0 then { a with point := .stopped }
  else { a with replies := a.replies + 1, point := .receiving }

end TcpApp

/-- The desktop program in `CUSTOM_TCP` mode and the ESP32 at the other end. -/
structure TcpBench where
  desktop : System
  esp : TcpApp
  deriving DecidableEq, Repr

inductive TcpEvent
  | desktop (e : Event)
  | recv (n : Nat)
  | send
  deriving DecidableEq, Repr

def TcpBench.new (fd : Nat) : TcpBench := ⟨.new .customTcp, .new fd⟩

/-- Both parties, any interleaving. A `recv` gives any number of the bytes that are there and
fit, a `send` is accepted whole. -/
def tcpBench (clock : Nat → Time) : Machine TcpBench TcpEvent where
  step b
    | .desktop e =>
      if e.fromPeer then none
      else ((system clock).step b.desktop e).map fun w => { b with desktop := w }
    | .recv n =>
      if b.esp.point = .receiving ∧ n ≤ b.esp.buffer.length then
        ((system clock).step b.desktop (.peerRecv n)).map fun w =>
          ⟨w, b.esp.receive (some (b.desktop.net.toPeer.take n))⟩
      else none
    | .send =>
      if b.esp.point = .sending then
        ((system clock).step b.desktop (.peerSendBytes receivedMsg)).map fun w =>
          ⟨w, b.esp.send (some receivedMsg.length)⟩
      else none

/-- What the system calls of the ESP32 give, in general: `none` is an error. -/
inductive LinkEvent
  | desktop (e : Event)
  | recv (result : Option Nat)
  | send (result : Option Nat)
  deriving DecidableEq, Repr

/-- Both parties again, with calls that fail and sends that are accepted in part. A `recv`
gives 0 when the desktop's process is over and all it wrote has been read. -/
def tcpLink (clock : Nat → Time) : Machine TcpBench LinkEvent where
  step b
    | .desktop e =>
      if e.fromPeer then none
      else ((system clock).step b.desktop e).map fun w => { b with desktop := w }
    | .recv none =>
      if b.esp.point = .receiving then some { b with esp := b.esp.receive none } else none
    | .recv (some 0) =>
      if b.esp.point = .receiving ∧ b.desktop.halted ∧ b.desktop.net.toPeer = [] then
        some { b with esp := b.esp.receive (some []) }
      else none
    | .recv (some n) =>
      if b.esp.point = .receiving ∧ n ≤ b.esp.buffer.length then
        ((system clock).step b.desktop (.peerRecv n)).map fun w =>
          ⟨w, b.esp.receive (some (b.desktop.net.toPeer.take n))⟩
      else none
    | .send none =>
      if b.esp.point = .sending then some { b with esp := b.esp.send none } else none
    | .send (some n) =>
      if b.esp.point = .sending ∧ 0 < n ∧ n ≤ receivedMsg.length then
        ((system clock).step b.desktop (.peerSendBytes (receivedMsg.take n))).map fun w =>
          ⟨w, b.esp.send (some n)⟩
      else none

end TeleopLedBenchmarks
