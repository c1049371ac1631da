import TeleopLedBenchmarks.WsApp
import TeleopLedBenchmarks.Shutdown

namespace TeleopLedBenchmarks
set_option autoImplicit true

/-- Both parties while `websocketAppStart` runs, with its timer and the ticks at which
`shutdownSema` was given. -/
structure WsSession where
  bench : WsBench
  now : Nat
  shutdownSignalTimer : Timer
  gives : List Nat
  destroyed : Bool  -- `websocketAppStart` has closed its client and destroyed it
  deriving DecidableEq, Repr

inductive SessionEvent
  | bench (ev : WsEvent)
  | tick
  | destroyClient
  deriving DecidableEq, Repr

/-- The event is one that the client library delivers. -/
def WsEvent.fromClient : WsEvent → Bool
  | .desktop _ => false
  | _ => true

namespace WsSession

def new (rate : TickRate) : WsSession := ⟨.new, 0, .create rate.timerPeriod, [], false⟩

def task (s : WsSession) : WebsocketTask := ⟨s.bench.esp, s.shutdownSignalTimer, s.gives⟩

def withTask (s : WsSession) (a : WebsocketTask) : WsSession :=
  { s with
    bench := { s.bench with esp := a.device }
    shutdownSignalTimer := a.shutdownSignalTimer
    gives := a.gives }

/-- The two parties have come to `b`. What the handler did there may be a reset of the timer. -/
def moved (s : WsSession) (b : WsBench) : WsSession :=
  { s with
    bench := b
    shutdownSignalTimer :=
      if .resetTimer ∈ b.esp.outputs.drop s.bench.esp.outputs.length then
        s.shutdownSignalTimer.reset s.now
      else s.shutdownSignalTimer }

/-- A tick of the clock, at whose beginning a timer that is due expires. -/
def tick (s : WsSession) : WsSession :=
  let s := { s with now := s.now + 1 }
  if s.bench.esp.fault = none ∧ s.shutdownSignalTimer.due s.now then
    s.withTask (shutdownSignaler s.now
      { s.task with shutdownSignalTimer := s.shutdownSignalTimer.expire })
  else s

end WsSession

/-- The closed WebSocket system with the inactivity shutdown of the ESP32. A client that is gone
delivers nothing any more; what it delivers while it is being closed comes before. -/
def wsSession (cJsonParse : List Byte → Option CJson) (clock : Nat → Time) :
    Machine WsSession SessionEvent where
  step s
    | .bench ev =>
      if s.destroyed ∧ ev.fromClient then none
      else ((wsBench cJsonParse clock).step s.bench ev).map s.moved
    | .tick => some s.tick
    | .destroyClient =>
      if s.gives ≠ [] ∧ s.bench.esp.fault = none ∧ s.destroyed = false then
        some { s with destroyed := true }
      else none

end TeleopLedBenchmarks
