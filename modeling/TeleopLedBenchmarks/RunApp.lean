import TeleopLedBenchmarks.SingleSlot

namespace TeleopLedBenchmarks
set_option autoImplicit true

/-- Where an executing `runAppLoop` stands: in front of a test or of a call. -/
inductive FramePoint
  | windowShouldClose
  | stopFlag
  | processUiEvents
  | processIOResults
  | render
  | post
  deriving DecidableEq, Repr

/-- `runApp` with its frames taken apart, so that a flag can be set in the middle of one. -/
structure RunApp where
  sys : System
  frame : Option FramePoint  -- `none` between two handlers
  returned : Bool  -- `run()` is over
  deriving DecidableEq, Repr

inductive RunEvent
  | runAppLoop
  | advance (clicked : Bool)
  | handler (e : Event)
  | outside (e : Event)
  | runReturns
  deriving DecidableEq, Repr

/-- The event is a step of another party, which may come at any moment. -/
def Event.isOutside : Event → Bool
  | .peerRecv _ | .peerSendBytes _ | .peerSendMessage _ | .setStopFlag | .closeWindow => true
  | _ => false

/-- The event is a step that `run()` makes: of an operation, or of its completion handler. -/
def Event.isHandler : Event → Bool
  | .acceptHandler _ _ _ _ | .readSome _ _ | .readHandler _ _ | .writeSome _ _
  | .writeHandler _ _ => true
  | _ => false

/-- `run()` has nothing to wait for. -/
def IoContext.noWork (ioc : IoContext) : Bool :=
  ioc.posted = 0 ∧ ioc.accepts = [] ∧ ioc.reads = [] ∧ ioc.writes = []

namespace RunApp

def new (c : ConnectionType) : RunApp := ⟨.new c, none, false⟩

/-- The frame is over. -/
def leave (m : RunApp) (s : AppState) : RunApp :=
  { m with sys := { m.sys with app := s, started := true }, frame := none }

/-- One of the three calls of a frame. -/
def call (m : RunApp) (next : FramePoint) : Except Fault AppState → RunApp
  | .ok s => { m with sys := { m.sys with app := s }, frame := some next }
  | .error f => { m with sys := { m.sys with fault := some f } }

section
variable (clock : Nat → Time)

def advance (m : RunApp) (clicked : Bool) : FramePoint → RunApp
  | .windowShouldClose =>
    if m.sys.windowShouldClose then m.leave { m.sys.app with ioc := m.sys.app.ioc.stop }
    else { m with frame := some .stopFlag }
  | .stopFlag =>
    if m.sys.stopFlag then m.leave { m.sys.app with ioc := m.sys.app.ioc.stop }
    else { m with frame := some .processUiEvents }
  | .processUiEvents => m.call .processIOResults (processUiEvents clock m.sys.app)
  | .processIOResults => m.call .render (processIOResults clock m.sys.app)
  | .render => m.call .post (.ok (render clicked m.sys.app))
  | .post => m.leave { m.sys.app with ioc := m.sys.app.ioc.post }

end

end RunApp

/-- The desktop program, one part of a frame at a time. `run()` takes up a handler only when
the one before is over, and returns when it is stopped or has no work left. The completion
handlers look at neither flag, so each of them is one step. -/
def runApp (clock : Nat → Time) : Machine RunApp RunEvent where
  step m
    | .runAppLoop =>
      if m.frame = none ∧ m.returned = false then m.sys.takeFrame.map fun s =>
        { m with sys := { m.sys with app := s }, frame := some .windowShouldClose }
      else none
    | .advance clicked =>
      match m.sys.fault, m.frame with
      | none, some p => some (m.advance clock clicked p)
      | _, _ => none
    | .handler e =>
      if m.frame = none ∧ m.returned = false ∧ e.isHandler then
        ((system clock).step m.sys e).map fun w => { m with sys := w }
      else none
    | .outside e =>
      if e.isOutside then ((system clock).step m.sys e).map fun w => { m with sys := w }
      else none
    | .runReturns =>
      if m.frame = none ∧ m.returned = false ∧ m.sys.started ∧ m.sys.fault = none ∧
          (m.sys.app.ioc.stopped ∨ m.sys.app.ioc.noWork) then
        some { m with returned := true }
      else none

/-- `runApp` with the socket that `ws->accept()` is blocked on. -/
structure RunAppBlocking where
  prog : RunApp
  accepting : Option (Nat × TcpSocket)
  deriving DecidableEq, Repr

inductive BlockingEvent
  | prog (e : RunEvent)
  | accept (i : Nat) (socket : TcpSocket)
  | acceptOver (handshake : Bool)
  deriving DecidableEq, Repr

/-- The accept handler gets as far as `ws->accept()`. -/
def RunEvent.callsAccept (c : ConnectionType) : RunEvent → Bool
  | .handler (.acceptHandler _ none socket _) => c == .webSocket && socket.isOpen
  | _ => false

def RunEvent.isOutside : RunEvent → Bool
  | .outside _ => true
  | _ => false

/-- The desktop program where `ws->accept()` may take any time, or for ever. It blocks the only
thread of the program, so the others alone go on meanwhile. -/
def runAppBlocking (clock : Nat → Time) : Machine RunAppBlocking BlockingEvent where
  step m
    | .prog e =>
      if (m.accepting = none ∧ e.callsAccept m.prog.sys.app.connType = false) ∨ e.isOutside then
        ((runApp clock).step m.prog e).map fun p => { m with prog := p }
      else none
    | .accept i socket =>
      let e := .handler (.acceptHandler i none socket true)
      if m.accepting = none ∧ e.callsAccept m.prog.sys.app.connType ∧
          ((runApp clock).step m.prog e).isSome then
        some { m with accepting := some (i, socket) }
      else none
    | .acceptOver handshake =>
      match m.accepting with
      | some (i, socket) =>
        ((runApp clock).step m.prog (.handler (.acceptHandler i none socket handshake))).map
          fun p => ⟨p, none⟩
      | none => none

def RunAppBlocking.new (c : ConnectionType) : RunAppBlocking := ⟨.new c, none⟩

end TeleopLedBenchmarks
