import TeleopLedBenchmarks.Asio

namespace TeleopLedBenchmarks
set_option autoImplicit true

inductive UIEventType
  | sendButtonClick
  deriving DecidableEq, Repr

structure UIEvent where
  type : UIEventType
  deriving DecidableEq, Repr

inductive IOResultType
  | wsConnected
  | wsMsgReceived
  | tcpConnected
  | tcpMessageReceived
  | cancelled
  deriving DecidableEq, Repr

structure IOResult where
  type : IOResultType
  ws : Option WsStream := none
  tcpSock : Option TcpSocket := none
  deriving DecidableEq, Repr

def expectedMsg : List Byte := chars "received"

def blinkCommand : List Byte := asioBuffer "button clicked\n"

/-- `CONNECTION_TYPE_STRINGS`. -/
def connectionTypeString : ConnectionType → String
  | .webSocket => "WebSocket"
  | .customTcp => "CustomTcp"

/-- The members of `AppState` that hold the benchmark's measurement. -/
structure Measurement where
  isSendingBlinkCommand : Bool
  timeSendBlinkCommand : Time
  blinkLatency : Duration
  deriving DecidableEq, Repr

/-- The status part of the window: everything below the connection type line. -/
inductive Status
  | waiting
  | connected (disabled : Bool) (lastBlinkLatency : Duration)
  deriving DecidableEq, Repr

structure Shown where
  connectionType : String
  status : Status
  deriving DecidableEq, Repr

/-- What the program does, in order. The history only serves to state properties of
whole runs; no function reads it. -/
inductive Action
  | sendCommand (conn : ConnectionType) (wasSending : Bool) (time : Time)
  | queueMessage (content : List Byte)
  | assignStream (conn : ConnectionType)
  | processMessage (content : List Byte) (now : Time) (before after : Measurement)
  | render (clicked : Bool) (shown : Shown)
  deriving DecidableEq, Repr

structure AppState where
  ioc : IoContext
  uiEventsToProcess : List UIEvent
  ioResults : List IOResult
  connType : ConnectionType
  tcpSock : Option TcpSocket
  tcpReadBuf : List Byte
  ws : Option WsStream
  wsReadBuffer : List Byte
  isSendingBlinkCommand : Bool
  timeSendBlinkCommand : Time
  blinkLatency : Duration
  readings : Nat  -- calls of `steady_clock::now` so far
  history : List Action
  deriving DecidableEq, Repr

def asyncWaitForTcpConnection (ioc : IoContext) : IoContext := ioc.asyncAccept .customTcp

def asyncWaitForWebsocketConnection (ioc : IoContext) : IoContext := ioc.asyncAccept .webSocket

namespace AppState

/-- The constructor. A default-constructed `time_point` is the clock's epoch. -/
def new (initialConnType : ConnectionType) : AppState where
  ioc := match initialConnType with
    | .webSocket => asyncWaitForWebsocketConnection .new
    | .customTcp => asyncWaitForTcpConnection .new
  uiEventsToProcess := []
  ioResults := []
  connType := initialConnType
  tcpSock := none
  tcpReadBuf := List.replicate expectedMsg.length 0
  ws := none
  wsReadBuffer := []
  isSendingBlinkCommand := false
  timeSendBlinkCommand := 0
  blinkLatency := 0
  readings := 0
  history := []

def measurement (s : AppState) : Measurement :=
  ⟨s.isSendingBlinkCommand, s.timeSendBlinkCommand, s.blinkLatency⟩

def record (s : AppState) (a : Action) : AppState := { s with history := s.history ++ [a] }

end AppState

/-- The handler of `asyncWaitForTcpConnection`. -/
def tcpAcceptHandler (ec : ErrorCode) (socket : TcpSocket) (s : AppState) : AppState :=
  if ec.isSome then s
  else if !socket.isOpen then
    { s with ioResults := s.ioResults ++ [{ type := .cancelled }] }
  else
    { s with ioResults := s.ioResults ++ [{ type := .tcpConnected, tcpSock := some socket }] }

/-- The handler of `asyncWaitForWebsocketConnection`. `handshake` says whether the blocking
`ws->accept()` returns or throws; both of its catch clauses abort. Where it does not return at all
the handler is not over (`runAppBlocking`). -/
def wsAcceptHandler (ec : ErrorCode) (socket : TcpSocket) (handshake : Bool) (s : AppState) :
    Except Fault AppState :=
  if ec.isSome then .ok s
  else if !socket.isOpen then
    .ok { s with ioResults := s.ioResults ++ [{ type := .cancelled }] }
  else if !handshake then .error .abort
  else .ok { s with ioResults := s.ioResults ++ [{ type := .wsConnected, ws := some ⟨socket⟩ }] }

section
variable (clock : Nat → Time)

def handleSendButtonClick (s : AppState) : Except Fault AppState := do
  let t := clock s.readings
  let sent := fun c => Action.sendCommand c s.isSendingBlinkCommand t
  let s := { s with
    isSendingBlinkCommand := true, timeSendBlinkCommand := t, readings := s.readings + 1 }
  match s.connType with
  | .webSocket =>
    let _ ← deref s.ws
    return AppState.record { s with ioc := s.ioc.asyncWrite .webSocket blinkCommand }
      (sent .webSocket)
  | .customTcp =>
    let _ ← deref s.tcpSock
    return AppState.record { s with ioc := s.ioc.asyncWrite .customTcp blinkCommand }
      (sent .customTcp)

def processUiEvents (s : AppState) : Except Fault AppState := do
  let s ← s.uiEventsToProcess.foldlM (fun s e => match e.type with
    | .sendButtonClick => handleSendButtonClick clock s) s
  return { s with uiEventsToProcess := [] }

def wsAsyncRead (s : AppState) : Except Fault AppState := do
  let _ ← deref s.ws
  return { s with ioc := s.ioc.asyncRead .webSocket }

/-- The handler of `wsAsyncRead`. -/
def wsReadHandler (ec : ErrorCode) (numBytes : Nat) (s : AppState) : AppState :=
  if ec = some .websocketClosed then s
  else if ec.isSome then s
  else if numBytes = 0 then s
  else
    AppState.record { s with ioResults := s.ioResults ++ [{ type := .wsMsgReceived }] }
      (.queueMessage s.wsReadBuffer)

def tcpAsyncRead (s : AppState) : Except Fault AppState := do
  let _ ← deref s.tcpSock
  return { s with ioc := s.ioc.asyncRead .customTcp }

/-- The handler of `tcpAsyncRead`. -/
def tcpReadHandler (ec : ErrorCode) (s : AppState) : AppState :=
  if ec.isSome then s
  else
    AppState.record { s with ioResults := s.ioResults ++ [{ type := .tcpMessageReceived }] }
      (.queueMessage s.tcpReadBuf)

/-- The two assignments both message cases make. -/
def AppState.receive (s : AppState) (content : List Byte) : AppState :=
  let now := clock s.readings
  let t := { s with
    isSendingBlinkCommand := false
    blinkLatency := .ofTicks (now - s.timeSendBlinkCommand)
    readings := s.readings + 1 }
  t.record (.processMessage content now s.measurement t.measurement)

/-- One turn of the loop of `processIOResults`. -/
def processIOResult (s : AppState) (res : IOResult) : Except Fault AppState :=
  match res.type with
  | .wsConnected => wsAsyncRead (AppState.record { s with ws := res.ws } (.assignStream .webSocket))
  | .wsMsgReceived =>
    let msg := s.wsReadBuffer
    wsAsyncRead
      (AppState.receive clock { s with wsReadBuffer := s.wsReadBuffer.drop msg.length } msg)
  | .tcpConnected =>
    tcpAsyncRead (AppState.record { s with tcpSock := res.tcpSock } (.assignStream .customTcp))
  | .tcpMessageReceived => tcpAsyncRead (s.receive clock s.tcpReadBuf)
  | .cancelled => .ok s

/-- A moved-from `res` stays in the vector until it is cleared, and nothing reads it there. -/
def processIOResults (s : AppState) : Except Fault AppState := do
  let s ← s.ioResults.foldlM (processIOResult clock) s
  return { s with ioResults := [] }

/-- `clicked` is the user's attempt on the button, which `ImGui::Button` reports only
outside `BeginDisabled(true)`. -/
def render (clicked : Bool) (s : AppState) : AppState :=
  let line := connectionTypeString s.connType
  if s.ws = none ∧ s.tcpSock = none then s.record (.render false ⟨line, .waiting⟩)
  else
    let button := clicked && !s.isSendingBlinkCommand
    let shown := ⟨line, .connected s.isSendingBlinkCommand s.blinkLatency⟩
    if button then
      AppState.record
        { s with uiEventsToProcess := s.uiEventsToProcess ++ [{ type := .sendButtonClick }] }
        (.render true shown)
    else s.record (.render false shown)

def runAppLoop (windowShouldClose stopFlag clicked : Bool) (s : AppState) :
    Except Fault AppState :=
  if windowShouldClose then .ok { s with ioc := s.ioc.stop }
  else if stopFlag then .ok { s with ioc := s.ioc.stop }
  else do
    let s ← processUiEvents clock s
    let s ← processIOResults clock s
    let s := render clicked s
    return { s with ioc := s.ioc.post }

end

end TeleopLedBenchmarks
