import TeleopLedBenchmarks.System

namespace TeleopLedBenchmarks
set_option autoImplicit true

/-- Who holds the I/O slot of the program: the accept, the read, or one result that
`processIOResults` has not seen. `sock` is the socket behind `ws` or `tcpSock`. -/
inductive Slot
  | accepting
  | connected (sock : TcpSocket)
  | cancelled
  | reading (sock : TcpSocket) (got : Nat)
  | message (sock : TcpSocket)
  | idle (sock : Option TcpSocket)
  deriving DecidableEq, Repr

def connectedResult (c : ConnectionType) (sock : TcpSocket) : IOResult :=
  match c with
  | .webSocket => { type := .wsConnected, ws := some ⟨sock⟩ }
  | .customTcp => { type := .tcpConnected, tcpSock := some sock }

def messageResult (c : ConnectionType) : IOResult :=
  match c with
  | .webSocket => { type := .wsMsgReceived }
  | .customTcp => { type := .tcpMessageReceived }

namespace Slot

def accepts (c : ConnectionType) : Slot → List ConnectionType
  | .accepting => [c]
  | _ => []

def reads (c : ConnectionType) : Slot → List ReadOp
  | .reading _ got => [⟨c, got⟩]
  | _ => []

def ioResults (c : ConnectionType) : Slot → List IOResult
  | .connected sock => [connectedResult c sock]
  | .cancelled => [{ type := .cancelled }]
  | .message _ => [messageResult c]
  | _ => []

def sock : Slot → Option TcpSocket
  | .reading sock _ => some sock
  | .message sock => some sock
  | .idle sock => sock
  | _ => none

/-- What a frame that is not stopped makes of the slot. -/
def frame : Slot → Slot
  | .connected sock => .reading sock 0
  | .message sock => .reading sock 0
  | .cancelled => .idle none
  | slot => slot

theorem length_le_one (c : ConnectionType) (slot : Slot) :
    (slot.accepts c).length + (slot.reads c).length + (slot.ioResults c).length ≤ 1 := by
  cases slot <;> simp [accepts, reads, ioResults]

end Slot

/-- The operations, results and pointers of a state are those of one slot. -/
structure AppState.At (s : AppState) (slot : Slot) : Prop where
  accepts : s.ioc.accepts = slot.accepts s.connType
  reads : s.ioc.reads = slot.reads s.connType
  ioResults : s.ioResults = slot.ioResults s.connType
  ws : s.ws = if s.connType = .webSocket then slot.sock.map WsStream.mk else none
  tcpSock : s.tcpSock = if s.connType = .customTcp then slot.sock else none

/-- A queued click was registered while the button was enabled. -/
def AppState.ClickOk (s : AppState) (slot : Slot) : Prop :=
  s.uiEventsToProcess = [] ∨
    s.uiEventsToProcess = [⟨.sendButtonClick⟩] ∧ s.isSendingBlinkCommand = false ∧
      slot.sock.isSome

theorem AppState.At.new (c : ConnectionType) : (AppState.new c).At .accepting := by
  cases c <;> constructor <;> rfl

/-- The fields `At` looks at. -/
def AppState.io (s : AppState) :=
  (s.connType, s.ioc.accepts, s.ioc.reads, s.ioResults, s.ws, s.tcpSock)

theorem AppState.At.congr {s t : AppState} (h : s.At slot) (ht : t.io = s.io) : t.At slot := by
  simp only [AppState.io, Prod.mk.injEq] at ht
  obtain ⟨hc, ha, hr, hi, hw, ht⟩ := ht
  constructor
  · rw [ha, hc, h.accepts]
  · rw [hr, hc, h.reads]
  · rw [hi, hc, h.ioResults]
  · rw [hw, hc, h.ws]
  · rw [ht, hc, h.tcpSock]

section
variable (clock : Nat → Time)

/-- `handleSendButtonClick` on a connected state. -/
def AppState.sent (s : AppState) : AppState :=
  { s with
    isSendingBlinkCommand := true
    timeSendBlinkCommand := clock s.readings
    readings := s.readings + 1
    ioc := s.ioc.asyncWrite s.connType blinkCommand
    history := s.history ++
      [.sendCommand s.connType s.isSendingBlinkCommand (clock s.readings)] }

def AppState.sendQueued (s : AppState) : AppState :=
  match s.uiEventsToProcess with
  | [] => s
  | _ => { s.sent clock with uiEventsToProcess := [] }

/-- The bytes the message cases of `processIOResults` look at. -/
def AppState.content (s : AppState) : List Byte :=
  match s.connType with
  | .webSocket => s.wsReadBuffer
  | .customTcp => s.tcpReadBuf

/-- The `*_CONNECTED` cases of `processIOResults`. -/
def AppState.connect (s : AppState) (sock : TcpSocket) : AppState :=
  { s with
    ws := if s.connType = .webSocket then some ⟨sock⟩ else s.ws
    tcpSock := if s.connType = .customTcp then some sock else s.tcpSock
    ioc := s.ioc.asyncRead s.connType
    ioResults := []
    history := s.history ++ [.assignStream s.connType] }

/-- The message cases of `processIOResults`. -/
def AppState.take (s : AppState) : AppState :=
  let now := clock s.readings
  { s with
    wsReadBuffer := if s.connType = .webSocket then [] else s.wsReadBuffer
    isSendingBlinkCommand := false
    blinkLatency := .ofTicks (now - s.timeSendBlinkCommand)
    readings := s.readings + 1
    ioc := s.ioc.asyncRead s.connType
    ioResults := []
    history := s.history ++ [.processMessage s.content now s.measurement
      ⟨false, s.timeSendBlinkCommand, .ofTicks (now - s.timeSendBlinkCommand)⟩] }

def AppState.settle (s : AppState) : Slot → AppState
  | .connected sock => s.connect sock
  | .message _ => s.take clock
  | .cancelled => { s with ioResults := [] }
  | _ => s

variable {clock}

theorem handleSendButtonClick_eq {s : AppState} (h : s.At slot) (hs : slot.sock.isSome) :
    handleSendButtonClick clock s = .ok (s.sent clock) := by
  obtain ⟨sock, he⟩ := Option.isSome_iff_exists.1 hs
  have hw := h.ws
  have ht := h.tcpSock
  cases hc : s.connType with
  | webSocket =>
    simp only [hc, he, ↓reduceIte, Option.map_some] at hw
    simp only [handleSendButtonClick, AppState.sent, AppState.record, hc, hw, deref_some]
    rfl
  | customTcp =>
    simp only [hc, he, ↓reduceIte] at ht
    simp only [handleSendButtonClick, AppState.sent, AppState.record, hc, ht, deref_some]
    rfl

theorem processUiEvents_eq {s : AppState} (h : s.At slot) (hk : s.ClickOk slot) :
    processUiEvents clock s = .ok (s.sendQueued clock) := by
  rcases hk with hu | ⟨hu, _, hs⟩
  · simp only [processUiEvents, AppState.sendQueued, hu, List.foldlM_nil]
    rw [← hu]
    rfl
  · simp only [processUiEvents, AppState.sendQueued, hu, List.foldlM_cons, List.foldlM_nil,
      handleSendButtonClick_eq h hs]
    rfl

theorem processIOResults_nil {s : AppState} (h : s.ioResults = []) :
    processIOResults clock s = .ok s := by
  simp only [processIOResults, h, List.foldlM_nil]
  rw [← h]
  rfl

theorem processIOResults_single {s t : AppState} (h : s.ioResults = [res])
    (ht : processIOResult clock s res = .ok t) :
    processIOResults clock s = .ok { t with ioResults := [] } := by
  simp only [processIOResults, h, List.foldlM_cons, List.foldlM_nil, ht]
  rfl

theorem processIOResult_connected (s : AppState) (sock : TcpSocket) :
    processIOResult clock s (connectedResult s.connType sock) =
      .ok { s.connect sock with ioResults := s.ioResults } := by
  cases hc : s.connType with
  | webSocket =>
    simp only [connectedResult, processIOResult, wsAsyncRead, AppState.record, deref_some,
      AppState.connect, hc, ↓reduceIte, reduceCtorEq]
    rfl
  | customTcp =>
    simp only [connectedResult, processIOResult, tcpAsyncRead, AppState.record, deref_some,
      AppState.connect, hc, ↓reduceIte, reduceCtorEq]
    rfl

theorem processIOResult_message {s : AppState} (h : s.At slot) (hs : slot.sock = some sock) :
    processIOResult clock s (messageResult s.connType) =
      .ok { s.take clock with ioResults := s.ioResults } := by
  have hw := h.ws
  have ht := h.tcpSock
  cases hc : s.connType with
  | webSocket =>
    simp only [hc, ↓reduceIte, hs, Option.map_some] at hw
    simp only [messageResult, processIOResult, wsAsyncRead, AppState.receive, AppState.record,
      hw, deref_some, AppState.take, AppState.content, AppState.measurement, hc, ↓reduceIte,
      List.drop_length]
    rfl
  | customTcp =>
    simp only [hc, ↓reduceIte, hs] at ht
    simp only [messageResult, processIOResult, tcpAsyncRead, AppState.receive, AppState.record,
      ht, deref_some, AppState.take, AppState.content, AppState.measurement, hc, ↓reduceIte,
      reduceCtorEq]
    rfl

/-- The one result there is, taken through the loop body. The body does not touch the
vector the loop runs over. -/
theorem processIOResult_eq {s : AppState} (h : s.At slot) (hr : s.ioResults = [res]) :
    processIOResult clock s res = .ok { s.settle clock slot with ioResults := s.ioResults } := by
  have hi := h.ioResults.symm.trans hr
  cases slot with
  | accepting | reading | idle => cases hi
  | cancelled =>
    cases hi
    rfl
  | connected sock =>
    cases hi
    exact processIOResult_connected s sock
  | message sock =>
    cases hi
    exact processIOResult_message h rfl

theorem AppState.settle_ioResults (clock : Nat → Time) {s : AppState} (h : s.At slot) :
    (s.settle clock slot).ioResults = [] := by
  have hi := h.ioResults
  cases slot with
  | accepting | reading | idle => exact hi
  | cancelled | connected | message => rfl

theorem processIOResults_eq {s : AppState} (h : s.At slot) :
    processIOResults clock s = .ok (s.settle clock slot) := by
  have hn := AppState.settle_ioResults clock h
  cases hr : s.ioResults with
  | nil =>
    rw [processIOResults_nil hr]
    have hi := h.ioResults.symm.trans hr
    cases slot with
    | accepting | reading | idle => rfl
    | cancelled | connected | message => cases hi
  | cons res rest =>
    have hi := h.ioResults.symm.trans hr
    have hrest : rest = [] := by cases slot <;> cases hi <;> rfl
    subst hrest
    rw [processIOResults_single hr (processIOResult_eq h hr)]
    simp only [← hn]

end

/-- `render` on a state whose pointers say whether the peer is connected. -/
def AppState.rendered (s : AppState) (conn clicked : Bool) : AppState :=
  let registered := conn && clicked && !s.isSendingBlinkCommand
  let status := if conn then .connected s.isSendingBlinkCommand s.blinkLatency else .waiting
  { s with
    uiEventsToProcess :=
      s.uiEventsToProcess ++ if registered then [⟨.sendButtonClick⟩] else []
    history := s.history ++ [.render registered ⟨connectionTypeString s.connType, status⟩] }

theorem AppState.At.pointers_null {s : AppState} (h : s.At slot) :
    (s.ws = none ∧ s.tcpSock = none) ↔ slot.sock = none := by
  rw [h.ws, h.tcpSock]
  cases s.connType <;> cases slot.sock <;> simp

theorem render_eq {s : AppState} (h : s.At slot) (clicked : Bool) :
    render clicked s = s.rendered slot.sock.isSome clicked := by
  unfold render
  cases hs : slot.sock with
  | none =>
    rw [if_pos (h.pointers_null.2 hs)]
    simp [AppState.rendered, AppState.record]
  | some sock =>
    rw [if_neg (by rw [h.pointers_null, hs]; simp)]
    cases clicked <;> cases hf : s.isSendingBlinkCommand <;>
      simp [AppState.rendered, AppState.record, hf]

/-- The frame `runAppLoop` runs when nothing stops it. -/
def AppState.ran (clock : Nat → Time) (s : AppState) (slot : Slot) (clicked : Bool) : AppState :=
  let t := ((s.sendQueued clock).settle clock slot).rendered slot.frame.sock.isSome clicked
  { t with ioc := t.ioc.post }

section
variable {clock : Nat → Time} {s : AppState}

theorem AppState.sendQueued_cases (clock : Nat → Time) (s : AppState) :
    s.uiEventsToProcess = [] ∧ s.sendQueued clock = s ∨
      s.uiEventsToProcess ≠ [] ∧
        s.sendQueued clock = { s.sent clock with uiEventsToProcess := [] } := by
  cases h : s.uiEventsToProcess with
  | nil => exact .inl ⟨rfl, by simp only [AppState.sendQueued, h]⟩
  | cons => exact .inr ⟨by simp, by simp only [AppState.sendQueued, h]⟩

theorem AppState.sendQueued_uiEvents (s : AppState) :
    (s.sendQueued clock).uiEventsToProcess = [] := by
  rcases s.sendQueued_cases clock with ⟨h, he⟩ | ⟨_, he⟩
  · rw [he, h]
  · rw [he]

theorem AppState.At.sendQueued (clock : Nat → Time) (h : s.At slot) :
    (s.sendQueued clock).At slot := by
  rcases s.sendQueued_cases clock with ⟨_, he⟩ | ⟨_, he⟩
  · rw [he]
    exact h
  · rw [he]
    exact h.congr rfl

theorem AppState.At.settle (clock : Nat → Time) (h : s.At slot) :
    (s.settle clock slot).At slot.frame := by
  cases slot with
  | accepting | reading | idle => exact h
  | cancelled => exact ⟨h.accepts, h.reads, rfl, h.ws, h.tcpSock⟩
  | connected sock =>
    refine ⟨h.accepts, ?_, rfl, ?_, ?_⟩
    · simp [AppState.settle, AppState.connect, IoContext.asyncRead, h.reads, Slot.reads,
        Slot.frame]
    · simp [AppState.settle, AppState.connect, h.ws, Slot.sock, Slot.frame]
    · simp [AppState.settle, AppState.connect, h.tcpSock, Slot.sock, Slot.frame]
  | message sock =>
    refine ⟨h.accepts, ?_, rfl, h.ws, h.tcpSock⟩
    simp [AppState.settle, AppState.take, IoContext.asyncRead, h.reads, Slot.reads, Slot.frame]

theorem AppState.settle_uiEvents (s : AppState) (slot : Slot) :
    (s.settle clock slot).uiEventsToProcess = s.uiEventsToProcess := by
  cases slot <;> rfl

theorem runAppLoop_eq (h : s.At slot) (hk : s.ClickOk slot) (clicked : Bool) :
    runAppLoop clock false false clicked s = .ok (s.ran clock slot clicked) := by
  have hs := h.sendQueued clock
  simp only [runAppLoop, Bool.false_eq_true, ↓reduceIte, processUiEvents_eq h hk, bind,
    Except.bind, processIOResults_eq hs, render_eq (hs.settle clock)]
  rfl

theorem AppState.At.ran (h : s.At slot) (clicked : Bool) :
    (s.ran clock slot clicked).At slot.frame :=
  ((h.sendQueued clock).settle clock).congr rfl

theorem AppState.ran_clickOk (s : AppState) (slot : Slot) (clicked : Bool) :
    (s.ran clock slot clicked).ClickOk slot.frame := by
  simp only [AppState.ClickOk, AppState.ran, AppState.rendered, AppState.settle_uiEvents,
    AppState.sendQueued_uiEvents, List.nil_append]
  split
  · next hr =>
    simp only [Bool.and_eq_true, Bool.not_eq_eq_eq_not, Bool.not_true] at hr
    exact .inr ⟨rfl, hr.2, hr.1.1⟩
  · exact .inl rfl

end

end TeleopLedBenchmarks
