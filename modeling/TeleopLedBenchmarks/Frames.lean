import TeleopLedBenchmarks.SingleSlot

namespace TeleopLedBenchmarks
set_option autoImplicit true

section
variable (clock : Nat → Time)

def AppState.sentActions (s : AppState) : List Action :=
  match s.uiEventsToProcess with
  | [] => []
  | _ => [.sendCommand s.connType s.isSendingBlinkCommand (clock s.readings)]

def AppState.settledActions (s : AppState) : Slot → List Action
  | .connected _ => [.assignStream s.connType]
  | .message _ => [.processMessage s.content (clock s.readings) s.measurement
      ⟨false, s.timeSendBlinkCommand, .ofTicks (clock s.readings - s.timeSendBlinkCommand)⟩]
  | _ => []

def AppState.registers (s : AppState) (conn clicked : Bool) : Bool :=
  conn && clicked && !s.isSendingBlinkCommand

def AppState.shown (s : AppState) (conn : Bool) : Shown :=
  ⟨connectionTypeString s.connType,
    if conn then .connected s.isSendingBlinkCommand s.blinkLatency else .waiting⟩

/-- The state `render` sees in a frame that starts in `s`. -/
def AppState.settled (s : AppState) (slot : Slot) : AppState :=
  (s.sendQueued clock).settle clock slot

theorem AppState.sendQueued_history (s : AppState) :
    (s.sendQueued clock).history = s.history ++ s.sentActions clock := by
  cases h : s.uiEventsToProcess with
  | nil => simp only [AppState.sendQueued, AppState.sentActions, h, List.append_nil]
  | cons => simp only [AppState.sendQueued, AppState.sentActions, h, AppState.sent]

theorem AppState.settle_history (s : AppState) (slot : Slot) :
    (s.settle clock slot).history = s.history ++ s.settledActions clock slot := by
  cases slot with
  | connected | message => rfl
  | accepting | cancelled | reading | idle => exact (List.append_nil _).symm

theorem AppState.ran_history (s : AppState) (slot : Slot) (clicked : Bool) :
    (s.ran clock slot clicked).history = s.history ++ (s.sentActions clock ++
      ((s.sendQueued clock).settledActions clock slot ++
        [.render ((s.settled clock slot).registers slot.frame.sock.isSome clicked)
          ((s.settled clock slot).shown slot.frame.sock.isSome)])) := by
  have hr : (s.ran clock slot clicked).history = (s.settled clock slot).history ++
      [.render ((s.settled clock slot).registers slot.frame.sock.isSome clicked)
        ((s.settled clock slot).shown slot.frame.sock.isSome)] := rfl
  rw [hr, AppState.settled, AppState.settle_history, AppState.sendQueued_history]
  simp only [List.append_assoc]

theorem AppState.ran_uiEvents (s : AppState) (slot : Slot) (clicked : Bool) :
    (s.ran clock slot clicked).uiEventsToProcess =
      if (s.settled clock slot).registers slot.frame.sock.isSome clicked then
        [⟨.sendButtonClick⟩] else [] := by
  have hr : (s.ran clock slot clicked).uiEventsToProcess =
      (s.settled clock slot).uiEventsToProcess ++
        if (s.settled clock slot).registers slot.frame.sock.isSome clicked then
          [⟨.sendButtonClick⟩] else [] := rfl
  rw [hr, AppState.settled, AppState.settle_uiEvents, AppState.sendQueued_uiEvents,
    List.nil_append]

theorem AppState.sendQueued_connType (s : AppState) :
    (s.sendQueued clock).connType = s.connType := by
  unfold AppState.sendQueued
  split <;> rfl

theorem AppState.settle_connType (s : AppState) (slot : Slot) :
    (s.settle clock slot).connType = s.connType := by
  cases slot <;> rfl

theorem AppState.ran_connType (s : AppState) (slot : Slot) (clicked : Bool) :
    (s.ran clock slot clicked).connType = s.connType := by
  have hr : (s.ran clock slot clicked).connType = (s.settled clock slot).connType := rfl
  rw [hr, AppState.settled, AppState.settle_connType, AppState.sendQueued_connType]

theorem AppState.ran_ioc (s : AppState) (slot : Slot) (clicked : Bool) :
    (s.ran clock slot clicked).ioc.stopped = s.ioc.stopped ∧
      (s.ran clock slot clicked).ioc.posted = s.ioc.posted + 1 := by
  have hq : (s.sendQueued clock).ioc.stopped = s.ioc.stopped ∧
      (s.sendQueued clock).ioc.posted = s.ioc.posted := by
    unfold AppState.sendQueued
    split <;> exact ⟨rfl, rfl⟩
  rw [← hq.1, ← hq.2]
  cases slot <;> exact ⟨rfl, rfl⟩

end

/-- What the peer has taken and sent. -/
def Network.byPeer (net : Network) := (net.peerReceived, net.tcpSent, net.wsSent)

namespace System

/-- No frame ran between the two states: the members only frames write are unchanged, and the
history has grown by at most the message a read handler queued. -/
structure Quiet (w w' : System) : Prop where
  connType : w'.app.connType = w.app.connType
  uiEvents : w'.app.uiEventsToProcess = w.app.uiEventsToProcess
  measurement : w'.app.measurement = w.app.measurement
  readings : w'.app.readings = w.app.readings
  history : w'.app.history = w.app.history ∨
    w.app.ioc.reads ≠ [] ∧ w'.app.history = w.app.history ++ [.queueMessage w.app.content]
  fault : w'.fault = w.fault ∨ w'.fault = some .abort

/-- The fields `Quiet` compares. -/
def framed (w : System) :=
  (w.app.connType, w.app.uiEventsToProcess, w.app.measurement, w.app.readings, w.app.history,
    w.fault)

theorem Quiet.of_eq {w w' : System} (h : w'.framed = w.framed) : w.Quiet w' := by
  simp only [framed, Prod.mk.injEq] at h
  obtain ⟨hc, hu, hm, hr, hh, hf⟩ := h
  exact ⟨hc, hu, hm, hr, .inl hh, .inl hf⟩

theorem Ok.frame_or_quiet {clock : Nat → Time} {w w' : System} (h : w.Ok slot)
    (hs : (system clock).step w e = some w') :
    (∃ clicked n, e = .frame clicked ∧ w.stopping = false ∧ w' = { w with
      app := (w.app.withPosted n).ran clock slot clicked, started := true }) ∨ w.Quiet w' := by
  cases e with
  | frame clicked =>
    obtain ⟨_, n, ⟨_, rfl⟩ | ⟨hn, rfl⟩⟩ := frame_cases h hs
    · exact .inr (.of_eq rfl)
    · exact .inl ⟨clicked, n, rfl, hn, rfl⟩
  | acceptHandler i ec socket handshake =>
    obtain ⟨_, rfl, rfl | ⟨_, rfl, rfl, rfl⟩⟩ := acceptHandler_cases h hs
    · exact .inr (.of_eq rfl)
    · exact .inr ⟨rfl, rfl, rfl, rfl, .inl rfl, .inr rfl⟩
  | readSome i n =>
    obtain ⟨_, _, _, _, _, ⟨_, _, _, rfl⟩ | ⟨_, _, _, _, _, rfl⟩⟩ := readSome_cases h hs
    · exact .inr (.of_eq rfl)
    · exact .inr (.of_eq rfl)
  | readHandler i ec =>
    obtain ⟨_, _, _, _, hr, hc⟩ := readHandler_cases h hs
    have hne : w.app.ioc.reads ≠ [] := fun he => by
      rw [he] at hr
      cases hr
    obtain ⟨_, rfl⟩ | ⟨_, _, _, rfl⟩ | ⟨_, _, _, _, ⟨_, rfl⟩ | ⟨_, rfl⟩⟩ := hc
    · exact .inr (.of_eq rfl)
    · exact .inr ⟨rfl, rfl, rfl, rfl, .inr ⟨hne, rfl⟩, .inl rfl⟩
    · exact .inr (.of_eq rfl)
    · exact .inr ⟨rfl, rfl, rfl, rfl, .inr ⟨hne, rfl⟩, .inl rfl⟩
  | writeSome i n =>
    obtain ⟨_, _, _, _, _, rfl⟩ := writeSome_cases hs
    exact .inr (.of_eq rfl)
  | writeHandler i ec =>
    obtain ⟨_, _, _, _, rfl⟩ := writeHandler_cases hs
    exact .inr (.of_eq rfl)
  | peerRecv n =>
    obtain ⟨_, rfl⟩ := peerRecv_cases hs
    exact .inr (.of_eq rfl)
  | peerSendBytes bytes =>
    obtain ⟨_, rfl⟩ := peerSendBytes_cases hs
    exact .inr (.of_eq rfl)
  | peerSendMessage msg =>
    obtain ⟨_, rfl⟩ := peerSendMessage_cases hs
    exact .inr (.of_eq rfl)
  | setStopFlag | closeWindow =>
    cases hs
    exact .inr (.of_eq rfl)

theorem Ok.step_cases {clock : Nat → Time} {w w' : System} (h : w.Ok slot)
    (hs : (system clock).step w e = some w') :
    (∃ clicked n, e = .frame clicked ∧ w.stopping = false ∧ w' = { w with
      app := (w.app.withPosted n).ran clock slot clicked, started := true } ∧
        w'.Ok slot.frame) ∨
      w.Quiet w' ∧ ∃ slot', w'.Ok slot' ∧ Slot.Step w.app.connType slot e slot' ∧
        slot'.sock = slot.sock := by
  cases e with
  | frame clicked =>
    obtain ⟨_, n, ⟨_, rfl⟩ | ⟨hn, rfl⟩⟩ := frame_cases h hs
    · exact .inr ⟨.of_eq rfl, slot,
        h.congr rfl, .stop, rfl⟩
    · exact .inl ⟨clicked, n, rfl, hn, rfl, (h.withPosted n).ran clicked⟩
  | _ =>
    obtain ⟨slot', hw, ht⟩ := h.step hs
    have hq := (h.frame_or_quiet hs).resolve_left fun ⟨_, _, he, _⟩ => by cases he
    exact .inr ⟨hq, slot', hw, ht, ht.sock_quiet fun b hb => by cases hb⟩

/-- What a step leaves alone: only the peer takes bytes or sends them, only an accept handler
ends the process, and only frames start the loop, post and stop. -/
structure Untouched (w w' : System) (e : Event) : Prop where
  byPeer : e.fromPeer = false → w'.net.byPeer = w.net.byPeer
  fault : (∀ i ec socket handshake, e ≠ .acceptHandler i ec socket handshake) →
    w'.fault = w.fault
  loop : (∀ clicked, e ≠ .frame clicked) → w'.started = w.started ∧
    w'.app.ioc.posted = w.app.ioc.posted ∧ w'.app.ioc.stopped = w.app.ioc.stopped

theorem Ok.step_untouched {clock : Nat → Time} {w w' : System} (h : w.Ok slot)
    (hs : (system clock).step w e = some w') : w.Untouched w' e := by
  cases e with
  | frame clicked =>
    obtain ⟨_, n, ⟨_, rfl⟩ | ⟨_, rfl⟩⟩ := frame_cases h hs
    · exact ⟨fun _ => rfl, fun _ => rfl, fun he => (he _ rfl).elim⟩
    · exact ⟨fun _ => rfl, fun _ => rfl, fun he => (he _ rfl).elim⟩
  | acceptHandler i ec socket handshake =>
    obtain ⟨_, rfl, rfl | ⟨_, rfl, rfl, rfl⟩⟩ := acceptHandler_cases h hs
    · exact ⟨fun _ => rfl, fun he => (he _ _ _ _ rfl).elim, fun _ => ⟨rfl, rfl, rfl⟩⟩
    · exact ⟨fun _ => rfl, fun he => (he _ _ _ _ rfl).elim, fun _ => ⟨rfl, rfl, rfl⟩⟩
  | readSome i n =>
    obtain ⟨_, _, _, _, _, ⟨_, _, _, rfl⟩ | ⟨_, _, _, _, _, rfl⟩⟩ := readSome_cases h hs
    · exact ⟨fun _ => rfl, fun _ => rfl, fun _ => ⟨rfl, rfl, rfl⟩⟩
    · exact ⟨fun _ => rfl, fun _ => rfl, fun _ => ⟨rfl, rfl, rfl⟩⟩
  | readHandler i ec =>
    obtain ⟨_, _, _, _, _, hc⟩ := readHandler_cases h hs
    obtain ⟨_, rfl⟩ | ⟨_, _, _, rfl⟩ | ⟨_, _, _, _, ⟨_, rfl⟩ | ⟨_, rfl⟩⟩ := hc <;>
      exact ⟨fun _ => rfl, fun _ => rfl, fun _ => ⟨rfl, rfl, rfl⟩⟩
  | writeSome i n =>
    obtain ⟨_, _, _, _, _, rfl⟩ := writeSome_cases hs
    exact ⟨fun _ => rfl, fun _ => rfl, fun _ => ⟨rfl, rfl, rfl⟩⟩
  | writeHandler i ec =>
    obtain ⟨_, _, _, _, rfl⟩ := writeHandler_cases hs
    exact ⟨fun _ => rfl, fun _ => rfl, fun _ => ⟨rfl, rfl, rfl⟩⟩
  | peerRecv n =>
    obtain ⟨_, rfl⟩ := peerRecv_cases hs
    exact ⟨fun he => (Bool.noConfusion he), fun _ => rfl, fun _ => ⟨rfl, rfl, rfl⟩⟩
  | peerSendBytes bytes =>
    obtain ⟨_, rfl⟩ := peerSendBytes_cases hs
    exact ⟨fun he => (Bool.noConfusion he), fun _ => rfl, fun _ => ⟨rfl, rfl, rfl⟩⟩
  | peerSendMessage msg =>
    obtain ⟨_, rfl⟩ := peerSendMessage_cases hs
    exact ⟨fun he => (Bool.noConfusion he), fun _ => rfl, fun _ => ⟨rfl, rfl, rfl⟩⟩
  | setStopFlag | closeWindow =>
    cases hs
    exact ⟨fun _ => rfl, fun _ => rfl, fun _ => ⟨rfl, rfl, rfl⟩⟩

theorem Ok.step_connType {clock : Nat → Time} {w w' : System} (h : w.Ok slot)
    (hs : (system clock).step w e = some w') : w'.app.connType = w.app.connType := by
  obtain ⟨clicked, n, _, _, rfl⟩ | hq := h.frame_or_quiet hs
  · exact AppState.ran_connType _ _ _ _
  · exact hq.connType

theorem reach_connType {clock : Nat → Time} {w : System}
    (h : (system clock).Reach G (.new c) w) : w.app.connType = c := by
  refine h.invariant (I := fun w => w.app.connType = c) rfl ?_
  intro s e s' hr hc _ hs
  obtain ⟨slot, hw⟩ := reach_ok hr
  exact (hw.step_connType hs).trans hc

end System

end TeleopLedBenchmarks
