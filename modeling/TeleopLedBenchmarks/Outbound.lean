import TeleopLedBenchmarks.Pipe
import TeleopLedBenchmarks.Frames

namespace TeleopLedBenchmarks
set_option autoImplicit true

/-- The times `handleSendButtonClick` read, one for each command, in order. -/
def sends (history : List Action) : List Time :=
  history.filterMap fun
    | .sendCommand _ _ t => some t
    | _ => none

theorem sends_append (h l : List Action) : sends (h ++ l) = sends h ++ sends l :=
  List.filterMap_append ..

section
variable (clock : Nat → Time)

theorem sends_settledActions (s : AppState) (slot : Slot) :
    sends (s.settledActions clock slot) = [] := by
  cases slot <;> rfl

theorem sends_ran (s : AppState) (slot : Slot) (clicked : Bool) :
    sends (s.ran clock slot clicked).history =
      sends s.history ++ sends (s.sentActions clock) := by
  rw [AppState.ran_history, sends_append, sends_append, sends_append, sends_settledActions]
  simp only [List.nil_append, List.append_cancel_left_eq]
  exact List.append_nil _

theorem AppState.settle_writes (s : AppState) (slot : Slot) :
    (s.settle clock slot).ioc.writes = s.ioc.writes := by
  cases slot <;> rfl

theorem AppState.ran_writes (s : AppState) (slot : Slot) (clicked : Bool) :
    (s.ran clock slot clicked).ioc.writes = (s.sendQueued clock).ioc.writes := by
  have hr : (s.ran clock slot clicked).ioc.writes = (s.settled clock slot).ioc.writes := rfl
  rw [hr, AppState.settled, AppState.settle_writes]

end

namespace AppState
variable {clock : Nat → Time} {s : AppState}

/-- While a command is open, `timeSendBlinkCommand` is the time it was sent. -/
def Timed (s : AppState) : Prop :=
  s.isSendingBlinkCommand = true → (sends s.history).getLast? = some s.timeSendBlinkCommand

theorem Timed.extend (h : s.Timed) (l : List Action) {t : AppState}
    (hh : t.history = s.history ++ l) (hm : t.measurement = s.measurement)
    (hs : sends l = []) : t.Timed := by
  simp only [measurement, Measurement.mk.injEq] at hm
  obtain ⟨hf, ht, _⟩ := hm
  intro ho
  rw [hh, sends_append, hs, List.append_nil, ht]
  rw [hf] at ho
  exact h ho

theorem Timed.sendQueued (clock : Nat → Time) (h : s.Timed) : (s.sendQueued clock).Timed := by
  obtain ⟨_, he⟩ | ⟨_, he⟩ := s.sendQueued_cases clock
  · rw [he]
    exact h
  · rw [he]
    intro _
    have hsends : sends (s.sent clock).history = sends s.history ++ [clock s.readings] :=
      sends_append _ _
    simp only [hsends, List.getLast?_concat]
    rfl

theorem Timed.settle (clock : Nat → Time) (h : s.Timed) (slot : Slot) :
    (s.settle clock slot).Timed := by
  cases slot with
  | accepting | reading | idle => exact h
  | cancelled => exact h.extend [] (List.append_nil _).symm rfl rfl
  | connected sock => exact h.extend [.assignStream s.connType] rfl rfl rfl
  | message sock =>
    intro hf
    cases hf

theorem Timed.ran (h : s.Timed) (slot : Slot) (clicked : Bool) :
    (s.ran clock slot clicked).Timed :=
  ((h.sendQueued clock).settle clock slot).extend _ rfl rfl rfl

end AppState

namespace System
variable {clock : Nat → Time} {w w' : System}

/-- The commands of a state, as a pipe to the peer. -/
def pipe (w : System) : Pipe Byte where
  started := (sends w.app.history).length
  writes := w.app.ioc.writes.map WriteOp.left
  transit := w.net.toPeer
  received := w.net.peerReceived
  written := w.net.written

theorem pipe_ran (s : AppState) (slot : Slot) (clicked : Bool) (hs : w.app = s) :
    let w' := { w with app := s.ran clock slot clicked, started := true }
    w'.pipe = w.pipe ∨ Pipe.Step blinkCommand w.pipe w'.pipe := by
  intro w'
  have hw := AppState.ran_writes clock s slot clicked
  have hh := sends_ran clock s slot clicked
  obtain ⟨hu, he⟩ | ⟨hu, he⟩ := s.sendQueued_cases clock
  · left
    rw [he] at hw
    rw [AppState.sentActions, hu] at hh
    simp only [pipe, w', hw, hh, hs]
    rw [show sends [] = [] from rfl, List.append_nil]
  · right
    obtain ⟨a, l, hl⟩ := List.exists_cons_of_ne_nil hu
    rw [he] at hw
    rw [AppState.sentActions, hl] at hh
    have hp : w'.pipe = { w.pipe with
        started := w.pipe.started + 1, writes := w.pipe.writes ++ [blinkCommand] } := by
      simp only [pipe, w', hw, hh, hs, List.length_append, AppState.sent,
        IoContext.asyncWrite, List.map_append]
      rfl
    rw [hp]
    exact .start

theorem Quiet.sends (hq : w.Quiet w') : sends w'.app.history = sends w.app.history := by
  obtain hh | ⟨_, hh⟩ := hq.history
  · rw [hh]
  · rw [hh, sends_append]
    exact List.append_nil _

/-- The program and the network move commands as a pipe does. -/
theorem Ok.step_pipe (h : w.Ok slot) (hs : (system clock).step w e = some w') :
    w'.pipe = w.pipe ∨ Pipe.Step blinkCommand w.pipe w'.pipe := by
  cases e with
  | frame clicked =>
    obtain ⟨_, n, ⟨_, rfl⟩ | ⟨_, rfl⟩⟩ := frame_cases h hs
    · exact .inl rfl
    · exact pipe_ran (w := { w with app := w.app.withPosted n }) _ _ _ rfl
  | acceptHandler i ec socket handshake =>
    obtain ⟨_, rfl, rfl | ⟨_, rfl, rfl, rfl⟩⟩ := acceptHandler_cases h hs
    · exact .inl rfl
    · exact .inl rfl
  | readSome i n =>
    obtain ⟨_, _, _, _, _, ⟨_, _, _, rfl⟩ | ⟨_, _, _, _, _, rfl⟩⟩ := readSome_cases h hs
    · exact .inl rfl
    · exact .inl rfl
  | readHandler i ec =>
    have hq := (h.frame_or_quiet hs).resolve_left fun ⟨_, _, he, _⟩ => by cases he
    have hsends := hq.sends
    left
    obtain ⟨_, _, _, _, _, hc⟩ := readHandler_cases h hs
    obtain ⟨_, rfl⟩ | ⟨_, _, _, rfl⟩ | ⟨_, _, _, _, ⟨_, rfl⟩ | ⟨_, rfl⟩⟩ := hc <;>
      simp only [pipe, hsends] <;> rfl
  | writeSome i n =>
    obtain ⟨_, op, hi, hn, hle, rfl⟩ := writeSome_cases hs
    right
    have hp : w.pipe.writes[i]? = some op.left := by
      simp only [pipe, List.getElem?_map, hi, Option.map_some]
    have hstep : Pipe.Step blinkCommand w.pipe _ := .hand hp hn hle
    simp only [pipe, List.map_set] at hstep ⊢
    exact hstep
  | writeHandler i ec =>
    obtain ⟨_, op, hi, _, rfl⟩ := writeHandler_cases hs
    right
    have hp : w.pipe.writes[i]? = some op.left := by
      simp only [pipe, List.getElem?_map, hi, Option.map_some]
    have hstep : Pipe.Step blinkCommand w.pipe _ := .finish hp
    simp only [pipe, List.eraseIdx_map] at hstep ⊢
    exact hstep
  | peerRecv n =>
    obtain ⟨hn, rfl⟩ := peerRecv_cases hs
    exact .inr (Pipe.Step.recv (p := w.pipe) hn.2)
  | peerSendBytes bytes =>
    obtain ⟨_, rfl⟩ := peerSendBytes_cases hs
    exact .inl rfl
  | peerSendMessage msg =>
    obtain ⟨_, rfl⟩ := peerSendMessage_cases hs
    exact .inl rfl
  | setStopFlag | closeWindow =>
    cases hs
    exact .inl rfl

theorem reach_timed (h : (system clock).Reach G (.new c) w) : w.app.Timed := by
  refine h.invariant (I := fun w => w.app.Timed) (fun hf => by cases hf) ?_
  intro s e s' hr ht _ hs
  obtain ⟨slot, hw⟩ := reach_ok hr
  obtain ⟨clicked, n, _, _, rfl⟩ | hq := hw.frame_or_quiet hs
  · have ht' : (s.app.withPosted n).Timed := ht
    exact ht'.ran slot clicked
  · obtain hh | ⟨_, hh⟩ := hq.history
    · exact ht.extend [] (hh.trans (List.append_nil _).symm) hq.measurement rfl
    · exact ht.extend _ hh hq.measurement rfl

theorem pipe_new (c : ConnectionType) : (System.new c).pipe.Conserved blinkCommand.length := by
  cases c <;> exact ⟨by simp [pipe, new, AppState.new, IoContext.new, IoContext.asyncAccept,
    asyncWaitForTcpConnection, asyncWaitForWebsocketConnection], by decide, by decide, by decide⟩

theorem blinkCommand_ne_nil : blinkCommand ≠ [] := by decide

theorem reach_conserved (h : (system clock).Reach G (.new c) w) :
    w.pipe.Conserved blinkCommand.length := by
  refine h.invariant (I := fun w => w.pipe.Conserved blinkCommand.length) (pipe_new c) ?_
  intro s e s' hr hp _ hs
  obtain ⟨slot, hw⟩ := reach_ok hr
  obtain he | hstep := hw.step_pipe hs
  · rw [he]
    exact hp
  · exact hstep.conserved blinkCommand_ne_nil hp

end System

end TeleopLedBenchmarks
