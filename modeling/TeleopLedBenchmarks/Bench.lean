import TeleopLedBenchmarks.Outbound
import TeleopLedBenchmarks.Framing

namespace TeleopLedBenchmarks
set_option autoImplicit true

/-- A reply as each transport carries it: one message that is not empty, one block. -/
structure Reply where
  message : List Byte
  block : List Byte
  message_ne_nil : message ≠ []
  block_length : block.length = expectedMsg.length

/-- What can happen to the program, with the transport left out. -/
inductive BenchEvent
  | accepted
  | acceptFailed (e : IoError)
  | acceptedClosed
  | frame (clicked : Bool)
  | reply (r : Reply)
  | readFailed (e : IoError)
  | writeFinished (i : Nat) (ec : ErrorCode)

/-- The machine both transports are measured by. -/
structure Bench where
  started : Bool
  slot : Slot
  uiEventsToProcess : List UIEvent
  measurement : Measurement
  readings : Nat
  writes : Nat
  sent : List Time
  statuses : List Status

namespace Bench

def new : Bench := ⟨false, .accepting, [], ⟨false, 0, 0⟩, 0, 0, [], []⟩

section
variable (clock : Nat → Time)

def sendQueued (b : Bench) : Bench :=
  match b.uiEventsToProcess with
  | [] => b
  | _ => { b with
    uiEventsToProcess := []
    measurement := ⟨true, clock b.readings, b.measurement.blinkLatency⟩
    readings := b.readings + 1
    writes := b.writes + 1
    sent := b.sent ++ [clock b.readings] }

def settle (b : Bench) : Bench :=
  match b.slot with
  | .message _ =>
    let t := b.measurement.timeSendBlinkCommand
    { b with
      slot := b.slot.frame
      measurement := ⟨false, t, .ofTicks (clock b.readings - t)⟩
      readings := b.readings + 1 }
  | _ => { b with slot := b.slot.frame }

def render (clicked : Bool) (b : Bench) : Bench :=
  let conn := b.slot.sock.isSome
  let disabled := b.measurement.isSendingBlinkCommand
  { b with
    started := true
    uiEventsToProcess := b.uiEventsToProcess ++
      if conn && clicked && !disabled then [⟨.sendButtonClick⟩] else []
    statuses := b.statuses ++
      [if conn then .connected disabled b.measurement.blinkLatency else .waiting] }

def step (b : Bench) : BenchEvent → Option Bench
  | .frame clicked => some (((b.sendQueued clock).settle clock).render clicked)
  | .accepted =>
    if b.started ∧ b.slot = .accepting then some { b with slot := .connected ⟨true⟩ } else none
  | .acceptFailed _ =>
    if b.started ∧ b.slot = .accepting then some { b with slot := .idle none } else none
  | .acceptedClosed =>
    if b.started ∧ b.slot = .accepting then some { b with slot := .cancelled } else none
  | .reply _ =>
    match b.slot with
    | .reading sock _ => if b.started then some { b with slot := .message sock } else none
    | _ => none
  | .readFailed _ =>
    match b.slot with
    | .reading sock _ => if b.started then some { b with slot := .idle (some sock) } else none
    | _ => none
  | .writeFinished i _ =>
    if b.started ∧ i < b.writes then some { b with writes := b.writes - 1 } else none

end

end Bench

def bench (clock : Nat → Time) : Machine Bench BenchEvent where
  step b e := b.step clock e

/-- What each of them is on a transport. -/
def BenchEvent.events (c : ConnectionType) : BenchEvent → List Event
  | .accepted => [.acceptHandler 0 none ⟨true⟩ true]
  | .acceptFailed e => [.acceptHandler 0 (some e) ⟨false⟩ true]
  | .acceptedClosed => [.acceptHandler 0 none ⟨false⟩ true]
  | .frame clicked => [.frame clicked]
  | .reply r =>
    match c with
    | .webSocket =>
      [.peerSendMessage r.message, .readSome 0 r.message.length, .readHandler 0 none]
    | .customTcp =>
      [.peerSendBytes r.block, .readSome 0 r.block.length, .readHandler 0 none]
  | .readFailed e => [.readHandler 0 (some e)]
  | .writeFinished i none => [.writeSome i blinkCommand.length, .writeHandler i none]
  | .writeFinished i (some e) => [.writeHandler i (some e)]

/-- The statuses that were shown, without the connection type line. -/
def statuses (history : List Action) : List Status :=
  history.filterMap fun
    | .render _ shown => some shown.status
    | _ => none

theorem statuses_append (h l : List Action) : statuses (h ++ l) = statuses h ++ statuses l :=
  List.filterMap_append ..

/-- The application's state is the benchmark's, on one of the transports. -/
structure AppState.Mirrors (s : AppState) (b : Bench) : Prop where
  uiEvents : s.uiEventsToProcess = b.uiEventsToProcess
  measurement : s.measurement = b.measurement
  readings : s.readings = b.readings
  writes : s.ioc.writes = List.replicate b.writes ⟨s.connType, blinkCommand⟩
  sent : sends s.history = b.sent
  statuses : statuses s.history = b.statuses

theorem Bench.settle_slot (clock : Nat → Time) (b : Bench) :
    ((b.sendQueued clock).settle clock).slot = b.slot.frame := by
  have hslot : (b.sendQueued clock).slot = b.slot := by
    unfold Bench.sendQueued
    split <;> rfl
  rw [← hslot]
  unfold Bench.settle
  split <;> rfl

namespace AppState.Mirrors
variable {clock : Nat → Time} {s : AppState} {b : Bench}

theorem sendQueued (clock : Nat → Time) (h : s.Mirrors b) :
    (s.sendQueued clock).Mirrors (b.sendQueued clock) := by
  have hm := h.measurement
  have hu := h.uiEvents
  cases hq : b.uiEventsToProcess with
  | nil =>
    rw [hq] at hu
    rw [AppState.sendQueued, hu, Bench.sendQueued, hq]
    exact h
  | cons e es =>
    rw [hq] at hu
    rw [AppState.sendQueued, hu, Bench.sendQueued, hq]
    simp only
    constructor
    · rfl
    · simp only [AppState.measurement, AppState.sent, h.readings, ← hm]
    · simp only [AppState.sent, h.readings]
    · simp only [AppState.sent, IoContext.asyncWrite, h.writes, List.replicate_succ']
    · simp only [AppState.sent, sends_append, h.sent, h.readings]
      rfl
    · simp only [AppState.sent, statuses_append, h.statuses]
      exact List.append_nil _

theorem settle (clock : Nat → Time) (h : s.Mirrors b) :
    (s.settle clock b.slot).Mirrors (b.settle clock) := by
  have hm := h.measurement
  cases hslot : b.slot with
  | accepting | reading | idle | cancelled =>
    simp only [Bench.settle, hslot]
    exact ⟨h.uiEvents, h.measurement, h.readings, h.writes, h.sent, h.statuses⟩
  | connected sock =>
    simp only [Bench.settle, hslot]
    refine ⟨h.uiEvents, h.measurement, h.readings, h.writes, ?_, ?_⟩
    · simp only [AppState.settle, AppState.connect, sends_append, h.sent]
      exact List.append_nil _
    · simp only [AppState.settle, AppState.connect, statuses_append, h.statuses]
      exact List.append_nil _
  | message sock =>
    simp only [Bench.settle, hslot]
    refine ⟨h.uiEvents, ?_, ?_, h.writes, ?_, ?_⟩
    · simp only [AppState.measurement, AppState.settle, AppState.take, h.readings, ← hm]
    · simp only [AppState.settle, AppState.take, h.readings]
    · simp only [AppState.settle, AppState.take, sends_append, h.sent]
      exact List.append_nil _
    · simp only [AppState.settle, AppState.take, statuses_append, h.statuses]
      exact List.append_nil _

theorem rendered (h : s.Mirrors b) (clicked : Bool) :
    (s.rendered b.slot.sock.isSome clicked).Mirrors (b.render clicked) := by
  have hm := h.measurement
  refine ⟨?_, hm, h.readings, h.writes, ?_, ?_⟩
  · simp only [AppState.rendered, Bench.render, h.uiEvents, ← hm, AppState.measurement]
  · simp only [AppState.rendered, Bench.render, sends_append, h.sent]
    exact List.append_nil _
  · simp only [AppState.rendered, Bench.render, statuses_append, h.statuses, ← hm,
      AppState.measurement]
    rfl

theorem ran (h : s.Mirrors b) (clicked : Bool) : (s.ran clock b.slot clicked).Mirrors
    (((b.sendQueued clock).settle clock).render clicked) := by
  have hslot : (b.sendQueued clock).slot = b.slot := by
    unfold Bench.sendQueued
    split <;> rfl
  have hs := (h.sendQueued clock).settle clock
  rw [hslot] at hs
  have hr := hs.rendered clicked
  rw [b.settle_slot] at hr
  exact ⟨hr.uiEvents, hr.measurement, hr.readings, hr.writes, hr.sent, hr.statuses⟩

end AppState.Mirrors

/-- The fields `Mirrors` looks at. -/
def AppState.ledger (s : AppState) :=
  (s.uiEventsToProcess, s.measurement, s.readings, s.ioc.writes, s.connType, sends s.history,
    TeleopLedBenchmarks.statuses s.history)

theorem AppState.Mirrors.congr {s t : AppState} {b : Bench} (h : s.Mirrors b)
    (ht : t.ledger = s.ledger) (k : Slot) : t.Mirrors { b with slot := k } := by
  simp only [AppState.ledger, Prod.mk.injEq] at ht
  obtain ⟨hu, hm, hr, hw, hc, hs, hst⟩ := ht
  constructor
  · exact hu.trans h.uiEvents
  · exact hm.trans h.measurement
  · exact hr.trans h.readings
  · rw [hw, hc]
    exact h.writes
  · exact hs.trans h.sent
  · exact hst.trans h.statuses

namespace System

/-- Nothing has stopped the program, and nothing the peer sent is half read. -/
structure Refines (c : ConnectionType) (w : System) (b : Bench) : Prop where
  ok : w.Ok b.slot
  mirrors : w.app.Mirrors b
  connType : w.app.connType = c
  started : w.started = b.started
  posted : w.app.ioc.posted = if b.started then 1 else 0
  halted : w.halted = false
  stopping : w.stopping = false
  readBuf : w.app.tcpReadBuf.length = expectedMsg.length
  tcpIn : w.net.tcpIn = []
  wsIn : w.net.wsIn = []
  unread : ∀ sock got, b.slot = .reading sock got → got = 0

variable {clock : Nat → Time} {w w' : System} {b : Bench}

theorem Refines.new (c : ConnectionType) : (System.new c).Refines c .new := by
  refine ⟨.new c, ⟨rfl, rfl, rfl, ?_, rfl, rfl⟩, rfl, rfl, ?_, ?_, rfl, rfl, rfl, rfl, ?_⟩
  · cases c <;> rfl
  · cases c <;> rfl
  · cases c <;> rfl
  · intro sock got h
    cases h

theorem Refines.running (h : w.Refines c b) : w.running = b.started := by
  rw [System.running, h.halted, h.started, Bool.not_false, Bool.and_true]

theorem Refines.takeFrame (h : w.Refines c b) : w.takeFrame = some (w.app.withPosted 0) := by
  have hp := h.posted
  rw [System.takeFrame, h.halted, h.started]
  cases hb : b.started with
  | false =>
    rw [hb] at hp
    have hposted : w.app.withPosted w.app.ioc.posted = w.app := rfl
    rw [hp] at hposted
    exact congrArg some hposted.symm
  | true =>
    rw [hb] at hp
    simp only [hp]
    rfl

theorem Refines.frame (clock : Nat → Time) (h : w.Refines c b) (clicked : Bool) : ∃ w',
    (system clock).step w (.frame clicked) = some w' ∧
      w'.Refines c (((b.sendQueued clock).settle clock).render clicked) := by
  have hslot := b.settle_slot clock
  obtain ⟨hstopped, hposted⟩ := AppState.ran_ioc clock (w.app.withPosted 0) b.slot clicked
  have hok : System.Ok { w with
      app := (w.app.withPosted 0).ran clock b.slot clicked, started := true } b.slot.frame :=
    (h.ok.withPosted 0).ran clicked
  refine ⟨_, frame_runs clock h.ok h.takeFrame h.stopping clicked, ?_⟩
  constructor
  · exact hslot ▸ hok
  · have hm : (w.app.withPosted 0).Mirrors b :=
      AppState.Mirrors.congr (t := w.app.withPosted 0) h.mirrors rfl b.slot
    exact hm.ran clicked
  · exact (AppState.ran_connType _ _ _ _).trans h.connType
  · rfl
  · exact hposted
  · have hh := h.halted
    simp only [System.halted, hstopped] at hh ⊢
    exact hh
  · exact h.stopping
  · rw [AppState.ran_tcpReadBuf]
    exact h.readBuf
  · exact h.tcpIn
  · exact h.wsIn
  · intro sock got he
    have hf : b.slot.frame = .reading sock got := hslot.symm.trans he
    cases hs : b.slot with
    | reading =>
      rw [hs] at hf
      exact h.unread sock got (hs.trans hf)
    | connected | message =>
      rw [hs] at hf
      cases hf
      rfl
    | accepting | cancelled | idle =>
      rw [hs] at hf
      cases hf

theorem Refines.setSlot (h : w.Refines c b) (hk : k.sock = b.slot.sock)
    (hu : ∀ sock got, k = .reading sock got → got = 0) :
    System.Refines c { w with app := w.app.setSlot k } { b with slot := k } :=
  ⟨h.ok.setSlot hk, AppState.Mirrors.congr (t := w.app.setSlot k) h.mirrors rfl k, h.connType,
    h.started, h.posted, h.halted, h.stopping, h.readBuf, h.tcpIn, h.wsIn, hu⟩

theorem rel_ite {R : σ → τ → Prop} {P : Prop} [Decidable P] {o : Option σ}
    (hp : P → ∃ s, o = some s ∧ R s t) (hn : ∀ s, o = some s → P) :
    Option.Rel R o (if P then some t else none) := by
  by_cases h : P
  · obtain ⟨s, rfl, hr⟩ := hp h
    rw [if_pos h]
    exact .some hr
  · cases o with
    | none =>
      rw [if_neg h]
      exact .none
    | some s => exact (h (hn s rfl)).elim

theorem rel_none {R : σ → τ → Prop} {o : Option σ} (hn : ∀ s, o ≠ some s) :
    Option.Rel R o none := by
  cases o with
  | none => exact .none
  | some s => exact (hn s rfl).elim

theorem Refines.accept (h : w.Refines c b) (ec : ErrorCode) (socket : TcpSocket) :
    Option.Rel (System.Refines c) ((system clock).step w (.acceptHandler 0 ec socket true))
      (if b.started = true ∧ b.slot = .accepting then
        some { b with slot := .accepted ec socket } else none) := by
  apply rel_ite
  · rintro ⟨hb, hslot⟩
    have hrun := h.running.trans hb
    have hacc := h.ok.atSlot.accepts
    rw [hslot, Slot.accepts] at hacc
    have hsome : ((system clock).step w (.acceptHandler 0 ec socket true)).isSome := by
      simp only [system, System.acceptHandler, hrun, hacc, List.getElem?_cons_zero]
      cases w.app.connType <;> rfl
    obtain ⟨w', hw⟩ := Option.isSome_iff_exists.1 hsome
    refine ⟨w', hw, ?_⟩
    obtain ⟨_, _, rfl | ⟨_, _, hf, _⟩⟩ := acceptHandler_cases h.ok hw
    · apply h.setSlot
      · rw [hslot]
        exact Slot.accepted_sock _ _
      · intro sock got he
        cases (congrArg Slot.sock he).symm.trans (Slot.accepted_sock ec socket)
    · cases hf
  · intro w' hw
    obtain ⟨hrun, hslot, _⟩ := acceptHandler_cases h.ok hw
    exact ⟨h.running.symm.trans hrun, hslot⟩

theorem Refines.readFailed (h : w.Refines c b) (e : IoError) :
    Option.Rel (System.Refines c) ((system clock).step w (.readHandler 0 (some e)))
      (b.step clock (.readFailed e)) := by
  cases hslot : b.slot with
  | reading sock got =>
    simp only [Bench.step, hslot]
    apply rel_ite
    · intro hb
      have hreads := h.ok.atSlot.reads
      rw [hslot, Slot.reads] at hreads
      have hsome : ((system clock).step w (.readHandler 0 (some e))).isSome := by
        simp only [system, System.readHandler, h.running.trans hb, hreads,
          List.getElem?_cons_zero]
        cases w.app.connType <;> rfl
      obtain ⟨w', hw⟩ := Option.isSome_iff_exists.1 hsome
      refine ⟨w', hw, ?_⟩
      obtain ⟨_, sock', got', hs, _, ⟨_, rfl⟩ | ⟨he, _⟩ | ⟨he, _⟩⟩ := readHandler_cases h.ok hw
      · cases hslot.symm.trans hs
        apply h.setSlot
        · rw [hslot]
          rfl
        · intro sock got he
          cases he
      · cases he
      · cases he
    · intro w' hw
      obtain ⟨hrun, _⟩ := readHandler_cases h.ok hw
      exact h.running.symm.trans hrun
  | _ =>
    simp only [Bench.step, hslot]
    apply rel_none
    intro w' hw
    obtain ⟨_, _, _, hs, _⟩ := readHandler_cases h.ok hw
    cases hslot.symm.trans hs

theorem Refines.writes_getElem? (h : w.Refines c b) (i : Nat) :
    w.app.ioc.writes[i]? = if i < b.writes then some ⟨c, blinkCommand⟩ else none := by
  rw [h.mirrors.writes, h.connType, List.getElem?_replicate]

theorem Refines.finish (h : w.Refines c b) (hw : w'.held = w.held)
    (hl : w'.app.ioc.writes = w.app.ioc.writes.eraseIdx i) (hi : i < b.writes)
    (hm : (w'.app.measurement, w'.app.readings, w'.app.history, w'.app.ioc.posted,
      w'.app.tcpReadBuf) = (w.app.measurement, w.app.readings, w.app.history, w.app.ioc.posted,
        w.app.tcpReadBuf))
    (hf : (w'.started, w'.halted, w'.stopping, w'.net.tcpIn, w'.net.wsIn) =
      (w.started, w.halted, w.stopping, w.net.tcpIn, w.net.wsIn)) :
    w'.Refines c { b with writes := b.writes - 1 } := by
  have hok := h.ok.congr hw
  simp only [System.held, AppState.io, Prod.mk.injEq] at hw
  simp only [Prod.mk.injEq] at hm hf
  obtain ⟨⟨hc, _⟩, hu, _⟩ := hw
  obtain ⟨hm, hr, hh, hp, hb⟩ := hm
  obtain ⟨hs, hha, hst, ht, hws⟩ := hf
  refine ⟨hok, ⟨hu.trans h.mirrors.uiEvents, hm.trans h.mirrors.measurement,
    hr.trans h.mirrors.readings, ?_, ?_, ?_⟩, hc.trans h.connType, hs.trans h.started,
    hp.trans h.posted, hha.trans h.halted, hst.trans h.stopping,
    (congrArg List.length hb).trans h.readBuf, ht.trans h.tcpIn, hws.trans h.wsIn, h.unread⟩
  · rw [hl, h.mirrors.writes, hc, List.eraseIdx_replicate, if_pos hi]
  · rw [hh]
    exact h.mirrors.sent
  · rw [hh]
    exact h.mirrors.statuses

theorem Refines.writeFinished (h : w.Refines c b) (i : Nat) (ec : ErrorCode) :
    Option.Rel (System.Refines c)
      ((system clock).run w ((BenchEvent.writeFinished i ec).events c))
      (b.step clock (.writeFinished i ec)) := by
  have hget := h.writes_getElem? i
  apply rel_ite
  · rintro ⟨hb, hi⟩
    have hrun := h.running.trans hb
    rw [if_pos hi] at hget
    cases ec with
    | some e =>
      have hsome : ((system clock).step w (.writeHandler i (some e))).isSome := by
        simp [system, System.writeHandler, hrun, hget]
      obtain ⟨w', hw⟩ := Option.isSome_iff_exists.1 hsome
      refine ⟨w', by simp [BenchEvent.events, hw], ?_⟩
      obtain ⟨_, _, _, _, rfl⟩ := writeHandler_cases hw
      exact h.finish rfl rfl hi rfl rfl
    | none =>
      have hsome : ((system clock).step w (.writeSome i blinkCommand.length)).isSome := by
        have hpos : 0 < blinkCommand.length := by decide
        simp [system, System.writeSome, hrun, hget, hpos]
      obtain ⟨w₁, hw₁⟩ := Option.isSome_iff_exists.1 hsome
      obtain ⟨_, op, hop, _, _, he⟩ := writeSome_cases hw₁
      rw [hget] at hop
      cases hop
      have hget₁ : w₁.app.ioc.writes[i]? = some ⟨c, []⟩ := by
        have hlt := (List.getElem?_eq_some_iff.1 hget).1
        rw [he]
        simp [hlt]
      have hrun₁ : w₁.running = true := by
        rw [he]
        exact hrun
      have hsome₁ : ((system clock).step w₁ (.writeHandler i none)).isSome := by
        simp [system, System.writeHandler, hrun₁, hget₁]
      obtain ⟨w₂, hw₂⟩ := Option.isSome_iff_exists.1 hsome₁
      refine ⟨w₂, by simp [BenchEvent.events, hw₁, hw₂], ?_⟩
      obtain ⟨_, _, _, _, rfl⟩ := writeHandler_cases hw₂
      rw [he]
      exact h.finish rfl (List.eraseIdx_set_eq ..) hi rfl rfl
  · intro w' hw
    have hstep : ∃ op, w.running = true ∧ w.app.ioc.writes[i]? = some op := by
      cases ec with
      | some e =>
        obtain ⟨w₁, hw₁, _⟩ := Option.bind_eq_some_iff.1 hw
        obtain ⟨hrun, op, hop, _⟩ := writeHandler_cases hw₁
        exact ⟨op, hrun, hop⟩
      | none =>
        obtain ⟨w₁, hw₁, _⟩ := Option.bind_eq_some_iff.1 hw
        obtain ⟨hrun, op, hop, _⟩ := writeSome_cases hw₁
        exact ⟨op, hrun, hop⟩
    obtain ⟨op, hrun, hop⟩ := hstep
    refine ⟨h.running.symm.trans hrun, ?_⟩
    by_contra hi
    rw [if_neg hi, hop] at hget
    cases hget

theorem readSome_isSome (hrun : w.running = true)
    (hr : w.app.ioc.reads[0]? = some ⟨w.app.connType, 0⟩) (hpos : 0 < n)
    (ht : w.app.connType = .customTcp → n ≤ w.app.tcpReadBuf.length ∧ n ≤ w.net.tcpIn.length)
    (hws : w.app.connType = .webSocket → ∃ msg rest, w.net.wsIn = msg :: rest ∧ n ≤ msg.length) :
    ∃ w', (system clock).step w (.readSome 0 n) = some w' := by
  apply Option.isSome_iff_exists.1
  cases hc : w.app.connType with
  | customTcp =>
    obtain ⟨hb, hn⟩ := ht hc
    simp [system, System.readSome, hrun, hr, hc, hpos, hb, hn]
  | webSocket =>
    obtain ⟨msg, rest, hin, hn⟩ := hws hc
    simp [system, System.readSome, hrun, hr, hc, hpos, hin, hn]

theorem readHandler_isSome (hrun : w.running = true)
    (hr : w.app.ioc.reads[0]? = some ⟨w.app.connType, got⟩)
    (ht : w.app.connType = .customTcp → got = w.app.tcpReadBuf.length)
    (hws : w.app.connType = .webSocket → ∃ rest, w.net.wsIn = [] :: rest) :
    ∃ w', (system clock).step w (.readHandler 0 none) = some w' := by
  apply Option.isSome_iff_exists.1
  cases hc : w.app.connType with
  | customTcp => simp [system, System.readHandler, hrun, hr, hc, ht hc]
  | webSocket =>
    obtain ⟨rest, hin⟩ := hws hc
    simp [system, System.readHandler, hrun, hr, hc, hin]

theorem ledger_queue (s : AppState) (sock : TcpSocket) (content : List Byte) :
    ((s.setSlot (.message sock)).record (.queueMessage content)).ledger = s.ledger := by
  simp only [AppState.ledger, AppState.record, AppState.setSlot, sends_append, statuses_append,
    AppState.measurement]
  rw [show sends [.queueMessage content] = [] from rfl,
    show statuses [.queueMessage content] = [] from rfl, List.append_nil, List.append_nil]

/-- The pending read has taken all there was, and its result is queued. -/
structure TookAll (w w' : System) (sock : TcpSocket) : Prop where
  ok : w'.Ok (.message sock)
  ledger : w'.app.ledger = w.app.ledger
  posted : w'.app.ioc.posted = w.app.ioc.posted
  readBuf : w'.app.tcpReadBuf.length = w.app.tcpReadBuf.length
  flags : (w'.started, w'.halted, w'.stopping) = (w.started, w.halted, w.stopping)
  tcpIn : w'.net.tcpIn = []
  wsIn : w'.net.wsIn = []

theorem Refines.tookAll (h : w.Refines c b) (hk : w.TookAll w' sock) :
    w'.Refines c { b with slot := .message sock } := by
  have hm := h.mirrors.congr hk.ledger (.message sock)
  have hl := hk.ledger
  have hf := hk.flags
  simp only [AppState.ledger, Prod.mk.injEq] at hl hf
  obtain ⟨_, _, _, _, hc, _⟩ := hl
  obtain ⟨hs, hha, hst⟩ := hf
  exact ⟨hk.ok, hm, hc.trans h.connType, hs.trans h.started, hk.posted.trans h.posted,
    hha.trans h.halted, hst.trans h.stopping, hk.readBuf.trans h.readBuf, hk.tcpIn, hk.wsIn,
    fun _ _ he => by cases he⟩

theorem Ok.read_message (clock : Nat → Time) (h : w.Ok (.reading sock 0))
    (hrun : w.running = true) (hc : w.app.connType = .webSocket) (hin : w.net.wsIn = [msg])
    (hpos : 0 < msg.length) (ht : w.net.tcpIn = []) : ∃ w',
    (system clock).run w [.readSome 0 msg.length, .readHandler 0 none] = some w' ∧
      w.TookAll w' sock := by
  obtain ⟨w₁, hw₁⟩ : ∃ w₁, (system clock).step w (.readSome 0 msg.length) = some w₁ := by
    apply readSome_isSome hrun _ hpos
    · intro htcp
      cases hc.symm.trans htcp
    · intro _
      exact ⟨_, _, hin, le_rfl⟩
    · rw [h.atSlot.reads]
      rfl
  obtain ⟨_, _, _, _, hs, ⟨htcp, _⟩ | ⟨_, m, rest, hm, _, he₁⟩⟩ := readSome_cases h hw₁
  · cases hc.symm.trans htcp
  cases hs
  rw [hin] at hm
  cases hm
  have hset := h.setSlot (k := .reading sock (0 + msg.length)) rfl
  have hok : w₁.Ok (.reading sock (0 + msg.length)) := by
    rw [he₁]
    exact hset.congr rfl
  have hin₁ : w₁.net.wsIn = [[]] := by
    rw [he₁]
    simp only [List.drop_length]
  have hreads : w₁.app.ioc.reads[0]? = some ⟨w₁.app.connType, 0 + msg.length⟩ := by
    rw [hok.atSlot.reads]
    rfl
  obtain ⟨w₂, hw₂⟩ : ∃ w₂, (system clock).step w₁ (.readHandler 0 none) = some w₂ := by
    apply readHandler_isSome _ hreads
    · intro htcp
      rw [he₁] at htcp
      cases hc.symm.trans htcp
    · intro _
      exact ⟨_, hin₁⟩
    · rw [he₁]
      exact hrun
  refine ⟨w₂, by simp only [Machine.run_cons, hw₁, hw₂, Option.bind_some, Machine.run_nil], ?_⟩
  obtain ⟨_, _, _, hs, _, hcase⟩ := readHandler_cases hok hw₂
  cases hs
  obtain ⟨hne, _⟩ | ⟨_, htcp, _⟩ | ⟨_, _, rest, hr, ⟨hz, _⟩ | ⟨_, he₂⟩⟩ := hcase
  · exact (hne rfl).elim
  · rw [he₁] at htcp
    cases hc.symm.trans htcp
  · omega
  · rw [hin₁] at hr
    cases hr
    have hset₁ := hok.setSlot (k := .message sock) rfl
    constructor
    · rw [he₂]
      exact hset₁.congr rfl
    · rw [he₂, ledger_queue, he₁]
      rfl
    · rw [he₂, he₁]
      rfl
    · rw [he₂, he₁]
      rfl
    · rw [he₂, he₁]
      rfl
    · rw [he₂, he₁]
      exact ht
    · rw [he₂]

theorem Ok.read_block (clock : Nat → Time) (h : w.Ok (.reading sock 0))
    (hrun : w.running = true) (hc : w.app.connType = .customTcp) (hin : w.net.tcpIn = block)
    (hpos : 0 < block.length) (hl : w.app.tcpReadBuf.length = block.length)
    (hws : w.net.wsIn = []) : ∃ w',
    (system clock).run w [.readSome 0 block.length, .readHandler 0 none] = some w' ∧
      w.TookAll w' sock := by
  obtain ⟨w₁, hw₁⟩ : ∃ w₁, (system clock).step w (.readSome 0 block.length) = some w₁ := by
    apply readSome_isSome hrun _ hpos
    · intro _
      exact ⟨hl.ge, by rw [hin]⟩
    · intro hwsc
      cases hc.symm.trans hwsc
    · rw [h.atSlot.reads]
      rfl
  obtain ⟨_, _, _, _, hs, ⟨_, hfit, hle, he₁⟩ | ⟨hwsc, _⟩⟩ := readSome_cases h hw₁
  case inr => cases hc.symm.trans hwsc
  cases hs
  have hset := h.setSlot (k := .reading sock (0 + block.length)) rfl
  have hok : w₁.Ok (.reading sock (0 + block.length)) := by
    rw [he₁]
    exact hset.congr rfl
  have hl₁ : w₁.app.tcpReadBuf.length = w.app.tcpReadBuf.length := by
    rw [he₁]
    exact overwrite_length (List.length_take_of_le hle) hfit
  have hreads : w₁.app.ioc.reads[0]? = some ⟨w₁.app.connType, 0 + block.length⟩ := by
    rw [hok.atSlot.reads]
    rfl
  obtain ⟨w₂, hw₂⟩ : ∃ w₂, (system clock).step w₁ (.readHandler 0 none) = some w₂ := by
    apply readHandler_isSome _ hreads
    · intro _
      rw [hl₁, hl, Nat.zero_add]
    · intro hwsc
      rw [he₁] at hwsc
      cases hc.symm.trans hwsc
    · rw [he₁]
      exact hrun
  refine ⟨w₂, by simp only [Machine.run_cons, hw₁, hw₂, Option.bind_some, Machine.run_nil], ?_⟩
  obtain ⟨_, _, _, hs, _, hcase⟩ := readHandler_cases hok hw₂
  cases hs
  obtain ⟨hne, _⟩ | ⟨_, _, _, he₂⟩ | ⟨_, hwsc, _⟩ := hcase
  · exact (hne rfl).elim
  · have hset₁ := hok.setSlot (k := .message sock) rfl
    constructor
    · rw [he₂]
      exact hset₁.congr rfl
    · rw [he₂, ledger_queue, he₁]
      rfl
    · rw [he₂, he₁]
      rfl
    · rw [he₂]
      exact hl₁
    · rw [he₂, he₁]
      rfl
    · rw [he₂, he₁]
      simp only [hin, List.drop_length]
    · rw [he₂, he₁]
      exact hws
  · rw [he₁] at hwsc
    cases hc.symm.trans hwsc

theorem Refines.reply_taken (clock : Nat → Time) (h : w.Refines c b) (hb : b.started = true)
    (hslot : b.slot = .reading sock got) (r : Reply) : ∃ w',
    (system clock).run w ((BenchEvent.reply r).events c) = some w' ∧
      w'.Refines c { b with slot := .message sock } := by
  have hok := h.ok
  rw [hslot, h.unread sock got hslot] at hok
  have hrun := h.running.trans hb
  cases c with
  | webSocket =>
    obtain ⟨w₁, hw₁⟩ : ∃ w₁, (system clock).step w (.peerSendMessage r.message) = some w₁ :=
      ⟨_, if_pos h.connType⟩
    obtain ⟨hc, he⟩ := peerSendMessage_cases hw₁
    have hok₁ : w₁.Ok (.reading sock 0) := hok.congr (by rw [he]; rfl)
    have hrun₁ : w₁.running = true := by
      rw [he]
      exact hrun
    have hc₁ : w₁.app.connType = .webSocket := by
      rw [he]
      exact hc
    have hin : w₁.net.wsIn = [r.message] := by
      rw [he]
      simp only [h.wsIn, List.nil_append]
    have ht : w₁.net.tcpIn = [] := by
      rw [he]
      exact h.tcpIn
    have hpos := List.length_pos_iff.2 r.message_ne_nil
    obtain ⟨w₂, hw₂, hk⟩ := hok₁.read_message clock hrun₁ hc₁ hin hpos ht
    rw [he] at hk
    refine ⟨w₂, ?_, h.tookAll ⟨hk.ok, hk.ledger, hk.posted, hk.readBuf, hk.flags, hk.tcpIn,
      hk.wsIn⟩⟩
    simp only [BenchEvent.events, Machine.run_cons _ w, hw₁, Option.bind_some, hw₂]
  | customTcp =>
    obtain ⟨w₁, hw₁⟩ : ∃ w₁, (system clock).step w (.peerSendBytes r.block) = some w₁ :=
      ⟨_, if_pos h.connType⟩
    obtain ⟨hc, he⟩ := peerSendBytes_cases hw₁
    have hok₁ : w₁.Ok (.reading sock 0) := hok.congr (by rw [he]; rfl)
    have hrun₁ : w₁.running = true := by
      rw [he]
      exact hrun
    have hc₁ : w₁.app.connType = .customTcp := by
      rw [he]
      exact hc
    have hin : w₁.net.tcpIn = r.block := by
      rw [he]
      simp only [h.tcpIn, List.nil_append]
    have hpos : 0 < r.block.length := by
      rw [r.block_length]
      decide
    have hl : w₁.app.tcpReadBuf.length = r.block.length := by
      rw [he, r.block_length]
      exact h.readBuf
    have hws : w₁.net.wsIn = [] := by
      rw [he]
      exact h.wsIn
    obtain ⟨w₂, hw₂, hk⟩ := hok₁.read_block clock hrun₁ hc₁ hin hpos hl hws
    rw [he] at hk
    refine ⟨w₂, ?_, h.tookAll ⟨hk.ok, hk.ledger, hk.posted, hk.readBuf, hk.flags, hk.tcpIn,
      hk.wsIn⟩⟩
    simp only [BenchEvent.events, Machine.run_cons _ w, hw₁, Option.bind_some, hw₂]

theorem Refines.reply (h : w.Refines c b) (r : Reply) :
    Option.Rel (System.Refines c) ((system clock).run w ((BenchEvent.reply r).events c))
      (b.step clock (.reply r)) := by
  -- Whatever the transport, the second event of a reply needs a pending read.
  have hread : ∀ w', (system clock).run w ((BenchEvent.reply r).events c) = some w' →
      w.running = true ∧ ∃ sock got, b.slot = .reading sock got := by
    intro w' hw
    cases c with
    | webSocket =>
      obtain ⟨w₁, hw₁, hw⟩ := Option.bind_eq_some_iff.1 hw
      obtain ⟨w₂, hw₂, _⟩ := Option.bind_eq_some_iff.1 hw
      obtain ⟨_, he⟩ := peerSendMessage_cases hw₁
      have hok₁ : w₁.Ok b.slot := h.ok.congr (by rw [he]; rfl)
      obtain ⟨hrun, _, sock, got, hs, _⟩ := readSome_cases hok₁ hw₂
      rw [he] at hrun
      exact ⟨hrun, sock, got, hs⟩
    | customTcp =>
      obtain ⟨w₁, hw₁, hw⟩ := Option.bind_eq_some_iff.1 hw
      obtain ⟨w₂, hw₂, _⟩ := Option.bind_eq_some_iff.1 hw
      obtain ⟨_, he⟩ := peerSendBytes_cases hw₁
      have hok₁ : w₁.Ok b.slot := h.ok.congr (by rw [he]; rfl)
      obtain ⟨hrun, _, sock, got, hs, _⟩ := readSome_cases hok₁ hw₂
      rw [he] at hrun
      exact ⟨hrun, sock, got, hs⟩
  cases hslot : b.slot with
  | reading sock got =>
    simp only [Bench.step, hslot]
    apply rel_ite
    · intro hb
      exact h.reply_taken clock hb hslot r
    · intro w' hw
      exact h.running.symm.trans (hread w' hw).1
  | _ =>
    simp only [Bench.step, hslot]
    apply rel_none
    intro w' hw
    obtain ⟨_, _, _, hs⟩ := hread w' hw
    cases hslot.symm.trans hs

/-- Each event of the benchmark does the same on either transport. -/
theorem Refines.step (h : w.Refines c b) (e : BenchEvent) :
    Option.Rel (System.Refines c) ((system clock).run w (e.events c)) (b.step clock e) := by
  have hsingle : ∀ ev, (system clock).run w [ev] = (system clock).step w ev := by
    intro ev
    simp only [Machine.run_cons, Machine.run_nil, Option.bind_fun_some]
  cases e with
  | frame clicked =>
    obtain ⟨w', hw, hr⟩ := h.frame clock clicked
    rw [BenchEvent.events, hsingle, hw]
    exact .some hr
  | accepted =>
    rw [BenchEvent.events, hsingle]
    exact h.accept none ⟨true⟩
  | acceptFailed e =>
    rw [BenchEvent.events, hsingle]
    exact h.accept (some e) ⟨false⟩
  | acceptedClosed =>
    rw [BenchEvent.events, hsingle]
    exact h.accept none ⟨false⟩
  | reply r => exact h.reply r
  | readFailed e =>
    rw [BenchEvent.events, hsingle]
    exact h.readFailed e
  | writeFinished i ec => exact h.writeFinished i ec

end System

/-- The desktop program on one transport, driven by events that do not name it. -/
def transport (clock : Nat → Time) (c : ConnectionType) : Machine System BenchEvent :=
  (system clock).macros (BenchEvent.events c)

theorem transport_refines (clock : Nat → Time) (c : ConnectionType) (trace : List BenchEvent) :
    Option.Rel (System.Refines c) ((transport clock c).run (.new c) trace)
      ((bench clock).run .new trace) := by
  apply Machine.run_simulates _ (System.Refines.new c)
  intro w b e h
  exact h.step e

/-- What can be compared between the transports. -/
structure Observation where
  measurement : Measurement
  uiEvents : List UIEvent
  accepts : Nat
  reads : Nat
  results : Nat
  commandsSent : Nat
  statuses : List Status
  deriving DecidableEq, Repr

def System.observe (w : System) : Observation where
  measurement := w.app.measurement
  uiEvents := w.app.uiEventsToProcess
  accepts := w.app.ioc.accepts.length
  reads := w.app.ioc.reads.length
  results := w.app.ioResults.length
  commandsSent := (sends w.app.history).length
  statuses := TeleopLedBenchmarks.statuses w.app.history

def Bench.observe (b : Bench) : Observation where
  measurement := b.measurement
  uiEvents := b.uiEventsToProcess
  accepts := (b.slot.accepts .webSocket).length
  reads := (b.slot.reads .webSocket).length
  results := (b.slot.ioResults .webSocket).length
  commandsSent := b.sent.length
  statuses := b.statuses

theorem System.Refines.observe {w : System} {b : Bench} (h : w.Refines c b) :
    w.observe = b.observe := by
  have hacc : w.app.ioc.accepts.length = (b.slot.accepts .webSocket).length := by
    rw [h.ok.atSlot.accepts]
    cases b.slot <;> rfl
  have hreads : w.app.ioc.reads.length = (b.slot.reads .webSocket).length := by
    rw [h.ok.atSlot.reads]
    cases b.slot <;> rfl
  have hresults : w.app.ioResults.length = (b.slot.ioResults .webSocket).length := by
    rw [h.ok.atSlot.ioResults]
    cases b.slot <;> rfl
  simp only [System.observe, Bench.observe, h.mirrors.measurement, h.mirrors.uiEvents, hacc,
    hreads, hresults, h.mirrors.sent, h.mirrors.statuses]

/-- After every prefix of a trace the two transports are both possible and show the same, or
both impossible. -/
theorem transports_agree (clock : Nat → Time) (trace : List BenchEvent) (n : Nat) :
    ((transport clock .webSocket).run (.new .webSocket) (trace.take n)).map System.observe =
      ((transport clock .customTcp).run (.new .customTcp) (trace.take n)).map
        System.observe := by
  have hobs : ∀ c (w : System) (b : Bench), w.Refines c b → w.observe = b.observe := by
    intro c w b h
    exact h.observe
  have hw := Machine.map_eq_of_rel (hobs _) (transport_refines clock .webSocket (trace.take n))
  have ht := Machine.map_eq_of_rel (hobs _) (transport_refines clock .customTcp (trace.take n))
  exact hw.trans ht.symm

/-- A command and its reply, on both transports. -/
example : ∀ c, ((transport (1000000 * ·) c).run (.new c) [.frame false, .accepted, .frame true,
    .frame false, .writeFinished 0 none,
    .reply ⟨[1], expectedMsg, by decide, rfl⟩, .frame false]).map (fun w => w.observe) =
      some ⟨⟨false, 0, 1⟩, [], 0, 1, 0, 1, [.waiting, .connected false 0, .connected true 0,
        .connected false 1]⟩ := by
  intro c
  cases c <;> decide +kernel

end TeleopLedBenchmarks
