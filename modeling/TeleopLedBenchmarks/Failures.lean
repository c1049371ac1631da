import TeleopLedBenchmarks.Framing
import TeleopLedBenchmarks.Outbound

namespace TeleopLedBenchmarks
set_option autoImplicit true

namespace System

/-- `render` shows that it waits for the peer. -/
def ShowsWaiting (w : System) : Prop := w.app.ws = none ∧ w.app.tcpSock = none

/-- The result that would set a pointer. -/
def ConnectionWaits (w : System) : Prop :=
  ∃ sock, w.app.ioResults = [connectedResult w.app.connType sock]

/-- Something is pending that bears out the line the window shows. -/
structure Truthful (w : System) : Prop where
  waiting : w.ShowsWaiting → w.AcceptPending ∨ w.ConnectionWaits
  connected : ¬w.ShowsWaiting → w.ReadPending ∨ w.MessageWaits

/-- The blocking handshake throws. -/
def HandshakeFails (w : System) (e : Event) : Prop :=
  w.app.connType = .webSocket ∧
    ∃ i socket, e = .acceptHandler i none socket false ∧ socket.isOpen = true

/-- What a failed completion in `w` leaves for ever: no operation, nothing to process but the
notice of a cancelled accept, and the window as it was. An enabled button sends one more
command. -/
structure EndedBy (w w' : System) : Prop where
  accepts : w'.app.ioc.accepts = []
  reads : w'.app.ioc.reads = []
  ioResults : ∀ res ∈ w'.app.ioResults, res.type = .cancelled
  ws : w'.app.ws = w.app.ws
  tcpSock : w'.app.tcpSock = w.app.tcpSock
  blinkLatency : w'.app.blinkLatency = w.app.blinkLatency
  fault : w'.fault = none
  waiting : w.ShowsWaiting →
    w'.app.isSendingBlinkCommand = false ∧ sends w'.app.history = sends w.app.history
  connected : w.app.isSendingBlinkCommand = true → w'.app.isSendingBlinkCommand = true
  processed : processed w'.app.history = processed w.app.history
  lastCommand : (sends w'.app.history).length + (!w'.app.isSendingBlinkCommand).toNat ≤
    (sends w.app.history).length + (!w.app.isSendingBlinkCommand).toNat

end System

theorem Slot.Step.dead (h : Slot.Step c slot e slot') (hd : slot.live = false) :
    slot'.live = false ∧ slot'.sock = slot.sock := by
  cases slot with
  | accepting | connected | reading | message => cases hd
  | idle sk =>
    rw [h.idle]
    exact ⟨rfl, rfl⟩
  | cancelled => cases h <;> exact ⟨rfl, rfl⟩

namespace System
variable {clock : Nat → Time} {w₀ w w' : System}

theorem Ok.showsWaiting_iff (h : w.Ok slot) : w.ShowsWaiting ↔ slot.sock = none :=
  h.atSlot.pointers_null

/-- The window is truthful exactly while the slot is held. -/
theorem Ok.truthful_iff (h : w.Ok slot) : w.Truthful ↔ slot.live = true := by
  have ha := h.atSlot.accepts
  have hr := h.atSlot.reads
  have hi := h.atSlot.ioResults
  have hsh := h.showsWaiting_iff
  constructor
  · intro ht
    cases slot with
    | accepting | connected | reading | message => rfl
    | cancelled =>
      obtain he | ⟨sock, he⟩ := ht.waiting (hsh.2 rfl)
      · cases ha.symm.trans he
      · cases hc : w.app.connType <;> cases hc ▸ hi.symm.trans he
    | idle sk =>
      have hr' : ¬w.ReadPending := fun ⟨⟨_, he⟩, _⟩ => by cases hr.symm.trans he
      have hm : ¬w.MessageWaits := fun he => by cases hi.symm.trans he
      cases sk with
      | none =>
        obtain he | ⟨sock, he⟩ := ht.waiting (hsh.2 rfl)
        · cases ha.symm.trans he
        · cases hi.symm.trans he
      | some sk =>
        obtain he | he := ht.connected fun hs => by cases hsh.1 hs
        · exact (hr' he).elim
        · exact (hm he).elim
  · intro hl
    constructor
    · intro hs
      have hk := hsh.1 hs
      cases slot with
      | accepting => exact .inl ha
      | connected sock => exact .inr ⟨sock, hi⟩
      | reading | message => cases hk
      | cancelled | idle => cases hl
    · intro hs
      have hk : slot.sock ≠ none := fun he => hs (hsh.2 he)
      obtain he | ⟨_, he, _⟩ | ⟨_, _, _⟩ := h.loopAlive hl
      · cases slot with
        | accepting | connected => exact (hk rfl).elim
        | reading | message => cases ha.symm.trans he.1
        | cancelled | idle => cases hl
      · exact .inl he
      · cases slot with
        | message sock => exact .inr hi
        | accepting | connected => exact (hk rfl).elim
        | reading sock got => cases hi.symm.trans ‹w.ResultWaits›.choose_spec
        | cancelled | idle => cases hl

theorem acceptHandler_fault (h : w.Ok slot)
    (hs : w.acceptHandler i ec socket handshake = some w') :
    w.HandshakeFails (.acceptHandler i ec socket handshake) ∧ w'.fault = some .abort ∨
      ¬w.HandshakeFails (.acceptHandler i ec socket handshake) ∧ w'.fault = w.fault := by
  obtain ⟨hrun, rfl, _⟩ := acceptHandler_cases h hs
  have ha := h.atSlot.accepts
  simp only [Slot.accepts] at ha
  cases i with
  | succ i => simp [acceptHandler, hrun, ha] at hs
  | zero =>
    simp only [acceptHandler, hrun, ha, List.getElem?_cons_zero] at hs
    cases hc : w.app.connType with
    | customTcp =>
      right
      simp only [hc, Option.some.injEq] at hs
      refine ⟨fun hf => ?_, by rw [← hs]⟩
      cases hc.symm.trans hf.1
    | webSocket =>
      simp only [hc, Option.some.injEq] at hs
      rw [← hs]
      cases ec <;> cases ho : socket.isOpen <;> cases handshake <;>
        simp [HandshakeFails, hc, ho, wsAcceptHandler, withApp]

theorem Ok.step_aborts (h : w.Ok slot) (hs : (system clock).step w e = some w') :
    w.HandshakeFails e ∧ w'.fault = some .abort ∨
      ¬w.HandshakeFails e ∧ w'.fault = w.fault := by
  cases e with
  | acceptHandler i ec socket handshake => exact acceptHandler_fault h hs
  | _ =>
    right
    constructor
    · rintro ⟨_, _, _, he, _⟩
      cases he
    · apply (h.step_untouched hs).fault
      intro i ec socket handshake he
      cases he

theorem sends_sentActions_nil {s : AppState} (h : s.uiEventsToProcess = []) :
    sends (s.sentActions clock) = [] := by
  rw [AppState.sentActions, h]
  rfl

theorem waiting_dead {s : AppState} (hd : slot.live = false) : s.waiting slot = [] := by
  cases slot with
  | accepting | connected | reading | message => cases hd
  | cancelled | idle => rfl

theorem ran_dead {s : AppState} (hd : slot.live = false) (clicked : Bool) :
    (s.ran clock slot clicked).blinkLatency = s.blinkLatency ∧
      (s.isSendingBlinkCommand = true →
        (s.ran clock slot clicked).isSendingBlinkCommand = true) := by
  have hq : (s.sendQueued clock).blinkLatency = s.blinkLatency ∧
      (s.isSendingBlinkCommand = true → (s.sendQueued clock).isSendingBlinkCommand = true) := by
    obtain ⟨_, he⟩ | ⟨_, he⟩ := s.sendQueued_cases clock
    · rw [he]
      exact ⟨rfl, id⟩
    · rw [he]
      exact ⟨rfl, fun _ => rfl⟩
  cases slot with
  | accepting | connected | reading | message => cases hd
  | cancelled | idle => exact hq

theorem sends_quiet (hq : w.Quiet w') : sends w'.app.history = sends w.app.history := by
  obtain hh | ⟨_, hh⟩ := hq.history
  · rw [hh]
  · rw [hh, sends_append]
    exact List.append_nil _

theorem processed_quiet (hq : w.Quiet w') :
    processed w'.app.history = processed w.app.history := by
  obtain hh | ⟨_, hh⟩ := hq.history
  · rw [hh]
  · rw [hh, processed_append]
    exact List.append_nil _

theorem Ok.step_sends (h : w.Ok slot) (hs : (system clock).step w e = some w') :
    (sends w.app.history).length ≤ (sends w'.app.history).length ∧
      (sends w'.app.history).length + (!w'.app.isSendingBlinkCommand).toNat +
          (processed w.app.history).length ≤
        (sends w.app.history).length + (!w.app.isSendingBlinkCommand).toNat +
          (processed w'.app.history).length := by
  obtain ⟨clicked, n, _, _, rfl, _⟩ | ⟨hq, _⟩ := h.step_cases hs
  · have hh : (w.app.withPosted n).history = w.app.history := rfl
    have hsent : (sends ((w.app.withPosted n).sentActions clock)).length +
        (!((w.app.withPosted n).sendQueued clock).isSendingBlinkCommand).toNat =
          (!w.app.isSendingBlinkCommand).toNat := by
      obtain ⟨hu, he⟩ | ⟨hu, he⟩ := (w.app.withPosted n).sendQueued_cases clock
      · rw [sends_sentActions_nil hu, he]
        exact Nat.zero_add _
      · obtain hn | ⟨hc, hf, _⟩ := h.click
        · exact (hu hn).elim
        · rw [AppState.sentActions, show (w.app.withPosted n).uiEventsToProcess = _ from hc, he, hf]
          rfl
    have hflag : (!((w.app.withPosted n).ran clock slot clicked).isSendingBlinkCommand).toNat ≤
        (!((w.app.withPosted n).sendQueued clock).isSendingBlinkCommand).toNat +
          ((w.app.withPosted n).waiting slot).length := by
      cases slot with
      | message sock => exact (Bool.toNat_le _).trans (Nat.le_add_left 1 _)
      | _ => exact Nat.le_refl _
    simp only [sends_ran, processed_ran, List.length_append, hh]
    omega
  · have hm := congrArg Measurement.isSendingBlinkCommand hq.measurement
    rw [hq.sends, processed_quiet hq, show w'.app.isSendingBlinkCommand = _ from hm]
    exact ⟨Nat.le_refl _, Nat.le_refl _⟩

/-- Where a failure has left the program, it stays. -/
structure Dead (w w' : System) (slot : Slot) : Prop where
  ok : w'.Ok slot
  dead : slot.live = false
  connType : w'.app.connType = w.app.connType
  ws : w'.app.ws = w.app.ws
  tcpSock : w'.app.tcpSock = w.app.tcpSock
  blinkLatency : w'.app.blinkLatency = w.app.blinkLatency
  fault : w'.fault = none
  sends : slot.sock = none → sends w'.app.history = sends w.app.history
  sending : w.app.isSendingBlinkCommand = true → w'.app.isSendingBlinkCommand = true
  processed : processed w'.app.history = processed w.app.history
  lastCommand : (TeleopLedBenchmarks.sends w'.app.history).length +
      (!w'.app.isSendingBlinkCommand).toNat ≤
    (TeleopLedBenchmarks.sends w.app.history).length + (!w.app.isSendingBlinkCommand).toNat

theorem Dead.step (h : w₀.Dead w slot) (hs : (system clock).step w e = some w') :
    ∃ slot', w₀.Dead w' slot' := by
  have hfault : w'.fault = none := by
    obtain ⟨⟨_, _, _, rfl, _⟩, _⟩ | ⟨_, he⟩ := h.ok.step_aborts hs
    · obtain ⟨_, hk, _⟩ := acceptHandler_cases h.ok hs
      cases hk ▸ h.dead
    · exact he.trans h.fault
  have hc := h.ok.step_connType hs
  obtain ⟨slot', hw, ht⟩ := h.ok.step hs
  obtain ⟨hd, hk⟩ := ht.dead h.dead
  have hws : w'.app.ws = w.app.ws := by rw [hw.atSlot.ws, h.ok.atSlot.ws, hc, hk]
  have htcp : w'.app.tcpSock = w.app.tcpSock := by
    rw [hw.atSlot.tcpSock, h.ok.atSlot.tcpSock, hc, hk]
  have hproc : TeleopLedBenchmarks.processed w'.app.history =
      TeleopLedBenchmarks.processed w.app.history := by
    obtain ⟨clicked, n, _, _, rfl⟩ | hq := h.ok.frame_or_quiet hs
    · rw [processed_ran, waiting_dead h.dead, List.append_nil]
      rfl
    · exact processed_quiet hq
  have hsends := (h.ok.step_sends hs).2
  rw [hproc] at hsends
  refine ⟨slot', hw, hd, hc.trans h.connType, hws.trans h.ws, htcp.trans h.tcpSock, ?_, hfault,
    ?_, ?_, hproc.trans h.processed, (Nat.le_of_add_le_add_right hsends).trans h.lastCommand⟩
  · obtain ⟨clicked, n, _, _, rfl⟩ | hq := h.ok.frame_or_quiet hs
    · exact (ran_dead h.dead clicked).1.trans h.blinkLatency
    · exact (congrArg Measurement.blinkLatency hq.measurement).trans h.blinkLatency
  · intro hn
    rw [hk] at hn
    rw [← h.sends hn]
    obtain ⟨clicked, n, _, _, rfl⟩ | hq := h.ok.frame_or_quiet hs
    · -- Without a pointer there was no button, so no click waits.
      have hu : w.app.uiEventsToProcess = [] := by
        obtain hu | ⟨_, _, hsome⟩ := h.ok.click
        · exact hu
        · rw [hn] at hsome
          cases hsome
      have hnil : TeleopLedBenchmarks.sends ((w.app.withPosted n).sentActions clock) = [] :=
        sends_sentActions_nil hu
      simp only [sends_ran, hnil, List.append_nil]
      rfl
    · exact sends_quiet hq
  · intro hf
    have hf := h.sending hf
    obtain ⟨clicked, n, _, _, rfl⟩ | hq := h.ok.frame_or_quiet hs
    · exact (ran_dead h.dead clicked).2 hf
    · exact (congrArg Measurement.isSendingBlinkCommand hq.measurement).trans hf

theorem Dead.reach (h : w₀.Dead w slot) (hr : (system clock).Reach G w w') :
    ∃ slot', w₀.Dead w' slot' := by
  apply hr.invariant (I := fun w => ∃ slot, w₀.Dead w slot) ⟨slot, h⟩
  rintro s e s' _ ⟨slot, hd⟩ _ hs
  exact hd.step hs

theorem Dead.endedBy (h : w.Dead w' slot) : w.EndedBy w' := by
  have ha := h.ok.atSlot.accepts
  have hr := h.ok.atSlot.reads
  have hi := h.ok.atSlot.ioResults
  have hd := h.dead
  refine ⟨?_, ?_, ?_, h.ws, h.tcpSock, h.blinkLatency, h.fault, ?_, h.sending, h.processed,
    h.lastCommand⟩
  · cases slot with
    | accepting | connected | reading | message => cases hd
    | cancelled | idle => exact ha
  · cases slot with
    | accepting | connected | reading | message => cases hd
    | cancelled | idle => exact hr
  · intro res hres
    rw [hi] at hres
    cases slot with
    | accepting | connected | reading | message => cases hd
    | cancelled => rw [List.mem_singleton.1 hres]
    | idle => cases hres
  · intro hw
    have hn := h.ok.showsWaiting_iff.1 ⟨h.ws.trans hw.1, h.tcpSock.trans hw.2⟩
    refine ⟨?_, h.sends hn⟩
    cases hf : w'.app.isSendingBlinkCommand with
    | false => rfl
    | true =>
      have hsome := h.ok.sending hf
      rw [hn] at hsome
      cases hsome

theorem running_fault (h : w.running = true) : w.fault = none := by
  cases hf : w.fault with
  | none => rfl
  | some f => simp [running, halted, hf] at h

theorem Ok.dead_of_setSlot (h : w.Ok slot) (hf : w.fault = none) (hd : k.live = false)
    (hk : k.sock = slot.sock) : w.Dead { w with app := w.app.setSlot k } k :=
  ⟨h.setSlot hk, hd, rfl, rfl, rfl, rfl, hf, fun _ => rfl, id, rfl, Nat.le_refl _⟩

/-- A completion that fails without ending the process leaves the slot dead. -/
theorem Ok.fails_dead (h : w.Ok slot) (he : w.Fails e) (hn : ¬w.HandshakeFails e)
    (hs : (system clock).step w e = some w') :
    ∃ slot', w.Dead w' slot' := by
  have hab := h.step_aborts hs
  cases e with
  | acceptHandler i ec socket handshake =>
    obtain ⟨hrun, rfl, rfl | ⟨_, _, _, rfl⟩⟩ := acceptHandler_cases h hs
    · have hdead : (Slot.accepted ec socket).live = false := by
        cases ec with
        | some e => rfl
        | none =>
          obtain he | ho | ⟨hc, hk⟩ := he
          · exact (he rfl).elim
          · simp [Slot.accepted, ho, Slot.live]
          · cases ho : socket.isOpen with
            | true => exact (hn ⟨hc, i, socket, by rw [hk], ho⟩).elim
            | false => simp [Slot.accepted, ho, Slot.live]
      exact ⟨_, h.dead_of_setSlot (running_fault hrun) hdead (Slot.accepted_sock _ _)⟩
    · obtain ⟨hf, _⟩ | ⟨_, hf⟩ := hab
      · exact (hn hf).elim
      · cases hf.trans (running_fault hrun)
  | readHandler i ec =>
    obtain ⟨hrun, sock, got, rfl, _, ⟨_, rfl⟩ | ⟨hec, _⟩ | ⟨hec, _⟩⟩ := readHandler_cases h hs
    · exact ⟨.idle (some sock), h.dead_of_setSlot (running_fault hrun) rfl rfl⟩
    · exact (he hec).elim
    · exact (he hec).elim
  | _ => exact he.elim

theorem reach_truthful
    (h : (system clock).Reach (fun w e => ¬w.Fails e ∧ ¬w.ReadsEmpty e) (.new c) w) :
    w.fault = none ∧ ∃ slot, w.Ok slot ∧ slot.live = true := by
  apply h.invariant (I := fun w => w.fault = none ∧ ∃ slot, w.Ok slot ∧ slot.live = true)
  · exact ⟨rfl, _, .new c, rfl⟩
  · rintro s e s' _ ⟨hf, slot, hw, hl⟩ ⟨hn, he⟩ hs
    refine ⟨?_, hw.step_live hl hn he hs⟩
    obtain ⟨⟨hc, i, socket, rfl, _⟩, _⟩ | ⟨_, hf'⟩ := hw.step_aborts hs
    · exact (hn (.inr (.inr ⟨hc, rfl⟩))).elim
    · exact hf'.trans hf

end System

section
variable {clock : Nat → Time}

/-- Until an accept or a read fails, what the window shows is true and an open command can be
answered. A failed handshake aborts the process, and nothing else does. Any other failure is
final: the program runs on, and never accepts, reads or changes what it shows again. -/
theorem failures_are_final :
    (∀ w, (system clock).Reach (fun w e => ¬w.Fails e ∧ ¬w.ReadsEmpty e) (.new c) w →
      w.fault = none ∧ w.Truthful ∧
        (w.app.isSendingBlinkCommand = true → w.ReadPending ∨ w.MessageWaits)) ∧
    ∀ w e w', (system clock).Reach Machine.Free (.new c) w →
      (system clock).step w e = some w' →
      (w.HandshakeFails e → w'.fault = some .abort) ∧
      (¬w.HandshakeFails e → w'.fault = w.fault) ∧
      (w.Fails e → ¬w.HandshakeFails e →
        ∀ w'', (system clock).Reach Machine.Free w' w'' → w.EndedBy w'' ∧ ¬w''.Truthful) := by
  constructor
  · intro w h
    obtain ⟨hf, slot, hw, hl⟩ := System.reach_truthful h
    exact ⟨hf, hw.truthful_iff.2 hl, hw.answerable (hw.loopAlive hl)⟩
  · intro w e w' h hs
    obtain ⟨slot, hw⟩ := System.reach_ok h
    have hab := hw.step_aborts hs
    refine ⟨fun hh => ?_, fun hh => ?_, fun hf hn w'' hr => ?_⟩
    · obtain ⟨_, ha⟩ | ⟨hn, _⟩ := hab
      · exact ha
      · exact (hn hh).elim
    · obtain ⟨ha, _⟩ | ⟨_, he⟩ := hab
      · exact (hh ha).elim
      · exact he
    · obtain ⟨slot', hd⟩ := hw.fails_dead hf hn hs
      obtain ⟨slot'', hd⟩ := hd.reach hr
      refine ⟨hd.endedBy, fun ht => ?_⟩
      cases (hd.ok.truthful_iff.1 ht).symm.trans hd.dead

instance (w : System) (e : Event) : Decidable (w.Fails e) :=
  match e with
  | .acceptHandler _ ec socket handshake => inferInstanceAs (Decidable (ec ≠ none ∨
      socket.isOpen = false ∨ w.app.connType = .webSocket ∧ handshake = false))
  | .readHandler _ ec => inferInstanceAs (Decidable (ec ≠ none))
  | .frame _ | .readSome _ _ | .writeSome _ _ | .writeHandler _ _ | .peerRecv _
  | .peerSendBytes _ | .peerSendMessage _ | .setStopFlag | .closeWindow =>
    inferInstanceAs (Decidable False)

/-- The peer closes the connection while a command is open. -/
def closedRun : List Event :=
  [.frame false, .acceptHandler 0 none ⟨true⟩ true, .frame true, .frame false]

theorem failures_are_final_runs :
    (∃ w, (system Int.ofNat).run (.new .customTcp) connectRun = some w ∧ w.Truthful) ∧
    ∃ w w', (system Int.ofNat).run (.new .webSocket) closedRun = some w ∧
      (system Int.ofNat).step w (.readHandler 0 (some .websocketClosed)) = some w' ∧
      w.EndedBy w' ∧ ¬w'.Truthful := by
  constructor
  · obtain ⟨w, hw⟩ := connectRun_possible .customTcp
    have hg : (system Int.ofNat).Along (fun w e => ¬w.Fails e ∧ ¬w.ReadsEmpty e)
        (.new .customTcp) connectRun := by decide
    exact ⟨w, hw, (failures_are_final.1 w (.of_run hw hg)).2.1⟩
  · have hs : ((system Int.ofNat).run (.new .webSocket) closedRun).any (fun w =>
        ((system Int.ofNat).step w (.readHandler 0 (some .websocketClosed))).isSome = true) =
          true := by decide
    obtain ⟨w, hw, hp⟩ := (Option.any_eq_true _ _).1 hs
    obtain ⟨w', hw'⟩ := Option.isSome_iff_exists.1 (of_decide_eq_true hp)
    obtain ⟨_, _, hend⟩ := failures_are_final.2 w _ w' (Machine.reach_of_run hw) hw'
    have hn : ¬w.HandshakeFails (.readHandler 0 (some .websocketClosed)) := by
      rintro ⟨_, _, _, he, _⟩
      cases he
    obtain ⟨he, ht⟩ := hend (by simp [System.Fails]) hn w' .refl
    exact ⟨w, w', hw, hw', he, ht⟩

/-- A failed handshake aborts, and after a failed read the window goes on showing a
connection, with its button disabled, that nobody reads from. -/
theorem closedRun_untruthful :
    (∃ w, (system Int.ofNat).run (.new .webSocket)
        [.frame false, .acceptHandler 0 none ⟨true⟩ false] = some w ∧ w.fault = some .abort) ∧
    ∃ w, (system Int.ofNat).run (.new .webSocket)
        (closedRun ++ [.readHandler 0 (some .websocketClosed), .frame true]) = some w ∧
      w.halted = false ∧ w.app.isSendingBlinkCommand = true ∧ ¬w.ShowsWaiting ∧
      ¬w.Truthful := by
  constructor
  · have hs : ((system Int.ofNat).run (.new .webSocket)
        [.frame false, .acceptHandler 0 none ⟨true⟩ false]).any (fun w =>
          w.fault = some .abort) = true := by decide
    obtain ⟨w, hw, hp⟩ := (Option.any_eq_true _ _).1 hs
    exact ⟨w, hw, of_decide_eq_true hp⟩
  · have hs : ((system Int.ofNat).run (.new .webSocket)
        (closedRun ++ [.readHandler 0 (some .websocketClosed), .frame true])).any (fun w =>
          w.halted = false ∧ w.app.isSendingBlinkCommand = true ∧ w.app.ws ≠ none ∧
            w.app.ioc.reads = [] ∧ w.app.ioResults = []) = true := by decide
    obtain ⟨w, hw, hp⟩ := (Option.any_eq_true _ _).1 hs
    obtain ⟨hh, hf, hws, hr, hi⟩ := of_decide_eq_true hp
    have hsh : ¬w.ShowsWaiting := fun hw => hws hw.1
    refine ⟨w, hw, hh, hf, hsh, fun ht => ?_⟩
    obtain ⟨⟨_, he⟩, _⟩ | he := ht.connected hsh
    · cases hr.symm.trans he
    · cases hi.symm.trans he

end

end TeleopLedBenchmarks
