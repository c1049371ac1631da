import TeleopLedBenchmarks.Measuring

namespace TeleopLedBenchmarks
set_option autoImplicit true

namespace System
variable {clock : Nat → Time} {w w' : System}

/-- A frame that is not stopped finds a message, and a write is outstanding or about to
start. -/
def AnsweredEarly (w : System) (e : Event) : Prop :=
  ∃ clicked, e = .frame clicked ∧ w.stopping = false ∧ w.MessageWaits ∧
    (w.app.ioc.writes ≠ [] ∨ w.app.uiEventsToProcess ≠ [])

/-- A write is outstanding only for the open command, and not while a click waits. -/
structure OneWrite (w : System) : Prop where
  length : w.app.ioc.writes.length ≤ 1
  sending : w.app.ioc.writes ≠ [] → w.app.isSendingBlinkCommand = true
  click : w.app.uiEventsToProcess ≠ [] → w.app.ioc.writes = []

theorem OneWrite.new (c : ConnectionType) : (System.new c).OneWrite := by
  cases c with
  | webSocket | customTcp =>
    constructor
    · exact Nat.zero_le _
    · intro h
      exact (h rfl).elim
    · intro _
      rfl

theorem length_sendQueued_writes (s : AppState) :
    (s.sendQueued clock).ioc.writes.length =
      s.ioc.writes.length + if s.uiEventsToProcess = [] then 0 else 1 := by
  obtain ⟨hu, he⟩ | ⟨hu, he⟩ := s.sendQueued_cases clock
  · rw [he, if_pos hu]
    rfl
  · rw [he, if_neg hu]
    exact List.length_append

theorem settle_sending {s : AppState} (hs : ∀ sock, slot ≠ .message sock) :
    (s.settle clock slot).isSendingBlinkCommand = s.isSendingBlinkCommand := by
  cases slot with
  | message sock => exact (hs sock rfl).elim
  | _ => rfl

theorem ran_sending_eq (s : AppState) (slot : Slot) (clicked : Bool) :
    (s.ran clock slot clicked).isSendingBlinkCommand =
      ((s.sendQueued clock).settle clock slot).isSendingBlinkCommand := rfl

theorem ran_registered (s : AppState) (slot : Slot) (clicked : Bool)
    (hu : (s.ran clock slot clicked).uiEventsToProcess ≠ []) :
    (s.ran clock slot clicked).isSendingBlinkCommand = false := by
  have hk : (s.ran clock slot clicked).ClickOk slot.frame := AppState.ran_clickOk _ _ _
  obtain hn | ⟨_, hf, _⟩ := hk
  · exact (hu hn).elim
  · exact hf

theorem OneWrite.ran (h : w.OneWrite)
    (hg : ∀ sock, slot = .message sock →
      w.app.ioc.writes = [] ∧ w.app.uiEventsToProcess = []) (clicked : Bool) :
    System.OneWrite { w with app := w.app.ran clock slot clicked, started := true } := by
  have hwrites := AppState.ran_writes clock w.app slot clicked
  have hsend : (w.app.sendQueued clock).ioc.writes ≠ [] →
      (w.app.ran clock slot clicked).isSendingBlinkCommand = true := by
    intro hne
    have hm : ∀ sock, slot ≠ .message sock := by
      rintro sock rfl
      obtain ⟨hnil, hu⟩ := hg sock rfl
      rw [AppState.sendQueued, hu] at hne
      exact hne hnil
    rw [ran_sending_eq, settle_sending hm]
    obtain ⟨_, he⟩ | ⟨_, he⟩ := w.app.sendQueued_cases clock
    · rw [he] at hne ⊢
      exact h.sending hne
    · rw [he]
      rfl
  constructor
  · simp only [hwrites, length_sendQueued_writes]
    have hlen := h.length
    split
    · exact hlen
    · next hu =>
      rw [h.click hu]
      exact Nat.le_refl 1
  · simp only [hwrites]
    exact hsend
  · intro hu
    simp only [hwrites]
    have hf := ran_registered _ _ _ hu
    by_contra hne
    cases hf.symm.trans (hsend hne)

theorem Quiet.oneWrite (hq : w.Quiet w') (h : w.OneWrite)
    (hl : w'.app.ioc.writes.length ≤ w.app.ioc.writes.length) : w'.OneWrite := by
  have hf : w'.app.isSendingBlinkCommand = w.app.isSendingBlinkCommand :=
    congrArg Measurement.isSendingBlinkCommand hq.measurement
  have hnil : w.app.ioc.writes = [] → w'.app.ioc.writes = [] := by
    intro he
    rw [he] at hl
    exact List.length_eq_zero_iff.1 (Nat.le_zero.1 hl)
  constructor
  · exact hl.trans h.length
  · intro hne
    rw [hf]
    apply h.sending
    intro he
    exact hne (hnil he)
  · intro hu
    rw [hq.uiEvents] at hu
    exact hnil (h.click hu)

theorem Ok.writes_le (h : w.Ok slot) (hs : (system clock).step w e = some w')
    (hq : w.Quiet w') : w'.app.ioc.writes.length ≤ w.app.ioc.writes.length := by
  obtain he | hp := h.step_pipe hs
  · have hl := congrArg (fun p => p.writes.length) he
    simp only [pipe, List.length_map] at hl
    exact hl.le
  · have hst : w'.pipe.started = w.pipe.started := congrArg List.length hq.sends
    have hl := hp.writes_le hst
    simp only [pipe, List.length_map] at hl
    exact hl

theorem OneWrite.step (h : w.OneWrite) (hw : w.Ok slot) (hg : ¬w.AnsweredEarly e)
    (hs : (system clock).step w e = some w') : w'.OneWrite := by
  obtain ⟨clicked, n, rfl, hn, rfl, _⟩ | ⟨hq, _⟩ := hw.step_cases hs
  · have h' : System.OneWrite { w with app := w.app.withPosted n } :=
      ⟨h.length, h.sending, h.click⟩
    apply h'.ran
    rintro sock rfl
    have hm := hw.messageWaits_iff.2 ⟨sock, rfl⟩
    constructor
    · by_contra hne
      exact hg ⟨clicked, rfl, hn, hm, .inl hne⟩
    · by_contra hne
      exact hg ⟨clicked, rfl, hn, hm, .inr hne⟩
  · exact hq.oneWrite h (hw.writes_le hs hq)

theorem reach_oneWrite
    (h : (system clock).Reach (fun w e => ¬w.AnsweredEarly e) (.new c) w) : w.OneWrite := by
  apply h.invariant (I := OneWrite) (.new c)
  intro s e s' hr ho hg hs
  obtain ⟨slot, hw⟩ := reach_ok hr
  exact ho.step hw hg hs

theorem takeFrame_ran (clock : Nat → Time) (h : w.halted = false) (s : AppState) (slot : Slot)
    (clicked : Bool)
    (hs : s.ioc.stopped = w.app.ioc.stopped) :
    ∃ t, System.takeFrame { w with app := s.ran clock slot clicked, started := true } =
      some t := by
  obtain ⟨hstop, hp⟩ := AppState.ran_ioc clock s slot clicked
  have hh : System.halted { w with app := s.ran clock slot clicked, started := true } =
      false := by
    simp only [halted, hstop, hs]
    exact h
  simp only [takeFrame, hh, hp]
  exact ⟨_, rfl⟩

/-- After a message was processed during a write, one click and the next frame start a
second write. -/
theorem Ok.answeredEarly (h : w.Ok slot) (ha : w.AnsweredEarly (.frame true))
    (hs : (system clock).step w (.frame true) = some w') (clicked : Bool) :
    ∃ w'', (system clock).step w' (.frame clicked) = some w'' ∧
      2 ≤ w''.app.ioc.writes.length := by
  obtain ⟨_, _, hn, hm, hw⟩ := ha
  obtain ⟨sock, rfl⟩ := h.messageWaits_iff.1 hm
  obtain ⟨hh, n, ⟨hstop, _⟩ | ⟨_, rfl⟩⟩ := frame_cases h hs
  · cases hn.symm.trans hstop
  · obtain ⟨t, ht⟩ := takeFrame_ran clock hh (w.app.withPosted n) (.message sock) true rfl
    refine ⟨_, frame_runs clock ((h.withPosted n).ran true) ht hn clicked, ?_⟩
    obtain ⟨_, m, rfl⟩ := takeFrame_eq ht
    have hu : ((w.app.withPosted n).ran clock (.message sock) true).uiEventsToProcess =
        [⟨.sendButtonClick⟩] := AppState.ran_uiEvents clock _ _ _
    have hpos : 1 ≤ ((w.app.withPosted n).ran clock (.message sock) true).ioc.writes.length := by
      rw [AppState.ran_writes, length_sendQueued_writes]
      obtain hw | hw := hw
      · exact Nat.le_add_right_of_le (List.length_pos_iff.2 hw)
      · exact Nat.le_add_left_of_le (if_neg hw).ge
    have hq : (AppState.withPosted ((w.app.withPosted n).ran clock (.message sock) true)
        m).uiEventsToProcess ≠ [] := by
      intro he
      cases hu.symm.trans he
    simp only [AppState.ran_writes, length_sendQueued_writes, hq, ↓reduceIte]
    exact Nat.succ_le_succ hpos

end System

section
variable {clock : Nat → Time}

/-- At most one write is outstanding in every run in which no message is processed during a
write or together with a click. Where one is, the user can start a second write. -/
theorem one_write_unless_answered_early :
    (∀ w, (system clock).Reach (fun w e => ¬w.AnsweredEarly e) (.new c) w →
      w.app.ioc.writes.length ≤ 1) ∧
    ∀ w w' clicked, (system clock).Reach Machine.Free (.new c) w →
      w.AnsweredEarly (.frame true) → (system clock).step w (.frame true) = some w' →
      ∃ w'', (system clock).step w' (.frame clicked) = some w'' ∧
        2 ≤ w''.app.ioc.writes.length := by
  constructor
  · intro w h
    exact (System.reach_oneWrite h).length
  · intro w w' clicked h ha hs
    obtain ⟨slot, hw⟩ := System.reach_ok h
    exact hw.answeredEarly ha hs clicked

instance (w : System) (e : Event) : Decidable (w.AnsweredEarly e) :=
  match e with
  | .frame clicked => decidable_of_iff (w.stopping = false ∧
      w.app.ioResults = [messageResult w.app.connType] ∧
        (w.app.ioc.writes ≠ [] ∨ w.app.uiEventsToProcess ≠ []))
      ⟨fun h => ⟨clicked, rfl, h⟩, fun ⟨_, _, h⟩ => h⟩
  | .acceptHandler _ _ _ _ | .readSome _ _ | .readHandler _ _ | .writeSome _ _
  | .writeHandler _ _ | .peerRecv _ | .peerSendBytes _ | .peerSendMessage _ | .setStopFlag
  | .closeWindow => isFalse fun ⟨_, he, _⟩ => by cases he

/-- The write of the first command has not finished when a message arrives. -/
def slowWriteRun : List Event :=
  connectRun ++ [.frame true, .frame false, .writeSome 0 5, .peerSendMessage expectedMsg,
    .readSome 0 8, .readHandler 0 none]

theorem one_write_unless_answered_early_runs :
    (∃ w, (system Int.ofNat).run (.new .customTcp) replyRun = some w ∧
      w.app.ioc.writes.length ≤ 1) ∧
    ∃ w w' w'', (system Int.ofNat).run (.new .webSocket) slowWriteRun = some w ∧
      (system Int.ofNat).step w (.frame true) = some w' ∧
      (system Int.ofNat).step w' (.frame false) = some w'' ∧
      2 ≤ w''.app.ioc.writes.length := by
  constructor
  · obtain ⟨w, hw⟩ : ∃ w, (system Int.ofNat).run (.new .customTcp) replyRun = some w :=
      Option.isSome_iff_exists.1 (by decide)
    have hg : (system Int.ofNat).Along (fun w e => ¬w.AnsweredEarly e) (.new .customTcp)
        replyRun := by decide
    exact ⟨w, hw, one_write_unless_answered_early.1 w (.of_run hw hg)⟩
  · have hs : ((system Int.ofNat).run (.new .webSocket) slowWriteRun).any (fun w =>
        w.AnsweredEarly (.frame true) ∧
          ((system Int.ofNat).step w (.frame true)).isSome = true) = true := by decide
    obtain ⟨w, hw, hp⟩ := (Option.any_eq_true _ _).1 hs
    obtain ⟨ha, hs⟩ := of_decide_eq_true hp
    obtain ⟨w', hw'⟩ := Option.isSome_iff_exists.1 hs
    obtain ⟨w'', hw'', hl⟩ := one_write_unless_answered_early.2 w w' false
      (Machine.reach_of_run hw) ha hw'
    exact ⟨w, w', w'', hw, hw', hw'', hl⟩

/-- An early message enables the button, and two commands are on the stream at once. -/
theorem slowWriteRun_overlaps :
    ∃ w, (system Int.ofNat).run (.new .webSocket)
        (slowWriteRun ++ [.frame true, .frame false]) = some w ∧
      w.app.ioc.writes = [⟨.webSocket, blinkCommand.drop 5⟩, ⟨.webSocket, blinkCommand⟩] ∧
      ¬w.app.ioc.writes.length ≤ 1 := by
  have hs : ((system Int.ofNat).run (.new .webSocket)
      (slowWriteRun ++ [.frame true, .frame false])).any (fun w => w.app.ioc.writes =
        [⟨.webSocket, blinkCommand.drop 5⟩, ⟨.webSocket, blinkCommand⟩]) = true := by decide
  obtain ⟨w, hw, hp⟩ := (Option.any_eq_true _ _).1 hs
  have he := of_decide_eq_true hp
  refine ⟨w, hw, he, ?_⟩
  rw [he]
  decide

end

end TeleopLedBenchmarks
