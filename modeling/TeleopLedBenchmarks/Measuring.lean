import TeleopLedBenchmarks.Accounting
import TeleopLedBenchmarks.ReadLoop

namespace TeleopLedBenchmarks
set_option autoImplicit true

/-- Where the history ends and a message is processed next: a command is open, and the
handler that queued this message ran after the command was sent. -/
def Outstanding (history : List Action) (before : Measurement) : Prop :=
  before.isSendingBlinkCommand = true ∧
    (sends history).getLast? = some before.timeSendBlinkCommand ∧
    ∃ earlier content later, history = earlier ++ .queueMessage content :: later ∧
      (queued earlier).length = (processed history).length ∧ sends later = []

/-- Every processed message answers the open command or leaves the measurement alone. -/
def MeasuresReplies (history : List Action) : Prop :=
  ∀ past content now before after,
    past ++ [.processMessage content now before after] <+: history →
      Outstanding past before ∨ after = before

namespace MeasuresReplies

theorem nil : MeasuresReplies [] := by
  intro past content now before after h
  have hl := h.length_le
  rw [List.length_append] at hl
  cases hl

theorem snoc (h : MeasuresReplies l) (ha : ∀ content now before after,
    a = .processMessage content now before after → Outstanding l before ∨ after = before) :
    MeasuresReplies (l ++ [a]) := by
  intro past content now before after hp
  obtain he | hp := List.prefix_concat_iff.1 hp
  · obtain ⟨rfl, ha'⟩ := List.append_inj' he rfl
    exact ha content now before after (List.cons.inj ha').1.symm
  · exact h past content now before after hp

theorem append (h : MeasuresReplies l) (hp : processed m = []) : MeasuresReplies (l ++ m) := by
  induction m generalizing l with
  | nil =>
    rw [List.append_nil]
    exact h
  | cons a m ih =>
    rw [List.append_cons]
    cases a with
    | processMessage => cases hp
    | _ =>
      apply ih _ hp
      apply h.snoc
      intro content now before after he
      cases he

theorem closed (h : MeasuresReplies l) (hm : .processMessage content now before after ∈ l)
    (hf : before.isSendingBlinkCommand = false) : after = before := by
  obtain ⟨past, rest, rfl⟩ := List.append_of_mem hm
  rw [List.append_cons] at h
  obtain ho | he := h past content now before after (List.prefix_append _ _)
  · cases ho.1.symm.trans hf
  · exact he

end MeasuresReplies

theorem not_outstanding_of_sent (l : List Action) (before : Measurement) :
    ¬Outstanding (l ++ [.sendCommand conn wasSending t]) before := by
  rintro ⟨_, _, earlier, content, later, he, _, hs⟩
  obtain rfl | ⟨later, a, rfl⟩ := List.eq_nil_or_concat later
  · have hl := List.append_inj_right' he rfl
    cases hl
  · rw [List.concat_eq_append, ← List.cons_append, ← List.append_assoc] at he
    have hl := List.append_inj_right' he rfl
    cases hl
    rw [List.concat_eq_append, sends_append] at hs
    exact List.append_ne_nil_of_right_ne_nil _ (List.cons_ne_nil _ _) hs

namespace System
variable {clock : Nat → Time} {w w' : System}

/-- The event completes a read that has stored a message. -/
def CompletesMessage (w : System) (e : Event) : Prop :=
  ∃ i op, e = .readHandler i none ∧ w.app.ioc.reads[i]? = some op ∧ op.got ≠ 0

/-- A message completes only while a command is open. -/
def Awaited (w : System) (e : Event) : Prop :=
  w.CompletesMessage e → w.app.isSendingBlinkCommand = true

/-- A message that waits was queued last, while a command was open. -/
def Expected (w : System) : Prop :=
  w.MessageWaits → w.app.isSendingBlinkCommand = true ∧
    ∃ earlier content, w.app.history = earlier ++ [.queueMessage content]

theorem Ok.messageWaits_iff (h : w.Ok slot) : w.MessageWaits ↔ ∃ sock, slot = .message sock := by
  rw [MessageWaits, h.atSlot.ioResults]
  cases slot with
  | message sock => exact ⟨fun _ => ⟨sock, rfl⟩, fun _ => rfl⟩
  | connected sock =>
    constructor
    · intro he
      cases hc : w.app.connType with
      | webSocket | customTcp =>
        rw [hc] at he
        cases he
    · rintro ⟨_, he⟩
      cases he
  | cancelled =>
    constructor
    · intro he
      cases hc : w.app.connType with
      | webSocket | customTcp =>
        rw [hc] at he
        cases he
    · rintro ⟨_, he⟩
      cases he
  | accepting | reading | idle =>
    constructor
    · intro he
      cases he
    · rintro ⟨_, he⟩
      cases he

theorem Ok.completesMessage (h : w.Ok slot) (hm : w.CompletesMessage e)
    (hs : (system clock).step w e = some w') : ∃ sock, w'.Ok (.message sock) ∧
      w'.app = (w.app.setSlot (.message sock)).record (.queueMessage w.app.content) := by
  obtain ⟨i, op, rfl, hi, hg⟩ := hm
  obtain ⟨_, sock, got, rfl, hr, hc⟩ := readHandler_cases h hs
  rw [hr] at hi
  cases hi
  have hok := h.setSlot (k := .message sock) rfl
  obtain ⟨he, _⟩ | ⟨_, _, _, rfl⟩ | ⟨_, _, _, _, ⟨hz, _⟩ | ⟨_, rfl⟩⟩ := hc
  · exact (he rfl).elim
  · exact ⟨sock, hok.congr rfl, rfl⟩
  · exact (hg hz).elim
  · exact ⟨sock, hok.congr rfl, rfl⟩

theorem Framed.messageWaits_step (hf : w.Framed slot) (h : w.Ok slot)
    (hs : (system clock).step w e = some w') (hm : w'.MessageWaits) :
    w.MessageWaits ∧ w.Quiet w' ∨ w.CompletesMessage e := by
  obtain ⟨_, _, _, _, _, hw⟩ | ⟨hq, slot', hw, ht, _⟩ := h.step_cases hs
  · obtain ⟨sock, he⟩ := hw.messageWaits_iff.1 hm
    cases slot <;> cases he
  · obtain ⟨sock, rfl⟩ := hw.messageWaits_iff.1 hm
    rw [h.messageWaits_iff]
    generalize hk : Slot.message sock = k at ht
    cases ht with
    | frame => cases slot <;> cases hk
    | accept => cases congrArg Slot.sock hk.symm ▸ Slot.accepted_sock _ _
    | abort | readSome | readError | readEmpty => cases hk
    | @readDone sk got i =>
      right
      obtain ⟨_, _, _, hslot, hr, hc⟩ := readHandler_cases h hs
      cases hslot
      refine ⟨i, _, rfl, hr, ?_⟩
      obtain ⟨he, _⟩ | ⟨_, ht, hg, _⟩ | ⟨_, _, _, _, ⟨_, rfl⟩ | ⟨hg, _⟩⟩ := hc
      · exact (he rfl).elim
      · have hl : expectedMsg.length ≠ 0 := by decide
        rw [hg, (hf.tcp ht).length]
        exact hl
      · cases hm
      · exact hg
    | _ => exact .inl ⟨⟨sock, hk.symm⟩, hq⟩

theorem Expected.step (hx : w.Expected) (hf : w.Framed slot) (h : w.Ok slot)
    (hg : w.Awaited e) (hs : (system clock).step w e = some w') : w'.Expected := by
  intro hm
  obtain ⟨hm, hq⟩ | hc := hf.messageWaits_step h hs hm
  · obtain ⟨hflag, earlier, content, hh⟩ := hx hm
    have hflag' : w'.app.isSendingBlinkCommand = w.app.isSendingBlinkCommand :=
      congrArg Measurement.isSendingBlinkCommand hq.measurement
    obtain he | ⟨hr, _⟩ := hq.history
    · rw [hflag', he]
      exact ⟨hflag, earlier, content, hh⟩
    · obtain ⟨sock, rfl⟩ := h.messageWaits_iff.1 hm
      exact (hr h.atSlot.reads).elim
  · obtain ⟨sock, _, he⟩ := h.completesMessage hc hs
    rw [he]
    exact ⟨hg hc, _, _, rfl⟩

theorem reach_expected (h : (system clock).Reach Awaited (.new c) w) : w.Expected := by
  apply h.invariant (I := Expected)
  · intro hm
    cases c <;> cases hm
  · intro s e s' hr hx hg hs
    obtain ⟨slot, hw, hf⟩ := reach_framed hr
    exact hx.step hf hw hg hs

theorem Expected.outstanding (hx : w.Expected) (hf : w.Framed (.message sock))
    (hm : w.MessageWaits) (ht : w.app.Timed) : Outstanding w.app.history w.app.measurement := by
  obtain ⟨hflag, earlier, content, hh⟩ := hx hm
  refine ⟨hflag, ht hflag, earlier, content, [], hh, ?_, rfl⟩
  have hq := congrArg List.length hf.queue
  rw [hh, queued_append, List.length_append] at hq
  rw [hh]
  simp only [AppState.waiting, List.length_append, List.length_cons, List.length_nil] at hq
  exact Nat.add_right_cancel hq

theorem processed_sentActions (s : AppState) : processed (s.sentActions clock) = [] := by
  unfold AppState.sentActions
  split <;> rfl

theorem measuresReplies_ran {s : AppState} (h : MeasuresReplies s.history)
    (ho : ∀ sock, slot = .message sock → s.uiEventsToProcess = [] ∧
      Outstanding s.history s.measurement) (clicked : Bool) :
    MeasuresReplies (s.ran clock slot clicked).history := by
  rw [AppState.ran_history]
  cases slot with
  | message sock =>
    obtain ⟨hu, ho⟩ := ho sock rfl
    have hsent : s.sentActions clock = [] := by rw [AppState.sentActions, hu]
    have hq : s.sendQueued clock = s := by rw [AppState.sendQueued, hu]
    rw [hsent, hq, List.nil_append, ← List.append_assoc]
    apply MeasuresReplies.append _ rfl
    apply h.snoc
    intro content now before after he
    cases he
    exact .inl ho
  | _ =>
    apply h.append
    rw [processed_append, processed_sentActions]
    rfl

theorem reach_measuresReplies (h : (system clock).Reach Awaited (.new c) w) :
    MeasuresReplies w.app.history := by
  apply h.invariant (I := fun w => MeasuresReplies w.app.history) .nil
  intro s e s' hr hm _ hs
  obtain ⟨slot, hw, hf⟩ := reach_framed hr
  obtain ⟨clicked, n, _, _, rfl, _⟩ | ⟨hq, _⟩ := hw.step_cases hs
  · apply measuresReplies_ran (s := s.app.withPosted n) hm
    rintro sock rfl
    have hx := reach_expected hr
    have hwaits := hw.messageWaits_iff.2 ⟨sock, rfl⟩
    constructor
    · obtain hu | ⟨_, hflag, _⟩ := hw.click
      · exact hu
      · cases hflag.symm.trans (hx hwaits).1
    · exact hx.outstanding hf hwaits (reach_timed hr)
  · obtain hh | ⟨_, hh⟩ := hq.history
    · rw [hh]
      exact hm
    · rw [hh]
      exact hm.append rfl

/-- A message that completed while no command was open breaks the rule in the next frame,
unless the value it assigns happens to be the one already there. -/
theorem Ok.unawaited (h : w.Ok slot) (hc : w.CompletesMessage e)
    (hflag : w.app.isSendingBlinkCommand = false)
    (hs : (system clock).step w e = some w') (hn : w'.stopping = false)
    (hf : (system clock).step w' (.frame clicked) = some w'')
    (hm : MeasuresReplies w''.app.history) : w.app.uiEventsToProcess = [] ∧
      .ofTicks (clock w.app.readings - w.app.timeSendBlinkCommand) = w.app.blinkLatency := by
  obtain ⟨sock, hw, he⟩ := h.completesMessage hc hs
  obtain ⟨_, n, ⟨hstop, _⟩ | ⟨_, rfl⟩⟩ := frame_cases hw hf
  · cases hn.symm.trans hstop
  · generalize hsn : w'.app.withPosted n = s at *
    have hu : s.uiEventsToProcess = w.app.uiEventsToProcess := by rw [← hsn, he]; rfl
    have hme : s.measurement = w.app.measurement := by rw [← hsn, he]; rfl
    have hre : s.readings = w.app.readings := by rw [← hsn, he]; rfl
    simp only [AppState.ran_history, AppState.settledActions] at hm
    have hr := hm (s.history ++ s.sentActions clock) _ _ _ _ ⟨_, by
      simp only [List.append_assoc]
      rfl⟩
    rw [← hu, ← hre]
    simp only [AppState.measurement, Measurement.mk.injEq] at hme
    obtain ⟨hfl, htime, hlat⟩ := hme
    rw [← htime, ← hlat]
    rw [hflag] at hfl
    obtain ⟨hnil, hq⟩ | ⟨hne, hq⟩ := s.sendQueued_cases clock
    · rw [hq] at hr
      obtain ho | ha := hr
      · cases hfl.symm.trans ho.1
      · simp only [AppState.measurement, Measurement.mk.injEq] at ha
        exact ⟨hnil, ha.2.2⟩
    · rw [hq] at hr
      obtain ⟨a, l, hl⟩ := List.exists_cons_of_ne_nil hne
      rw [AppState.sentActions, hl] at hr
      obtain ho | ha := hr
      · exact (not_outstanding_of_sent _ _ ho).elim
      · simp only [AppState.measurement, Measurement.mk.injEq] at ha
        cases ha.1

end System

section
variable {clock : Nat → Time}

/-- The measurement is right in every run whose messages all complete while a command is open.
A message that completes while none is open breaks it in the next frame, but for a clock that
happens to give the latency already shown. -/
theorem measures_replies_when_awaited :
    (∀ w, (system clock).Reach System.Awaited (.new c) w → MeasuresReplies w.app.history) ∧
      ∀ w e w' clicked w'', (system clock).Reach Machine.Free (.new c) w →
        ¬w.Awaited e → (system clock).step w e = some w' → w'.stopping = false →
        (system clock).step w' (.frame clicked) = some w'' →
        (w.app.uiEventsToProcess ≠ [] ∨
          .ofTicks (clock w.app.readings - w.app.timeSendBlinkCommand) ≠ w.app.blinkLatency) →
        ¬MeasuresReplies w''.app.history := by
  constructor
  · intro w h
    exact System.reach_measuresReplies h
  · intro w e w' clicked w'' h ha hs hn hf hne hm
    obtain ⟨slot, hw⟩ := System.reach_ok h
    obtain ⟨hc, hflag⟩ := Classical.not_imp.1 ha
    obtain ⟨hu, hl⟩ := hw.unawaited hc (Bool.eq_false_of_not_eq_true hflag) hs hn hf hm
    obtain hne | hne := hne
    · exact hne hu
    · exact hne hl

instance (w : System) (e : Event) : Decidable (w.CompletesMessage e) :=
  match e with
  | .readHandler i none =>
    decidable_of_iff (∃ op ∈ w.app.ioc.reads[i]?, op.got ≠ 0)
      ⟨fun ⟨op, ho, hg⟩ => ⟨i, op, rfl, ho, hg⟩, fun ⟨_, op, he, ho, hg⟩ => by
        cases he
        exact ⟨op, ho, hg⟩⟩
  | .readHandler i (some _) => isFalse fun ⟨_, _, he, _⟩ => by cases he
  | .frame _ | .acceptHandler _ _ _ _ | .readSome _ _ | .writeSome _ _ | .writeHandler _ _
  | .peerRecv _ | .peerSendBytes _ | .peerSendMessage _ | .setStopFlag | .closeWindow =>
    isFalse fun ⟨_, _, he, _⟩ => by cases he

instance (w : System) (e : Event) : Decidable (w.Awaited e) :=
  inferInstanceAs (Decidable (w.CompletesMessage e → w.app.isSendingBlinkCommand = true))

/-- The peer sends a message before the first click. -/
def unsolicitedRun : List Event :=
  connectRun ++ [.peerSendMessage expectedMsg, .readSome 0 8]

/-- A clock that is read for the first time one second after its epoch. -/
def lateClock (n : Nat) : Time := 1000000 * (1000 + n)

theorem measures_replies_when_awaited_runs :
    (∃ w, (system Int.ofNat).run (.new .customTcp) replyRun = some w ∧
      MeasuresReplies w.app.history) ∧
    ∃ w w' w'', (system lateClock).run (.new .webSocket) unsolicitedRun = some w ∧
      (system lateClock).step w (.readHandler 0 none) = some w' ∧
      (system lateClock).step w' (.frame false) = some w'' ∧
      ¬MeasuresReplies w''.app.history := by
  constructor
  · obtain ⟨w, hw⟩ : ∃ w, (system Int.ofNat).run (.new .customTcp) replyRun = some w :=
      Option.isSome_iff_exists.1 (by decide)
    have hg : (system Int.ofNat).Along System.Awaited (.new .customTcp) replyRun := by decide
    exact ⟨w, hw, measures_replies_when_awaited.1 w (.of_run hw hg)⟩
  · have hs : ((system lateClock).run (.new .webSocket) unsolicitedRun).any (fun w =>
        (¬w.Awaited (.readHandler 0 none) ∧
          .ofTicks (lateClock w.app.readings - w.app.timeSendBlinkCommand) ≠
            w.app.blinkLatency) ∧
        ((system lateClock).step w (.readHandler 0 none)).any (fun w' =>
          w'.stopping = false ∧
            ((system lateClock).step w' (.frame false)).isSome = true) = true) =
        true := by decide +kernel
    obtain ⟨w, hw, hp⟩ := (Option.any_eq_true _ _).1 hs
    obtain ⟨⟨ha, hne⟩, hs⟩ := of_decide_eq_true hp
    obtain ⟨w', hw', hp⟩ := (Option.any_eq_true _ _).1 hs
    obtain ⟨hn, hs⟩ := of_decide_eq_true hp
    obtain ⟨w'', hw''⟩ := Option.isSome_iff_exists.1 hs
    exact ⟨w, w', w'', hw, hw', hw'', measures_replies_when_awaited.2 w _ w' false w''
      (Machine.reach_of_run hw) ha hw' hn hw'' (.inr hne)⟩

/-- A latency is assigned although no command was ever sent: the time since the clock's
epoch. -/
theorem unsolicitedRun_measured :
    ∃ w, (system lateClock).run (.new .webSocket)
        (unsolicitedRun ++ [.readHandler 0 none, .frame false]) = some w ∧
      sends w.app.history = [] ∧ w.app.blinkLatency = 1000 ∧
      ¬MeasuresReplies w.app.history := by
  have hs : ((system lateClock).run (.new .webSocket)
      (unsolicitedRun ++ [.readHandler 0 none, .frame false])).any (fun w =>
        sends w.app.history = [] ∧ w.app.blinkLatency = 1000 ∧
          .processMessage expectedMsg 1000000000 ⟨false, 0, 0⟩ ⟨false, 0, 1000⟩ ∈ w.app.history) =
      true := by decide +kernel
  obtain ⟨w, hw, hp⟩ := (Option.any_eq_true _ _).1 hs
  obtain ⟨hnone, hl, hm⟩ := of_decide_eq_true hp
  refine ⟨w, hw, hnone, hl, ?_⟩
  intro h
  cases h.closed hm rfl

end

end TeleopLedBenchmarks
