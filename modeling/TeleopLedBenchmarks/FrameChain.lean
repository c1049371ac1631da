import TeleopLedBenchmarks.RunApp
import TeleopLedBenchmarks.Clicks

namespace TeleopLedBenchmarks
set_option autoImplicit true

namespace System
variable {clock : Nat → Time} {w w' : System}

/-- One frame is posted while the loop goes on, and none before it starts or after it stops. -/
def Chained (w : System) : Prop :=
  w.app.ioc.posted = (w.started && !w.app.ioc.stopped).toNat ∧
    (w.app.ioc.stopped = true → w.started = true)

theorem Chained.takeFrame (h : w.Chained) (ht : w.takeFrame = some s) :
    s = w.app.withPosted 0 ∧ s.ioc.stopped = false := by
  unfold System.takeFrame at ht
  cases hh : w.halted with
  | true => simp [hh] at ht
  | false =>
    have hstop : w.app.ioc.stopped = false := (Bool.or_eq_false_iff.1 hh).1
    rw [hh] at ht
    cases hst : w.started with
    | false =>
      have hp : w.app.ioc.posted = 0 := by
        rw [h.1, hst]
        rfl
      have hself : w.app.withPosted w.app.ioc.posted = w.app := rfl
      rw [hst] at ht
      cases ht
      exact ⟨by rw [← hp, hself], hstop⟩
    | true =>
      have hp : w.app.ioc.posted = 1 := by
        rw [h.1, hst, hstop]
        rfl
      rw [hst] at ht
      simp only [hp] at ht
      cases ht
      exact ⟨rfl, hstop⟩

theorem frame_stops (clock : Nat → Time) (ht : w.takeFrame = some s) (hn : w.stopping = true)
    (clicked : Bool) : w.frame clock clicked =
      some { w with app := { s with ioc := s.ioc.stop }, started := true } := by
  obtain hw | hf := Bool.or_eq_true_iff.1 hn
  · simp only [frame, ht, Option.map_some, hw, runAppLoop, ↓reduceIte, withApp]
  · cases hw : w.windowShouldClose <;>
      simp [frame, ht, hw, hf, runAppLoop, withApp]

theorem Chained.step (h : w.Chained) (hw : w.Ok slot)
    (hs : (system clock).step w e = some w') : w'.Chained := by
  cases e with
  | frame clicked =>
    obtain ⟨s, ht, _⟩ := Option.map_eq_some_iff.1 hs
    obtain ⟨rfl, hstop⟩ := h.takeFrame ht
    cases hn : w.stopping with
    | true =>
      cases (frame_stops clock ht hn clicked).symm.trans hs
      exact ⟨rfl, fun _ => rfl⟩
    | false =>
      cases (frame_runs clock hw ht hn clicked).symm.trans hs
      obtain ⟨hr, hp⟩ := AppState.ran_ioc clock (w.app.withPosted 0) slot clicked
      refine ⟨?_, fun _ => rfl⟩
      simp only [hp, hr, hstop]
      rfl
  | _ =>
    obtain ⟨hst, hp, hstop⟩ := (hw.step_untouched hs).loop (by intro _ he; cases he)
    simp only [Chained, hst, hp, hstop]
    exact h

theorem reach_chained (h : (system clock).Reach G (.new c) w) : w.Chained := by
  apply h.invariant (I := Chained)
  · cases c <;> exact ⟨rfl, nofun⟩
  · intro s e s' hr hc _ hs
    obtain ⟨slot, hw⟩ := reach_ok hr
    exact hc.step hw hs

theorem reach_flags (clock : Nat → Time) (w : System)
    (hc : w.windowShouldClose = true → c = true) (hf : w.stopFlag = true → f = true) :
    (system clock).Reach Machine.Free w { w with windowShouldClose := c, stopFlag := f } := by
  have hclose : (system clock).Reach Machine.Free w { w with windowShouldClose := c } := by
    cases c with
    | true => exact .step (e := .closeWindow) .refl trivial rfl
    | false =>
      have hw : w.windowShouldClose = false := Bool.eq_false_iff.2 fun h => by cases hc h
      rw [← hw]
      exact .refl
  cases f with
  | true => exact .step (e := .setStopFlag) hclose trivial rfl
  | false =>
    have hw : w.stopFlag = false := Bool.eq_false_iff.2 fun h => by cases hf h
    rw [← hw]
    exact hclose

end System

/-- What the frame of `w` that is executing has made of the state when it stands at a point,
and the tests it has passed. -/
def System.Progress (clock : Nat → Time) (w : System) (slot : Slot) (a : AppState) :
    FramePoint → Prop
  | .windowShouldClose => a = w.app.withPosted 0
  | .stopFlag => a = w.app.withPosted 0 ∧ w.windowShouldClose = false
  | .processUiEvents => a = w.app.withPosted 0 ∧ w.stopping = false
  | .processIOResults => a = (w.app.withPosted 0).sendQueued clock ∧ w.stopping = false
  | .render => a = (w.app.withPosted 0).settled clock slot ∧ w.stopping = false
  | .post => (∃ clicked, a = ((w.app.withPosted 0).settled clock slot).rendered
      slot.frame.sock.isSome clicked) ∧ w.stopping = false

namespace RunApp

/-- `m` is in the middle of a frame that `w` has not begun. A flag that is set behind its test
has not been set in `w`. -/
structure Behind (clock : Nat → Time) (w : System) (m : RunApp) (p : FramePoint)
    (slot : Slot) : Prop where
  ok : w.Ok slot
  take : w.takeFrame = some (w.app.withPosted 0)
  sys : m.sys = { w with
    app := m.sys.app, windowShouldClose := m.sys.windowShouldClose, stopFlag := m.sys.stopFlag }
  progress : w.Progress clock slot m.sys.app p
  window : w.windowShouldClose = true → m.sys.windowShouldClose = true
  stop : w.stopFlag = true → m.sys.stopFlag = true
  windowTest : p = .windowShouldClose → m.sys.windowShouldClose = w.windowShouldClose
  stopTest : p = .windowShouldClose ∨ p = .stopFlag → m.sys.stopFlag = w.stopFlag

/-- What each event of `runApp` needs, and what it leads to. -/
inductive StepOf (clock : Nat → Time) (m : RunApp) : RunEvent → RunApp → Prop
  | runAppLoop : m.frame = none → m.sys.takeFrame = some s → StepOf clock m .runAppLoop
      { m with sys := { m.sys with app := s }, frame := some .windowShouldClose }
  | advance : m.frame = some p → StepOf clock m (.advance clicked) (m.advance clock clicked p)
  | handler : m.frame = none → e.isHandler = true → (system clock).step m.sys e = some w →
      StepOf clock m (.handler e) { m with sys := w }
  | outside : e.isOutside = true → (system clock).step m.sys e = some w →
      StepOf clock m (.outside e) { m with sys := w }
  | runReturns : m.frame = none → m.sys.started = true →
      m.sys.app.ioc.stopped = true ∨ m.sys.app.ioc.noWork = true →
      StepOf clock m .runReturns { m with returned := true }

theorem stepOf {clock : Nat → Time} {m m' : RunApp} (hs : (runApp clock).step m e = some m') :
    StepOf clock m e m' := by
  cases e with
  | runAppLoop =>
    obtain ⟨⟨hf, _⟩, hs⟩ := Option.ite_none_right_eq_some.1 hs
    obtain ⟨s, ht, rfl⟩ := Option.map_eq_some_iff.1 hs
    exact .runAppLoop hf ht
  | advance clicked =>
    simp only [runApp] at hs
    split at hs
    · next p _ hf =>
      cases hs
      exact .advance hf
    · cases hs
  | handler e =>
    obtain ⟨⟨hf, _, he⟩, hs⟩ := Option.ite_none_right_eq_some.1 hs
    obtain ⟨w, hw, rfl⟩ := Option.map_eq_some_iff.1 hs
    exact .handler hf he hw
  | outside e =>
    obtain ⟨ho, hs⟩ := Option.ite_none_right_eq_some.1 hs
    obtain ⟨w, hw, rfl⟩ := Option.map_eq_some_iff.1 hs
    exact .outside ho hw
  | runReturns =>
    obtain ⟨⟨hf, _, hst, _, hw⟩, hs⟩ := Option.ite_none_right_eq_some.1 hs
    cases hs
    exact .runReturns hf hst hw

/-- `w` is the program between its handlers, or has yet to run the frame that `m` is in. -/
inductive Matches (clock : Nat → Time) (w : System) (m : RunApp) : Prop
  | between : m.frame = none → m.sys = w → Matches clock w m
  | within : m.frame = some p → Behind clock w m p slot → Matches clock w m

section
variable {clock : Nat → Time} {w : System} {m m' : RunApp} {p : FramePoint}

theorem Behind.leave (h : Behind clock w m p slot)
    (hs : w.frame clock clicked = some { w with app := s, started := true }) :
    ∃ w', (system clock).Reach Machine.Free w w' ∧ Matches clock w' (m.leave s) := by
  refine ⟨_, ?_, .between rfl rfl⟩
  have hsys : (m.leave s).sys = { w with
      app := s, started := true, windowShouldClose := m.sys.windowShouldClose,
      stopFlag := m.sys.stopFlag } :=
    congrArg (fun v : System => { v with app := s, started := true }) h.sys
  rw [hsys]
  have hframe : (system clock).Reach Machine.Free w { w with app := s, started := true } :=
    .step (e := .frame clicked) .refl trivial (by exact hs)
  exact hframe.trans (System.reach_flags clock _ h.window h.stop)

/-- A test that is passed, or a call that is over. -/
theorem Behind.next (h : Behind clock w m p slot) {q : FramePoint} (hw : m'.sys = { m.sys with
      app := m'.sys.app }) (hq : m'.frame = some q) (hp : w.Progress clock slot m'.sys.app q)
    (hc : q ≠ .windowShouldClose) (hf : q = .stopFlag → p = .windowShouldClose) :
    Matches clock w m' := by
  refine .within hq ⟨h.ok, h.take, ?_, hp, ?_, ?_, fun he => (hc he).elim, ?_⟩
  · rw [hw, h.sys]
  · rw [hw]
    exact h.window
  · rw [hw]
    exact h.stop
  · rintro (he | he)
    · exact (hc he).elim
    · rw [hw]
      exact h.stopTest (.inl (hf he))

theorem Behind.withNet (h : Behind clock w m p slot) (n : Network) :
    Behind clock { w with net := n } { m with sys := { m.sys with net := n } } p slot := by
  refine ⟨h.ok.congr rfl, h.take, ?_, ?_, h.window, h.stop, h.windowTest, h.stopTest⟩
  · exact congrArg (fun v : System => { v with net := n }) h.sys
  · cases p <;> exact h.progress

theorem Behind.setStopFlag (h : Behind clock w m p slot) :
    ∃ w', (system clock).Reach Machine.Free w w' ∧
      Behind clock w' { m with sys := { m.sys with stopFlag := true } } p slot := by
  have hraise : (system clock).step w .setStopFlag = some { w with stopFlag := true } := rfl
  have hsys := congrArg (fun v : System => { v with stopFlag := true }) h.sys
  cases p with
  | windowShouldClose | stopFlag =>
    exact ⟨_, .step .refl trivial hraise, h.ok.congr rfl, h.take, hsys, h.progress, h.window,
      fun _ => rfl, h.windowTest, fun _ => rfl⟩
  | _ =>
    refine ⟨w, .refl, h.ok, h.take, hsys, h.progress, h.window, fun _ => rfl, h.windowTest, ?_⟩
    rintro (he | he) <;> cases he

theorem Behind.closeWindow (h : Behind clock w m p slot) :
    ∃ w', (system clock).Reach Machine.Free w w' ∧
      Behind clock w' { m with sys := { m.sys with windowShouldClose := true } } p slot := by
  have hraise : (system clock).step w .closeWindow = some { w with windowShouldClose := true } :=
    rfl
  have hsys := congrArg (fun v : System => { v with windowShouldClose := true }) h.sys
  cases p with
  | windowShouldClose =>
    exact ⟨_, .step .refl trivial hraise, h.ok.congr rfl, h.take, hsys, h.progress,
      fun _ => rfl, h.stop, fun _ => rfl, h.stopTest⟩
  | _ =>
    refine ⟨w, .refl, h.ok, h.take, hsys, h.progress, fun _ => rfl, h.stop, ?_, h.stopTest⟩
    intro he
    cases he

theorem Behind.connType (h : Behind clock w m p slot) :
    m.sys.app.connType = w.app.connType := by
  have hp := h.progress
  cases p with
  | windowShouldClose => rw [hp]; rfl
  | stopFlag | processUiEvents => rw [hp.1]; rfl
  | processIOResults =>
    rw [hp.1]
    exact AppState.sendQueued_connType _ _
  | render =>
    rw [hp.1, AppState.settled, AppState.settle_connType]
    exact AppState.sendQueued_connType _ _
  | post =>
    obtain ⟨⟨clicked, he⟩, _⟩ := hp
    rw [he]
    exact AppState.ran_connType clock (w.app.withPosted 0) slot clicked

theorem Behind.outside (h : Behind clock w m p slot) (ho : e.isOutside = true)
    (hs : (system clock).step m.sys e = some v) :
    ∃ w', (system clock).Reach Machine.Free w w' ∧ Behind clock w' { m with sys := v } p slot := by
  have hnet : m.sys.net = w.net := by rw [h.sys]
  cases e with
  | frame | acceptHandler | readSome | readHandler | writeSome | writeHandler => cases ho
  | setStopFlag =>
    cases hs
    exact h.setStopFlag
  | closeWindow =>
    cases hs
    exact h.closeWindow
  | peerRecv n =>
    obtain ⟨hn, rfl⟩ := System.peerRecv_cases hs
    rw [hnet] at hn ⊢
    exact ⟨_, .step .refl trivial (show (system clock).step w (.peerRecv n) = _ from if_pos hn),
      h.withNet _⟩
  | peerSendBytes bytes =>
    obtain ⟨hc, rfl⟩ := System.peerSendBytes_cases hs
    rw [h.connType] at hc
    rw [hnet]
    exact ⟨_, .step .refl trivial
      (show (system clock).step w (.peerSendBytes bytes) = _ from if_pos hc), h.withNet _⟩
  | peerSendMessage msg =>
    obtain ⟨hc, rfl⟩ := System.peerSendMessage_cases hs
    rw [h.connType] at hc
    rw [hnet]
    exact ⟨_, .step .refl trivial
      (show (system clock).step w (.peerSendMessage msg) = _ from if_pos hc), h.withNet _⟩

theorem Behind.advance (h : Behind clock w m p slot) (clicked : Bool) :
    ∃ w', (system clock).Reach Machine.Free w w' ∧
      Matches clock w' (m.advance clock clicked p) := by
  have hp := h.progress
  have hat : (w.app.withPosted 0).At slot := h.ok.atSlot.congr rfl
  have hclick : (w.app.withPosted 0).ClickOk slot := h.ok.click
  cases p with
  | windowShouldClose =>
    have hwin := h.windowTest rfl
    simp only [RunApp.advance, hwin]
    cases hc : w.windowShouldClose with
    | true =>
      have hn : w.stopping = true := by rw [System.stopping, hc, Bool.true_or]
      rw [hp]
      exact h.leave (System.frame_stops clock h.take hn clicked)
    | false => exact ⟨w, .refl, h.next rfl rfl ⟨hp, hc⟩ (by decide) fun _ => rfl⟩
  | stopFlag =>
    obtain ⟨hp, hc⟩ := hp
    have hstop := h.stopTest (.inr rfl)
    simp only [RunApp.advance, hstop]
    cases hf : w.stopFlag with
    | true =>
      have hn : w.stopping = true := by rw [System.stopping, hf, Bool.or_true]
      rw [hp]
      exact h.leave (System.frame_stops clock h.take hn clicked)
    | false =>
      have hn : w.stopping = false := by rw [System.stopping, hc, hf, Bool.or_false]
      exact ⟨w, .refl, h.next rfl rfl ⟨hp, hn⟩ (by decide) (by decide)⟩
  | processUiEvents =>
    obtain ⟨hp, hn⟩ := hp
    rw [RunApp.advance, hp, processUiEvents_eq hat hclick]
    exact ⟨w, .refl, h.next rfl rfl ⟨rfl, hn⟩ (by decide) (by decide)⟩
  | processIOResults =>
    obtain ⟨hp, hn⟩ := hp
    rw [RunApp.advance, hp, processIOResults_eq (hat.sendQueued clock)]
    exact ⟨w, .refl, h.next rfl rfl ⟨rfl, hn⟩ (by decide) (by decide)⟩
  | render =>
    obtain ⟨hp, hn⟩ := hp
    rw [RunApp.advance, hp, AppState.settled, render_eq ((hat.sendQueued clock).settle clock)]
    exact ⟨w, .refl, h.next rfl rfl ⟨⟨clicked, rfl⟩, hn⟩ (by decide) (by decide)⟩
  | post =>
    obtain ⟨⟨clicked', hp⟩, hn⟩ := hp
    rw [RunApp.advance, hp]
    exact h.leave (System.frame_runs clock h.ok h.take hn clicked')

theorem Matches.sys (h : Matches clock w m) (hf : m.frame = none) : m.sys = w := by
  cases h with
  | between _ hs => exact hs
  | within hp => cases hf.symm.trans hp

theorem Matches.behind (h : Matches clock w m) (hf : m.frame = some p) :
    ∃ slot, Behind clock w m p slot := by
  cases h with
  | between hn => cases hf.symm.trans hn
  | within hp hb =>
    cases hf.symm.trans hp
    exact ⟨_, hb⟩

theorem Matches.step (h : Matches clock w m) (hr : (system clock).Reach Machine.Free (.new c) w)
    (hs : (runApp clock).step m e = some m') :
    ∃ w', (system clock).Reach Machine.Free w w' ∧ Matches clock w' m' := by
  obtain ⟨slot, hok⟩ := System.reach_ok hr
  cases stepOf hs with
  | runAppLoop hf ht =>
    cases h.sys hf
    obtain ⟨rfl, _⟩ := (System.reach_chained hr).takeFrame ht
    exact ⟨m.sys, .refl,
      .within rfl ⟨hok, ht, rfl, rfl, id, id, fun _ => rfl, fun _ => rfl⟩⟩
  | advance hf =>
    obtain ⟨slot, hb⟩ := h.behind hf
    exact hb.advance _
  | handler hf _ hv =>
    cases h.sys hf
    exact ⟨_, .step .refl trivial hv, .between hf rfl⟩
  | outside ho hv =>
    cases h with
    | between hf he =>
      cases he
      exact ⟨_, .step .refl trivial hv, .between hf rfl⟩
    | within hf hb =>
      obtain ⟨w', hr', hb'⟩ := hb.outside ho hv
      exact ⟨w', hr', .within hf hb'⟩
  | runReturns hf => exact ⟨w, .refl, .between hf (h.sys hf)⟩

/-- The program taken apart refines the one whose frames are whole. -/
theorem reach_matches (h : (runApp clock).Reach G (.new c) m) :
    ∃ w, (system clock).Reach Machine.Free (.new c) w ∧ Matches clock w m := by
  apply h.invariant (I := fun m =>
    ∃ w, (system clock).Reach Machine.Free (.new c) w ∧ Matches clock w m)
  · exact ⟨_, .refl, .between rfl rfl⟩
  · rintro m e m' _ ⟨w, hr, hm⟩ _ hs
    obtain ⟨w', hr', hm'⟩ := hm.step hr hs
    exact ⟨w', hr.trans hr', hm'⟩

theorem Behind.ioc (h : Behind clock w m p slot) :
    m.sys.app.ioc.posted = 0 ∧ m.sys.app.ioc.stopped = false := by
  obtain ⟨hh, _⟩ := System.takeFrame_eq h.take
  have hstop : w.app.ioc.stopped = false := (Bool.or_eq_false_iff.1 hh).1
  have hp := h.progress
  have hq : ((w.app.withPosted 0).sendQueued clock).ioc.posted = 0 ∧
      ((w.app.withPosted 0).sendQueued clock).ioc.stopped = false := by
    obtain ⟨_, he⟩ | ⟨_, he⟩ := (w.app.withPosted 0).sendQueued_cases clock
    · rw [he]
      exact ⟨rfl, hstop⟩
    · rw [he]
      exact ⟨rfl, hstop⟩
  have hs : ((w.app.withPosted 0).settled clock slot).ioc.posted = 0 ∧
      ((w.app.withPosted 0).settled clock slot).ioc.stopped = false := by
    cases slot <;> exact hq
  cases p with
  | windowShouldClose =>
    rw [hp]
    exact ⟨rfl, hstop⟩
  | stopFlag | processUiEvents =>
    rw [hp.1]
    exact ⟨rfl, hstop⟩
  | processIOResults =>
    rw [hp.1]
    exact hq
  | render =>
    rw [hp.1]
    exact hs
  | post =>
    obtain ⟨⟨clicked, he⟩, _⟩ := hp
    rw [he]
    exact hs

theorem handler_running (he : e.isHandler = true) (hs : (system clock).step w e = some w') :
    w.running = true := by
  cases hr : w.running with
  | true => rfl
  | false =>
    cases e with
    | frame | peerRecv | peerSendBytes | peerSendMessage | setStopFlag | closeWindow => cases he
    | acceptHandler => simp [system, System.acceptHandler, hr] at hs
    | readSome => simp [system, System.readSome, hr] at hs
    | readHandler => simp [system, System.readHandler, hr] at hs
    | writeSome => simp [system, System.writeSome, hr] at hs
    | writeHandler => simp [system, System.writeHandler, hr] at hs

theorem outside_app (ho : e.isOutside = true) (hs : (system clock).step w e = some w') :
    w'.app = w.app ∧ (w.windowShouldClose = true → w'.windowShouldClose = true) ∧
      (w.stopFlag = true → w'.stopFlag = true) := by
  cases e with
  | frame | acceptHandler | readSome | readHandler | writeSome | writeHandler => cases ho
  | peerRecv n =>
    obtain ⟨_, rfl⟩ := System.peerRecv_cases hs
    exact ⟨rfl, id, id⟩
  | peerSendBytes bytes =>
    obtain ⟨_, rfl⟩ := System.peerSendBytes_cases hs
    exact ⟨rfl, id, id⟩
  | peerSendMessage msg =>
    obtain ⟨_, rfl⟩ := System.peerSendMessage_cases hs
    exact ⟨rfl, id, id⟩
  | setStopFlag =>
    cases hs
    exact ⟨rfl, id, fun _ => rfl⟩
  | closeWindow =>
    cases hs
    exact ⟨rfl, fun _ => rfl, id⟩

theorem stopped_step (hf : m.frame = none) (hstop : m.sys.app.ioc.stopped = true)
    (hs : (runApp clock).step m e = some m') :
    (e = .runReturns ∨ ∃ ev, e = .outside ev) ∧ m'.frame = none ∧ m'.sys.app = m.sys.app := by
  have hh : m.sys.halted = true := by rw [System.halted, hstop, Bool.true_or]
  cases stepOf hs with
  | runAppLoop _ ht => simp [System.takeFrame, hh] at ht
  | advance hp => cases hf.symm.trans hp
  | handler _ he hv =>
    have hrun := handler_running he hv
    simp [System.running, hh] at hrun
  | outside ho hv => exact ⟨.inr ⟨_, rfl⟩, hf, (outside_app ho hv).1⟩
  | runReturns => exact ⟨.inl rfl, hf, rfl⟩

theorem stopped_reach (hf : m.frame = none) (hstop : m.sys.app.ioc.stopped = true)
    (h : (runApp clock).Reach G m m') : m'.frame = none ∧ m'.sys.app = m.sys.app := by
  apply h.invariant (I := fun m' => m'.frame = none ∧ m'.sys.app = m.sys.app) ⟨hf, rfl⟩
  rintro s e s' _ ⟨hn, ha⟩ _ hs
  obtain ⟨_, hn', ha'⟩ := stopped_step hn (by rw [ha]; exact hstop) hs
  exact ⟨hn', ha'.trans ha⟩

/-- A frame that began in `a` with a flag set is in front of its tests, or has stopped the
loop. -/
def Stopping (a : AppState) (m : RunApp) : Prop :=
  m.sys.app = a ∧ (m.frame = some .windowShouldClose ∧ m.sys.stopping = true ∨
      m.frame = some .stopFlag ∧ m.sys.stopFlag = true) ∨
    m.sys.app = { a with ioc := a.ioc.stop } ∧ m.frame = none

theorem Stopping.step (h : m.Stopping a) (hs : (runApp clock).step m e = some m') :
    m'.Stopping a := by
  obtain ⟨ha, ht⟩ | ⟨ha, hf⟩ := h
  · have hframe : m.frame ≠ none := by
      obtain ⟨hf, _⟩ | ⟨hf, _⟩ := ht <;> rw [hf] <;> nofun
    cases stepOf hs with
    | runAppLoop hf | handler hf | runReturns hf => exact (hframe hf).elim
    | outside ho hv =>
      obtain ⟨happ, hc, hf⟩ := outside_app ho hv
      refine .inl ⟨happ.trans ha, ?_⟩
      obtain ⟨hp, hn⟩ | ⟨hp, hn⟩ := ht
      · refine .inl ⟨hp, ?_⟩
        obtain hw | hs := Bool.or_eq_true_iff.1 hn
        · exact Bool.or_eq_true_iff.2 (.inl (hc hw))
        · exact Bool.or_eq_true_iff.2 (.inr (hf hs))
      · exact .inr ⟨hp, hf hn⟩
    | advance hp =>
      obtain ⟨hf, hn⟩ | ⟨hf, hn⟩ := ht
      · cases hp.symm.trans hf
        rw [advance]
        split
        · exact .inr ⟨by rw [← ha]; rfl, rfl⟩
        · next hw =>
          obtain hw' | hstop := Bool.or_eq_true_iff.1 hn
          · exact (hw hw').elim
          · exact .inl ⟨ha, .inr ⟨rfl, hstop⟩⟩
      · cases hp.symm.trans hf
        rw [advance, if_pos hn]
        exact .inr ⟨by rw [← ha]; rfl, rfl⟩
  · have hstop : m.sys.app.ioc.stopped = true := by
      rw [ha]
      rfl
    obtain ⟨_, hf', ha'⟩ := stopped_step hf hstop hs
    exact .inr ⟨ha'.trans ha, hf'⟩

theorem Stopping.reach (h : m.Stopping a) (hr : (runApp clock).Reach G m m') :
    m'.Stopping a := by
  apply hr.invariant (I := fun m => m.Stopping a) h
  intro s e s' _ hs _ he
  exact hs.step he

theorem reach_posted (h : (runApp clock).Reach G (.new c) m) :
    m.sys.app.ioc.stopped = false →
      m.sys.app.ioc.posted = (m.frame.isNone && m.sys.started).toNat := by
  intro hstop
  obtain ⟨w, hr, hm⟩ := reach_matches h
  cases hm with
  | between hf hs =>
    have hp := (System.reach_chained hr).1
    rw [← hs, hstop, Bool.not_false, Bool.and_true] at hp
    rw [hp, hf]
    rfl
  | within hf hb =>
    rw [hb.ioc.1, hf]
    rfl

theorem reach_frame_none (h : (runApp clock).Reach G (.new c) m)
    (hstop : m.sys.app.ioc.stopped = true) : m.frame = none := by
  obtain ⟨w, hr, hm⟩ := reach_matches h
  cases hm with
  | between hf => exact hf
  | within hf hb => cases hb.ioc.2.symm.trans hstop

theorem advance_returned (m : RunApp) (clicked : Bool) (p : FramePoint) :
    (m.advance clock clicked p).returned = m.returned := by
  have hcall : ∀ q r, (m.call q r).returned = m.returned := by
    intro q r
    cases r <;> rfl
  cases p with
  | windowShouldClose | stopFlag =>
    rw [advance]
    split <;> rfl
  | processUiEvents | processIOResults | render => exact hcall _ _
  | post => rfl

theorem reach_returned (h : (runApp clock).Reach G (.new c) m) :
    m.returned = true → m.sys.app.ioc.stopped = true := by
  apply h.invariant (I := fun m => m.returned = true → m.sys.app.ioc.stopped = true) nofun
  intro s e s' hr hi _ hs hret
  cases hb : s.returned with
  | true =>
    have hstop := hi hb
    obtain ⟨_, _, ha⟩ := stopped_step (reach_frame_none hr hstop) hstop hs
    rw [ha]
    exact hstop
  | false =>
    cases stepOf hs with
    | runReturns hf hst hw =>
      obtain hstop | hw := hw
      · exact hstop
      · by_contra hn
        have hp := reach_posted hr (Bool.eq_false_iff.2 hn)
        rw [hf, hst] at hp
        have hzero := (of_decide_eq_true hw).1
        cases hzero.symm.trans hp
    | runAppLoop | handler | outside => cases hb.symm.trans hret
    | advance =>
      rw [advance_returned] at hret
      cases hb.symm.trans hret

theorem reach_no_fault (h : (runApp clock).Reach G (.new c) m) :
    m.sys.fault ≠ some .nullDereference := by
  obtain ⟨w, hr, hm⟩ := reach_matches h
  obtain ⟨_, _, hf⟩ := System.reach_clicks hr
  cases hm with
  | between _ hs =>
    rw [hs]
    exact hf
  | within _ hb =>
    rw [hb.sys]
    exact hf

end

end RunApp

section
variable {clock : Nat → Time} {m : RunApp}

/-- Until the loop is stopped exactly one frame is posted between two handlers, and none during
one. `run()` returns only when it is stopped. A frame that begins after a flag was set runs
none of its three functions and posts nothing, and after it the state never changes again. -/
theorem frame_chain (h : (runApp clock).Reach Machine.Free (.new c) m) :
    (m.sys.app.ioc.stopped = false →
      m.sys.app.ioc.posted = (m.frame.isNone && m.sys.started).toNat) ∧
    (m.returned = true → m.sys.app.ioc.stopped = true) ∧
    (∀ m₁, m.sys.stopping = true → (runApp clock).step m .runAppLoop = some m₁ →
      ∀ m₂, (runApp clock).Reach Machine.Free m₁ m₂ → m₂.Stopping (m.sys.app.withPosted 0)) ∧
    (m.sys.app.ioc.stopped = true →
      (∀ e m', (runApp clock).step m e = some m' → e = .runReturns ∨ ∃ ev, e = .outside ev) ∧
      ∀ m', (runApp clock).Reach Machine.Free m m' → m'.sys.app = m.sys.app) ∧
    m.sys.fault ≠ some .nullDereference := by
  refine ⟨RunApp.reach_posted h, RunApp.reach_returned h, ?_, ?_, RunApp.reach_no_fault h⟩
  · intro m₁ hn hs m₂ hr
    obtain ⟨w, hw, hm⟩ := RunApp.reach_matches h
    obtain ⟨⟨hf, _⟩, hs⟩ := Option.ite_none_right_eq_some.1 hs
    obtain ⟨s, ht, rfl⟩ := Option.map_eq_some_iff.1 hs
    cases hm.sys hf
    obtain ⟨rfl, _⟩ := (System.reach_chained hw).takeFrame ht
    have hstart : RunApp.Stopping (m.sys.app.withPosted 0) { m with
        sys := { m.sys with app := m.sys.app.withPosted 0 }
        frame := some .windowShouldClose } := .inl ⟨rfl, .inl ⟨rfl, hn⟩⟩
    exact hstart.reach hr
  · intro hstop
    have hf := RunApp.reach_frame_none h hstop
    exact ⟨fun e m' hs => (RunApp.stopped_step hf hstop hs).1,
      fun m' hr => (RunApp.stopped_reach hf hstop hr).2⟩

/-- The stop flag is set in the middle of the first frame, behind both tests. -/
def stopRun : List RunEvent :=
  [.runAppLoop, .advance false, .advance false, .outside .setStopFlag, .advance false,
    .advance false, .advance false, .advance false]

theorem frame_chain_stopRun :
    ∃ m m₁, (runApp Int.ofNat).run (.new .webSocket) stopRun = some m ∧
      (runApp Int.ofNat).step m .runAppLoop = some m₁ ∧ m.sys.app.ioc.posted = 1 ∧
      m₁.Stopping (m.sys.app.withPosted 0) := by
  have hs : ((runApp Int.ofNat).run (.new .webSocket) stopRun).any (fun m =>
      (m.sys.app.ioc.stopped = false ∧ m.frame.isNone = true ∧ m.sys.started = true ∧
        m.sys.stopping = true) ∧
      ((runApp Int.ofNat).step m .runAppLoop).isSome = true) = true := by decide
  obtain ⟨m, hm, hp⟩ := (Option.any_eq_true _ _).1 hs
  obtain ⟨⟨hstop, hf, hst, hn⟩, hs⟩ := of_decide_eq_true hp
  obtain ⟨m₁, hm₁⟩ := Option.isSome_iff_exists.1 hs
  obtain ⟨hposted, _, hstopping, _⟩ := frame_chain (Machine.reach_of_run hm)
  refine ⟨m, m₁, hm, hm₁, ?_, hstopping m₁ hn hm₁ m₁ .refl⟩
  rw [hposted hstop, hf, hst]
  rfl

end

end TeleopLedBenchmarks
