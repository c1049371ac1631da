import TeleopLedBenchmarks.FrameChain

namespace TeleopLedBenchmarks
set_option autoImplicit true

/-- The flags of one state are those of another, or set in the meantime. -/
structure System.Raised (w w' : System) : Prop where
  window : w.windowShouldClose = true → w'.windowShouldClose = true
  stop : w.stopFlag = true → w'.stopFlag = true

namespace System
variable {clock : Nat → Time} {w w' : System}

theorem Raised.stopping (h : w.Raised w') (hn : w.stopping = true) : w'.stopping = true := by
  rcases Bool.or_eq_true_iff.1 hn with hw | hs
  · exact Bool.or_eq_true_iff.2 (.inl (h.window hw))
  · exact Bool.or_eq_true_iff.2 (.inr (h.stop hs))

theorem Ok.handler_flags (h : w.Ok slot) (he : e.isHandler = true)
    (hs : (system clock).step w e = some w') :
    w'.windowShouldClose = w.windowShouldClose ∧ w'.stopFlag = w.stopFlag ∧
      w'.app.ioc.stopped = w.app.ioc.stopped := by
  have hloop := ((h.step_untouched hs).loop (by rintro _ rfl; cases he)).2.2
  cases e with
  | frame | peerRecv | peerSendBytes | peerSendMessage | setStopFlag | closeWindow => cases he
  | acceptHandler i ec socket handshake =>
    obtain ⟨_, _, rfl | ⟨_, _, _, rfl⟩⟩ := acceptHandler_cases h hs
    · exact ⟨rfl, rfl, hloop⟩
    · exact ⟨rfl, rfl, hloop⟩
  | readSome i n =>
    obtain ⟨_, _, _, _, _, ⟨_, _, _, rfl⟩ | ⟨_, _, _, _, _, rfl⟩⟩ := readSome_cases h hs
    · exact ⟨rfl, rfl, hloop⟩
    · exact ⟨rfl, rfl, hloop⟩
  | readHandler i ec =>
    obtain ⟨_, _, _, _, _, hc⟩ := readHandler_cases h hs
    obtain ⟨_, rfl⟩ | ⟨_, _, _, rfl⟩ | ⟨_, _, _, _, ⟨_, rfl⟩ | ⟨_, rfl⟩⟩ := hc
    · exact ⟨rfl, rfl, hloop⟩
    · exact ⟨rfl, rfl, hloop⟩
    · exact ⟨rfl, rfl, hloop⟩
    · exact ⟨rfl, rfl, hloop⟩
  | writeSome i n =>
    obtain ⟨_, _, _, _, _, rfl⟩ := writeSome_cases hs
    exact ⟨rfl, rfl, hloop⟩
  | writeHandler i ec =>
    obtain ⟨_, _, _, _, rfl⟩ := writeHandler_cases hs
    exact ⟨rfl, rfl, hloop⟩

end System

/-- The event is a step of the frames of `runApp`, or its return. -/
def RunEvent.ofFrame : RunEvent → Bool
  | .runAppLoop => true
  | .advance _ => true
  | .runReturns => true
  | _ => false

namespace RunApp

/-- The steps of a whole frame that finds a flag set, and of the return. -/
def lastFrame (m : RunApp) : Nat := if m.sys.windowShouldClose then 3 else 4

/-- The steps from a point of a frame on, once a flag is set. -/
def pointLeft (m : RunApp) : FramePoint → Nat
  | .windowShouldClose => m.lastFrame - 1
  | .stopFlag => if m.sys.stopFlag then 2 else 5 + m.lastFrame
  | .processUiEvents => 4 + m.lastFrame
  | .processIOResults => 3 + m.lastFrame
  | .render => 2 + m.lastFrame
  | .post => 1 + m.lastFrame

/-- The steps of `runApp` up to its return, once a flag is set. -/
def left (m : RunApp) : Nat :=
  if m.returned then 0
  else match m.frame with
    | none => if m.sys.app.ioc.stopped then 1 else m.lastFrame
    | some p => m.pointLeft p

section
variable {clock : Nat → Time} {m m' : RunApp}

theorem lastFrame_le (h : m.sys.Raised m'.sys) : m'.lastFrame ≤ m.lastFrame := by
  unfold lastFrame
  split
  · split
    · exact Nat.le_refl 3
    · exact Nat.le_succ 3
  · next hw' =>
    exact Nat.le_of_eq (if_neg fun hw => hw' (h.window hw)).symm

theorem pointLeft_le (h : m.sys.Raised m'.sys) (p : FramePoint) :
    m'.pointLeft p ≤ m.pointLeft p := by
  have hlast := lastFrame_le h
  cases p with
  | windowShouldClose => exact Nat.sub_le_sub_right hlast 1
  | stopFlag =>
    simp only [pointLeft]
    split
    · split
      · exact Nat.le_refl 2
      · omega
    · next hs' =>
      rw [if_neg fun hs => hs' (h.stop hs)]
      exact Nat.add_le_add_left hlast 5
  | processUiEvents => exact Nat.add_le_add_left hlast 4
  | processIOResults => exact Nat.add_le_add_left hlast 3
  | render => exact Nat.add_le_add_left hlast 2
  | post => exact Nat.add_le_add_left hlast 1

theorem left_le (h : m.sys.Raised m'.sys) (hf : m'.frame = m.frame)
    (hr : m'.returned = m.returned) (hs : m'.sys.app.ioc.stopped = m.sys.app.ioc.stopped) :
    m'.left ≤ m.left := by
  unfold left
  rw [hr, hf, hs]
  split
  · exact Nat.le_refl 0
  · split
    · split
      · exact Nat.le_refl 1
      · exact lastFrame_le h
    · exact pointLeft_le h _

theorem lastFrame_le_four (m : RunApp) : m.lastFrame ≤ 4 := by
  unfold lastFrame
  split
  · exact Nat.le_succ 3
  · exact Nat.le_refl 4

theorem one_le_lastFrame (m : RunApp) : 1 ≤ m.lastFrame := by
  unfold lastFrame
  split
  · decide
  · decide

theorem left_le_eight (hn : m.sys.stopping = true) : m.left ≤ 8 := by
  have hlast := m.lastFrame_le_four
  unfold left
  split
  · exact Nat.zero_le 8
  · split
    · split
      · decide
      · omega
    · next p _ =>
      cases p with
      | stopFlag =>
        simp only [pointLeft]
        split
        · decide
        · next hs =>
          rcases Bool.or_eq_true_iff.1 hn with hw | hs'
          · simp only [lastFrame, if_pos hw, Nat.reduceAdd, Nat.le_refl]
          · exact absurd hs' hs
      | windowShouldClose | processUiEvents | processIOResults | render | post =>
        simp only [pointLeft]
        omega

theorem Behind.processUiEvents_ok (h : Behind clock w m .processUiEvents slot) :
    ∃ s, processUiEvents clock m.sys.app = .ok s := by
  rw [h.progress.1]
  exact ⟨_, processUiEvents_eq (h.ok.atSlot.congr rfl) h.ok.click⟩

theorem Behind.processIOResults_ok (h : Behind clock w m .processIOResults slot) :
    ∃ s, processIOResults clock m.sys.app = .ok s := by
  have hat : (w.app.withPosted 0).At slot := h.ok.atSlot.congr rfl
  rw [h.progress.1]
  exact ⟨_, processIOResults_eq (hat.sendQueued clock)⟩

theorem advance_raised (m : RunApp) (clicked : Bool) (p : FramePoint) :
    m.sys.Raised (m.advance clock clicked p).sys := by
  have hcall (q : FramePoint) (r : Except Fault AppState) : m.sys.Raised (m.call q r).sys := by
    cases r with
    | ok s => exact ⟨id, id⟩
    | error f => exact ⟨id, id⟩
  cases p with
  | windowShouldClose =>
    rw [advance]
    split
    · exact ⟨id, id⟩
    · exact ⟨id, id⟩
  | stopFlag =>
    rw [advance]
    split
    · exact ⟨id, id⟩
    · exact ⟨id, id⟩
  | processUiEvents => exact hcall _ _
  | processIOResults => exact hcall _ _
  | render => exact hcall _ _
  | post => exact ⟨id, id⟩

section
variable (hr : m.returned = false)
include hr

theorem left_at (hf : m.frame = some p) : m.left = m.pointLeft p := by
  rw [left, hr, hf]
  rfl

theorem left_between (hf : m.frame = none) (hs : m.sys.app.ioc.stopped = false) :
    m.left = m.lastFrame := by
  rw [left, hr, hf, hs]
  rfl

theorem left_stopped (hf : m.frame = none) (hs : m.sys.app.ioc.stopped = true) :
    m.left = 1 := by
  rw [left, hr, hf, hs]
  rfl

theorem left_call (q : FramePoint) (s : AppState) :
    (m.call q (.ok s)).left = m.pointLeft q := left_at (m := m.call q (.ok s)) hr rfl

theorem Behind.advance_left (h : Behind clock w m p slot) (hf : m.frame = some p)
    (hn : m.sys.stopping = true) (clicked : Bool) :
    (m.advance clock clicked p).left < m.left := by
  rw [left_at hr hf]
  cases p with
  | windowShouldClose =>
    simp only [RunApp.advance]
    split
    · next hw =>
      rw [left_stopped (by exact hr) rfl rfl, pointLeft, lastFrame, if_pos hw]
      decide
    · next hw =>
      rcases Bool.or_eq_true_iff.1 hn with hw' | hs
      · exact absurd hw' hw
      · have hlast : m.lastFrame = 4 := if_neg hw
        rw [left_at (by exact hr) rfl]
        simp only [pointLeft, if_pos hs, hlast]
        decide
  | stopFlag =>
    simp only [RunApp.advance]
    split
    · next hs =>
      rw [left_stopped (by exact hr) rfl rfl, pointLeft, if_pos hs]
      decide
    · next hs =>
      rw [left_at (by exact hr) rfl]
      simp only [pointLeft, if_neg hs]
      exact Nat.add_lt_add_right (by decide : 4 < 5) _
  | processUiEvents =>
    obtain ⟨s, hs⟩ := h.processUiEvents_ok
    rw [RunApp.advance, hs, left_call hr]
    exact Nat.add_lt_add_right (by decide : 3 < 4) _
  | processIOResults =>
    obtain ⟨s, hs⟩ := h.processIOResults_ok
    rw [RunApp.advance, hs, left_call hr]
    exact Nat.add_lt_add_right (by decide : 2 < 3) _
  | render =>
    rw [RunApp.advance, left_call hr]
    exact Nat.add_lt_add_right (by decide : 1 < 2) _
  | post =>
    have hlast : (m.advance clock clicked .post).left = m.lastFrame :=
      left_between (m := m.advance clock clicked .post) hr rfl h.ioc.2
    rw [hlast]
    exact Nat.lt_add_of_pos_left Nat.one_pos

end

theorem step_left (h : (runApp clock).Reach Machine.Free (.new c) m)
    (hn : m.sys.stopping = true) (hs : (runApp clock).step m e = some m') :
    m.sys.Raised m'.sys ∧ m'.left + e.ofFrame.toNat ≤ m.left := by
  obtain ⟨w, hw, hm⟩ := reach_matches h
  obtain ⟨slot, hok⟩ := System.reach_ok hw
  cases e with
  | runAppLoop =>
    obtain ⟨⟨hf, hr⟩, hs⟩ := Option.ite_none_right_eq_some.1 hs
    obtain ⟨s, ht, rfl⟩ := Option.map_eq_some_iff.1 hs
    obtain ⟨hh, _⟩ := System.takeFrame_eq ht
    have hstop : m.sys.app.ioc.stopped = false := (Bool.or_eq_false_iff.1 hh).1
    refine ⟨⟨id, id⟩, ?_⟩
    rw [left_between hr hf hstop, left_at (by exact hr) rfl]
    exact Nat.le_of_eq (Nat.sub_add_cancel m.one_le_lastFrame)
  | advance clicked =>
    cases stepOf hs with
    | advance hp =>
      have hr : m.returned = false := by
        by_contra hret
        have hstop := reach_returned h (Bool.not_eq_false _ ▸ hret)
        cases hp.symm.trans (reach_frame_none h hstop)
      obtain ⟨slot, hb⟩ := hm.behind hp
      exact ⟨advance_raised m clicked _, hb.advance_left hr hp hn clicked⟩
  | handler e =>
    cases stepOf hs with
    | handler hf he hv =>
      cases hm.sys hf
      obtain ⟨hwin, hstop, hloop⟩ := hok.handler_flags he hv
      have hraised : m.sys.Raised _ := ⟨fun hw => hwin.trans hw, fun hs => hstop.trans hs⟩
      exact ⟨hraised, left_le hraised rfl rfl hloop⟩
  | outside e =>
    cases stepOf hs with
    | outside ho hv =>
      obtain ⟨happ, hwin, hstop⟩ := outside_app ho hv
      have hraised : m.sys.Raised _ := ⟨hwin, hstop⟩
      exact ⟨hraised, left_le hraised rfl rfl (congrArg (fun a => a.ioc.stopped) happ)⟩
  | runReturns =>
    obtain ⟨⟨hf, hr, _⟩, hs⟩ := Option.ite_none_right_eq_some.1 hs
    cases hs
    refine ⟨⟨id, id⟩, ?_⟩
    change 1 ≤ m.left
    cases hstop : m.sys.app.ioc.stopped with
    | true => exact Nat.le_of_eq (left_stopped hr hf hstop).symm
    | false =>
      rw [left_between hr hf hstop]
      exact m.one_le_lastFrame

theorem frame_possible (h : (runApp clock).Reach Machine.Free (.new c) m)
    (hr : m.returned = false) (hf : m.sys.fault = none) :
    ∃ e, e.ofFrame = true ∧ ((runApp clock).step m e).isSome = true := by
  cases hp : m.frame with
  | some p =>
    refine ⟨.advance false, rfl, ?_⟩
    simp only [runApp, hf, hp, Option.isSome_some]
  | none =>
    obtain ⟨w, hw, hm⟩ := reach_matches h
    cases hm.sys hp
    obtain ⟨hposted, hstarted⟩ := System.reach_chained hw
    cases hstop : m.sys.app.ioc.stopped with
    | true =>
      refine ⟨.runReturns, rfl, ?_⟩
      simp [runApp, hp, hr, hf, hstop, hstarted hstop]
    | false =>
      refine ⟨.runAppLoop, rfl, ?_⟩
      have hh : m.sys.halted = false := by rw [System.halted, hstop, hf]; rfl
      cases hst : m.sys.started with
      | false => simp [runApp, hp, hr, System.takeFrame, hh, hst]
      | true =>
        rw [hst, hstop] at hposted
        simp [runApp, hp, hr, System.takeFrame, hh, hst, hposted]

end

end RunApp

def BlockingEvent.ofFrame : BlockingEvent → Bool
  | .prog e => e.ofFrame
  | _ => false

def BlockingEvent.endsAccept : BlockingEvent → Bool
  | .acceptOver _ => true
  | _ => false

namespace RunAppBlocking
variable {clock : Nat → Time} {m m' : RunAppBlocking}

theorem step_cases (hs : (runAppBlocking clock).step m e = some m') :
    (∃ e₁ p, e = .prog e₁ ∧ (m.accepting = none ∨ e₁.isOutside = true) ∧
      (runApp clock).step m.prog e₁ = some p ∧ m' = { m with prog := p }) ∨
    (∃ i socket, e = .accept i socket ∧ m.prog.sys.app.connType = .webSocket ∧
      m' = { m with accepting := some (i, socket) }) ∨
    (∃ handshake e₁ p, e = .acceptOver handshake ∧ e₁.ofFrame = false ∧
      (runApp clock).step m.prog e₁ = some p ∧ m' = ⟨p, none⟩) := by
  cases e with
  | prog e =>
    left
    obtain ⟨hg, hs⟩ := Option.ite_none_right_eq_some.1 hs
    obtain ⟨p, hp, rfl⟩ := Option.map_eq_some_iff.1 hs
    exact ⟨e, p, rfl, hg.imp_left And.left, hp, rfl⟩
  | accept i socket =>
    right; left
    obtain ⟨⟨_, hc, _⟩, hs⟩ := Option.ite_none_right_eq_some.1 hs
    cases hs
    obtain ⟨hc, _⟩ := Bool.and_eq_true_iff.1 hc
    exact ⟨i, socket, rfl, eq_of_beq hc, rfl⟩
  | acceptOver handshake =>
    right; right
    simp only [runAppBlocking] at hs
    split at hs
    · next i socket _ =>
      obtain ⟨p, hp, rfl⟩ := Option.map_eq_some_iff.1 hs
      exact ⟨handshake, _, p, rfl, rfl, hp, rfl⟩
    · cases hs

/-- Apart from the time it takes, a blocking call changes nothing. -/
theorem reach_prog (h : (runAppBlocking clock).Reach Machine.Free (.new c) m) :
    (runApp clock).Reach Machine.Free (.new c) m.prog := by
  apply h.invariant (I := fun m => (runApp clock).Reach Machine.Free (.new c) m.prog) .refl
  intro m e m' _ hi _ hs
  obtain ⟨_, p, _, _, hp, rfl⟩ | ⟨_, _, _, _, rfl⟩ | ⟨_, _, p, _, _, hp, rfl⟩ := step_cases hs
  · exact .step hi trivial hp
  · exact hi
  · exact .step hi trivial hp

theorem step_left (h : (runAppBlocking clock).Reach Machine.Free (.new c) m)
    (hn : m.prog.sys.stopping = true) (hs : (runAppBlocking clock).step m e = some m') :
    m'.prog.sys.stopping = true ∧ m'.prog.left + e.ofFrame.toNat ≤ m.prog.left := by
  have hr := reach_prog h
  obtain ⟨e₁, p, rfl, _, hp, rfl⟩ | ⟨_, _, rfl, _, rfl⟩ | ⟨_, e₁, p, rfl, he, hp, rfl⟩ :=
    step_cases hs
  · obtain ⟨hraised, hleft⟩ := RunApp.step_left hr hn hp
    exact ⟨hraised.stopping hn, hleft⟩
  · exact ⟨hn, Nat.le_refl _⟩
  · obtain ⟨hraised, hleft⟩ := RunApp.step_left hr hn hp
    rw [he] at hleft
    exact ⟨hraised.stopping hn, hleft⟩

/-- `ws->accept()` is called between two frames, on a WebSocket connection only. -/
structure Blocked (c : ConnectionType) (m : RunAppBlocking) : Prop where
  returned : m.prog.returned = false
  frame : m.prog.frame = none
  connType : c = .webSocket

theorem Blocked.of_accept (h : (runAppBlocking clock).Reach Machine.Free (.new c) m)
    (hs : (runAppBlocking clock).step m (.accept i socket) = some m') : m'.Blocked c := by
  obtain ⟨⟨_, hc, hp⟩, hs⟩ := Option.ite_none_right_eq_some.1 hs
  cases hs
  obtain ⟨p, hp⟩ := Option.isSome_iff_exists.1 hp
  obtain ⟨⟨hf, hr, _⟩, _⟩ := Option.ite_none_right_eq_some.1 hp
  obtain ⟨w, hw, hm⟩ := RunApp.reach_matches (reach_prog h)
  have hsys := hm.sys hf
  have hconn := System.reach_connType hw
  rw [← hsys] at hconn
  obtain ⟨hc, _⟩ := Bool.and_eq_true_iff.1 hc
  exact ⟨hr, hf, hconn.symm.trans (eq_of_beq hc)⟩

theorem Blocked.outside (h : m.Blocked c) (ho : e.isOutside = true)
    (hp : (runApp clock).step m.prog e = some p) :
    Blocked c { m with prog := p } ∧ e.ofFrame = false := by
  cases e with
  | runAppLoop | advance | handler | runReturns => cases ho
  | outside e =>
    obtain ⟨_, hs⟩ := Option.ite_none_right_eq_some.1 hp
    obtain ⟨w, _, rfl⟩ := Option.map_eq_some_iff.1 hs
    exact ⟨⟨h.returned, h.frame, h.connType⟩, rfl⟩

/-- Nothing but the end of `ws->accept()` moves the program while it blocks. -/
theorem Blocked.step (h : m.Blocked c) (ha : m.accepting ≠ none) (he : e.endsAccept = false)
    (hs : (runAppBlocking clock).step m e = some m') :
    m'.Blocked c ∧ m'.accepting ≠ none ∧ e.ofFrame = false := by
  obtain ⟨e₁, p, rfl, hg, hp, rfl⟩ | ⟨_, _, rfl, _, rfl⟩ | ⟨_, _, _, rfl, _⟩ := step_cases hs
  · obtain ⟨hb, hframe⟩ := h.outside (hg.resolve_left ha) hp
    exact ⟨hb, ha, hframe⟩
  · exact ⟨⟨h.returned, h.frame, h.connType⟩, Option.some_ne_none _, rfl⟩
  · cases he

theorem reach_blocked (h : (runAppBlocking clock).Reach Machine.Free (.new c) m) :
    m.accepting ≠ none → m.Blocked c := by
  apply h.invariant (I := fun m => m.accepting ≠ none → m.Blocked c) fun ha => absurd rfl ha
  intro s e s' hr hi _ hs ha'
  cases e with
  | prog e₁ =>
    obtain ⟨_, hs'⟩ := Option.ite_none_right_eq_some.1 hs
    obtain ⟨p, _, rfl⟩ := Option.map_eq_some_iff.1 hs'
    exact ((hi ha').step ha' rfl hs).1
  | accept i socket => exact .of_accept hr hs
  | acceptOver handshake =>
    obtain ⟨_, _, he, _⟩ | ⟨_, _, he, _⟩ | ⟨_, _, p, _, _, _, rfl⟩ := step_cases hs
    · cases he
    · cases he
    · exact absurd rfl ha'

theorem blocked_run (h : m.Blocked c) (ha : m.accepting ≠ none)
    (he : es.countP BlockingEvent.endsAccept = 0)
    (hr : (runAppBlocking clock).run m es = some m') :
    m'.prog.returned = false ∧ es.countP BlockingEvent.ofFrame = 0 := by
  induction es generalizing m with
  | nil =>
    cases hr
    exact ⟨h.returned, rfl⟩
  | cons e es ih =>
    obtain ⟨m₁, hs, hr⟩ := Option.bind_eq_some_iff.1 hr
    rw [List.countP_eq_zero, List.forall_mem_cons, Bool.not_eq_true] at he
    obtain ⟨hb, ha', hframe⟩ := h.step ha he.1 hs
    obtain ⟨hret, hcount⟩ := ih hb ha' (List.countP_eq_zero.2 he.2) hr
    refine ⟨hret, ?_⟩
    rw [List.countP_cons, hcount, hframe]
    rfl

theorem frame_possible (h : (runAppBlocking clock).Reach Machine.Free (.new c) m)
    (hr : m.prog.returned = false) (hf : m.prog.sys.fault = none) (ha : m.accepting = none) :
    ∃ e, e.ofFrame = true ∧ ((runAppBlocking clock).step m e).isSome = true := by
  obtain ⟨e, he, hs⟩ := RunApp.frame_possible (reach_prog h) hr hf
  have hno : e.callsAccept m.prog.sys.app.connType = false := by
    cases e with
    | handler | outside => cases he
    | runAppLoop | advance | runReturns => rfl
  refine ⟨.prog e, he, ?_⟩
  simp only [runAppBlocking, ha, hno, true_and, true_or, if_true, Option.isSome_map]
  exact hs

end RunAppBlocking

/-- Once the stop flag is set or the window closed, at most eight steps of its frames are left
until `runApp` returns, whatever handlers run and whatever the others do in between. One of them is
always possible unless the process has been aborted or `ws->accept()` is blocked: then nothing
moves before that call is over. -/
theorem run_app_returns {clock : Nat → Time} {m m' : RunAppBlocking}
    (h : (runAppBlocking clock).Reach Machine.Free (.new c) m) (hn : m.prog.sys.stopping = true)
    (hr : (runAppBlocking clock).run m es = some m') :
    es.countP BlockingEvent.ofFrame + m'.prog.left ≤ m.prog.left ∧ m.prog.left ≤ 8 ∧
      (m'.prog.returned = false → m'.prog.sys.fault = none → m'.accepting = none →
        ∃ e, e.ofFrame = true ∧ ((runAppBlocking clock).step m' e).isSome = true) ∧
      (m'.accepting ≠ none → c = .webSocket ∧
        ∀ es' m'', (runAppBlocking clock).run m' es' = some m'' →
          es'.countP BlockingEvent.endsAccept = 0 →
          m''.prog.returned = false ∧ es'.countP BlockingEvent.ofFrame = 0) := by
  have hpays := Machine.run_pays
    (I := fun m => (runAppBlocking clock).Reach Machine.Free (.new c) m ∧
      m.prog.sys.stopping = true)
    (fun m => m.prog.left) (fun e => e.ofFrame.toNat) (fun _ => 0)
    (fun s e s' hs he => ⟨.step hs.1 trivial he, (RunAppBlocking.step_left hs.1 hs.2 he).1⟩)
    (fun s e s' hs he => (RunAppBlocking.step_left hs.1 hs.2 he).2) ⟨h, hn⟩ hr
  rw [Parts.total_toNat, Parts.total_eq_zero fun _ _ => rfl] at hpays
  have h' := h.trans (Machine.reach_of_run hr)
  refine ⟨(Nat.add_comm _ _).trans_le hpays, RunApp.left_le_eight hn,
    RunAppBlocking.frame_possible h', ?_⟩
  intro ha
  have hb := RunAppBlocking.reach_blocked h' ha
  exact ⟨hb.connType, fun es' m'' hr' he => RunAppBlocking.blocked_run hb ha he hr'⟩

/-- The flag is set in the middle of a frame, and found by the next one. -/
def stoppedRun : List BlockingEvent :=
  (stopRun.drop 4).map .prog ++ [.prog .runAppLoop, .prog (.advance false),
    .prog (.advance false), .prog .runReturns]

/-- A client connects and does not say a word, and then the flag is set. -/
def silentRun : List BlockingEvent :=
  .prog .runAppLoop :: List.replicate 6 (.prog (.advance false)) ++
    [.accept 0 ⟨true⟩, .prog (.outside .setStopFlag)]

theorem run_app_returns_runs :
    (∃ m m', (runAppBlocking Int.ofNat).run (.new .webSocket) ((stopRun.take 4).map .prog) =
        some m ∧
      (runAppBlocking Int.ofNat).run m stoppedRun = some m' ∧ m'.prog.returned = true ∧
      stoppedRun.countP BlockingEvent.ofFrame + m'.prog.left ≤ m.prog.left) ∧
    ∃ m, (runAppBlocking Int.ofNat).run (.new .webSocket) silentRun = some m ∧
      m.prog.sys.stopping = true ∧
      ∀ es' m'', (runAppBlocking Int.ofNat).run m es' = some m'' →
        es'.countP BlockingEvent.endsAccept = 0 →
        m''.prog.returned = false ∧ es'.countP BlockingEvent.ofFrame = 0 := by
  constructor
  · have hs : ((runAppBlocking Int.ofNat).run (.new .webSocket)
        ((stopRun.take 4).map .prog)).any (fun m => m.prog.sys.stopping = true ∧
          ((runAppBlocking Int.ofNat).run m stoppedRun).any (fun m' => m'.prog.returned) = true) =
        true := by decide
    obtain ⟨m, hm, hp⟩ := (Option.any_eq_true _ _).1 hs
    obtain ⟨hn, hp⟩ := of_decide_eq_true hp
    obtain ⟨m', hm', hret⟩ := (Option.any_eq_true _ _).1 hp
    exact ⟨m, m', hm, hm', hret, (run_app_returns (Machine.reach_of_run hm) hn hm').1⟩
  · have hs : ((runAppBlocking Int.ofNat).run (.new .webSocket) silentRun).any (fun m =>
        m.prog.sys.stopping = true ∧ m.accepting ≠ none) = true := by decide
    obtain ⟨m, hm, hp⟩ := (Option.any_eq_true _ _).1 hs
    obtain ⟨hn, ha⟩ := of_decide_eq_true hp
    have hnil : (runAppBlocking Int.ofNat).run m [] = some m := rfl
    obtain ⟨_, _, _, hblocked⟩ := run_app_returns (Machine.reach_of_run hm) hn hnil
    exact ⟨m, hm, hn, (hblocked ha).2⟩

end TeleopLedBenchmarks
