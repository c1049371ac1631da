import TeleopLedBenchmarks.Outbound

namespace TeleopLedBenchmarks
set_option autoImplicit true

/-- An executed frame: the transports of the writes it started, and whether its `render`
registered a click. -/
structure FrameLog where
  writes : List ConnectionType
  clicked : Bool
  deriving DecidableEq, Repr

/-- The finished frames, and the writes of a frame that has not rendered yet. -/
def FrameLog.scan (p : List FrameLog × List ConnectionType) :
    Action → List FrameLog × List ConnectionType
  | .sendCommand c _ _ => (p.1, p.2 ++ [c])
  | .render clicked _ => (p.1 ++ [⟨p.2, clicked⟩], [])
  | _ => p

def frameLogs (history : List Action) : List FrameLog × List ConnectionType :=
  history.foldl FrameLog.scan ([], [])

/-- Each frame starts one write on `c` if the frame before it registered a click, and no
write otherwise. `before` is the click of the frame before the list. -/
def AnswersClicks (c : ConnectionType) (before : Bool) : List FrameLog → Prop
  | [] => True
  | f :: fs => f.writes = (bif before then [c] else []) ∧ AnswersClicks c f.clicked fs

def lastClick (before : Bool) : List FrameLog → Bool
  | [] => before
  | f :: fs => lastClick f.clicked fs

/-- The transports whose pointer was assigned, in order. -/
def assignments (history : List Action) : List ConnectionType :=
  history.filterMap fun
    | .assignStream c => some c
    | _ => none

theorem answersClicks_snoc (c : ConnectionType) (before : Bool) (fs : List FrameLog)
    (f : FrameLog) : AnswersClicks c before (fs ++ [f]) ↔
      AnswersClicks c before fs ∧
        f.writes = bif lastClick before fs then [c] else [] := by
  induction fs generalizing before with
  | nil => simp [AnswersClicks, lastClick]
  | cons g fs ih => simp only [List.cons_append, AnswersClicks, lastClick, ih, and_assoc]

theorem lastClick_snoc (before : Bool) (fs : List FrameLog) (f : FrameLog) :
    lastClick before (fs ++ [f]) = f.clicked := by
  induction fs generalizing before with
  | nil => rfl
  | cons g fs ih => exact ih _

theorem assignments_append (h l : List Action) :
    assignments (h ++ l) = assignments h ++ assignments l :=
  List.filterMap_append ..

theorem frameLogs_append (h l : List Action) :
    frameLogs (h ++ l) = l.foldl FrameLog.scan (frameLogs h) :=
  List.foldl_append ..

namespace System
variable {clock : Nat → Time} {w w' : System}

/-- The history pairs clicks and writes, and the queue holds the one click that is open. -/
def ClicksAnswered (w : System) : Prop :=
  ∃ fs, frameLogs w.app.history = (fs, []) ∧ AnswersClicks w.app.connType false fs ∧
    lastClick false fs = !w.app.uiEventsToProcess.isEmpty

theorem scan_sentActions (s : AppState) (fs : List FrameLog) :
    (s.sentActions clock).foldl FrameLog.scan (fs, []) =
      (fs, bif s.uiEventsToProcess.isEmpty then [] else [s.connType]) := by
  cases h : s.uiEventsToProcess <;> simp [AppState.sentActions, h, FrameLog.scan]

theorem scan_settledActions (s : AppState) (slot : Slot)
    (p : List FrameLog × List ConnectionType) :
    (s.settledActions clock slot).foldl FrameLog.scan p = p := by
  cases slot <;> rfl

theorem frameLogs_ran (s : AppState) (slot : Slot) (clicked : Bool)
    (h : frameLogs s.history = (fs, [])) :
    frameLogs (s.ran clock slot clicked).history =
      (fs ++ [⟨bif s.uiEventsToProcess.isEmpty then [] else [s.connType],
        !(s.ran clock slot clicked).uiEventsToProcess.isEmpty⟩], []) := by
  rw [AppState.ran_history, frameLogs_append, h, List.foldl_append, List.foldl_append,
    scan_sentActions, scan_settledActions, AppState.ran_uiEvents]
  cases hr : (s.settled clock slot).registers slot.frame.sock.isSome clicked <;> rfl

theorem ClicksAnswered.step (hk : w.ClicksAnswered) (h : w.Ok slot)
    (hs : (system clock).step w e = some w') : w'.ClicksAnswered := by
  obtain ⟨fs, hf, ha, hl⟩ := hk
  obtain ⟨clicked, n, _, _, rfl, _⟩ | ⟨hq, _⟩ := h.step_cases hs
  · refine ⟨_, frameLogs_ran _ slot clicked hf, ?_, ?_⟩
    · simp only [AppState.ran_connType]
      refine (answersClicks_snoc _ _ _ _).2 ⟨ha, ?_⟩
      rw [hl, Bool.cond_not]
      rfl
    · exact lastClick_snoc _ _ _
  · refine ⟨fs, ?_, by rw [hq.connType]; exact ha, by rw [hq.uiEvents]; exact hl⟩
    obtain hh | ⟨_, hh⟩ := hq.history
    · rw [hh, hf]
    · rw [hh, frameLogs_append, hf]
      rfl

theorem assignments_ran (s : AppState) (slot : Slot) (clicked : Bool) :
    assignments (s.ran clock slot clicked).history = assignments s.history ++
      assignments ((s.sendQueued clock).settledActions clock slot) := by
  have hsent : assignments (s.sentActions clock) = [] := by
    unfold AppState.sentActions
    split <;> rfl
  rw [AppState.ran_history, assignments_append, assignments_append, assignments_append, hsent]
  simp only [List.nil_append, List.append_cancel_left_eq]
  exact List.append_nil _

theorem assigned_frame (clock : Nat → Time) (s : AppState) (slot : Slot) :
    slot.frame.sock.toList.length =
      slot.sock.toList.length + (assignments (s.settledActions clock slot)).length := by
  cases slot <;> rfl

theorem assigned_quiet (hq : w.Quiet w') :
    assignments w'.app.history = assignments w.app.history := by
  obtain hh | ⟨_, hh⟩ := hq.history
  · rw [hh]
  · rw [hh, assignments_append]
    exact List.append_nil _

/-- The pointers have been assigned exactly when the slot has a socket. -/
def Assigned (w : System) (slot : Slot) : Prop :=
  (assignments w.app.history).length = slot.sock.toList.length

theorem Assigned.step (ha : w.Assigned slot) (h : w.Ok slot)
    (hs : (system clock).step w e = some w') : ∃ slot', w'.Ok slot' ∧ w'.Assigned slot' := by
  obtain ⟨clicked, n, _, _, rfl, hw⟩ | ⟨hq, slot', hw, _, hk⟩ := h.step_cases hs
  · refine ⟨_, hw, ?_⟩
    have hf := assigned_frame clock ((w.app.withPosted n).sendQueued clock) slot
    rw [Assigned, assignments_ran, List.length_append, hf, ← ha]
    rfl
  · exact ⟨slot', hw, by rw [Assigned, assigned_quiet hq, hk]; exact ha⟩

theorem Ok.step_fault (h : w.Ok slot) (hs : (system clock).step w e = some w')
    (hf : w.fault ≠ some .nullDereference) : w'.fault ≠ some .nullDereference := by
  obtain ⟨_, _, _, _, rfl, _⟩ | ⟨hq, _⟩ := h.step_cases hs
  · exact hf
  · obtain he | he := hq.fault
    · rw [he]
      exact hf
    · rw [he]
      simp

theorem Ok.step_pointers (h : w.Ok slot) (hs : (system clock).step w e = some w') :
    (w.app.ws ≠ none → w'.app.ws = w.app.ws) ∧
      (w.app.tcpSock ≠ none → w'.app.tcpSock = w.app.tcpSock) := by
  obtain ⟨slot', hw, ht⟩ := h.step hs
  rw [hw.atSlot.ws, hw.atSlot.tcpSock, h.step_connType hs, h.atSlot.ws, h.atSlot.tcpSock]
  cases hk : slot.sock with
  | none => simp
  | some sock => simp [ht.sock hk]

theorem Ok.frame_writes (h : w.Ok slot) (hs : (system clock).step w (.frame clicked) = some w') :
    w'.app.ioc.writes = w.app.ioc.writes ++
      if w.stopping = true ∨ w.app.uiEventsToProcess = [] then []
      else [⟨w.app.connType, blinkCommand⟩] := by
  obtain ⟨_, n, ⟨hstop, rfl⟩ | ⟨hstop, rfl⟩⟩ := frame_cases h hs
  · rw [if_pos (.inl hstop), List.append_nil]
    rfl
  · have hw := AppState.ran_writes clock (w.app.withPosted n) slot clicked
    obtain ⟨hu, he⟩ | ⟨hu, he⟩ := (w.app.withPosted n).sendQueued_cases clock
    · rw [if_pos (.inr hu), List.append_nil]
      rw [he] at hw
      exact hw
    · have hboth : ¬(w.stopping = true ∨ w.app.uiEventsToProcess = []) := by
        rintro (hs | hs)
        · cases hstop.symm.trans hs
        · exact hu hs
      rw [if_neg hboth]
      rw [he] at hw
      exact hw

theorem Ok.step_writes_le (h : w.Ok slot) (hs : (system clock).step w e = some w')
    (he : ∀ clicked, e ≠ .frame clicked) :
    w'.app.ioc.writes.length ≤ w.app.ioc.writes.length := by
  have hq := (h.frame_or_quiet hs).resolve_left fun ⟨clicked, _, hf, _⟩ => he clicked hf
  have hlen : w'.pipe.writes.length ≤ w.pipe.writes.length := by
    obtain hp | hp := h.step_pipe hs
    · rw [hp]
    · exact hp.writes_le (congrArg List.length hq.sends)
  simpa only [pipe, List.length_map] using hlen

theorem reach_clicks (h : (system clock).Reach G (.new c) w) :
    w.ClicksAnswered ∧ (∃ slot, w.Ok slot ∧ w.Assigned slot) ∧
      w.fault ≠ some .nullDereference := by
  refine h.invariant (I := fun w => w.ClicksAnswered ∧ (∃ slot, w.Ok slot ∧ w.Assigned slot) ∧
    w.fault ≠ some .nullDereference) ?_ ?_
  · exact ⟨⟨[], rfl, trivial, rfl⟩, ⟨_, .new c, rfl⟩, by simp [System.new]⟩
  · rintro s e s' _ ⟨hk, ⟨slot, hw, ha⟩, hf⟩ _ hs
    exact ⟨hk.step hw hs, ha.step hw hs, hw.step_fault hs hf⟩

end System

section
variable {clock : Nat → Time} {w : System}

/-- Clicks and commands match one to one, a frame starts one write for the click it finds and
nothing else starts one, and every pointer the program follows is set, once and for all, on the side
of `connType`. -/
theorem clicks_safe (h : (system clock).Reach Machine.Free (.new c) w) :
    w.app.uiEventsToProcess.length ≤ 1 ∧
      (∃ fs, frameLogs w.app.history = (fs, []) ∧ AnswersClicks c false fs ∧
        lastClick false fs = !w.app.uiEventsToProcess.isEmpty) ∧
      (∀ clicked w', (system clock).step w (.frame clicked) = some w' →
        w'.app.ioc.writes = w.app.ioc.writes ++
          if w.stopping = true ∨ w.app.uiEventsToProcess = [] then [] else [⟨c, blinkCommand⟩]) ∧
      (∀ e w', (system clock).step w e = some w' → (∀ clicked, e ≠ .frame clicked) →
        w'.app.ioc.writes.length ≤ w.app.ioc.writes.length) ∧
      w.fault ≠ some .nullDereference ∧
      (c = .webSocket → w.app.tcpSock = none) ∧ (c = .customTcp → w.app.ws = none) ∧
      (assignments w.app.history).length ≤ 1 ∧
      ∀ e w', (system clock).step w e = some w' →
        (w.app.ws ≠ none → w'.app.ws = w.app.ws) ∧
          (w.app.tcpSock ≠ none → w'.app.tcpSock = w.app.tcpSock) := by
  obtain ⟨hk, ⟨slot, hw, ha⟩, hf⟩ := System.reach_clicks h
  have hc := System.reach_connType h
  refine ⟨?_, ?_, ?_, fun _ _ hs he => hw.step_writes_le hs he, hf, ?_, ?_, ?_,
    fun _ _ hs => hw.step_pointers hs⟩
  · obtain hu | ⟨hu, _, _⟩ := hw.click <;> simp [hu]
  · rw [← hc]
    exact hk
  · intro clicked w' hs
    rw [← hc]
    exact hw.frame_writes hs
  · rintro rfl
    rw [hw.atSlot.tcpSock, hc]
    rfl
  · rintro rfl
    rw [hw.atSlot.ws, hc]
    rfl
  · rw [ha]
    cases slot.sock <;> simp

/-- The user clicks once the peer has connected. -/
def clickRun : List Event := connectRun ++ [.frame true, .frame false]

def clickRunLogs : List FrameLog :=
  [⟨[], false⟩, ⟨[], false⟩, ⟨[], true⟩, ⟨[.customTcp], false⟩]

theorem clicks_safe_clickRun :
    ∃ w, (system Int.ofNat).run (.new .customTcp) clickRun = some w ∧
      frameLogs w.app.history = (clickRunLogs, []) ∧
      AnswersClicks .customTcp false clickRunLogs ∧ w.app.ws = none ∧
      ∃ w', (system Int.ofNat).step w (.frame true) = some w' ∧
        w'.app.ioc.writes = [⟨.customTcp, blinkCommand⟩] := by
  have hs : ((system Int.ofNat).run (.new .customTcp) clickRun).any (fun w =>
      (frameLogs w.app.history = (clickRunLogs, []) ∧ w.app.uiEventsToProcess = [] ∧
        w.app.ioc.writes = [⟨.customTcp, blinkCommand⟩]) ∧
        ((system Int.ofNat).step w (.frame true)).isSome) = true := by decide
  obtain ⟨w, hw, hp⟩ := (Option.any_eq_true _ _).1 hs
  obtain ⟨⟨he, hu, hwrites⟩, hp⟩ := of_decide_eq_true hp
  obtain ⟨w', hw'⟩ := Option.isSome_iff_exists.1 hp
  obtain ⟨_, ⟨fs, hf, ha, _⟩, hframe, _, _, _, hws, _⟩ := clicks_safe (Machine.reach_of_run hw)
  rw [he] at hf
  cases hf
  refine ⟨w, hw, he, ha, hws rfl, w', hw', ?_⟩
  rw [hframe true w' hw', if_pos (.inr hu), List.append_nil, hwrites]

end

end TeleopLedBenchmarks
