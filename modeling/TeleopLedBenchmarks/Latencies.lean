import Mathlib.Tactic.Linarith
import TeleopLedBenchmarks.Accounting

namespace TeleopLedBenchmarks
set_option autoImplicit true

/-- Times that come in pairs: the intervals of the first `n` pairs lie one after the other. -/
theorem sum_intervals_le {f : Nat → Time} (hm : Monotone f) (n : Nat) :
    ((List.range n).map fun k => f (2 * k + 1) - f (2 * k)).sum ≤ f (2 * n - 1) - f 0 := by
  induction n with
  | zero => exact (Int.sub_self _).ge
  | succ n ih =>
    have hgap : f (2 * n - 1) ≤ f (2 * n) := hm (Nat.sub_le _ 1)
    have hlast : f (2 * (n + 1) - 1) = f (2 * n + 1) := rfl
    rw [List.range_succ, List.map_append, List.sum_append, List.map_singleton,
      List.sum_singleton, hlast]
    linarith

theorem sum_ofTicks_le {f : Nat → Time} (hm : Monotone f) (n : Nat) :
    ((List.range n).map fun k => Duration.ofTicks (f (2 * k + 1) - f (2 * k))).sum ≤
      Duration.milliseconds ((List.range n).map fun k => f (2 * k + 1) - f (2 * k)).sum *
        (1 + 1 / 2 ^ 53) ^ 2 := by
  induction n with
  | zero => simp [Duration.milliseconds]
  | succ n ih =>
    have hpast : f (2 * n) ≤ f (2 * n + 1) := hm (Nat.le_succ _)
    have hlast := Duration.ofTicks_le (Int.sub_nonneg_of_le hpast)
    simp only [List.range_succ, List.map_append, List.sum_append, List.map_singleton,
      List.sum_singleton, Duration.milliseconds_add]
    linarith

namespace AppState
variable {clock : Nat → Time} {s t : AppState}

/-- The clock is read for the commands and for the replies in turns. -/
structure Alternating (clock : Nat → Time) (s : AppState) : Prop where
  readings : s.readings = (sends s.history).length + (processed s.history).length
  sends : sends s.history = (List.range (sends s.history).length).map fun k => clock (2 * k)
  answers : answers s.history = (List.range (processed s.history).length).map fun k =>
    (clock (2 * k + 1), .ofTicks (clock (2 * k + 1) - clock (2 * k)))

theorem Alternating.new (clock : Nat → Time) (c : ConnectionType) :
    (AppState.new c).Alternating clock := ⟨rfl, rfl, rfl⟩

theorem Alternating.congr (h : s.Alternating clock) (hr : t.readings = s.readings)
    (hs : TeleopLedBenchmarks.sends t.history = TeleopLedBenchmarks.sends s.history)
    (hp : processed t.history = processed s.history)
    (ha : TeleopLedBenchmarks.answers t.history = TeleopLedBenchmarks.answers s.history) :
    t.Alternating clock := by
  constructor
  · rw [hr, hs, hp, h.readings]
  · rw [hs, ← h.sends]
  · rw [ha, hp, ← h.answers]

theorem Alternating.extend (h : s.Alternating clock) (l : List Action)
    (hh : t.history = s.history ++ l) (hr : t.readings = s.readings)
    (hs : TeleopLedBenchmarks.sends l = []) (hp : processed l = [])
    (ha : TeleopLedBenchmarks.answers l = []) : t.Alternating clock := by
  apply h.congr hr
  · rw [hh, sends_append, hs, List.append_nil]
  · rw [hh, processed_append, hp, List.append_nil]
  · rw [hh, answers_append, ha, List.append_nil]

theorem Alternating.sent (h : s.Alternating clock) (ha : s.Accounted clock)
    (hf : s.isSendingBlinkCommand = false) : (s.sent clock).Alternating clock := by
  have hsends : TeleopLedBenchmarks.sends (s.sent clock).history =
      TeleopLedBenchmarks.sends s.history ++ [clock s.readings] := sends_append _ _
  have hproc : processed (s.sent clock).history = processed s.history :=
    (processed_append _ _).trans (List.append_nil _)
  have hans : TeleopLedBenchmarks.answers (s.sent clock).history =
      TeleopLedBenchmarks.answers s.history := (answers_append _ _).trans (List.append_nil _)
  have hcount := ha.count
  have hreadings := h.readings
  rw [hf, Bool.toNat_false, Nat.add_zero] at hcount
  constructor
  · change s.readings + 1 = _
    rw [hsends, hproc, List.length_append, List.length_singleton]
    omega
  · have htwice : s.readings = 2 * (TeleopLedBenchmarks.sends s.history).length := by omega
    rw [hsends, List.length_append, List.length_singleton, List.range_succ, List.map_append,
      ← h.sends, htwice]
    rfl
  · rw [hans, hproc, ← h.answers]

theorem Alternating.take (h : s.Alternating clock) (ha : s.Accounted clock) (ht : s.Timed)
    (hf : s.isSendingBlinkCommand = true) : (s.take clock).Alternating clock := by
  have hsends : TeleopLedBenchmarks.sends (s.take clock).history =
      TeleopLedBenchmarks.sends s.history := (sends_append _ _).trans (List.append_nil _)
  have hproc : processed (s.take clock).history = processed s.history ++ [s.content] :=
    processed_append _ _
  have hans : TeleopLedBenchmarks.answers (s.take clock).history =
      TeleopLedBenchmarks.answers s.history ++
        [(clock s.readings, .ofTicks (clock s.readings - s.timeSendBlinkCommand))] :=
    answers_append _ _
  have hcount := ha.count
  have hreadings := h.readings
  rw [hf, Bool.toNat_true] at hcount
  constructor
  · change s.readings + 1 = _
    rw [hsends, hproc, List.length_append, List.length_singleton]
    omega
  · rw [hsends, ← h.sends]
  · have hlt : (processed s.history).length < (TeleopLedBenchmarks.sends s.history).length := by
      omega
    have htime : s.timeSendBlinkCommand = clock (2 * (processed s.history).length) := by
      have hopen := ha.open_command ht hf
      rw [h.sends, List.getElem?_map, List.getElem?_range hlt] at hopen
      exact (Option.some.inj hopen).symm
    have hnow : s.readings = 2 * (processed s.history).length + 1 := by omega
    rw [hans, hproc, List.length_append, List.length_singleton, List.range_succ,
      List.map_append, ← h.answers, htime, hnow]
    rfl

theorem Alternating.sendQueued (h : s.Alternating clock) (ha : s.Accounted clock)
    (hk : s.ClickOk slot) : (s.sendQueued clock).Alternating clock := by
  obtain ⟨_, he⟩ | ⟨hu, he⟩ := s.sendQueued_cases clock
  · rw [he]
    exact h
  · obtain hn | ⟨_, hf, _⟩ := hk
    · exact (hu hn).elim
    · rw [he]
      exact (h.sent ha hf).congr rfl rfl rfl rfl

theorem Alternating.settle (h : s.Alternating clock) (ha : s.Accounted clock) (ht : s.Timed)
    (slot : Slot) (hf : ∀ sock, slot = .message sock → s.isSendingBlinkCommand = true) :
    (s.settle clock slot).Alternating clock := by
  cases slot with
  | accepting | reading | idle => exact h
  | cancelled => exact h.congr rfl rfl rfl rfl
  | connected sock => exact h.extend [.assignStream s.connType] rfl rfl rfl rfl rfl
  | message sock => exact h.take ha ht (hf sock rfl)

theorem Alternating.ran (h : s.Alternating clock) (ha : s.Accounted clock) (ht : s.Timed)
    (hk : s.ClickOk slot)
    (hf : ∀ sock, slot = .message sock → (s.sendQueued clock).isSendingBlinkCommand = true)
    (clicked : Bool) : (s.ran clock slot clicked).Alternating clock :=
  ((h.sendQueued ha hk).settle (ha.sendQueued hk) (ht.sendQueued clock) slot hf).extend _
    rfl rfl rfl rfl rfl

end AppState

namespace System
variable {clock : Nat → Time} {w : System}

theorem reach_open_command (h : (system clock).Reach Honest (.new c) w)
    (hf : w.Framed (.message sock)) (n : Nat) :
    ((w.app.withPosted n).sendQueued clock).isSendingBlinkCommand = true := by
  have ho := (reach_solicited h).open_command hf (reach_conserved h) (reach_accounted h)
  obtain ⟨_, he⟩ | ⟨_, he⟩ := (w.app.withPosted n).sendQueued_cases clock
  · rw [he]
    exact ho
  · rw [he]
    rfl

theorem reach_alternating (h : (system clock).Reach Honest (.new c) w) :
    w.app.Alternating clock := by
  apply h.invariant (I := fun w => w.app.Alternating clock) (.new clock c)
  intro s e s' hr ha _ hs
  obtain ⟨slot, hw, hf⟩ := reach_framed hr
  have hacc := reach_accounted hr
  obtain ⟨clicked, n, _, _, rfl, _⟩ | ⟨hq, _⟩ := hw.step_cases hs
  · have hacc' : (s.app.withPosted n).Accounted clock :=
      hacc.extend [] (List.append_nil _).symm rfl rfl rfl rfl fun a ha => by cases ha
    have ha' : (s.app.withPosted n).Alternating clock := ha.congr rfl rfl rfl rfl
    apply ha'.ran hacc' (reach_timed hr) hw.click
    rintro sock rfl
    exact reach_open_command hr hf n
  · obtain hh | ⟨_, hh⟩ := hq.history
    · exact ha.extend [] (hh.trans (List.append_nil _).symm) hq.readings rfl rfl rfl
    · exact ha.extend _ hh hq.readings rfl rfl rfl

end System

end TeleopLedBenchmarks
