import TeleopLedBenchmarks.Machine

set_option autoImplicit true

namespace Machine

/-- What the steps of a run show, in order. -/
def observed (M : Machine σ ε) (obs : σ → σ → List α) (s : σ) : List ε → List α
  | [] => []
  | e :: es => match M.step s e with
    | none => []
    | some s' => obs s s' ++ M.observed obs s' es

/-- If what a step shows leads from the abstraction of its source to that of its target, then
what a run shows does so too. -/
theorem run_observed {M : Machine σ ε} {N : Machine τ α} {G : σ → ε → Prop} {I : σ → Prop}
    (f : σ → τ) (obs : σ → σ → List α)
    (hI : ∀ s e s', I s → G s e → M.step s e = some s' → I s')
    (hN : ∀ s e s', I s → G s e → M.step s e = some s' →
      N.run (f s) (obs s s') = some (f s'))
    (h : I s) (hG : M.Along G s es) (hr : M.run s es = some s') :
    N.run (f s) (M.observed obs s es) = some (f s') := by
  induction es generalizing s with
  | nil =>
    cases hr
    rfl
  | cons e es ih =>
    obtain ⟨s₁, hs, hr⟩ := Option.bind_eq_some_iff.1 hr
    obtain ⟨hg, hG⟩ := hG
    rw [hs] at hG
    simp only [observed, hs, run_append, hN s e s₁ h hg hs, Option.bind_some]
    exact ih (hI s e s₁ h hg hs) hG hr

end Machine

/-- Where the one request of a stop-and-wait exchange is. -/
inductive Turn
  | idle
  | requested
  | served
  | dropped
  deriving DecidableEq, Repr

/-- A party that sends a request only when it has accepted the reply to the one before, and a
server that serves each request or drops its reply. -/
structure StopAndWait where
  turn : Turn
  rounds : Nat  -- replies accepted
  deriving DecidableEq, Repr

namespace StopAndWait

inductive Act
  | send
  | serve
  | drop
  | accept
  deriving DecidableEq, Repr

def new : StopAndWait := ⟨.idle, 0⟩

end StopAndWait

open StopAndWait in
def stopAndWait : Machine StopAndWait Act where
  step s a :=
    match s.turn, a with
    | .idle, .send => some { s with turn := .requested }
    | .requested, .serve => some { s with turn := .served }
    | .requested, .drop => some { s with turn := .dropped }
    | .served, .accept => some ⟨.idle, s.rounds + 1⟩
    | _, _ => none

/-- What has happened since the last round was complete. -/
def Turn.pending : Turn → List StopAndWait.Act
  | .idle => []
  | .requested => [.send]
  | .served => [.send, .serve]
  | .dropped => [.send, .drop]

namespace StopAndWait

/-- Rounds of a request, a service and an acceptance, and what has happened since. -/
def trace (s : StopAndWait) : List Act :=
  (List.replicate s.rounds [.send, .serve, .accept]).flatten ++ s.turn.pending

theorem step_trace (h : stopAndWait.step s a = some s') : s'.trace = s.trace ++ [a] := by
  obtain ⟨turn, rounds⟩ := s
  cases turn <;> cases a <;> cases h
  · simp [trace, Turn.pending]
  · simp [trace, Turn.pending]
  · simp [trace, Turn.pending]
  · simp [trace, Turn.pending, List.replicate_succ']

theorem run_trace (h : stopAndWait.run s as = some s') : s'.trace = s.trace ++ as := by
  induction as generalizing s with
  | nil =>
    cases h
    exact (List.append_nil _).symm
  | cons a as ih =>
    obtain ⟨t, hs, hr⟩ := Option.bind_eq_some_iff.1 h
    rw [ih hr, step_trace hs, List.append_assoc]
    rfl

/-- How often each act has happened. -/
structure Counts where
  sends : Nat
  serves : Nat
  drops : Nat
  accepts : Nat
  deriving DecidableEq, Repr

namespace Counts

/-- A reply is accepted after it was given, a request served after it was sent, and the next
one sent after the reply was accepted. -/
structure Valid (c : Counts) : Prop where
  accepts_le : c.accepts ≤ c.serves
  serves_le : c.serves + c.drops ≤ c.sends
  sends_le : c.sends ≤ c.accepts + 1

def turn (c : Counts) : Turn :=
  if c.sends = c.accepts then .idle
  else if c.serves + c.drops < c.sends then .requested
  else if c.drops = 0 then .served
  else .dropped

def state (c : Counts) : StopAndWait := ⟨c.turn, c.accepts⟩

def total (c : Counts) : Nat := c.sends + c.serves + c.drops + c.accepts

/-- No act is undone, and at most one is added. -/
structure Next (c d : Counts) : Prop where
  sends : c.sends ≤ d.sends
  serves : c.serves ≤ d.serves
  drops : c.drops ≤ d.drops
  accepts : c.accepts ≤ d.accepts
  total : d.total ≤ c.total + 1

/-- The acts by which the counts have grown. -/
def since (c d : Counts) : List Act :=
  List.replicate (d.sends - c.sends) .send ++ List.replicate (d.serves - c.serves) .serve ++
    List.replicate (d.drops - c.drops) .drop ++ List.replicate (d.accepts - c.accepts) .accept

section
variable {c d : Counts}

theorem turn_idle (h : c.sends = c.accepts) : c.turn = .idle := if_pos h

theorem turn_requested (h : c.accepts < c.sends) (hs : c.serves + c.drops < c.sends) :
    c.turn = .requested := by
  rw [turn, if_neg (Nat.ne_of_gt h), if_pos hs]

theorem turn_served (h : c.accepts < c.sends) (hs : c.sends ≤ c.serves) (hd : c.drops = 0) :
    c.turn = .served := by
  rw [turn, if_neg (Nat.ne_of_gt h), if_neg (by omega), if_pos hd]

theorem turn_dropped (h : c.accepts < c.sends) (hs : c.sends ≤ c.serves + c.drops)
    (hd : 0 < c.drops) : c.turn = .dropped := by
  rw [turn, if_neg (Nat.ne_of_gt h), if_neg (by omega), if_neg (by omega)]

theorem Next.cases (h : c.Next d) :
    d = c ∨ d = { c with sends := c.sends + 1 } ∨ d = { c with serves := c.serves + 1 } ∨
      d = { c with drops := c.drops + 1 } ∨ d = { c with accepts := c.accepts + 1 } := by
  have hs := h.sends
  have hv := h.serves
  have hd := h.drops
  have ha := h.accepts
  have ht := h.total
  obtain ⟨ds, dv, dd, da⟩ := d
  obtain ⟨cs, cv, cd, ca⟩ := c
  simp only [Counts.total, Counts.mk.injEq] at *
  omega

theorem run_since (h : c.Valid) (h' : d.Valid) (hn : c.Next d) :
    stopAndWait.run c.state (c.since d) = some d.state := by
  have ha := h.accepts_le
  have hv := h.serves_le
  have hs := h.sends_le
  obtain rfl | rfl | rfl | rfl | rfl := hn.cases
  · simp [since]
  · have hs' := h'.sends_le
    have hb : c.turn = .idle := turn_idle (by simp only at hs'; omega)
    have hd : turn { c with sends := c.sends + 1 } = .requested :=
      turn_requested (by simp only; omega) (by simp only; omega)
    simp [since, state, hb, hd, stopAndWait]
  · have hv' := h'.serves_le
    have hb : c.turn = .requested :=
      turn_requested (by simp only at hv'; omega) (by simp only at hv'; omega)
    have hd : turn { c with serves := c.serves + 1 } = .served := by
      simp only at hv'
      exact turn_served (by simp only; omega) (by simp only; omega) (by simp only; omega)
    simp [since, state, hb, hd, stopAndWait]
  · have hv' := h'.serves_le
    have hb : c.turn = .requested :=
      turn_requested (by simp only at hv'; omega) (by simp only at hv'; omega)
    have hd : turn { c with drops := c.drops + 1 } = .dropped := by
      simp only at hv'
      exact turn_dropped (by simp only; omega) (by simp only; omega) (Nat.succ_pos _)
    simp [since, state, hb, hd, stopAndWait]
  · have ha' := h'.accepts_le
    have hb : c.turn = .served := by
      simp only at ha'
      exact turn_served (by omega) (by omega) (by omega)
    have hd : turn { c with accepts := c.accepts + 1 } = .idle :=
      turn_idle (by simp only at ha' ⊢; omega)
    simp [since, state, hb, hd, stopAndWait]

theorem idle_iff : c.turn = .idle ↔ c.sends = c.accepts := by
  constructor
  · intro hi
    by_contra hn
    rw [turn, if_neg hn] at hi
    split at hi
    · cases hi
    · split at hi <;> cases hi
  · exact turn_idle

theorem Valid.dropped_of_pos (h : c.Valid) (hd : 0 < c.drops) :
    c.turn = .dropped ∧ c.drops = 1 ∧ c.serves = c.accepts := by
  have ha := h.accepts_le
  have hv := h.serves_le
  have hs := h.sends_le
  exact ⟨turn_dropped (by omega) (by omega) hd, by omega, by omega⟩

theorem Valid.next_eq_of_dropped (h : c.Valid) (hd : 0 < c.drops) (h' : d.Valid)
    (hn : c.Next d) : d = c := by
  obtain ⟨_, hone, heq⟩ := h.dropped_of_pos hd
  have ha' := h'.accepts_le
  have hv' := h'.serves_le
  have hs' := h'.sends_le
  have hv := h.serves_le
  obtain rfl | rfl | rfl | rfl | rfl := hn.cases
  · rfl
  all_goals simp only at ha' hv' hs'; omega

end

end Counts

end StopAndWait
