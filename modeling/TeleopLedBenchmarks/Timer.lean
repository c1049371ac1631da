import Mathlib.Order.Bounds.Basic

set_option autoImplicit true

/-- A one-shot software timer. `since` is the instant it was last started at, and nothing while
it is dormant. -/
structure Timer where
  period : Nat
  since : Option Nat
  deriving DecidableEq, Repr

namespace Timer

def create (period : Nat) : Timer := ⟨period, none⟩

/-- Starts the timer, or starts it again. -/
def reset (now : Nat) (t : Timer) : Timer := { t with since := some now }

/-- The period has elapsed since the last start. -/
def due (now : Nat) (t : Timer) : Bool := t.since.any fun s => s + t.period ≤ now

def expire (t : Timer) : Timer := { t with since := none }

/-- The timer at the beginning of an instant, when it is reset at the end of each instant of
`resets`. A due timer expires first. -/
def run (resets : Nat → Bool) (period : Nat) : Nat → Timer
  | 0 => create period
  | n + 1 =>
    let t := run resets period n
    let t := if t.due n then t.expire else t
    if resets n then t.reset n else t

/-- The last of the instants `resets` before `n`. -/
def lastReset (resets : Nat → Bool) : Nat → Option Nat
  | 0 => none
  | n + 1 => if resets n then some n else lastReset resets n

section
variable {resets : Nat → Bool} {period : Nat}

@[simp] theorem run_period (n : Nat) : (run resets period n).period = period := by
  induction n with
  | zero => rfl
  | succ n ih =>
    rw [run]
    split <;> split <;> exact ih

/-- Without a reset the timer stays dormant. -/
theorem run_eq_create (h : ∀ m < n, resets m = false) : run resets period n = create period := by
  induction n with
  | zero => rfl
  | succ n ih =>
    rw [run, ih fun m hm => h m (Nat.lt_succ_of_lt hm), h n (Nat.lt_succ_self n)]
    rfl

/-- Until it is due for the first time, a timer has been running since its last reset. -/
theorem run_since (h : ∀ m < n, (run resets period m).due m = false) :
    (run resets period n).since = lastReset resets n := by
  induction n with
  | zero => rfl
  | succ n ih =>
    have hn := h n (Nat.lt_succ_self n)
    have hs := ih fun m hm => h m (Nat.lt_succ_of_lt hm)
    rw [run, lastReset, hn]
    split
    · rfl
    · exact hs

/-- The first instant at which a timer is due is the first at which the period has elapsed since
the last reset. -/
theorem isLeast_due_iff : IsLeast {n | (run resets period n).due n = true} T ↔
    IsLeast {n | ∃ s, lastReset resets n = some s ∧ s + period ≤ n} T := by
  have hdue : ∀ n, (∀ m < n, (run resets period m).due m = false) →
      ((run resets period n).due n = true ↔
        ∃ s, lastReset resets n = some s ∧ s + period ≤ n) := by
    intro n h
    rw [due, run_since h, run_period, Option.any_eq_true]
    simp
  constructor
  · rintro ⟨hT, hleast⟩
    have hbefore : ∀ n ≤ T, ∀ m < n, (run resets period m).due m = false := by
      intro n hn m hm
      by_contra hd
      have hle := hleast (Bool.eq_true_of_not_eq_false hd)
      exact absurd (hm.trans_le hn) (Nat.not_lt.2 hle)
    refine ⟨(hdue T (hbefore T le_rfl)).1 hT, fun n hn => ?_⟩
    by_contra hlt
    have hlt := Nat.lt_of_not_le hlt
    exact hlt.not_ge (hleast ((hdue n (hbefore n hlt.le)).2 hn))
  · rintro ⟨hT, hleast⟩
    have hbefore : ∀ n ≤ T, ∀ m < n, (run resets period m).due m = false := by
      intro n
      induction n with
      | zero =>
        intro _ m hm
        exact absurd hm (Nat.not_lt_zero m)
      | succ n ih =>
        intro hn m hm
        have hlt : n < T := hn
        obtain hm | rfl := Nat.lt_succ_iff_lt_or_eq.1 hm
        · exact ih hlt.le m hm
        · by_contra hd
          have hle := hleast ((hdue m (ih hlt.le)).1 (Bool.eq_true_of_not_eq_false hd))
          exact absurd hlt (Nat.not_lt.2 hle)
    refine ⟨(hdue T (hbefore T le_rfl)).2 hT, fun n hn => ?_⟩
    by_contra hlt
    have hlt := Nat.lt_of_not_le hlt
    exact Bool.false_ne_true ((hbefore T le_rfl n hlt).symm.trans hn)

theorem lastReset_eq_none_iff : lastReset resets n = none ↔ ∀ m < n, resets m = false := by
  induction n with
  | zero => exact iff_of_true rfl fun m hm => absurd hm (Nat.not_lt_zero m)
  | succ n ih =>
    rw [lastReset, Nat.forall_lt_succ_right, ← ih]
    cases resets n with
    | true => simp
    | false => simp

end

end Timer
