import Mathlib.Data.List.Basic
import Mathlib.Logic.Function.Basic

set_option autoImplicit true

namespace Cells

/-- The `n` cells from address `a` on. -/
def read (m : Nat → α) (a : Nat) : Nat → List α
  | 0 => []
  | n + 1 => m a :: read m (a + 1) n

/-- Stores the elements one after the other, the first one at address `a`. -/
def write (m : Nat → α) (a : Nat) : List α → Nat → α
  | [] => m
  | x :: xs => write (Function.update m a x) (a + 1) xs

section
variable {m m' : Nat → α} {a n : Nat} {xs ys : List α}

@[simp] theorem length_read (m : Nat → α) (a n : Nat) : (read m a n).length = n := by
  induction n generalizing a with
  | zero => rfl
  | succ n ih => exact congrArg Nat.succ (ih (a + 1))

theorem write_append (m : Nat → α) (a : Nat) (xs ys : List α) :
    write m a (xs ++ ys) = write (write m a xs) (a + xs.length) ys := by
  induction xs generalizing m a with
  | nil => rfl
  | cons x xs ih =>
    have he : a + 1 + xs.length = a + (xs.length + 1) := by omega
    exact (ih _ _).trans (congrArg (write _ · ys) he)

/-- The cells outside the ones written keep their values. -/
theorem write_outside (h : b < a ∨ a + xs.length ≤ b) : write m a xs b = m b := by
  induction xs generalizing m a with
  | nil => rfl
  | cons x xs ih =>
    rw [List.length_cons] at h
    have hne : b ≠ a := by omega
    rw [write, ih (by omega), Function.update_of_ne hne]

theorem read_congr (h : ∀ b, a ≤ b → b < a + n → m b = m' b) : read m a n = read m' a n := by
  induction n generalizing a with
  | zero => rfl
  | succ n ih =>
    have hhead := h a (Nat.le_refl a) (by omega)
    have htail : read m (a + 1) n = read m' (a + 1) n := by
      apply ih
      intro b hb hb'
      exact h b (by omega) (by omega)
    exact congrArg₂ List.cons hhead htail

theorem read_write_outside (h : a + n ≤ b ∨ b + xs.length ≤ a) :
    read (write m b xs) a n = read m a n := by
  apply read_congr
  intro c hc hc'
  exact write_outside (by omega)

@[simp] theorem write_read (m : Nat → α) (a n : Nat) : write m a (read m a n) = m := by
  induction n generalizing a with
  | zero => rfl
  | succ n ih => rw [read, write, Function.update_eq_self, ih]

theorem read_write (m : Nat → α) (a : Nat) (xs : List α) :
    read (write m a xs) a xs.length = xs := by
  induction xs generalizing m a with
  | nil => rfl
  | cons x xs ih =>
    have hhead : write (Function.update m a x) (a + 1) xs a = x := by
      rw [write_outside (by omega), Function.update_self]
    exact congrArg₂ List.cons hhead (ih _ _)

end

end Cells

/-- A machine that reads one symbol at a time, writes some for it, and goes on or stops. -/
structure Transducer (σ : Type u) (α : Type v) (β : Type w) where
  step : σ → α → List β × Option σ

namespace Transducer

/-- What is written for an input. -/
def run (T : Transducer σ α β) (s : σ) : List α → List β
  | [] => []
  | a :: as => match T.step s a with
    | (out, none) => out
    | (out, some s') => out ++ T.run s' as

/-- How many symbols of an input are read. -/
def taken (T : Transducer σ α β) (s : σ) : List α → Nat
  | [] => 0
  | a :: as => match (T.step s a).2 with
    | none => 1
    | some s' => T.taken s' as + 1

/-- The machine on memory: it reads `n` cells from address `r` on and writes from address `d` on.
The result is the memory and the addresses where it stops writing and reading. -/
def overCells (T : Transducer σ α α) (s : σ) (m : Nat → α) (d r : Nat) :
    Nat → (Nat → α) × Nat × Nat
  | 0 => (m, d, r)
  | n + 1 => match T.step s (m r) with
    | (out, none) => (Cells.write m d out, d + out.length, r + 1)
    | (out, some s') => T.overCells s' (Cells.write m d out) (d + out.length) (r + 1) n

/-- Each symbol read lets the machine write `g` more, what it is still to write for the ones
before being at most `credit`. -/
structure Grows (T : Transducer σ α β) (g : Nat) (credit : σ → Nat) : Prop where
  stop : T.step s a = (out, none) → out.length ≤ credit s + g
  next : T.step s a = (out, some s') → out.length + credit s' ≤ credit s + g

/-- Writing from `d` on never reaches a cell that is still to be read. -/
def Clear (g credit n d r : Nat) : Prop := d + credit + g * n ≤ r + n ∨ r + n ≤ d

section
variable {T : Transducer σ α β} {s : σ}

@[simp] theorem run_nil (T : Transducer σ α β) (s : σ) : T.run s [] = [] := rfl

theorem run_stop (h : T.step s a = (out, none)) (as : List α) : T.run s (a :: as) = out := by
  rw [run, h]

theorem run_next (h : T.step s a = (out, some s')) (as : List α) :
    T.run s (a :: as) = out ++ T.run s' as := by
  rw [run, h]

theorem length_run_le {credit : σ → Nat} (h : T.Grows g credit) (s : σ) (as : List α) :
    (T.run s as).length ≤ credit s + g * as.length := by
  induction as generalizing s with
  | nil => exact Nat.zero_le _
  | cons a as ih =>
    have hgn : g * (a :: as).length = g * as.length + g := Nat.mul_succ g as.length
    cases hq : T.step s a with
    | mk out rest =>
      cases rest with
      | none =>
        have hl := h.stop hq
        rw [run_stop hq]
        omega
      | some s' =>
        have hl := h.next hq
        have hrest := ih s'
        rw [run_next hq, List.length_append]
        omega

end

section
variable {T : Transducer σ α α} {credit : σ → Nat}

/-- If writing stays clear of what is still to be read, the memory ends with what the machine
writes for the cells as they were at first, whether the two regions overlap or not. -/
theorem overCells_eq (hg : T.Grows g credit) (hpos : 0 < g) (m : Nat → α)
    (hc : Clear g (credit s) n d r) :
    let out := T.run s (Cells.read m r n)
    T.overCells s m d r n =
      (Cells.write m d out, d + out.length, r + T.taken s (Cells.read m r n)) := by
  induction n generalizing s m d r with
  | zero => rfl
  | succ n ih =>
    have hgn : g * (n + 1) = g * n + g := Nat.mul_succ g n
    have hn : n ≤ g * n := Nat.le_mul_of_pos_left n hpos
    rw [Cells.read, overCells, run, taken]
    cases hq : T.step s (m r) with
    | mk out rest =>
      cases rest with
      | none => rfl
      | some s' =>
        have hl := hg.next hq
        have hread : Cells.read (Cells.write m d out) (r + 1) n = Cells.read m (r + 1) n := by
          apply Cells.read_write_outside
          rcases hc with hc | hc
          · right
            omega
          · left
            omega
        have hc' : Clear g (credit s') n (d + out.length) (r + 1) := by
          rcases hc with hc | hc
          · left
            omega
          · right
            omega
        have he := ih (Cells.write m d out) hc'
        rw [hread] at he
        simp only [he, Cells.write_append, List.length_append]
        have h₁ : d + out.length + (T.run s' (Cells.read m (r + 1) n)).length =
            d + (out.length + (T.run s' (Cells.read m (r + 1) n)).length) := by omega
        have h₂ : r + 1 + T.taken s' (Cells.read m (r + 1) n) =
            r + (T.taken s' (Cells.read m (r + 1) n) + 1) := by omega
        rw [h₁, h₂]

end

end Transducer
