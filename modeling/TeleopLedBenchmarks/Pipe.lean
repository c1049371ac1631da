import Mathlib.Algebra.Group.Action.Defs
import Mathlib.Algebra.Order.BigOperators.Group.List
import Mathlib.Algebra.Order.Ring.Nat
import TeleopLedBenchmarks.Blocks
import TeleopLedBenchmarks.Parts

set_option autoImplicit true

/-- Commands on their way through a byte pipe. A started command is an outstanding write
until it is finished, a write hands its bytes over from the front, and the receiver takes
bytes in any pieces. -/
structure Pipe (α : Type u) where
  started : Nat
  writes : List (List α)  -- what each outstanding write has not handed over
  transit : List α
  received : List α
  written : Nat  -- commands handed over to their last byte

namespace Pipe
open Parts

inductive Step (cmd : List α) : Pipe α → Pipe α → Prop
  | start : Step cmd p { p with started := p.started + 1, writes := p.writes ++ [cmd] }
  | hand : p.writes[i]? = some left → 0 < k → k ≤ left.length → Step cmd p { p with
      writes := p.writes.set i (left.drop k)
      transit := p.transit ++ left.take k
      written := if left.drop k = [] then p.written + 1 else p.written }
  | finish : p.writes[i]? = some left → Step cmd p { p with writes := p.writes.eraseIdx i }
  | recv : k ≤ p.transit.length → Step cmd p { p with
      transit := p.transit.drop k
      received := p.received ++ p.transit.take k }

def unfinished (left : List α) : Nat := if left = [] then 0 else 1

/-- The bytes an unfinished write of `n` bytes has handed over. -/
def handed (n : Nat) (left : List α) : Nat := if left = [] then 0 else n - left.length

/-- The byte account of commands of `n` bytes. A command that is neither written nor
outstanding has lost a byte at least. -/
structure Conserved (n : Nat) (p : Pipe α) : Prop where
  short : ∀ left ∈ p.writes, left.length ≤ n
  sent : p.received.length + p.transit.length + total List.length p.writes ≤ n * p.started
  lost : p.received.length + p.transit.length + total List.length p.writes + p.started ≤
    n * p.started + p.written + total unfinished p.writes
  arrived : n * p.written + total (handed n) p.writes ≤ p.received.length + p.transit.length

theorem unfinished_le (left : List α) : unfinished left ≤ left.length := by
  unfold unfinished
  cases left with
  | nil => simp
  | cons => simp

theorem total_unfinished_le (l : List (List α)) :
    total unfinished l ≤ total List.length l :=
  List.sum_le_sum fun left _ => unfinished_le left

variable {p q : Pipe α} {cmd : List α}

theorem Conserved.start (h : p.Conserved cmd.length) (hc : cmd ≠ []) :
    Conserved cmd.length { p with started := p.started + 1, writes := p.writes ++ [cmd] } := by
  have hs := h.sent
  have hl := h.lost
  have ha := h.arrived
  have hu : unfinished cmd = 1 := if_neg hc
  have hh : handed cmd.length cmd = 0 := by simp [handed]
  refine ⟨?_, ?_, ?_, ?_⟩
  · intro left hm
    obtain hm | hm := List.mem_append.1 hm
    · exact h.short left hm
    · exact (congrArg List.length (List.mem_singleton.1 hm)).le
  · simp only [total_snoc, Nat.mul_succ]
    omega
  · simp only [total_snoc, Nat.mul_succ, hu]
    omega
  · simp only [total_snoc, hh]
    exact ha

theorem Conserved.hand (h : p.Conserved n) (hi : p.writes[i]? = some left) (hk : 0 < k)
    (hle : k ≤ left.length) : Conserved n { p with
      writes := p.writes.set i (left.drop k)
      transit := p.transit ++ left.take k
      written := if left.drop k = [] then p.written + 1 else p.written } := by
  have hs := h.sent
  have hl := h.lost
  have ha := h.arrived
  have hn := h.short left (List.mem_of_getElem? hi)
  have hsum := total_set hi List.length (left.drop k)
  have hunf := total_set hi unfinished (left.drop k)
  have hhan := total_set hi (handed n) (left.drop k)
  have hne : left ≠ [] := by
    rintro rfl
    rw [List.length_nil] at hle
    omega
  have hd : (left.drop k).length = left.length - k := List.length_drop
  have ht : (left.take k).length = k := List.length_take_of_le hle
  simp only [unfinished, handed, hne, ↓reduceIte, hd] at hsum hunf hhan
  refine ⟨?_, ?_, ?_, ?_⟩
  · intro b hb
    obtain hb | rfl := List.mem_or_eq_of_mem_set hb
    · exact h.short b hb
    · omega
  · simp only [List.length_append, ht]
    omega
  · simp only [List.length_append, ht]
    split
    · next he =>
      rw [if_pos he] at hunf
      omega
    · next he =>
      rw [if_neg he] at hunf
      omega
  · simp only [List.length_append, ht]
    split
    · next he =>
      rw [if_pos he] at hhan
      rw [he, List.length_nil] at hd
      simp only [Nat.mul_succ]
      omega
    · next he =>
      rw [if_neg he] at hhan
      omega

theorem Conserved.finish (h : p.Conserved n) (hi : p.writes[i]? = some left) :
    Conserved n { p with writes := p.writes.eraseIdx i } := by
  have hs := h.sent
  have hl := h.lost
  have ha := h.arrived
  have hsum := total_eraseIdx hi List.length
  have hunf := total_eraseIdx hi unfinished
  have hhan := total_eraseIdx hi (handed n)
  have hle := unfinished_le left
  refine ⟨fun b hb => h.short b (List.mem_of_mem_eraseIdx hb), ?_, ?_, ?_⟩
  · simp only
    omega
  · simp only
    omega
  · simp only
    omega

theorem Conserved.recv (h : p.Conserved n) (hk : k ≤ p.transit.length) :
    Conserved n { p with
      transit := p.transit.drop k
      received := p.received ++ p.transit.take k } := by
  have hlen : (p.received ++ p.transit.take k).length + (p.transit.drop k).length =
      p.received.length + p.transit.length := by
    rw [List.length_append, List.length_take_of_le hk, List.length_drop]
    omega
  refine ⟨h.short, ?_, ?_, ?_⟩
  · simp only [hlen]
    exact h.sent
  · simp only [hlen]
    exact h.lost
  · simp only [hlen]
    exact h.arrived

theorem Step.conserved (hs : Step cmd p q) (hc : cmd ≠ []) (h : p.Conserved cmd.length) :
    q.Conserved cmd.length := by
  cases hs with
  | start => exact h.start hc
  | hand hi hk hle => exact h.hand hi hk hle
  | finish hi => exact h.finish hi
  | recv hk => exact h.recv hk

/-- Only a start adds a write. -/
theorem Step.writes_le (hs : Step cmd p q) (hst : q.started = p.started) :
    q.writes.length ≤ p.writes.length := by
  cases hs with
  | start => cases Nat.succ_ne_self _ hst
  | hand => exact List.length_set.le
  | finish => exact List.length_eraseIdx_le _ _
  | recv => exact le_rfl

theorem Step.written_le (hs : Step cmd p q) : p.written ≤ q.written := by
  cases hs with
  | start | finish | recv => exact le_rfl
  | hand =>
    simp only
    split
    · exact Nat.le_succ _
    · exact le_rfl

theorem Conserved.received_le (h : p.Conserved n) : p.received.length ≤ n * p.started := by
  have hs := h.sent
  omega

theorem Conserved.written_le (h : p.Conserved n) :
    n * p.written ≤ p.received.length + p.transit.length := by
  have ha := h.arrived
  omega

/-- When every byte of every started command has been received, every command was written. -/
theorem Conserved.all_written (h : p.Conserved n) (hr : p.received.length = n * p.started) :
    p.started ≤ p.written := by
  have hs := h.sent
  have hl := h.lost
  have hu := total_unfinished_le p.writes
  omega

/-- At most one write is unfinished, and the bytes are those of whole commands, one after
another. -/
structure InOrder (cmd : List α) (p : Pipe α) : Prop where
  one : total unfinished p.writes ≤ 1
  bytes : p.received ++ p.transit ++ p.writes.flatten = (List.replicate p.started cmd).flatten

theorem flatten_eq_nil_of_total {l : List (List α)} (h : total unfinished l = 0) :
    l.flatten = [] := by
  induction l with
  | nil => rfl
  | cons b l ih =>
    simp only [total, List.map_cons, List.sum_cons] at h
    have hb : b = [] := by
      by_contra hn
      simp only [unfinished, hn, ↓reduceIte] at h
      omega
    rw [List.flatten_cons, hb, ih (by simp only [total]; omega)]
    rfl

theorem flatten_set {l : List (List α)} (h : total unfinished l ≤ 1) (hi : l[i]? = some left)
    (hn : left ≠ []) (b : List α) : l.flatten = left ∧ (l.set i b).flatten = b := by
  induction l generalizing i with
  | nil => cases hi
  | cons c l ih =>
    simp only [total, List.map_cons, List.sum_cons] at h
    cases i with
    | zero =>
      cases hi
      have hrest : l.flatten = [] := by
        apply flatten_eq_nil_of_total
        simp only [unfinished, hn, ↓reduceIte] at h
        simp only [total]
        omega
      simp only [List.set_cons_zero, List.flatten_cons, hrest, List.append_nil, and_self]
    | succ i =>
      have hpos : 0 < total unfinished l := by
        apply Nat.pos_of_ne_zero
        intro hz
        have hmem : left ∈ l := List.mem_of_getElem? (i := i) hi
        have hnil := flatten_eq_nil_of_total hz
        exact hn (List.flatten_eq_nil_iff.1 hnil left hmem)
      have hc : c = [] := by
        by_contra hc
        simp only [unfinished, hc, ↓reduceIte] at h
        simp only [total] at hpos
        omega
      obtain ⟨hf, hs⟩ := ih (by simp only [total]; omega) hi
      simp only [List.set_cons_succ, List.flatten_cons, hc, List.nil_append, hf, hs, and_self]

theorem InOrder.start (h : p.InOrder cmd) (hw : p.writes.flatten = []) :
    InOrder cmd { p with started := p.started + 1, writes := p.writes ++ [cmd] } := by
  have hz : total unfinished p.writes = 0 := by
    have hle := total_unfinished_le p.writes
    have hl := congrArg List.length hw
    rw [List.length_flatten, List.length_nil] at hl
    exact Nat.le_zero.1 (hle.trans hl.le)
  constructor
  · rw [total_snoc, hz, unfinished]
    split <;> omega
  · have hb := h.bytes
    rw [hw, List.append_nil] at hb
    simp only [List.flatten_append, hw, List.nil_append, List.flatten_singleton, hb,
      List.replicate_succ']

theorem InOrder.hand (h : p.InOrder cmd) (hi : p.writes[i]? = some left) (hk : 0 < k)
    (hle : k ≤ left.length) : InOrder cmd { p with
      writes := p.writes.set i (left.drop k)
      transit := p.transit ++ left.take k
      written := if left.drop k = [] then p.written + 1 else p.written } := by
  have hn : left ≠ [] := List.length_pos_iff.1 (hk.trans_le hle)
  obtain ⟨hf, hs⟩ := flatten_set h.one hi hn (left.drop k)
  constructor
  · have hset := total_set hi unfinished (left.drop k)
    have hone := h.one
    have hleft : unfinished left = 1 := if_neg hn
    have hdrop : unfinished (left.drop k) ≤ 1 := by
      rw [unfinished]
      split <;> omega
    simp only
    omega
  · have hb := h.bytes
    rw [hf] at hb
    simp only [hs]
    rw [← hb, List.append_assoc, List.append_assoc, List.append_assoc, List.take_append_drop]

theorem InOrder.finish (h : p.InOrder cmd) (hi : p.writes[i]? = some []) :
    InOrder cmd { p with writes := p.writes.eraseIdx i } := by
  have hflat : (p.writes.eraseIdx i).flatten = p.writes.flatten := by
    have hw := List.eraseIdx_eq_take_drop_succ p.writes i
    obtain ⟨hlt, hget⟩ := List.getElem?_eq_some_iff.1 hi
    conv_rhs => rw [← List.take_append_drop i p.writes, List.drop_eq_getElem_cons hlt, hget]
    rw [hw]
    simp only [List.flatten_append, List.flatten_cons, List.nil_append]
  constructor
  · have herase := total_eraseIdx hi unfinished
    have hone := h.one
    simp only
    omega
  · simp only [hflat]
    exact h.bytes

theorem InOrder.recv (h : p.InOrder cmd) (k : Nat) : InOrder cmd { p with
      transit := p.transit.drop k
      received := p.received ++ p.transit.take k } := by
  refine ⟨h.one, ?_⟩
  have hb := h.bytes
  simp only
  rw [← hb, List.append_assoc p.received, List.take_append_drop]

theorem InOrder.length (h : p.InOrder cmd) :
    p.received.length + p.transit.length + total List.length p.writes =
      cmd.length * p.started := by
  have hl := congrArg List.length h.bytes
  simp only [List.length_append, List.length_flatten, List.map_replicate, List.sum_replicate,
    smul_eq_mul] at hl
  rw [total, hl, Nat.mul_comm]

/-- After whole commands the next whole command arrives. -/
theorem InOrder.next_command (h : p.InOrder cmd) (hr : p.received.length = cmd.length * r)
    (hle : cmd.length ≤ p.transit.length) (hc : cmd ≠ []) : p.transit.take cmd.length = cmd := by
  have hlength := h.length
  have hlt : r < p.started := by
    apply Nat.lt_of_mul_lt_mul_left (a := cmd.length)
    have hpos := List.length_pos_iff.2 hc
    omega
  have hblocks : Blocks cmd.length (List.replicate p.started cmd)
      (p.received ++ p.transit ++ p.writes.flatten) := by
    constructor
    · intro c hc
      rw [List.eq_of_mem_replicate hc]
    · exact h.bytes ▸ List.prefix_refl _
  have hk := hblocks.getElem? (List.getElem?_replicate_of_lt hlt)
  rw [← hr, List.append_assoc, List.drop_left, List.take_append_of_le_length hle] at hk
  exact hk.symm

end Pipe
