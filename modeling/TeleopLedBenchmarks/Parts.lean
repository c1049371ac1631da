import Mathlib.Algebra.BigOperators.Group.List.Basic
import Mathlib.Algebra.GroupWithZero.Nat
import Mathlib.Data.List.Perm.Basic

set_option autoImplicit true

namespace Parts

/-- One part of a list and the others, which stay when it is replaced. -/
theorem exists_others {l : List α} (h : l[i]? = some a) :
    ∃ r, l.Perm (a :: r) ∧ ∀ b, (l.set i b).Perm (b :: r) := by
  obtain ⟨hi, rfl⟩ := List.getElem?_eq_some_iff.1 h
  exact ⟨l.eraseIdx i, (List.getElem_cons_eraseIdx_perm hi).symm,
    List.set_perm_cons_eraseIdx hi⟩

/-- What the parts have put together. -/
def total (f : α → Nat) (l : List α) : Nat := (l.map f).sum

theorem total_perm {l r : List α} (f : α → Nat) (h : l.Perm r) : total f l = total f r :=
  (h.map f).sum_eq

@[simp] theorem total_cons (f : α → Nat) (a : α) (l : List α) :
    total f (a :: l) = f a + total f l := List.sum_cons

theorem total_set {l : List α} (h : l[i]? = some a) (f : α → Nat) (b : α) :
    total f (l.set i b) + f a = total f l + f b := by
  obtain ⟨r, hl, hset⟩ := exists_others h
  rw [total_perm f hl, total_perm f (hset b), total_cons, total_cons]
  omega

theorem total_snoc (f : α → Nat) (l : List α) (a : α) : total f (l ++ [a]) = total f l + f a := by
  rw [total_perm f (List.perm_append_singleton a l), total_cons, Nat.add_comm]

theorem total_eraseIdx {l : List α} (h : l[i]? = some a) (f : α → Nat) :
    total f (l.eraseIdx i) + f a = total f l := by
  obtain ⟨hi, rfl⟩ := List.getElem?_eq_some_iff.1 h
  rw [← total_perm f (List.getElem_cons_eraseIdx_perm hi), total_cons, Nat.add_comm]

/-- A change of every part that gives each of them at most one more. -/
theorem total_map_le {f : α → Nat} {g : α → α} (h : ∀ a, f (g a) ≤ f a + 1) (l : List α) :
    total f (l.map g) ≤ total f l + l.length := by
  induction l with
  | nil => exact Nat.le_refl 0
  | cons a l ih =>
    have ha := h a
    simp only [List.map_cons, total_cons, List.length_cons]
    omega

theorem total_eq_zero {f : α → Nat} {l : List α} (h : ∀ a ∈ l, f a = 0) : total f l = 0 := by
  induction l with
  | nil => rfl
  | cons a l ih =>
    rw [total_cons, h a List.mem_cons_self, ih fun b hb => h b (List.mem_cons_of_mem a hb)]

theorem total_toNat (p : α → Bool) (l : List α) :
    total (fun a => (p a).toNat) l = l.countP p := by
  induction l with
  | nil => rfl
  | cons a l ih =>
    rw [total_cons, List.countP_cons, ih, Nat.add_comm]
    cases p a with
    | false => rfl
    | true => rfl

section
variable {l : List α} {f : α → Option β}

theorem filterMap_gain (h : l[i]? = some a) (ha : f a = none) (hb : f b = some x) :
    ((l.set i b).filterMap f).Perm (x :: l.filterMap f) := by
  obtain ⟨r, hl, hset⟩ := exists_others h
  have hl := hl.filterMap f
  have hset := (hset b).filterMap f
  rw [List.filterMap_cons_none ha] at hl
  rw [List.filterMap_cons_some hb] at hset
  exact hset.trans (hl.symm.cons x)

theorem filterMap_lose (h : l[i]? = some a) (ha : f a = some x) (hb : f b = none) :
    (l.filterMap f).Perm (x :: (l.set i b).filterMap f) := by
  obtain ⟨r, hl, hset⟩ := exists_others h
  have hl := hl.filterMap f
  have hset := (hset b).filterMap f
  rw [List.filterMap_cons_some ha] at hl
  rw [List.filterMap_cons_none hb] at hset
  exact hl.trans (hset.symm.cons x)

theorem filterMap_same (h : l[i]? = some a) (ha : f a = none) (hb : f b = none) :
    (l.set i b).filterMap f = l.filterMap f := by
  induction l generalizing i with
  | nil => rfl
  | cons c l ih =>
    cases i with
    | zero =>
      cases h
      rw [List.set_cons_zero, List.filterMap_cons_none ha, List.filterMap_cons_none hb]
    | succ i =>
      rw [List.set_cons_succ, List.filterMap_cons, List.filterMap_cons, ih h]

end

theorem mem_of_mem_set {l : List α} (h : c ∈ l.set i b) (hc : c ≠ b) : c ∈ l := by
  rcases List.mem_or_eq_of_mem_set h with h | h
  · exact h
  · exact absurd h hc

end Parts
