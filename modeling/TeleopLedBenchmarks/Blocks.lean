import Mathlib.Data.List.Basic

set_option autoImplicit true

theorem getElem?_of_prefix {l m : List α} {k : Nat} (h : l <+: m) (hk : l[k]? = some a) :
    m[k]? = some a := by
  obtain ⟨t, rfl⟩ := h
  rw [List.getElem?_append_left (List.getElem?_eq_some_iff.1 hk).1]
  exact hk

/-- `bs` are the first blocks of a stream that is cut every `n` elements. -/
structure Blocks (n : Nat) (bs : List (List α)) (stream : List α) : Prop where
  length : ∀ b ∈ bs, b.length = n
  flat : bs.flatten <+: stream

namespace Blocks
variable {bs cs : List (List α)} {s t b : List α}

theorem nil (n : Nat) (s : List α) : Blocks n [] s :=
  ⟨fun _ hb => absurd hb List.not_mem_nil, List.nil_prefix⟩

theorem mono (h : Blocks n bs s) (hs : s <+: t) : Blocks n bs t :=
  ⟨h.length, h.flat.trans hs⟩

theorem snoc (h : Blocks n bs s) (hb : b.length = n) (hs : bs.flatten ++ b <+: s) :
    Blocks n (bs ++ [b]) s := by
  refine ⟨fun c hc => ?_, ?_⟩
  · obtain hc | hc := List.mem_append.1 hc
    · exact h.length c hc
    · rw [List.mem_singleton.1 hc, hb]
  · rw [List.flatten_append, List.flatten_singleton]
    exact hs

theorem flatten_length (h : Blocks n bs s) : bs.flatten.length = n * bs.length := by
  have hl := h.length
  clear h
  induction bs with
  | nil => rfl
  | cons b bs ih =>
    rw [List.flatten_cons, List.length_append, hl b List.mem_cons_self,
      ih fun c hc => hl c (List.mem_cons_of_mem _ hc), List.length_cons, Nat.mul_succ,
      Nat.add_comm]

theorem length_le (h : Blocks n bs s) : n * bs.length ≤ s.length := by
  rw [← h.flatten_length]
  exact h.flat.length_le

/-- Block `k` is the elements `n * k` to `n * k + n - 1` of the stream. -/
theorem getElem? (h : Blocks n bs s) (hk : bs[k]? = some b) :
    b = (s.drop (n * k)).take n := by
  induction bs generalizing k s with
  | nil => cases hk
  | cons c bs ih =>
    have hc := h.length c List.mem_cons_self
    obtain ⟨rest, rfl⟩ := h.flat
    rw [List.flatten_cons, List.append_assoc]
    cases k with
    | zero =>
      simp only [List.getElem?_cons_zero, Option.some.injEq] at hk
      rw [Nat.mul_zero, List.drop_zero, ← hk, ← hc, List.take_left]
    | succ k =>
      rw [List.getElem?_cons_succ] at hk
      have hrest : Blocks n bs (bs.flatten ++ rest) :=
        ⟨fun d hd => h.length d (List.mem_cons_of_mem _ hd), List.prefix_append _ _⟩
      rw [ih hrest hk, Nat.mul_succ, Nat.add_comm, ← hc, ← List.drop_drop, List.drop_left]

/-- The blocks of a stream that repeats one message are that message. -/
theorem eq_of_replicate (h : Blocks b.length bs (List.replicate r b).flatten) :
    ∀ c ∈ bs, c = b := by
  induction bs generalizing r with
  | nil =>
    intro c hc
    cases hc
  | cons c bs ih =>
    have hl := h.length c List.mem_cons_self
    have hf := h.flat
    rw [List.flatten_cons] at hf
    have hcb : c = b ∧ ∃ r', bs.flatten <+: (List.replicate r' b).flatten := by
      cases r with
      | zero =>
        have hnil := List.append_eq_nil_iff.1 (List.prefix_nil.1 hf)
        have hb : b = [] := List.length_eq_zero_iff.1 (by rw [← hl, hnil.1]; rfl)
        exact ⟨hnil.1.trans hb.symm, 0, by rw [hnil.2]; exact List.nil_prefix⟩
      | succ r =>
        rw [List.replicate_succ, List.flatten_cons] at hf
        have hc := List.prefix_of_prefix_length_le ((List.prefix_append c _).trans hf)
          (List.prefix_append b _) (Nat.le_of_eq hl)
        have he := hc.eq_of_length hl
        rw [he] at hf
        exact ⟨he, r, (List.prefix_append_right_inj b).1 hf⟩
    obtain ⟨he, r', hp⟩ := hcb
    intro d hd
    obtain rfl | hd := List.mem_cons.1 hd
    · exact he
    · exact ih (r := r') ⟨fun d hd => h.length d (List.mem_cons_of_mem _ hd), hp⟩ d hd

end Blocks

/-- A message read in pieces: `buf` holds what has been read of the head of `unread`, and
`rest` is what has not. -/
def PartRead (buf : List α) (rest unread : List (List α)) : Prop :=
  buf = [] ∧ rest = unread ∨ ∃ m ms, rest = m :: ms ∧ unread = (buf ++ m) :: ms

namespace PartRead

theorem start (unread : List (List α)) : PartRead [] unread unread := .inl ⟨rfl, rfl⟩

theorem send {buf : List α} (h : PartRead buf rest unread) (m : List α) :
    PartRead buf (rest ++ [m]) (unread ++ [m]) := by
  obtain ⟨rfl, rfl⟩ | ⟨d, ms, rfl, rfl⟩ := h
  · exact .start _
  · exact .inr ⟨d, ms ++ [m], rfl, rfl⟩

theorem read (h : PartRead buf (m :: ms) unread) (n : Nat) :
    PartRead (buf ++ m.take n) (m.drop n :: ms) unread := by
  obtain ⟨rfl, rfl⟩ | ⟨d, ds, he, rfl⟩ := h
  · exact .inr ⟨_, _, rfl, by rw [List.nil_append, List.take_append_drop]⟩
  · cases he
    exact .inr ⟨_, _, rfl, by rw [List.append_assoc, List.take_append_drop]⟩

theorem done (h : PartRead buf ([] :: ms) unread) : unread = buf :: ms := by
  obtain ⟨rfl, rfl⟩ | ⟨d, ds, he, rfl⟩ := h
  · rfl
  · cases he
    rw [List.append_nil]

end PartRead
