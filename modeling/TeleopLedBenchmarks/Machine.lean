import Mathlib.Order.Basic
import TeleopLedBenchmarks.Parts

set_option autoImplicit true

/-- A deterministic machine that may refuse an event: `none` says the event cannot
happen in this state. -/
structure Machine (σ : Type u) (ε : Type v) where
  step : σ → ε → Option σ

namespace Machine

/-- Every event allowed. -/
def Free (_ : σ) (_ : ε) : Prop := True

def run (M : Machine σ ε) (s : σ) : List ε → Option σ
  | [] => some s
  | e :: es => (M.step s e).bind fun s' => M.run s' es

/-- States reached by steps that all satisfy the guard `G`. -/
inductive Reach (M : Machine σ ε) (G : σ → ε → Prop) (s₀ : σ) : σ → Prop
  | refl : Reach M G s₀ s₀
  | step : Reach M G s₀ s → G s e → M.step s e = some s' → Reach M G s₀ s'

/-- The guard holds at every step of the run. -/
def Along (M : Machine σ ε) (G : σ → ε → Prop) (s : σ) : List ε → Prop
  | [] => True
  | e :: es => G s e ∧ match M.step s e with
    | none => True
    | some s' => M.Along G s' es

instance decidableAlong (M : Machine σ ε) (G : σ → ε → Prop) [∀ s e, Decidable (G s e)]
    (s : σ) : (es : List ε) → Decidable (M.Along G s es)
  | [] => isTrue trivial
  | e :: es =>
    letI : Decidable (match M.step s e with
        | none => True
        | some s' => M.Along G s' es) :=
      match M.step s e with
      | none => isTrue trivial
      | some s' => decidableAlong M G s' es
    inferInstanceAs (Decidable (G s e ∧ match M.step s e with
      | none => True
      | some s' => M.Along G s' es))

section
variable {M : Machine σ ε} {G : σ → ε → Prop}

theorem Reach.trans (h : M.Reach G s₀ s) (h' : M.Reach G s t) : M.Reach G s₀ t := by
  induction h' with
  | refl => exact h
  | step _ hg hs ih => exact .step ih hg hs

theorem Reach.mono (h : M.Reach G s₀ s) (hG : ∀ s e, G s e → G' s e) : M.Reach G' s₀ s := by
  induction h with
  | refl => exact .refl
  | step _ hg hs ih => exact .step ih (hG _ _ hg) hs

/-- The induction rule of runs. The step case may use that its source is reachable. -/
theorem Reach.invariant {I : σ → Prop} (h : M.Reach G s₀ s) (h₀ : I s₀)
    (hI : ∀ s e s', M.Reach G s₀ s → I s → G s e → M.step s e = some s' → I s') : I s := by
  induction h with
  | refl => exact h₀
  | step hr hg hs ih => exact hI _ _ _ hr ih hg hs

@[simp] theorem run_nil (M : Machine σ ε) (s : σ) : M.run s [] = some s := rfl

@[simp] theorem run_cons (M : Machine σ ε) (s : σ) (e : ε) (es : List ε) :
    M.run s (e :: es) = (M.step s e).bind fun s' => M.run s' es := rfl

theorem run_append (M : Machine σ ε) (s : σ) (es fs : List ε) :
    M.run s (es ++ fs) = (M.run s es).bind fun s' => M.run s' fs := by
  induction es generalizing s with
  | nil => rfl
  | cons e es ih =>
    simp only [List.cons_append, run_cons]
    cases M.step s e with
    | none => rfl
    | some s' => exact ih s'

theorem Reach.of_run (h : M.run s es = some s') (hG : M.Along G s es) : M.Reach G s s' := by
  induction es generalizing s with
  | nil =>
    cases h
    exact .refl
  | cons e es ih =>
    obtain ⟨hg, hG⟩ := hG
    rw [run_cons] at h
    cases hs : M.step s e with
    | none => rw [hs] at h; cases h
    | some t =>
      rw [hs] at h hG
      exact Reach.trans (.step .refl hg hs) (ih h hG)

theorem Along.free (M : Machine σ ε) (s : σ) (es : List ε) : M.Along Free s es := by
  induction es generalizing s with
  | nil => trivial
  | cons e es ih =>
    refine ⟨trivial, ?_⟩
    split
    · trivial
    · exact ih _

theorem Along.of_forall {P : ε → Prop} (h : ∀ e ∈ es, P e) :
    M.Along (fun _ e => P e) s es := by
  induction es generalizing s with
  | nil => trivial
  | cons e es ih =>
    refine ⟨h e List.mem_cons_self, ?_⟩
    split
    · trivial
    · exact ih fun e' he => h e' (List.mem_cons_of_mem _ he)

theorem reach_of_run (h : M.run s es = some s') : M.Reach Free s s' :=
  .of_run h (.free M s es)

/-- An invariant of single steps holds at the end of every run. -/
theorem run_invariant {I : σ → Prop} (hI : ∀ s e s', I s → M.step s e = some s' → I s')
    (h₀ : I s) (h : M.run s es = some s') : I s' :=
  (reach_of_run h).invariant h₀ fun s e s' _ hs _ he => hI s e s' hs he

end

/-- A value no step decreases, and that a step keeps exactly under `G`, is kept by a run
exactly if `G` holds along it. -/
theorem run_keeps_iff [PartialOrder π] {M : Machine σ ε} {G : σ → ε → Prop} {I : σ → Prop}
    {f : σ → π}
    (hI : ∀ s e s', I s → M.step s e = some s' → I s')
    (hf : ∀ s e s', I s → M.step s e = some s' → f s ≤ f s' ∧ (f s' = f s ↔ G s e))
    (h : I s) (hr : M.run s es = some s') :
    f s ≤ f s' ∧ (f s' = f s ↔ M.Along G s es) := by
  induction es generalizing s with
  | nil =>
    cases hr
    exact ⟨le_rfl, iff_of_true rfl trivial⟩
  | cons e es ih =>
    obtain ⟨s₁, hs, hr⟩ := Option.bind_eq_some_iff.1 hr
    obtain ⟨hle, hiff⟩ := hf s e s₁ h hs
    obtain ⟨hle', hiff'⟩ := ih (hI s e s₁ h hs) hr
    simp only [Along, hs]
    rw [← hiff, ← hiff']
    constructor
    · exact hle.trans hle'
    · constructor
      · intro he
        have h₁ : f s₁ = f s := le_antisymm (hle'.trans he.le) hle
        exact ⟨h₁, he.trans h₁.symm⟩
      · rintro ⟨h₁, h₂⟩
        exact h₂.trans h₁

/-- A property that is never regained, and that a step keeps exactly under `G`, holds at the end
of a run exactly if `G` holds along it. -/
theorem run_holds_iff {M : Machine σ ε} {G H : σ → ε → Prop} {I P : σ → Prop}
    (hback : ∀ s e s', M.step s e = some s' → P s' → P s)
    (hstep : ∀ s e s', I s → P s → H s e → M.step s e = some s' →
      (P s' ↔ G s e) ∧ (P s' → I s'))
    (hI : I s) (hP : P s) (hH : M.Along H s es) (hr : M.run s es = some s') :
    P s' ↔ M.Along G s es := by
  have hlost {s s' : σ} {es : List ε} (hr : M.run s es = some s') (h : P s') : P s := by
    induction es generalizing s with
    | nil =>
      cases hr
      exact h
    | cons e es ih =>
      obtain ⟨t, hs, hr⟩ := Option.bind_eq_some_iff.1 hr
      exact hback s e t hs (ih hr)
  induction es generalizing s with
  | nil =>
    cases hr
    exact iff_of_true hP trivial
  | cons e es ih =>
    obtain ⟨t, hs, hr⟩ := Option.bind_eq_some_iff.1 hr
    obtain ⟨hH₁, hH⟩ := hH
    obtain ⟨hiff, hnext⟩ := hstep s e t hI hP hH₁ hs
    rw [hs] at hH
    simp only [Along, hs]
    constructor
    · intro h
      have ht := hlost hr h
      exact ⟨hiff.1 ht, (ih (hnext ht) ht hH hr).1 h⟩
    · rintro ⟨hG, hes⟩
      have ht := hiff.2 hG
      exact (ih (hnext ht) ht hH hr).2 hes

/-- What the events of a run bring, in order. -/
def gathered (M : Machine σ ε) (f : σ → ε → List α) (s : σ) : List ε → List α
  | [] => []
  | e :: es => match M.step s e with
    | none => []
    | some s' => f s e ++ M.gathered f s' es

/-- A list that grows by some of what each event brings, and by all of it exactly under `G`, has
grown by all that a run brings exactly if `G` holds along it. -/
theorem run_gathers_iff {M : Machine σ ε} {G : σ → ε → Prop} {I : σ → Prop} {g : σ → List α}
    {f : σ → ε → List α}
    (hI : ∀ s e s', I s → M.step s e = some s' → I s')
    (hg : ∀ s e s', I s → M.step s e = some s' →
      (g s').Sublist (g s ++ f s e) ∧ (g s' = g s ++ f s e ↔ G s e))
    (h : I s) (hr : M.run s es = some s') :
    (g s').Sublist (g s ++ M.gathered f s es) ∧
      (g s' = g s ++ M.gathered f s es ↔ M.Along G s es) := by
  induction es generalizing s with
  | nil =>
    cases hr
    simp only [gathered, Along, List.append_nil, List.Sublist.refl, and_self]
  | cons e es ih =>
    obtain ⟨t, hs, hr⟩ := Option.bind_eq_some_iff.1 hr
    obtain ⟨hsub, hiff⟩ := hg s e t h hs
    obtain ⟨hsub', hiff'⟩ := ih (hI s e t h hs) hr
    simp only [gathered, Along, hs]
    rw [← hiff, ← hiff', ← List.append_assoc]
    constructor
    · exact hsub'.trans (hsub.append_right _)
    · constructor
      · intro he
        -- A list that has got all of it in the end has got all of the first event.
        have hlen := hsub'.length_le
        have ht : g t = g s ++ f s e := by
          apply hsub.eq_of_length_le
          rw [he] at hlen
          simp only [List.length_append] at hlen ⊢
          omega
        exact ⟨ht, he.trans (by rw [ht])⟩
      · rintro ⟨ht, he⟩
        rw [he, ht]

/-- The potential method: where every step pays its cost out of the potential and what it brings
in, every run does. -/
theorem run_pays {M : Machine σ ε} {I : σ → Prop} (f : σ → Nat) (cost gain : ε → Nat)
    (hI : ∀ s e s', I s → M.step s e = some s' → I s')
    (hf : ∀ s e s', I s → M.step s e = some s' → f s' + cost e ≤ f s + gain e)
    (h : I s) (hr : M.run s es = some s') :
    f s' + Parts.total cost es ≤ f s + Parts.total gain es := by
  induction es generalizing s with
  | nil =>
    cases hr
    exact Nat.le_refl _
  | cons e es ih =>
    obtain ⟨t, hs, hr⟩ := Option.bind_eq_some_iff.1 hr
    have hstep := hf s e t h hs
    have hrest := ih (hI s e t h hs) hr
    simp only [Parts.total_cons]
    omega

/-- The machine whose single event `a` is a whole run of events of `M`. -/
def macros (M : Machine σ ε) (f : α → List ε) : Machine σ α := ⟨fun s a => M.run s (f a)⟩

/-- A relation that every step keeps, refusals included, is kept by every run. -/
theorem run_simulates {M : Machine σ ε} {N : Machine τ ε} {R : σ → τ → Prop}
    (hR : ∀ s t e, R s t → Option.Rel R (M.step s e) (N.step t e)) (h : R s t) (es : List ε) :
    Option.Rel R (M.run s es) (N.run t es) := by
  induction es generalizing s t with
  | nil => exact .some h
  | cons e es ih =>
    have he := hR s t e h
    simp only [run_cons]
    generalize M.step s e = a at he
    generalize N.step t e = b at he
    cases he with
    | none => exact .none
    | some h' => exact ih h'

theorem map_eq_of_rel {R : σ → τ → Prop} {f : σ → ω} {g : τ → ω}
    (hf : ∀ s t, R s t → f s = g t) (h : Option.Rel R a b) : a.map f = b.map g := by
  cases h with
  | none => rfl
  | some h => exact congrArg some (hf _ _ h)

end Machine
