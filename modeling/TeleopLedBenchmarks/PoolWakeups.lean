import TeleopLedBenchmarks.PoolTasks

namespace TeleopLedBenchmarks
set_option autoImplicit true

/-- One for a worker that will look for a task without being woken. -/
def Worker.ready : Worker τ → Nat
  | .checking => 1
  | _ => 0

namespace ThreadPool

theorem waiting_of_set {l : List (Worker τ)} (h : .waiting ∈ l.set i w) (hw : .waiting ≠ w) :
    .waiting ∈ l := Parts.mem_of_mem_set h hw

theorem waiting_not_woken (l : List (Worker τ)) : .waiting ∉ l.map Worker.woken := by
  intro h
  obtain ⟨w, -, hw⟩ := List.mem_map.1 h
  cases w with
  | checking => cases hw
  | waiting => cases hw
  | running t => cases hw
  | exited => cases hw

def ready (s : ThreadPool τ) : Nat := Parts.total Worker.ready s.workers

theorem ready_setWorker {s : ThreadPool τ} (h : s.workers[i]? = some v) (w : Worker τ) :
    (s.setWorker i w).ready + v.ready = s.ready + w.ready := Parts.total_set h _ w

/-- Nobody sleeps past a task: for each queued one a worker is up or will be notified. -/
def Awake (s : ThreadPool τ) : Prop :=
  .waiting ∈ s.workers → s.tasks.length ≤ s.ready + s.notifying.length

theorem Awake.step {s s' : ThreadPool τ} (h : Awake s) (he : Effect s e s') : Awake s' := by
  intro hw
  cases he with
  | @accepts c t hc hs =>
    have hle := h hw
    change (s.tasks ++ [t]).length ≤ s.ready + (c :: s.notifying).length
    simp only [List.length_append, List.length_cons, List.length_nil]
    omega
  | throws hs => exact h hw
  | @notifies c i hc hi =>
    have hle := h (List.mem_of_getElem? hi)
    have hup : (s.setWorker i .checking).ready = s.ready + 1 := ready_setWorker hi _
    have herase := List.length_erase_of_mem hc
    have hpos := List.length_pos_of_mem hc
    change s.tasks.length ≤ (s.setWorker i .checking).ready + (s.notifying.erase c).length
    omega
  | notifiesNone hc hn => exact absurd hw hn
  | @wakes i hi =>
    have hle := h (List.mem_of_getElem? hi)
    have hup : (s.setWorker i .checking).ready = s.ready + 1 := ready_setWorker hi _
    change s.tasks.length ≤ (s.setWorker i .checking).ready + s.notifying.length
    omega
  | @starts i t ts hi ht =>
    have hle := h (waiting_of_set hw (by simp))
    have hdown : (s.setWorker i (.running t)).ready + 1 = s.ready := ready_setWorker hi _
    change ts.length ≤ (s.setWorker i (.running t)).ready + s.notifying.length
    rw [ht, List.length_cons] at hle
    omega
  | sleeps hi ht hs =>
    rw [setWorker_tasks, ht]
    exact Nat.zero_le _
  | exits hi ht hs =>
    rw [setWorker_tasks, ht]
    exact Nat.zero_le _
  | @finishes i t hi hc =>
    have hle := h (waiting_of_set hw (by simp))
    have hup : (s.setWorker i .checking).ready = s.ready + 1 := ready_setWorker hi _
    change s.tasks.length ≤ (s.setWorker i .checking).ready + s.notifying.length
    omega
  | stops hd => exact h hw
  | notifiesAll hd => exact absurd hw (waiting_not_woken _)
  | joins hd hk => exact h hw
  | returns hd hk => exact h hw

/-- The number of threads that `~ThreadPool` has joined. -/
def joined (s : ThreadPool τ) : Nat :=
  match s.dtor with
  | .joining k => k
  | .returned => s.workers.length
  | _ => 0

/-- What the destructor relies on, from its call to its return. -/
structure Teardown (s : ThreadPool τ) : Prop where
  stopped : s.stop = true ↔ s.dtor ≠ .notCalled
  asleep : .waiting ∈ s.workers → s.stop = true → s.dtor = .notifying
  left : .exited ∈ s.workers → s.stop = true ∧ s.tasks = []
  joined : ∀ i < s.joined, s.workers[i]? = some .exited

theorem Teardown.new (n : Nat) : Teardown (ThreadPool.new n : ThreadPool τ) := by
  constructor
  · exact iff_of_false Bool.false_ne_true fun h => h rfl
  · intro _ h
    cases h
  · intro h
    cases List.eq_of_mem_replicate h
  · intro i hi
    cases hi

theorem Teardown.setWorker (h : Teardown s) (hi : s.workers[i]? = some v) (hv : v ≠ .exited)
    (hsleep : w = .waiting → s.stop = false)
    (hexit : w = .exited → s.stop = true ∧ s.tasks = []) : Teardown (s.setWorker i w) := by
  constructor
  · exact h.stopped
  · intro hm hs
    rcases List.mem_or_eq_of_mem_set hm with hm | hm
    · exact h.asleep hm hs
    · cases hs.symm.trans (hsleep hm.symm)
  · intro hm
    rcases List.mem_or_eq_of_mem_set hm with hm | hm
    · exact h.left hm
    · exact hexit hm.symm
  · intro j hj
    have hj : j < s.joined := by
      simpa only [ThreadPool.joined, setWorker_dtor, setWorker_workers, List.length_set] using hj
    have hj := h.joined j hj
    have hne : i ≠ j := by
      rintro rfl
      exact hv (Option.some.inj (hi.symm.trans hj))
    rw [setWorker_workers, List.getElem?_set_ne hne]
    exact hj

theorem Teardown.notifiesAll (h : Teardown s) (hd : s.dtor = .notifying) :
    Teardown { s with workers := s.workers.map Worker.woken, dtor := .joining 0 } := by
  have hs : s.stop = true := h.stopped.2 (by rw [hd]; simp)
  constructor
  · exact iff_of_true hs (by simp)
  · intro hm
    exact absurd hm (waiting_not_woken _)
  · intro hm
    obtain ⟨w, hw, he⟩ := List.mem_map.1 hm
    cases w with
    | exited => exact h.left hw
    | checking => cases he
    | waiting => cases he
    | running t => cases he
  · intro i hi
    cases hi

theorem Teardown.joins (h : Teardown s) (hd : s.dtor = .joining k)
    (hk : s.workers[k]? = some .exited) : Teardown { s with dtor := .joining (k + 1) } := by
  have hs : s.stop = true := h.stopped.2 (by rw [hd]; simp)
  constructor
  · exact iff_of_true hs (by simp)
  · intro hm
    cases hd.symm.trans (h.asleep hm hs)
  · exact h.left
  · intro i hi
    rcases Nat.lt_succ_iff_lt_or_eq.1 hi with hi | rfl
    · exact h.joined i (by rw [ThreadPool.joined, hd]; exact hi)
    · exact hk

theorem Teardown.returns (h : Teardown s) (hd : s.dtor = .joining k)
    (hk : s.workers.length ≤ k) : Teardown { s with dtor := .returned } := by
  have hs : s.stop = true := h.stopped.2 (by rw [hd]; simp)
  constructor
  · exact iff_of_true hs (by simp)
  · intro hm
    cases hd.symm.trans (h.asleep hm hs)
  · exact h.left
  · intro i hi
    exact h.joined i (by rw [ThreadPool.joined, hd]; exact Nat.lt_of_lt_of_le hi hk)

theorem Teardown.step (h : Teardown s) (he : Effect s e s') : Teardown s' := by
  cases he with
  | accepts hc hs =>
    have hleft : .exited ∉ s.workers := by
      intro hm
      cases hs.symm.trans (h.left hm).1
    exact ⟨h.stopped, h.asleep, fun hm => absurd hm hleft, h.joined⟩
  | throws hs => exact h
  | notifies hc hi =>
    have h := h.setWorker (w := .checking) hi (by simp) (by simp) (by simp)
    exact ⟨h.stopped, h.asleep, h.left, h.joined⟩
  | notifiesNone hc hw => exact ⟨h.stopped, h.asleep, h.left, h.joined⟩
  | wakes hi => exact h.setWorker hi (by simp) (by simp) (by simp)
  | @starts i t ts hi ht =>
    have hleft : .exited ∉ s.workers := by
      intro hm
      cases ht.symm.trans (h.left hm).2
    have h := h.setWorker (w := .running t) hi (by simp) (by simp) (by simp)
    refine ⟨h.stopped, h.asleep, fun hm => ?_, h.joined⟩
    exact absurd (Parts.mem_of_mem_set hm (by simp)) hleft
  | sleeps hi ht hs => exact h.setWorker hi (by simp) (fun _ => hs) (by simp)
  | exits hi ht hs => exact h.setWorker hi (by simp) (by simp) fun _ => ⟨hs, ht⟩
  | finishes hi hc =>
    have h := h.setWorker (w := .checking) hi (by simp) (by simp) (by simp)
    exact ⟨h.stopped, h.asleep, h.left, h.joined⟩
  | stops hd =>
    constructor
    · exact iff_of_true rfl (by simp)
    · intro _ _
      rfl
    · intro hm
      exact ⟨rfl, (h.left hm).2⟩
    · intro i hi
      cases hi
  | notifiesAll hd => exact h.notifiesAll hd
  | joins hd hk => exact h.joins hd hk
  | returns hd hk => exact h.returns hd hk

section
variable {s : ThreadPool τ} (h : (threadPool τ).Reach Machine.Free (.new n) s)
include h

theorem Awake.of_reach : Awake s := by
  apply h.invariant
  · intro _
    exact Nat.zero_le _
  · intro s e s' _ hs _ he
    exact hs.step (effect he)

theorem Teardown.of_reach : Teardown s :=
  h.invariant (.new n) fun _ _ _ _ hs _ he => hs.step (effect he)

end

end ThreadPool

/-- No wakeup is lost: while a worker sleeps, each queued task has a worker that is up or a
`notify_one` to come, and once the pool is stopped `notify_all` is still to come. -/
theorem pool_loses_no_wakeup (h : (threadPool τ).Reach Machine.Free (.new n) s)
    (hw : .waiting ∈ s.workers) :
    s.tasks.length ≤ s.ready + s.notifying.length ∧ (s.stop = true → s.dtor = .notifying) :=
  ⟨ThreadPool.Awake.of_reach h hw, (ThreadPool.Teardown.of_reach h).asleep hw⟩

/-- Both workers sleep, and the call that has queued a task is still to notify. -/
theorem pool_loses_no_wakeup_queued :
    ∃ s, (threadPool Nat).run (.new 2) [.check 0, .check 1, .enqueue .client 7] = some s ∧
      s.workers = [.waiting, .waiting] ∧ s.tasks = [7] ∧
      s.tasks.length ≤ s.ready + s.notifying.length := by
  obtain ⟨s, hs, hw, ht⟩ : ∃ s, (threadPool Nat).run (.new 2) [.check 0, .check 1,
      .enqueue .client 7] = some s ∧ s.workers = [.waiting, .waiting] ∧ s.tasks = [7] :=
    ⟨_, rfl, rfl, rfl⟩
  have hwait : .waiting ∈ s.workers := hw ▸ List.mem_cons_self
  exact ⟨s, hs, hw, ht, (pool_loses_no_wakeup (Machine.reach_of_run hs) hwait).1⟩

end TeleopLedBenchmarks
