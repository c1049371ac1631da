import TeleopLedBenchmarks.PoolWakeups

namespace TeleopLedBenchmarks
set_option autoImplicit true

namespace ThreadPool

/-- A call of `enqueue` by a task is over before the task is. -/
structure Calling (s : ThreadPool τ) : Prop where
  running : ∀ i, .task i ∈ s.notifying → ∃ t, s.workers[i]? = some (.running t)

theorem running_of_mayCall (s : ThreadPool τ) (h : s.mayCall (.task i) = true) :
    ∃ t, s.workers[i]? = some (.running t) := by
  simp only [mayCall, Bool.and_eq_true, Option.isSome_iff_exists, Option.bind_eq_some_iff] at h
  obtain ⟨⟨t, w, hw, ht⟩, -⟩ := h
  cases w with
  | running u => exact ⟨u, hw⟩
  | checking => cases ht
  | waiting => cases ht
  | exited => cases ht

theorem Calling.setWorker {s : ThreadPool τ} (h : Calling s) (w : Worker τ)
    (hi : ∀ t, s.workers[i]? = some (.running t) → .task i ∉ s.notifying) :
    Calling (s.setWorker i w) := by
  constructor
  intro j hj
  obtain ⟨t, ht⟩ := h.running j hj
  have hne : i ≠ j := by
    rintro rfl
    exact hi t ht hj
  exact ⟨t, by rw [setWorker_workers, List.getElem?_set_ne hne, ht]⟩

theorem Calling.idle {s : ThreadPool τ} (h : Calling s) (w : Worker τ)
    (hi : s.workers[i]? = some v) (hv : v.task? = none) : Calling (s.setWorker i w) := by
  apply h.setWorker
  intro t ht
  cases Option.some.inj (hi.symm.trans ht)
  cases hv

theorem Calling.step {s s' : ThreadPool τ} (h : Calling s) (he : Effect s e s') :
    Calling s' := by
  cases he with
  | accepts hc hs =>
    constructor
    intro i hi
    rcases List.mem_cons.1 hi with rfl | hi
    · exact running_of_mayCall s hc
    · exact h.running i hi
  | throws hs => exact h
  | notifies hc hi =>
    exact ⟨fun j hj => (h.idle .checking hi rfl).running j (List.mem_of_mem_erase hj)⟩
  | notifiesNone hc hw => exact ⟨fun j hj => h.running j (List.mem_of_mem_erase hj)⟩
  | wakes hi => exact h.idle _ hi rfl
  | starts hi ht => exact ⟨(h.idle _ hi rfl).running⟩
  | sleeps hi ht hs => exact h.idle _ hi rfl
  | exits hi ht hs => exact h.idle _ hi rfl
  | finishes hi hc => exact ⟨(h.setWorker .checking fun _ _ => hc).running⟩
  | stops hd => exact ⟨h.running⟩
  | notifiesAll hd =>
    constructor
    intro j hj
    obtain ⟨t, ht⟩ := h.running j hj
    exact ⟨t, by rw [List.getElem?_map, ht]; rfl⟩
  | joins hd hk => exact ⟨h.running⟩
  | returns hd hk => exact ⟨h.running⟩

theorem accepted_of_stop {s s' : ThreadPool τ} (hs : s.stop = true) (he : Effect s e s') :
    s'.stop = true ∧ s'.accepted = s.accepted := by
  cases he with
  | accepts hc hs' => cases hs'.symm.trans hs
  | stops hd => exact ⟨rfl, rfl⟩
  | throws hs' => exact ⟨hs, rfl⟩
  | notifies hc hi => exact ⟨hs, rfl⟩
  | notifiesNone hc hw => exact ⟨hs, rfl⟩
  | wakes hi => exact ⟨hs, rfl⟩
  | starts hi ht => exact ⟨hs, rfl⟩
  | sleeps hi ht hs' => exact ⟨hs, rfl⟩
  | exits hi ht hs' => exact ⟨hs, rfl⟩
  | finishes hi hc => exact ⟨hs, rfl⟩
  | notifiesAll hd => exact ⟨hs, rfl⟩
  | joins hd hk => exact ⟨hs, rfl⟩
  | returns hd hk => exact ⟨hs, rfl⟩

theorem accepted_of_run {s s' : ThreadPool τ} (hs : s.stop = true)
    (hr : (threadPool τ).run s es = some s') : s'.accepted = s.accepted := by
  have h := Machine.run_invariant (I := fun t => t.stop = true ∧ t.accepted = s.accepted)
    (fun t e t' ht he => by
      obtain ⟨hstop, ha⟩ := accepted_of_stop ht.1 (effect he)
      exact ⟨hstop, ha.trans ht.2⟩) ⟨hs, rfl⟩ hr
  exact h.2

theorem Ledger.finished_perm {s : ThreadPool τ} (h : Ledger s)
    (hw : ∀ w ∈ s.workers, w.task? = none) (ht : s.tasks = []) : s.finished.Perm s.accepted := by
  have hnone : s.inTask = [] := List.filterMap_eq_nil_iff.2 hw
  have honce := h.once
  rw [hnone, List.append_nil] at honce
  rw [h.fifo, ht, List.append_nil]
  exact honce.symm

theorem all_exited {s : ThreadPool τ} (h : Teardown s) (hd : s.dtor = .returned) :
    ∀ w ∈ s.workers, w = .exited := by
  intro w hw
  obtain ⟨i, hi⟩ := List.mem_iff_getElem?.1 hw
  obtain ⟨hlt, -⟩ := List.getElem?_eq_some_iff.1 hi
  have hlt : i < s.joined := by rwa [joined, hd]
  exact Option.some.inj (hi.symm.trans (h.joined i hlt))

section
variable {s : ThreadPool τ} (h : (threadPool τ).Reach Machine.Free (.new n) s)
include h

theorem Calling.of_reach : Calling s := by
  apply h.invariant
  · constructor
    intro i hi
    cases hi
  · intro s e s' _ hs _ he
    exact hs.step (effect he)

/-- With a worker, the pool is not gone before its queue is empty. -/
theorem tasks_of_returned (hn : 0 < n) (hd : s.dtor = .returned) : s.tasks = [] := by
  have hdown := Teardown.of_reach h
  have hlen : 0 < s.workers.length := by rwa [length_workers_of_reach h]
  obtain ⟨w, hw⟩ := List.exists_mem_of_length_pos hlen
  have he := all_exited hdown hd w hw
  exact (hdown.left (he ▸ hw)).2

end

end ThreadPool

/-- The destructor drains the pool. What had been accepted when it set `stop` is what has been run
when it returns, if there is a worker at all; no thread is left, nor a task inside `enqueue`. -/
theorem pool_destroyed (h : (threadPool τ).Reach Machine.Free (.new n) s) (hs : s.stop = true)
    (hr : (threadPool τ).run s es = some s') (hd : s'.dtor = .returned) :
    (∀ w ∈ s'.workers, w = .exited) ∧ (∀ c ∈ s'.notifying, c = .client) ∧
      (0 < n → s'.finished.Perm s.accepted) ∧ (n = 0 → s'.tasks = s.accepted) := by
  have h' := h.trans (Machine.reach_of_run hr)
  have hexit := ThreadPool.all_exited (.of_reach h') hd
  have hledger := ThreadPool.Ledger.of_reach h'
  have hlen := ThreadPool.length_workers_of_reach h'
  rw [← ThreadPool.accepted_of_run hs hr]
  refine ⟨hexit, ?_, ?_, ?_⟩
  · intro c hc
    cases c with
    | client => rfl
    | task i =>
      obtain ⟨t, ht⟩ := (ThreadPool.Calling.of_reach h').running i hc
      cases hexit _ (List.mem_of_getElem? ht)
  · intro hn
    apply hledger.finished_perm
    · intro w hw
      rw [hexit w hw]
      rfl
    · exact ThreadPool.tasks_of_returned h' hn hd
  · rintro rfl
    have hstarted := hledger.crew (List.length_eq_zero_iff.1 hlen)
    rw [hledger.fifo, hstarted]
    rfl

/-- The second worker returns while the first one still runs the last task. -/
theorem pool_destroyed_last :
    ∃ s s', (threadPool Nat).run (.new 2) [.enqueue .client 7, .notifyOne .client none,
        .destroy] = some s ∧
      (threadPool Nat).run s [.check 0, .check 1, .notifyAll, .finish 0, .check 0, .join, .join,
        .join] = some s' ∧
      s.tasks = [7] ∧ s'.dtor = .returned ∧ (∀ w ∈ s'.workers, w = .exited) ∧
      s'.finished.Perm s.accepted := by
  obtain ⟨s, hs, hstop, ht, s', hs', hd⟩ : ∃ s, (threadPool Nat).run (.new 2)
      [.enqueue .client 7, .notifyOne .client none, .destroy] = some s ∧ s.stop = true ∧
        s.tasks = [7] ∧ ∃ s', (threadPool Nat).run s [.check 0, .check 1, .notifyAll, .finish 0,
          .check 0, .join, .join, .join] = some s' ∧ s'.dtor = .returned :=
    ⟨_, rfl, rfl, rfl, _, rfl, rfl⟩
  obtain ⟨hexit, _, hall, _⟩ := pool_destroyed (Machine.reach_of_run hs) hstop hs' hd
  exact ⟨s, s', hs, hs', ht, hd, hexit, hall (by decide)⟩

end TeleopLedBenchmarks
