import TeleopLedBenchmarks.ThreadPool

namespace TeleopLedBenchmarks
set_option autoImplicit true

namespace ThreadPool

theorem inTask_setWorker {s : ThreadPool τ} (h : s.workers[i]? = some v) (hv : v.task? = none)
    (hw : w.task? = none) : (s.setWorker i w).inTask = s.inTask :=
  Parts.filterMap_same h hv hw

theorem inTask_woken (l : List (Worker τ)) :
    (l.map Worker.woken).filterMap Worker.task? = l.filterMap Worker.task? := by
  rw [List.filterMap_map]
  congr 1
  funext w
  cases w with
  | checking => rfl
  | waiting => rfl
  | running t => rfl
  | exited => rfl

theorem eq_singleton {l : List α} (h : l.length = 1) (hi : l[i]? = some a) :
    l = [a] ∧ i = 0 := by
  obtain ⟨b, rfl⟩ := List.length_eq_one_iff.1 h
  cases i with
  | zero =>
    cases hi
    exact ⟨rfl, rfl⟩
  | succ i => cases hi

theorem set_ne_nil {l : List α} (hi : l[i]? = some a) (b : α) : l.set i b ≠ [] := by
  intro h
  rw [(List.set_eq_nil_iff _ _).1 h] at hi
  cases hi

/-- Where every task is. -/
structure Ledger (s : ThreadPool τ) : Prop where
  fifo : s.accepted = s.started ++ s.tasks
  once : s.started.Perm (s.finished ++ s.inTask)
  inTurn : s.workers.length = 1 → s.started = s.finished ++ s.inTask
  crew : s.workers = [] → s.started = []

theorem Ledger.new (n : Nat) : Ledger (ThreadPool.new n : ThreadPool τ) := by
  have h : (ThreadPool.new n : ThreadPool τ).inTask = [] := by
    apply List.filterMap_eq_nil_iff.2
    intro w hw
    rw [List.eq_of_mem_replicate hw]
    rfl
  constructor
  · rfl
  · rw [h]
    exact .refl _
  · intro _
    rw [h]
    rfl
  · intro _
    rfl

/-- Only `pop` and the end of `task()` concern the tasks of the workers. -/
theorem Ledger.congr (h : Ledger s) (ha : s'.accepted = s.accepted)
    (hs : s'.started = s.started) (hf : s'.finished = s.finished) (ht : s'.tasks = s.tasks)
    (hw : s'.workers.length = s.workers.length) (hi : s'.inTask = s.inTask) : Ledger s' := by
  constructor
  · rw [ha, hs, ht, h.fifo]
  · rw [hs, hf, hi]
    exact h.once
  · intro hl
    rw [hs, hf, hi]
    exact h.inTurn (hw.symm.trans hl)
  · intro hl
    rw [hs]
    apply h.crew
    rw [← List.length_eq_zero_iff, ← hw, hl]
    rfl

theorem Ledger.setWorker (h : Ledger s) (hi : s.workers[i]? = some v) (hv : v.task? = none)
    (hw : w.task? = none) : Ledger (s.setWorker i w) :=
  h.congr rfl rfl rfl rfl (List.length_set ..) (inTask_setWorker hi hv hw)

theorem Ledger.starts (h : Ledger s) (hi : s.workers[i]? = some .checking)
    (ht : s.tasks = t :: ts) :
    Ledger { s.setWorker i (.running t) with tasks := ts, started := s.started ++ [t] } := by
  have hgain := Parts.filterMap_gain (b := .running t) (f := Worker.task?) hi rfl rfl
  constructor
  · change s.accepted = s.started ++ [t] ++ ts
    rw [h.fifo, ht, List.append_assoc]
    rfl
  · calc (s.started ++ [t]).Perm (t :: s.started) := List.perm_append_singleton t _
      _ |>.Perm (t :: (s.finished ++ s.inTask)) := h.once.cons t
      _ |>.Perm (s.finished ++ t :: s.inTask) := List.perm_middle.symm
      _ |>.Perm (s.finished ++ (s.setWorker i (.running t)).inTask) :=
        hgain.symm.append_left _
  · intro hl
    obtain ⟨hs, rfl⟩ := eq_singleton ((List.length_set ..).symm.trans hl) hi
    have hturn := h.inTurn (by rw [hs]; rfl)
    have hnone : s.inTask = [] := by rw [inTask, hs]; rfl
    have hone : (s.setWorker 0 (.running t)).inTask = [t] := by
      rw [inTask, setWorker_workers, hs]
      rfl
    change s.started ++ [t] = s.finished ++ (s.setWorker 0 (.running t)).inTask
    rw [hturn, hnone, hone, List.append_nil]
  · intro hl
    exact absurd hl (set_ne_nil hi _)

theorem Ledger.finishes (h : Ledger s) (hi : s.workers[i]? = some (.running t)) :
    Ledger { s.setWorker i .checking with finished := s.finished ++ [t] } := by
  have hlose := Parts.filterMap_lose (b := .checking) (f := Worker.task?) hi rfl rfl
  constructor
  · exact h.fifo
  · change s.started.Perm (s.finished ++ [t] ++ (s.setWorker i .checking).inTask)
    rw [List.append_assoc]
    exact h.once.trans (hlose.append_left _)
  · intro hl
    obtain ⟨hs, rfl⟩ := eq_singleton ((List.length_set ..).symm.trans hl) hi
    have hturn := h.inTurn (by rw [hs]; rfl)
    have hone : s.inTask = [t] := by rw [inTask, hs]; rfl
    have hnone : (s.setWorker 0 .checking).inTask = [] := by
      rw [inTask, setWorker_workers, hs]
      rfl
    change s.started = s.finished ++ [t] ++ (s.setWorker 0 .checking).inTask
    rw [hturn, hone, hnone, List.append_nil]
  · intro hl
    exact absurd hl (set_ne_nil hi _)

theorem Ledger.step (h : Ledger s) (he : Effect s e s') : Ledger s' := by
  cases he with
  | accepts hc hs =>
    refine ⟨?_, h.once, h.inTurn, h.crew⟩
    change s.accepted ++ _ = s.started ++ (s.tasks ++ _)
    rw [h.fifo, List.append_assoc]
  | throws hs => exact h
  | notifies hc hi => exact (h.setWorker hi rfl rfl).congr rfl rfl rfl rfl rfl rfl
  | notifiesNone hc hw => exact h.congr rfl rfl rfl rfl rfl rfl
  | wakes hi => exact h.setWorker hi rfl rfl
  | starts hi ht => exact h.starts hi ht
  | sleeps hi ht hs => exact h.setWorker hi rfl rfl
  | exits hi ht hs => exact h.setWorker hi rfl rfl
  | finishes hi hc => exact h.finishes hi
  | stops hd => exact h.congr rfl rfl rfl rfl rfl rfl
  | notifiesAll hd =>
    exact h.congr rfl rfl rfl rfl (List.length_map ..) (inTask_woken _)
  | joins hd hk => exact h.congr rfl rfl rfl rfl rfl rfl
  | returns hd hk => exact h.congr rfl rfl rfl rfl rfl rfl

theorem length_workers {s s' : ThreadPool τ} (he : Effect s e s') :
    s'.workers.length = s.workers.length := by
  cases he with
  | accepts hc hs => rfl
  | throws hs => rfl
  | notifies hc hi => exact List.length_set ..
  | notifiesNone hc hw => rfl
  | wakes hi => exact List.length_set ..
  | starts hi ht => exact List.length_set ..
  | sleeps hi ht hs => exact List.length_set ..
  | exits hi ht hs => exact List.length_set ..
  | finishes hi hc => exact List.length_set ..
  | stops hd => rfl
  | notifiesAll hd => exact List.length_map ..
  | joins hd hk => rfl
  | returns hd hk => rfl

section
variable {s : ThreadPool τ} (h : (threadPool τ).Reach Machine.Free (.new n) s)
include h

theorem Ledger.of_reach : Ledger s :=
  h.invariant (.new n) fun _ _ _ _ hs _ he => hs.step (effect he)

theorem length_workers_of_reach : s.workers.length = n :=
  h.invariant (List.length_replicate ..) fun _ _ _ _ hs _ he =>
    (length_workers (effect he)).trans hs

end

end ThreadPool

/-- The tasks are started in the order of acceptance, and none twice or past another. What was
started is finished or being run by one of `n` workers. A single worker runs one after the other. -/
theorem pool_runs_once (h : (threadPool τ).Reach Machine.Free (.new n) s) :
    s.accepted = s.started ++ s.tasks ∧ s.started.Perm (s.finished ++ s.inTask) ∧
      s.inTask.length ≤ n ∧ (n = 1 → s.started = s.finished ++ s.inTask) := by
  have hs := ThreadPool.Ledger.of_reach h
  have hn := ThreadPool.length_workers_of_reach h
  have hle : s.inTask.length ≤ n := hn ▸ List.length_filterMap_le ..
  exact ⟨hs.fifo, hs.once, hle, fun h₁ => hs.inTurn (hn.trans h₁)⟩

/-- The second of two workers has started first and is not done. -/
theorem pool_runs_once_overtaken :
    ∃ s, (threadPool Nat).run (.new 2) [.enqueue .client 7, .enqueue .client 8, .check 1,
        .check 0, .finish 0, .enqueue .client 9] = some s ∧
      s.started = [7, 8] ∧ s.finished = [8] ∧ s.accepted = s.started ++ s.tasks ∧
      s.started.Perm (s.finished ++ s.inTask) ∧ s.inTask.length ≤ 2 := by
  obtain ⟨s, hs, hstarted, hfinished⟩ : ∃ s, (threadPool Nat).run (.new 2) [.enqueue .client 7,
      .enqueue .client 8, .check 1, .check 0, .finish 0, .enqueue .client 9] = some s ∧
        s.started = [7, 8] ∧ s.finished = [8] := ⟨_, rfl, rfl, rfl⟩
  obtain ⟨hfifo, honce, hle, _⟩ := pool_runs_once (Machine.reach_of_run hs)
  exact ⟨s, hs, hstarted, hfinished, hfifo, honce, hle⟩

end TeleopLedBenchmarks
