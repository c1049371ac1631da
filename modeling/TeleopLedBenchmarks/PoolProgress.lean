import TeleopLedBenchmarks.PoolShutdown

namespace TeleopLedBenchmarks
set_option autoImplicit true

/-- The steps that a worker may still take before it waits or returns, the task being over. -/
def Worker.left : Worker τ → Nat
  | .checking => 1
  | .running _ => 2
  | _ => 0

def Dtor.left (workers : Nat) : Dtor → Nat
  | .notifying => 2 * workers + 2
  | .joining k => workers - k + 1
  | _ => 0

namespace PoolEvent

/-- The steps that the pool goes on by: nobody's call begins with them, and no wakeup is
spurious. -/
def own : PoolEvent τ → Bool
  | notifyOne _ _ => true
  | check _ => true
  | finish _ => true
  | notifyAll => true
  | join => true
  | _ => false

/-- The steps that an event of the others makes for a pool of so many workers. -/
def work (workers : Nat) : PoolEvent τ → Nat
  | enqueue _ _ => 4
  | wakeUp _ => 1
  | destroy => 2 * workers + 2
  | _ => 0

end PoolEvent

namespace ThreadPool

/-- The steps that are left to the pool if nothing comes from outside. -/
def stepsLeft (s : ThreadPool τ) : Nat :=
  2 * s.tasks.length + 2 * s.notifying.length + Parts.total Worker.left s.workers +
    s.dtor.left s.workers.length

theorem left_woken_le (w : Worker τ) : w.woken.left ≤ w.left + 1 := by
  cases w with
  | checking => exact Nat.le_add_right _ _
  | waiting => exact Nat.le_refl _
  | running t => exact Nat.le_add_right _ _
  | exited => exact Nat.le_add_right _ _

theorem stepsLeft_effect {s s' : ThreadPool τ} (he : Effect s e s') :
    s'.stepsLeft + e.own.toNat ≤ s.stepsLeft + e.work s.workers.length := by
  cases he with
  | @accepts c t hc hs =>
    simp only [stepsLeft, PoolEvent.own, PoolEvent.work, Bool.toNat_false, List.length_append,
      List.length_cons, List.length_nil]
    omega
  | throws hs => exact Nat.le_add_right _ _
  | @notifies c i hc hi =>
    have hup : Parts.total Worker.left (s.workers.set i .checking) =
      Parts.total Worker.left s.workers + 1 := Parts.total_set hi Worker.left _
    have herase := List.length_erase_of_mem hc
    have hpos := List.length_pos_of_mem hc
    simp only [stepsLeft, setWorker, PoolEvent.own, PoolEvent.work, Bool.toNat_true,
      List.length_set]
    omega
  | @notifiesNone c hc hw =>
    have herase := List.length_erase_of_mem hc
    have hpos := List.length_pos_of_mem hc
    simp only [stepsLeft, PoolEvent.own, PoolEvent.work, Bool.toNat_true]
    omega
  | @wakes i hi =>
    have hup : Parts.total Worker.left (s.workers.set i .checking) =
      Parts.total Worker.left s.workers + 1 := Parts.total_set hi Worker.left _
    simp only [stepsLeft, setWorker, PoolEvent.own, PoolEvent.work, Bool.toNat_false,
      List.length_set]
    omega
  | @starts i t ts hi ht =>
    have hup : Parts.total Worker.left (s.workers.set i (.running t)) + 1 =
      Parts.total Worker.left s.workers + 2 := Parts.total_set hi Worker.left _
    simp only [stepsLeft, setWorker, PoolEvent.own, PoolEvent.work, Bool.toNat_true,
      List.length_set, ht, List.length_cons]
    omega
  | @sleeps i hi ht hs =>
    have hdown : Parts.total Worker.left (s.workers.set i .waiting) + 1 =
      Parts.total Worker.left s.workers := Parts.total_set hi Worker.left _
    simp only [stepsLeft, setWorker, PoolEvent.own, PoolEvent.work, Bool.toNat_true,
      List.length_set]
    omega
  | @exits i hi ht hs =>
    have hdown : Parts.total Worker.left (s.workers.set i .exited) + 1 =
      Parts.total Worker.left s.workers := Parts.total_set hi Worker.left _
    simp only [stepsLeft, setWorker, PoolEvent.own, PoolEvent.work, Bool.toNat_true,
      List.length_set]
    omega
  | @finishes i t hi hc =>
    have hdown : Parts.total Worker.left (s.workers.set i .checking) + 2 =
      Parts.total Worker.left s.workers + 1 := Parts.total_set hi Worker.left _
    simp only [stepsLeft, setWorker, PoolEvent.own, PoolEvent.work, Bool.toNat_true,
      List.length_set]
    omega
  | stops hd =>
    simp only [stepsLeft, PoolEvent.own, PoolEvent.work, Bool.toNat_false, Dtor.left]
    omega
  | notifiesAll hd =>
    have hup := Parts.total_map_le left_woken_le s.workers
    simp only [stepsLeft, PoolEvent.own, PoolEvent.work, Bool.toNat_true, Dtor.left, hd,
      List.length_map]
    omega
  | @joins k hd hk =>
    obtain ⟨hlt, -⟩ := List.getElem?_eq_some_iff.1 hk
    simp only [stepsLeft, PoolEvent.own, PoolEvent.work, Bool.toNat_true, Dtor.left, hd]
    omega
  | returns hd hk =>
    simp only [stepsLeft, PoolEvent.own, PoolEvent.work, Bool.toNat_true, Dtor.left, hd]
    omega

/-- Nothing is left that the pool could do on its own, unless a task returns. -/
def Quiet (s : ThreadPool τ) : Prop :=
  ∀ e : PoolEvent τ, e.own = true → (∀ i, e ≠ .finish i) → (threadPool τ).step s e = none

section
variable {s : ThreadPool τ} (hq : s.Quiet) (hd : s.dtor ≠ .returned)
include hq hd

theorem Quiet.no_checking : .checking ∉ s.workers := by
  intro hm
  obtain ⟨i, hi⟩ := List.mem_iff_getElem?.1 hm
  have h : s.check i = none := (if_neg hd).symm.trans (hq (.check i) rfl nofun)
  simp only [check, hi] at h
  cases ht : s.tasks with
  | nil => simp only [ht, reduceCtorEq] at h
  | cons t ts => simp only [ht, reduceCtorEq] at h

theorem Quiet.notifying_eq : s.notifying = [] := by
  cases hc : s.notifying with
  | nil => rfl
  | cons c cs =>
    have hm : c ∈ s.notifying := hc ▸ List.mem_cons_self
    have h (w : Option Nat) : s.notifyOne c w = none :=
      (if_neg hd).symm.trans (hq (.notifyOne c w) rfl nofun)
    simp only [notifyOne, if_pos hm] at h
    by_cases hw : .waiting ∈ s.workers
    · obtain ⟨i, hi⟩ := List.mem_iff_getElem?.1 hw
      have h := h (some i)
      simp only [wake, hi, reduceCtorEq] at h
    · have h := h none
      rw [if_neg fun ha => hw ((any_isWaiting _).1 ha)] at h
      cases h

theorem Quiet.workers (hw : w ∈ s.workers) :
    w = .waiting ∨ w = .exited ∨ ∃ t, w = .running t := by
  cases w with
  | checking => exact absurd hw (hq.no_checking hd)
  | waiting => exact .inl rfl
  | running t => exact .inr (.inr ⟨t, rfl⟩)
  | exited => exact .inr (.inl rfl)

theorem Quiet.dtor_cases (hdown : Teardown s) :
    s.dtor = .notCalled ∨ ∃ k t, s.dtor = .joining k ∧ s.workers[k]? = some (.running t) := by
  cases hphase : s.dtor with
  | notCalled => exact .inl rfl
  | notifying =>
    have h := (if_neg hd).symm.trans (hq .notifyAll rfl nofun)
    cases (if_pos hphase).symm.trans h
  | joining k =>
    have hstop : s.stop = true := hdown.stopped.2 (by rw [hphase]; simp)
    have h : s.join = none := (if_neg hd).symm.trans (hq .join rfl nofun)
    cases hk : s.workers[k]? with
    | none => simp only [join, hphase, hk, reduceCtorEq] at h
    | some w =>
      rcases hq.workers hd (List.mem_of_getElem? hk) with rfl | rfl | ⟨t, rfl⟩
      · cases hphase.symm.trans (hdown.asleep (List.mem_of_getElem? hk) hstop)
      · simp only [join, hphase, hk, reduceCtorEq] at h
      · exact .inr ⟨k, t, rfl, hk⟩
  | returned => exact absurd hphase hd

theorem Quiet.tasks_or (hdown : Teardown s) (hawake : .waiting ∈ s.workers →
    s.tasks.length ≤ s.ready + s.notifying.length) :
    s.tasks = [] ∨ ∀ w ∈ s.workers, ∃ t, w = .running t := by
  by_cases htasks : s.tasks = []
  · exact .inl htasks
  · right
    intro w hw
    rcases hq.workers hd hw with rfl | rfl | h
    · have hle := hawake hw
      have hready : s.ready = 0 := Parts.total_eq_zero fun v hv => by
        rcases hq.workers hd hv with rfl | rfl | ⟨t, rfl⟩
        · rfl
        · rfl
        · rfl
      rw [hready, hq.notifying_eq hd] at hle
      exact absurd (List.length_eq_zero_iff.1 (Nat.le_zero.1 hle)) htasks
    · exact absurd (hdown.left hw).2 htasks
    · exact h

end

end ThreadPool

/-- Termination: whatever the interleaving, the pool takes no more steps of its own than were
left to it and than the calls and the spurious wakeups of the run make for it. -/
theorem pool_terminates {s s' : ThreadPool τ} (h : (threadPool τ).run s es = some s') :
    s'.stepsLeft + es.countP PoolEvent.own ≤
      s.stepsLeft + Parts.total (PoolEvent.work s.workers.length) es := by
  have hpays := Machine.run_pays (I := fun t => t.workers.length = s.workers.length)
    ThreadPool.stepsLeft (fun e => e.own.toNat) (PoolEvent.work s.workers.length)
    (fun t e t' ht he => (ThreadPool.length_workers (ThreadPool.effect he)).trans ht)
    (fun t e t' ht he => ht ▸ ThreadPool.stepsLeft_effect (ThreadPool.effect he)) rfl h
  rwa [Parts.total_toNat] at hpays

/-- One task for one worker, which waits again afterwards. -/
def oneTask : List (PoolEvent Nat) :=
  [.enqueue .client 7, .notifyOne .client none, .check 0, .finish 0, .check 0]

def afterOneTask : ThreadPool Nat := ⟨[.waiting], [], false, .notCalled, [], [7], [7], [7]⟩

theorem run_oneTask : (threadPool Nat).run (.new 1) oneTask = some afterOneTask := rfl

theorem pool_terminates_one :
    afterOneTask.stepsLeft + oneTask.countP PoolEvent.own ≤
      (ThreadPool.new 1 : ThreadPool Nat).stepsLeft + Parts.total (PoolEvent.work 1) oneTask :=
  pool_terminates run_oneTask

theorem not_running_of_inTask {s : ThreadPool τ} (h : s.inTask = []) : .running t ∉ s.workers := by
  intro hm
  have hin : t ∈ s.inTask := List.mem_filterMap.2 ⟨_, hm, rfl⟩
  rw [h] at hin
  cases hin

/-- A pool comes to a halt only for tasks that run on: what is queued then has no worker left, and
a destructor that is held up joins such a worker. If none runs and there is a worker, every accepted
task is finished, and all workers wait or, once the pool is being destroyed, are gone. -/
theorem pool_drains (h : (threadPool τ).Reach Machine.Free (.new n) s) (hq : s.Quiet) :
    (s.tasks = [] ∨ ∀ w ∈ s.workers, ∃ t, w = .running t) ∧
      (s.stop = true → s.dtor = .returned ∨
        ∃ k t, s.dtor = .joining k ∧ s.workers[k]? = some (.running t)) ∧
      (0 < n → s.inTask = [] → s.tasks = [] ∧ s.finished.Perm s.accepted ∧
        (s.stop = false → ∀ w ∈ s.workers, w = .waiting) ∧
        (s.stop = true → s.dtor = .returned ∧ ∀ w ∈ s.workers, w = .exited)) := by
  have hdown := ThreadPool.Teardown.of_reach h
  have hledger := ThreadPool.Ledger.of_reach h
  have hlen := ThreadPool.length_workers_of_reach h
  by_cases hd : s.dtor = .returned
  · have hexit := ThreadPool.all_exited hdown hd
    have hstop : s.stop = true := hdown.stopped.2 (by rw [hd]; simp)
    have htasks (hn : 0 < n) := ThreadPool.tasks_of_returned h hn hd
    refine ⟨?_, fun _ => .inl hd, ?_⟩
    · rcases Nat.eq_zero_or_pos n with rfl | hn
      · right
        intro w hw
        rw [List.length_eq_zero_iff.1 hlen] at hw
        cases hw
      · exact .inl (htasks hn)
    · intro hn _
      refine ⟨htasks hn, hledger.finished_perm ?_ (htasks hn), ?_, fun _ => ⟨hd, hexit⟩⟩
      · intro w hw
        rw [hexit w hw]
        rfl
      · intro hgoing
        cases hgoing.symm.trans hstop
  · have hphase := hq.dtor_cases hd hdown
    have htasks := hq.tasks_or hd hdown (ThreadPool.Awake.of_reach h)
    refine ⟨htasks, ?_, ?_⟩
    · intro hstop
      exact .inr (hphase.resolve_left (hdown.stopped.1 hstop))
    · intro hn hidle
      have hrun (t : τ) : .running t ∉ s.workers := not_running_of_inTask hidle
      have hgoing : s.stop ≠ true := by
        intro hstop
        obtain ⟨k, t, _, hk⟩ := hphase.resolve_left (hdown.stopped.1 hstop)
        exact hrun t (List.mem_of_getElem? hk)
      have hwait : ∀ w ∈ s.workers, w = .waiting := by
        intro w hw
        rcases hq.workers hd hw with h | rfl | ⟨t, rfl⟩
        · exact h
        · exact absurd (hdown.left hw).1 hgoing
        · exact absurd hw (hrun t)
      have hnil : s.tasks = [] := by
        refine htasks.resolve_right fun hall => ?_
        obtain ⟨w, hw⟩ := List.exists_mem_of_length_pos (hlen ▸ hn)
        obtain ⟨t, rfl⟩ := hall w hw
        exact hrun t hw
      refine ⟨hnil, hledger.finished_perm ?_ hnil, fun _ => hwait, fun hs => absurd hs hgoing⟩
      intro w hw
      rw [hwait w hw]
      rfl

theorem afterOneTask_quiet : afterOneTask.Quiet := by
  intro e he hne
  cases e with
  | enqueue c t => cases he
  | notifyOne c w => rfl
  | wakeUp i => cases he
  | check i =>
    cases i with
    | zero => rfl
    | succ i => rfl
  | finish i => exact absurd rfl (hne i)
  | destroy => cases he
  | notifyAll => rfl
  | join => rfl

/-- The only worker runs a task, which has queued a second one and waits for its result. -/
def afterBlocked : ThreadPool Nat := ⟨[.running 7], [8], false, .notCalled, [], [7, 8], [7], []⟩

theorem afterBlocked_quiet : afterBlocked.Quiet := by
  intro e he hne
  cases e with
  | enqueue c t => cases he
  | notifyOne c w => rfl
  | wakeUp i => cases he
  | check i =>
    cases i with
    | zero => rfl
    | succ i => rfl
  | finish i => exact absurd rfl (hne i)
  | destroy => cases he
  | notifyAll => rfl
  | join => rfl

/-- After one task the pool is drained, and a task that waits for another one stops it. -/
theorem pool_drains_one :
    (∃ s, (threadPool Nat).run (.new 1) oneTask = some s ∧ s.tasks = [] ∧
      s.finished.Perm s.accepted ∧ ∀ w ∈ s.workers, w = .waiting) ∧
    ∃ s, (threadPool Nat).run (.new 1) [.enqueue .client 7, .notifyOne .client none, .check 0,
        .enqueue (.task 0) 8, .notifyOne (.task 0) none] = some s ∧
      s.tasks = [8] ∧ ∀ w ∈ s.workers, ∃ t, w = .running t := by
  constructor
  · obtain ⟨_, _, hidle⟩ := pool_drains (Machine.reach_of_run run_oneTask) afterOneTask_quiet
    obtain ⟨htasks, hperm, hwait, _⟩ := hidle Nat.one_pos rfl
    exact ⟨afterOneTask, run_oneTask, htasks, hperm, hwait rfl⟩
  · have hr : (threadPool Nat).run (.new 1) [.enqueue .client 7, .notifyOne .client none,
        .check 0, .enqueue (.task 0) 8, .notifyOne (.task 0) none] = some afterBlocked := rfl
    obtain ⟨hbusy, _, _⟩ := pool_drains (Machine.reach_of_run hr) afterBlocked_quiet
    exact ⟨afterBlocked, hr, rfl, hbusy.resolve_left (by decide)⟩

end TeleopLedBenchmarks
