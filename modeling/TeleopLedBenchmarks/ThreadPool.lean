import TeleopLedBenchmarks.Machine
import TeleopLedBenchmarks.Parts

namespace TeleopLedBenchmarks
set_option autoImplicit true

/-- Where a thread of `workers` is: before `queue_mutex`, inside `condition.wait`, in `task()`,
returned. -/
inductive Worker (τ : Type u)
  | checking
  | waiting
  | running (task : τ)
  | exited
  deriving DecidableEq, Repr

/-- Where `~ThreadPool` is. -/
inductive Dtor
  | notCalled
  | notifying
  | joining (joined : Nat)
  | returned
  deriving DecidableEq, Repr

/-- Who calls `enqueue`: a thread of the program, or the task that a worker runs. -/
inductive Caller
  | client
  | task (worker : Nat)
  deriving DecidableEq, Repr

namespace Worker

def task? : Worker τ → Option τ
  | running t => some t
  | _ => none

def isWaiting : Worker τ → Bool
  | waiting => true
  | _ => false

/-- A wait that has been woken takes the lock again. -/
def woken : Worker τ → Worker τ
  | waiting => checking
  | w => w

end Worker

/-- The members of `ThreadPool`, the calls in progress, and the tasks that went in, were started
and came back, in order. -/
structure ThreadPool (τ : Type u) where
  workers : List (Worker τ)
  tasks : List τ
  stop : Bool
  dtor : Dtor
  notifying : List Caller  -- in `enqueue`, after the unlock and before `notify_one`
  accepted : List τ
  started : List τ
  finished : List τ
  deriving DecidableEq, Repr

/-- A critical section of `queue_mutex`, or a step that needs no lock. -/
inductive PoolEvent (τ : Type u)
  | enqueue (c : Caller) (task : τ)
  | notifyOne (c : Caller) (woken : Option Nat)
  | wakeUp (worker : Nat)  -- for no reason, as a `condition_variable` may
  | check (worker : Nat)
  | finish (worker : Nat)  -- if `task()` returns at all
  | destroy
  | notifyAll
  | join
  deriving DecidableEq, Repr

namespace ThreadPool

/-- After the constructor. Its threads may run before the last one is launched, but find no task
then. -/
def new (threads : Nat) : ThreadPool τ :=
  ⟨.replicate threads .checking, [], false, .notCalled, [], [], [], []⟩

section
variable (s : ThreadPool τ)

def setWorker (i : Nat) (w : Worker τ) : ThreadPool τ := { s with workers := s.workers.set i w }

/-- The tasks in `task()`. -/
def inTask : List τ := s.workers.filterMap Worker.task?

/-- A task runs, and is not inside another `enqueue`. -/
def mayCall : Caller → Bool
  | .client => true
  | .task i => (s.workers[i]?.bind Worker.task?).isSome && !s.notifying.contains (.task i)

/-- `enqueue` up to the unlock. On a stopped pool it throws. -/
def enqueue (c : Caller) (t : τ) : ThreadPool τ :=
  if s.stop then s
  else { s with
    tasks := s.tasks ++ [t]
    notifying := c :: s.notifying
    accepted := s.accepted ++ [t] }

def wake (i : Nat) : Option (ThreadPool τ) :=
  match s.workers[i]? with
  | some .waiting => some (s.setWorker i .checking)
  | _ => none

/-- `notify_one` wakes some waiting thread, if there is any. -/
def notifyOne (c : Caller) (woken : Option Nat) : Option (ThreadPool τ) :=
  if c ∈ s.notifying then
    let s := { s with notifying := s.notifying.erase c }
    match woken with
    | some i => s.wake i
    | none => if s.workers.any Worker.isWaiting then none else some s
  else none

/-- The worker's turn under the lock: the predicate of `wait`, `return`, or `pop`. -/
def check (i : Nat) : Option (ThreadPool τ) :=
  match s.workers[i]? with
  | some .checking => match s.tasks with
    | t :: ts => some { s.setWorker i (.running t) with tasks := ts, started := s.started ++ [t] }
    | [] => some (s.setWorker i (if s.stop then .exited else .waiting))
  | _ => none

def finish (i : Nat) : Option (ThreadPool τ) :=
  match s.workers[i]? with
  | some (.running t) =>
    if .task i ∈ s.notifying then none
    else some { s.setWorker i .checking with finished := s.finished ++ [t] }
  | _ => none

/-- One round of `for (std::thread& worker : workers) worker.join();`, or its end. -/
def join : Option (ThreadPool τ) :=
  match s.dtor with
  | .joining k => match s.workers[k]? with
    | none => some { s with dtor := .returned }
    | some .exited => some { s with dtor := .joining (k + 1) }
    | some _ => none
  | _ => none

end

end ThreadPool

/-- Every interleaving of the workers, the callers of `enqueue` and the destructor, up to the end
of the pool. -/
def threadPool (τ : Type u) : Machine (ThreadPool τ) (PoolEvent τ) where
  step s e :=
    if s.dtor = .returned then none
    else match e with
      | .enqueue c t => if s.mayCall c then some (s.enqueue c t) else none
      | .notifyOne c w => s.notifyOne c w
      | .wakeUp i => s.wake i
      | .check i => s.check i
      | .finish i => s.finish i
      | .destroy =>
        if s.dtor = .notCalled then some { s with stop := true, dtor := .notifying } else none
      | .notifyAll =>
        if s.dtor = .notifying then
          some { s with workers := s.workers.map Worker.woken, dtor := .joining 0 }
        else none
      | .join => s.join

namespace ThreadPool

section
variable (s : ThreadPool τ) (i : Nat) (w : Worker τ)

@[simp] theorem setWorker_workers : (s.setWorker i w).workers = s.workers.set i w := rfl

@[simp] theorem setWorker_tasks : (s.setWorker i w).tasks = s.tasks := rfl

@[simp] theorem setWorker_dtor : (s.setWorker i w).dtor = s.dtor := rfl

end

/-- What one step does. -/
inductive Effect (s : ThreadPool τ) : PoolEvent τ → ThreadPool τ → Prop
  | accepts (hc : s.mayCall c) (hs : s.stop = false) :
    Effect s (.enqueue c t) { s with
      tasks := s.tasks ++ [t], notifying := c :: s.notifying, accepted := s.accepted ++ [t] }
  | throws (hs : s.stop = true) : Effect s (.enqueue c t) s
  | notifies (hc : c ∈ s.notifying) (hi : s.workers[i]? = some .waiting) :
    Effect s (.notifyOne c (some i))
      { s.setWorker i .checking with notifying := s.notifying.erase c }
  | notifiesNone (hc : c ∈ s.notifying) (hw : .waiting ∉ s.workers) :
    Effect s (.notifyOne c none) { s with notifying := s.notifying.erase c }
  | wakes (hi : s.workers[i]? = some .waiting) :
    Effect s (.wakeUp i) (s.setWorker i .checking)
  | starts (hi : s.workers[i]? = some .checking) (ht : s.tasks = t :: ts) :
    Effect s (.check i)
      { s.setWorker i (.running t) with tasks := ts, started := s.started ++ [t] }
  | sleeps (hi : s.workers[i]? = some .checking) (ht : s.tasks = []) (hs : s.stop = false) :
    Effect s (.check i) (s.setWorker i .waiting)
  | exits (hi : s.workers[i]? = some .checking) (ht : s.tasks = []) (hs : s.stop = true) :
    Effect s (.check i) (s.setWorker i .exited)
  | finishes (hi : s.workers[i]? = some (.running t)) (hc : .task i ∉ s.notifying) :
    Effect s (.finish i) { s.setWorker i .checking with finished := s.finished ++ [t] }
  | stops (hd : s.dtor = .notCalled) :
    Effect s .destroy { s with stop := true, dtor := .notifying }
  | notifiesAll (hd : s.dtor = .notifying) :
    Effect s .notifyAll { s with workers := s.workers.map Worker.woken, dtor := .joining 0 }
  | joins (hd : s.dtor = .joining k) (hk : s.workers[k]? = some .exited) :
    Effect s .join { s with dtor := .joining (k + 1) }
  | returns (hd : s.dtor = .joining k) (hk : s.workers.length ≤ k) :
    Effect s .join { s with dtor := .returned }

theorem any_isWaiting (l : List (Worker τ)) : l.any Worker.isWaiting = true ↔ .waiting ∈ l := by
  rw [List.any_eq_true]
  constructor
  · rintro ⟨w, hw, h⟩
    cases w with
    | waiting => exact hw
    | checking => cases h
    | running t => cases h
    | exited => cases h
  · intro h
    exact ⟨_, h, rfl⟩

theorem wake_eq {s s' : ThreadPool τ} (h : s.wake i = some s') :
    s.workers[i]? = some .waiting ∧ s' = s.setWorker i .checking := by
  unfold wake at h
  split at h
  · next hi =>
    cases h
    exact ⟨hi, rfl⟩
  · cases h

theorem check_effect {s s' : ThreadPool τ} (h : s.check i = some s') :
    Effect s (.check i) s' := by
  unfold check at h
  split at h
  · next hi =>
    split at h
    · next ht =>
      cases h
      exact .starts hi ht
    · next ht =>
      cases h
      split
      · next hs => exact .exits hi ht hs
      · next hs => exact .sleeps hi ht (Bool.eq_false_iff.2 hs)
  · cases h

theorem finish_effect {s s' : ThreadPool τ} (h : s.finish i = some s') :
    Effect s (.finish i) s' := by
  unfold finish at h
  split at h
  · next hi =>
    obtain ⟨hc, h⟩ := Option.ite_none_left_eq_some.1 h
    cases h
    exact .finishes hi hc
  · cases h

theorem join_effect {s s' : ThreadPool τ} (h : s.join = some s') : Effect s .join s' := by
  unfold join at h
  split at h
  · next hd =>
    split at h
    · next hk =>
      cases h
      exact .returns hd (List.getElem?_eq_none_iff.1 hk)
    · next hk =>
      cases h
      exact .joins hd hk
    · cases h
  · cases h

theorem effect {s s' : ThreadPool τ} (h : (threadPool τ).step s e = some s') :
    Effect s e s' := by
  obtain ⟨-, h⟩ := Option.ite_none_left_eq_some.1 h
  cases e with
  | enqueue c t =>
    obtain ⟨hc, h⟩ := Option.ite_none_right_eq_some.1 h
    cases h
    unfold enqueue
    split
    · next hs => exact .throws hs
    · next hs => exact .accepts hc (Bool.eq_false_iff.2 hs)
  | notifyOne c w =>
    obtain ⟨hc, h⟩ := Option.ite_none_right_eq_some.1 h
    cases w with
    | some i =>
      obtain ⟨hi, rfl⟩ := wake_eq h
      exact .notifies hc hi
    | none =>
      obtain ⟨hw, h⟩ := Option.ite_none_left_eq_some.1 h
      cases h
      exact .notifiesNone hc fun hm => hw ((any_isWaiting _).2 hm)
  | wakeUp i =>
    obtain ⟨hi, rfl⟩ := wake_eq h
    exact .wakes hi
  | check i => exact check_effect h
  | finish i => exact finish_effect h
  | destroy =>
    obtain ⟨hd, h⟩ := Option.ite_none_right_eq_some.1 h
    cases h
    exact .stops hd
  | notifyAll =>
    obtain ⟨hd, h⟩ := Option.ite_none_right_eq_some.1 h
    cases h
    exact .notifiesAll hd
  | join => exact join_effect h

end ThreadPool

end TeleopLedBenchmarks
