import TeleopLedBenchmarks.HandlerEffect
import TeleopLedBenchmarks.Timer

namespace TeleopLedBenchmarks
set_option autoImplicit true

/-- `configTICK_RATE_HZ`. A tick is a whole number of milliseconds. -/
structure TickRate where
  hz : Nat
  divides : hz ∣ 1000

/-- `NO_DATA_TIMEOUT_SEC`. -/
def noDataTimeoutSec : Nat := 5

namespace TickRate

def portTickPeriodMs (rate : TickRate) : Nat := 1000 / rate.hz

/-- The period `websocketAppStart` creates its timer with. -/
def timerPeriod (rate : TickRate) : Nat := noDataTimeoutSec * 1000 / rate.portTickPeriodMs

end TickRate

/-- The program from the start of its WebSocket client on. `gives` are the ticks at which
`shutdownSema` was given. -/
structure WebsocketTask where
  device : Device
  shutdownSignalTimer : Timer
  gives : List Nat
  deriving DecidableEq, Repr

def websocketAppStart (rate : TickRate) : WebsocketTask where
  device := .new
  shutdownSignalTimer := .create rate.timerPeriod
  gives := []

def shutdownSignaler (now : Nat) (a : WebsocketTask) : WebsocketTask :=
  { a with
    device := a.device.emit (.logInfo "No data received for 5 seconds, signaling shutdown")
    gives := a.gives ++ [now] }

/-- The events delivered at each tick after the start of the client. -/
abbrev Schedule := Nat → List (WebsocketEventId × WebsocketEventData)

section
variable (cJsonParse : List Byte → Option CJson)

/-- The handler on one event. What it outputs may be a reset of the timer. -/
def deliver (now : Nat) (a : WebsocketTask) (e : WebsocketEventId × WebsocketEventData) :
    WebsocketTask :=
  match (websocketApp cJsonParse).step a.device e with
  | none => a
  | some d =>
    { a with
      device := d
      shutdownSignalTimer :=
        if .resetTimer ∈ d.outputs.drop a.device.outputs.length then
          a.shutdownSignalTimer.reset now
        else a.shutdownSignalTimer }

/-- A tick of a device that has not crashed: a timer that is due expires, then the handler runs. -/
def tick (now : Nat) (es : List (WebsocketEventId × WebsocketEventData)) (a : WebsocketTask) :
    WebsocketTask :=
  if a.device.fault.isSome then a
  else
    let a := if a.shutdownSignalTimer.due now then
        shutdownSignaler now { a with shutdownSignalTimer := a.shutdownSignalTimer.expire }
      else a
    es.foldl (deliver cJsonParse now) a

/-- The program at the beginning of a tick. -/
def taskAt (rate : TickRate) (events : Schedule) : Nat → WebsocketTask
  | 0 => websocketAppStart rate
  | n + 1 => tick cJsonParse n (events n) (taskAt rate events n)

/-- `shutdownSignaler` gives the semaphore at tick `n`. -/
def GivesAt (rate : TickRate) (events : Schedule) (n : Nat) : Prop :=
  n ∈ (taskAt cJsonParse rate events (n + 1)).gives

/-- No event before tick `n` crashes the handler. -/
def CrashFree (events : Schedule) (n : Nat) : Prop :=
  ∀ m < n, ∀ e ∈ events m, crashes cJsonParse e = false

end

def dataAt (events : Schedule) (n : Nat) : Bool := (events n).any fun e => e.1 = .data

/-- The last tick before `n` with a data event, or the start of the client. -/
def lastActivity (events : Schedule) : Nat → Nat
  | 0 => 0
  | n + 1 => if dataAt events n then n else lastActivity events n

/-- At tick `n` there has been no data for `NO_DATA_TIMEOUT_SEC` seconds. -/
def Silent (rate : TickRate) (events : Schedule) (n : Nat) : Prop :=
  lastActivity events n + noDataTimeoutSec * rate.hz ≤ n

/-- The first give is at the first silent tick, if there is one. -/
def ShutsDownOnSilence (cJsonParse : List Byte → Option CJson) (rate : TickRate)
    (events : Schedule) : Prop :=
  ∀ n, IsLeast {n | GivesAt cJsonParse rate events n} n ↔ IsLeast {n | Silent rate events n} n

section
variable {cJsonParse : List Byte → Option CJson} {rate : TickRate} {events : Schedule}

theorem TickRate.hz_pos (rate : TickRate) : 0 < rate.hz :=
  Nat.pos_of_dvd_of_pos rate.divides (by decide)

theorem TickRate.timerPeriod_eq (rate : TickRate) :
    rate.timerPeriod = noDataTimeoutSec * rate.hz := by
  obtain ⟨ms, hms⟩ := rate.divides
  have hpos : 0 < ms := Nat.pos_of_ne_zero fun h => by simp [h] at hms
  rw [timerPeriod, portTickPeriodMs, hms, Nat.mul_div_cancel_left _ rate.hz_pos, ← Nat.mul_assoc,
    Nat.mul_div_cancel _ hpos]

theorem deliver_eq (now : Nat) (os : List Output) (t : Timer) (gives : List Nat)
    (e : WebsocketEventId × WebsocketEventData) :
    deliver cJsonParse now ⟨⟨os, none⟩, t, gives⟩ e =
      ⟨⟨os ++ (eventEffect cJsonParse e).outputs, (eventEffect cJsonParse e).fault⟩,
        if e.1 = .data ∧ crashes cJsonParse e = false then t.reset now else t, gives⟩ := by
  have hs : (websocketApp cJsonParse).step ⟨os, none⟩ e =
      some (websocketEventHandler cJsonParse e.1 e.2 ⟨os, none⟩) := rfl
  simp only [deliver, hs, websocketEventHandler_eq, List.drop_left, resetTimer_mem_eventEffect]

theorem deliver_crashed {a : WebsocketTask} (h : a.device.fault ≠ none) (now : Nat)
    (es : List (WebsocketEventId × WebsocketEventData)) :
    es.foldl (deliver cJsonParse now) a = a := by
  induction es with
  | nil => rfl
  | cons e es ih =>
    have hs : (websocketApp cJsonParse).step a.device e = none :=
      if_pos (Option.isSome_iff_ne_none.2 h)
    rw [List.foldl_cons, deliver, hs]
    exact ih

theorem deliver_gives (now : Nat) (es : List (WebsocketEventId × WebsocketEventData))
    (a : WebsocketTask) : (es.foldl (deliver cJsonParse now) a).gives = a.gives := by
  induction es generalizing a with
  | nil => rfl
  | cons e es ih =>
    rw [List.foldl_cons, ih, deliver]
    split <;> rfl

theorem deliver_all (cJsonParse : List Byte → Option CJson) (now : Nat)
    (es : List (WebsocketEventId × WebsocketEventData)) (os : List Output) (t : Timer)
    (gives : List Nat) :
    let a := es.foldl (deliver cJsonParse now) ⟨⟨os, none⟩, t, gives⟩
    (a.device.fault = none ↔ ∀ e ∈ es, crashes cJsonParse e = false) ∧
      (a.device.fault = none → a.shutdownSignalTimer =
        if es.any fun e => e.1 = .data then t.reset now else t) := by
  induction es generalizing os t with
  | nil => exact ⟨iff_of_true rfl fun _ he => absurd he List.not_mem_nil, fun _ => rfl⟩
  | cons e es ih =>
    simp only [List.foldl_cons, deliver_eq, eventEffect_fault, List.forall_mem_cons,
      List.any_cons]
    cases hc : crashes cJsonParse e with
    | true =>
      rw [if_pos rfl, deliver_crashed (by nofun)]
      simp
    | false =>
      simp only [Bool.false_eq_true, if_false, and_true, true_and]
      obtain ⟨hfault, htimer⟩ := ih (os ++ (eventEffect cJsonParse e).outputs)
        (if e.1 = .data then t.reset now else t)
      refine ⟨hfault, fun h => (htimer h).trans ?_⟩
      by_cases hid : e.1 = .data
      · simp [hid, Timer.reset]
      · simp only [hid, if_false, decide_false, Bool.false_or]

theorem CrashFree.succ : CrashFree cJsonParse events (n + 1) ↔
    CrashFree cJsonParse events n ∧ ∀ e ∈ events n, crashes cJsonParse e = false :=
  Nat.forall_lt_succ_right

theorem tick_eq (cJsonParse : List Byte → Option CJson) (now : Nat)
    (es : List (WebsocketEventId × WebsocketEventData)) {a : WebsocketTask}
    (h : a.device.fault = none) :
    ∃ os, tick cJsonParse now es a = es.foldl (deliver cJsonParse now) ⟨⟨os, none⟩,
      if a.shutdownSignalTimer.due now then a.shutdownSignalTimer.expire
      else a.shutdownSignalTimer,
      if a.shutdownSignalTimer.due now then a.gives ++ [now] else a.gives⟩ := by
  obtain ⟨⟨os, fault⟩, t, gives⟩ := a
  cases h
  cases hd : t.due now with
  | true => exact ⟨_, by simp only [tick, hd]; rfl⟩
  | false => exact ⟨_, by simp only [tick, hd]; rfl⟩

/-- Until an event crashes the handler, the timer is one that every tick with data resets. -/
theorem taskAt_timer (cJsonParse : List Byte → Option CJson) (rate : TickRate)
    (events : Schedule) (n : Nat) :
    ((taskAt cJsonParse rate events n).device.fault = none ↔ CrashFree cJsonParse events n) ∧
      (CrashFree cJsonParse events n → (taskAt cJsonParse rate events n).shutdownSignalTimer =
        Timer.run (dataAt events) rate.timerPeriod n) := by
  induction n with
  | zero => exact ⟨iff_of_true rfl fun m hm => absurd hm (Nat.not_lt_zero m), fun _ => rfl⟩
  | succ n ih =>
    obtain ⟨hfault, htimer⟩ := ih
    rw [taskAt, CrashFree.succ]
    by_cases hc : CrashFree cJsonParse events n
    · obtain ⟨os, htick⟩ := tick_eq cJsonParse n (events n) (hfault.2 hc)
      rw [htick]
      obtain ⟨hf, ht⟩ := deliver_all cJsonParse n (events n) os _ _
      refine ⟨hf.trans (by simp [hc]), fun h => (ht (hf.2 h.2)).trans ?_⟩
      rw [htimer hc]
      rfl
    · have hsome : (taskAt cJsonParse rate events n).device.fault ≠ none :=
        fun h => hc (hfault.1 h)
      rw [tick, if_pos (Option.isSome_iff_ne_none.2 hsome)]
      exact ⟨iff_of_false hsome fun h => hc h.1, fun h => (hc h.1).elim⟩

theorem mem_gives_iff (n m : Nat) : m ∈ (taskAt cJsonParse rate events n).gives ↔
    m < n ∧ CrashFree cJsonParse events m ∧
      (Timer.run (dataAt events) rate.timerPeriod m).due m = true := by
  induction n with
  | zero => exact iff_of_false List.not_mem_nil fun h => Nat.not_lt_zero m h.1
  | succ n ih =>
    obtain ⟨hfault, htimer⟩ := taskAt_timer cJsonParse rate events n
    rw [taskAt, Nat.lt_succ_iff_lt_or_eq, or_and_right, ← ih]
    by_cases hc : CrashFree cJsonParse events n
    · obtain ⟨os, htick⟩ := tick_eq cJsonParse n (events n) (hfault.2 hc)
      rw [htick, deliver_gives, htimer hc]
      split
      · next hd =>
        rw [List.mem_append, List.mem_singleton]
        apply or_congr_right
        constructor
        · rintro rfl
          exact ⟨rfl, hc, hd⟩
        · exact And.left
      · next hd =>
        refine ⟨.inl, fun h => ?_⟩
        obtain h | ⟨rfl, _, hd'⟩ := h
        · exact h
        · exact (hd hd').elim
    · have hsome : (taskAt cJsonParse rate events n).device.fault ≠ none :=
        fun h => hc (hfault.1 h)
      rw [tick, if_pos (Option.isSome_iff_ne_none.2 hsome)]
      refine ⟨.inl, fun h => ?_⟩
      obtain h | ⟨rfl, hc', _⟩ := h
      · exact h
      · exact (hc hc').elim

theorem givesAt_iff (n : Nat) : GivesAt cJsonParse rate events n ↔
    CrashFree cJsonParse events n ∧
      (Timer.run (dataAt events) rate.timerPeriod n).due n = true := by
  rw [GivesAt, mem_gives_iff]
  exact and_iff_right (Nat.lt_succ_self n)

theorem isLeast_givesAt_iff : IsLeast {n | GivesAt cJsonParse rate events n} n ↔
    IsLeast {n | (Timer.run (dataAt events) rate.timerPeriod n).due n = true} n ∧
      CrashFree cJsonParse events n := by
  constructor
  · rintro ⟨hg, hleast⟩
    obtain ⟨hc, hd⟩ := (givesAt_iff n).1 hg
    refine ⟨⟨hd, fun m hm => ?_⟩, hc⟩
    by_contra hlt
    have hcm : CrashFree cJsonParse events m := fun k hk => hc k (hk.trans (Nat.lt_of_not_le hlt))
    exact hlt (hleast ((givesAt_iff m).2 ⟨hcm, hm⟩))
  · rintro ⟨⟨hd, hleast⟩, hc⟩
    exact ⟨(givesAt_iff n).2 ⟨hc, hd⟩, fun m hm => hleast ((givesAt_iff m).1 hm).2⟩

theorem lastActivity_eq (n : Nat) :
    lastActivity events n = (Timer.lastReset (dataAt events) n).getD 0 := by
  induction n with
  | zero => rfl
  | succ n ih =>
    rw [lastActivity, Timer.lastReset]
    split
    · rfl
    · exact ih

theorem silent_iff_of_data (hm : m < noDataTimeoutSec * rate.hz) (hd : dataAt events m = true) :
    Silent rate events n ↔
      ∃ s, Timer.lastReset (dataAt events) n = some s ∧ s + rate.timerPeriod ≤ n := by
  rw [Silent, lastActivity_eq, rate.timerPeriod_eq]
  cases hl : Timer.lastReset (dataAt events) n with
  | some s => simp
  | none =>
    refine iff_of_false (fun h => ?_) nofun
    rw [Option.getD_none, Nat.zero_add] at h
    exact Bool.false_ne_true ((Timer.lastReset_eq_none_iff.1 hl m (hm.trans_le h)).symm.trans hd)

/-- Without data in time, the first silent tick is `NO_DATA_TIMEOUT_SEC` seconds after the start,
and the timer is still dormant then. -/
theorem no_data_in_time (cJsonParse : List Byte → Option CJson)
    (h : ∀ n < noDataTimeoutSec * rate.hz, dataAt events n = false) :
    IsLeast {n | Silent rate events n} (noDataTimeoutSec * rate.hz) ∧
      ¬GivesAt cJsonParse rate events (noDataTimeoutSec * rate.hz) := by
  constructor
  · have hsilent : Silent rate events (noDataTimeoutSec * rate.hz) := by
      rw [Silent, lastActivity_eq, Timer.lastReset_eq_none_iff.2 h]
      exact (Nat.zero_add _).le
    exact ⟨hsilent, fun n hn => (Nat.le_add_left _ _).trans hn⟩
  · intro hg
    have hdue := ((givesAt_iff _).1 hg).2
    rw [Timer.run_eq_create h] at hdue
    cases hdue

end

/-- The program shuts down on silence exactly if data arrives within the first period, and no
event crashes the handler before the first silent tick. -/
theorem shuts_down_on_silence_iff (cJsonParse : List Byte → Option CJson) (rate : TickRate)
    (events : Schedule) :
    ShutsDownOnSilence cJsonParse rate events ↔
      (∃ n < noDataTimeoutSec * rate.hz, dataAt events n = true) ∧
        ∀ n, IsLeast {n | Silent rate events n} n → CrashFree cJsonParse events n := by
  by_cases hdata : ∃ n < noDataTimeoutSec * rate.hz, dataAt events n = true
  · obtain ⟨m, hm, hd⟩ := hdata
    have hsilent : ∀ n, IsLeast {n | Silent rate events n} n ↔
        IsLeast {n | (Timer.run (dataAt events) rate.timerPeriod n).due n = true} n := by
      intro n
      rw [Timer.isLeast_due_iff]
      simp only [silent_iff_of_data hm hd]
    simp only [ShutsDownOnSilence, isLeast_givesAt_iff, hsilent, and_iff_left_iff_imp]
    exact (and_iff_right ⟨m, hm, hd⟩).symm
  · refine iff_of_false (fun h => ?_) fun h => hdata h.1
    have hnone : ∀ n < noDataTimeoutSec * rate.hz, dataAt events n = false := by
      intro n hn
      exact Bool.eq_false_iff.2 fun hd => hdata ⟨n, hn, hd⟩
    obtain ⟨hleast, hg⟩ := no_data_in_time cJsonParse hnone
    exact hg ((h _).2 hleast).1

/-- 100 ticks in a second, and a server that never sends anything. -/
def defaultRate : TickRate := ⟨100, by decide⟩

def silentServer : Schedule := fun _ => []

theorem silentServer_no_data (n : Nat) : dataAt silentServer n = false := rfl

theorem silentServer_never_shut_down :
    ¬ShutsDownOnSilence (fun _ => none) defaultRate silentServer ∧
      ∀ n, ¬GivesAt (fun _ => none) defaultRate silentServer n := by
  have hnone : ∀ n, ∀ m < n, dataAt silentServer m = false := fun _ m _ => silentServer_no_data m
  constructor
  · intro h
    obtain ⟨hleast, hg⟩ := no_data_in_time (fun _ => none)
      (hnone (noDataTimeoutSec * defaultRate.hz))
    exact hg ((h _).2 hleast).1
  · intro n hg
    have hdue := ((givesAt_iff n).1 hg).2
    rw [Timer.run_eq_create (hnone n)] at hdue
    cases hdue

end TeleopLedBenchmarks
