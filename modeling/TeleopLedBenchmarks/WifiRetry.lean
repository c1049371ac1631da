import Mathlib.Data.List.Infix
import TeleopLedBenchmarks.WifiConnect

namespace TeleopLedBenchmarks
set_option autoImplicit true

/-- The disconnections in a row since the station last got an address, the latest event first. -/
def failures : List WifiEvent → Nat
  | [] => 0
  | .staDisconnected _ :: es => failures es + 1
  | .staGotIp _ :: _ => 0
  | .staConnected :: es => failures es
  | .gotIp6 _ _ :: es => failures es

def WifiEvent.isGotIp : WifiEvent → Bool
  | .staGotIp _ => true
  | _ => false

/-- The handlers have seen the address that the semaphore stands for. -/
def Wifi.Got (s : Wifi) (x : Semph) : Prop := ∃ e ∈ s.handled, .give x ∈ e.ops

/-- The disconnect handler has failed too often. -/
def Wifi.GaveUp (c : WifiConfig) (s : Wifi) : Prop := c.maxRetry.toNat < s.state.retryNum

/-- The retry counter as it is once the handler that runs has counted or reset it. -/
def counted (event : List WifiOp) (retryNum : Nat) : Nat :=
  match event with
  | .countRetry _ :: _ => retryNum + 1
  | .resetRetryNum :: _ => 0
  | _ => retryNum

/-- The retry counter as far as attempts were made for it. -/
def attempted (event : List WifiOp) (retryNum : Nat) : Nat :=
  match event with
  | .resetRetryNum :: _ => 0
  | _ => retryNum

/-- What a step of the two tasks does. -/
inductive Wifi.Steps (c : WifiConfig) (s : Wifi) : WifiStep → Wifi → Prop
  | main (r : EspErr) (hm : s.main = op :: ops) (hx : op.exec c r s.state = some q) :
    Steps c s (.main r) (s.afterMain ops q)
  | event (r : EspErr) (hm : s.event = op :: ops) (hx : op.exec c r s.state = some q) :
    Steps c s (.event r) (s.afterEvent ops q)
  | dispatch (e : WifiEvent) (hm : s.event = []) (hr : e.handler ∈ s.state.registered) :
    Steps c s (.dispatch e) { s with event := e.ops, handled := e :: s.handled }
  | shutdown (hm : s.main = []) (hr : s.result ≠ none) :
    Steps c s .shutdown { s with main := c.doDisconnect }

theorem Wifi.steps (h : (wifi c).step s e = some s') :
    s.state.aborted = false ∧ Wifi.Steps c s e s' := by
  rw [wifi] at h
  simp only at h
  split at h
  · cases h
  · rename_i ha
    apply And.intro (Bool.not_eq_true _ ▸ ha)
    cases e with
    | main r =>
      simp only at h
      cases hm : s.main with
      | nil =>
        rw [hm] at h
        cases h
      | cons op ops =>
        rw [hm] at h
        obtain ⟨q, hx, rfl⟩ := Option.map_eq_some_iff.1 h
        exact .main r hm hx
    | event r =>
      simp only at h
      cases hm : s.event with
      | nil =>
        rw [hm] at h
        cases h
      | cons op ops =>
        rw [hm] at h
        obtain ⟨q, hx, rfl⟩ := Option.map_eq_some_iff.1 h
        exact .event r hm hx
    | dispatch v =>
      simp only at h
      split at h
      · rename_i hg
        cases h
        exact .dispatch v hg.1 hg.2
      · cases h
    | shutdown =>
      simp only at h
      split at h
      · rename_i hg
        cases h
        exact .shutdown hg.1 hg.2
      · cases h

section
variable {c : WifiConfig} {op : WifiOp}

theorem mem_waits : op ∈ c.waits ↔ (∃ x ∈ c.waited, op = .take x) ∨ op = .checkRetryNum := by
  simp only [WifiConfig.waits, List.mem_append, List.mem_map, List.mem_singleton, eq_comm]

theorem mem_doDisconnect : op ∈ c.doDisconnect ↔
    (∃ h ∈ c.handlers, op = .unregister h) ∨ (∃ x ∈ c.semphs, op = .delete x) ∨
      op = .wifiDisconnect := by
  simp only [WifiConfig.doDisconnect, List.mem_append, List.mem_map, List.mem_singleton,
    or_assoc, eq_comm]

theorem mem_giveUp : op ∈ c.giveUp ↔ (∃ x ∈ c.semphs, op = .give x) ∨ op ∈ c.doDisconnect := by
  simp only [WifiConfig.giveUp, List.mem_append, List.mem_map, eq_comm]

end

section
variable {c : WifiConfig} {op : WifiOp} {s : WifiState} {q : WifiState × WifiNext}

namespace WifiOp

def retryNumAfter (t : WifiState) : WifiOp → Nat
  | .countRetry _ => t.retryNum + 1
  | .resetRetryNum => 0
  | _ => t.retryNum

def registeredAfter (t : WifiState) : WifiOp → List WifiHandler
  | .unregister h => t.registered.filter (· ≠ h)
  | _ => t.registered

def givenAfter (t : WifiState) : WifiOp → List Semph
  | .take x => t.given.erase x
  | .give x => if x ∈ t.created then t.given.insert x else t.given
  | _ => t.given

/-- The call that a statement makes on a semaphore. -/
def callOn (t : WifiState) : WifiOp → List (HandleCall Semph)
  | .take x => [.used x]
  | .give x => if x ∈ t.created then [.used x] else []
  | .delete x => if x ∈ t.created then [.closed x] else []
  | _ => []

/-- What a statement does to each field that the other statements read. -/
structure Effect (op : WifiOp) (s t : WifiState) : Prop where
  retryNum : t.retryNum = op.retryNumAfter s
  attempts : t.attempts = s.attempts + if op = .reconnect then 1 else 0
  registered : t.registered = op.registeredAfter s
  created : t.created = s.created
  given : t.given = op.givenAfter s
  calls : t.calls = s.calls ++ op.callOn s

end WifiOp

theorem WifiOp.exec_effect (h : op.exec c r s = some q) : op.Effect s q.1 := by
  have hsame : s.calls = s.calls ++ [] := (List.append_nil _).symm
  cases op with
  | take x =>
    rw [WifiOp.exec] at h
    split at h
    · cases h
      exact ⟨rfl, rfl, rfl, rfl, rfl, rfl⟩
    · cases h
  | give x =>
    cases h
    simp only [WifiState.give_eq]
    refine ⟨rfl, rfl, rfl, rfl, rfl, ?_⟩
    simp only [callOn]
    split
    · rfl
    · exact hsame
  | delete x =>
    cases h
    simp only [WifiState.delete_eq]
    refine ⟨rfl, rfl, rfl, rfl, rfl, ?_⟩
    simp only [callOn]
    split
    · rfl
    · exact hsame
  | reconnect =>
    cases h
    simp only
    split
    · exact ⟨rfl, rfl, rfl, rfl, rfl, hsame⟩
    · exact ⟨rfl, rfl, rfl, rfl, rfl, hsame⟩
  | _ =>
    cases h
    exact ⟨rfl, rfl, rfl, rfl, rfl, hsame⟩

theorem WifiOp.Effect.quiet (h : op.Effect s t)
    (hop : op ∈ c.waits ∨ op ∈ c.giveUp) :
    t.retryNum = s.retryNum ∧ t.attempts = s.attempts ∧
      ∀ k ∈ t.registered, k ∈ s.registered ∧ op ≠ .unregister k := by
  obtain ⟨hn, ha, hr, -, -, -⟩ := h
  rw [mem_waits, mem_giveUp, mem_doDisconnect] at hop
  rcases hop with (⟨x, _, rfl⟩ | rfl) | ⟨x, _, rfl⟩ | ⟨k, _, rfl⟩ | ⟨x, _, rfl⟩ | rfl
  case inr.inr.inl =>
    apply And.intro hn (And.intro ha _)
    intro k' hk'
    rw [hr, WifiOp.registeredAfter, List.mem_filter, decide_eq_true_iff] at hk'
    apply And.intro hk'.1
    rintro ⟨⟩
    exact hk'.2 rfl
  all_goals
    refine ⟨hn, ha, ?_⟩
    intro k hk
    rw [hr] at hk
    exact ⟨hk, nofun⟩

theorem exec_giveUp (h : op.exec c r s = some q) (hop : op ∈ c.giveUp) : q.2 = .goOn := by
  rw [mem_giveUp, mem_doDisconnect] at hop
  rcases hop with ⟨x, _, rfl⟩ | ⟨k, _, rfl⟩ | ⟨x, _, rfl⟩ | rfl
  all_goals
    cases h
    rfl

theorem exec_waits (h : op.exec c r s = some q) (hop : op ∈ c.waits) :
    (∃ x ∈ c.waited, op = .take x ∧ x ∈ s.given ∧ q.2 = .goOn) ∨ op = .checkRetryNum ∧
      q.2 = .ret (if c.maxRetry < s.retryNum then .fail else .ok) := by
  rcases mem_waits.1 hop with ⟨x, hx, rfl⟩ | rfl
  · rw [WifiOp.exec] at h
    split at h
    · rename_i hg
      cases h
      exact .inl ⟨x, hx, rfl, hg, rfl⟩
    · cases h
  · cases h
    exact .inr ⟨rfl, rfl⟩

/-- A disconnection counts as one too many also if the maximum is negative. -/
theorem exec_countRetry (h : (WifiOp.countRetry b).exec c r s = some q) :
    q = ({ s with retryNum := s.retryNum + 1 }, .jump
      (if c.maxRetry.toNat < s.retryNum + 1 then c.giveUp
        else if b then [] else [.reconnect])) := by
  have hmax : c.maxRetry < ((s.retryNum + 1 : Nat) : Int) ↔ c.maxRetry.toNat < s.retryNum + 1 := by
    omega
  simp only [WifiOp.exec, hmax, Option.some.injEq] at h
  exact h.symm

/-- The statements that do not touch the retry counter and attempt nothing. -/
def WifiOp.IsQuiet : WifiOp → Prop
  | .countRetry _ | .reconnect | .resetRetryNum => False
  | _ => True

theorem quiet_of_mem_giveUp (h : op ∈ c.giveUp) : op.IsQuiet := by
  rw [mem_giveUp, mem_doDisconnect] at h
  rcases h with ⟨x, _, rfl⟩ | ⟨k, _, rfl⟩ | ⟨x, _, rfl⟩ | rfl
  all_goals trivial

theorem quiet_ops (h : ∀ op ∈ ops, op.IsQuiet) (n : Nat) :
    counted ops n = n ∧ attempted ops n = n ∧ .reconnect ∉ ops := by
  have hno : .reconnect ∉ ops := fun hm => h _ hm
  cases ops with
  | nil => exact ⟨rfl, rfl, hno⟩
  | cons op ops =>
    have hop := h op List.mem_cons_self
    cases op with
    | countRetry b => exact hop.elim
    | resetRetryNum => exact hop.elim
    | _ => exact ⟨rfl, rfl, hno⟩

theorem quiet_of_mem_give {b : Bool} (h : op ∈ if b then [.give x] else []) : op.IsQuiet := by
  cases b with
  | true =>
    cases List.mem_singleton.1 h
    trivial
  | false => cases h

theorem handler_ops {e : WifiEvent} (h : op :: ops <:+ e.ops) :
    (∃ b, e = .staDisconnected b ∧ op = .countRetry b ∧ ops = []) ∨
      (∃ d, e = .staGotIp d ∧ op = .resetRetryNum ∧ ∀ op ∈ ops, op.IsQuiet) ∨
      ∃ x, op = .give x ∧ ops = [] := by
  have hone (x : Semph) (b : Bool) (h : op :: ops <:+ if b then [.give x] else []) :
      op = .give x ∧ ops = [] := by
    cases b with
    | true =>
      rcases List.suffix_cons_iff.1 h with he | hs
      · cases he
        exact ⟨rfl, rfl⟩
      · cases List.suffix_nil.1 hs
    | false => cases List.suffix_nil.1 h
  cases e with
  | staDisconnected b =>
    rcases List.suffix_cons_iff.1 h with he | hs
    · cases he
      exact .inl ⟨b, rfl, rfl, rfl⟩
    · cases List.suffix_nil.1 hs
  | staGotIp d =>
    rcases List.suffix_cons_iff.1 h with he | hs
    · cases he
      exact .inr (.inl ⟨d, rfl, rfl, fun op hop => quiet_of_mem_give hop⟩)
    · exact .inr (.inr ⟨_, hone _ _ hs⟩)
  | staConnected => cases List.suffix_nil.1 h
  | gotIp6 d b => exact .inr (.inr ⟨_, hone _ _ h⟩)

end

/-- Where the event task is. -/
inductive EventPhase (c : WifiConfig) (t : WifiState) (event : List WifiOp)
    (handled : List WifiEvent) : Prop
  | idle (hn : t.retryNum ≤ c.maxRetry.toNat) (he : event = [])
  | reconnect (hn : t.retryNum ≤ c.maxRetry.toNat) (he : event = [.reconnect])
  | handler (hn : t.retryNum ≤ c.maxRetry.toNat) (e : WifiEvent) (hh : e ∈ handled)
    (he : event <:+ e.ops)
  | gaveUp (hn : t.retryNum = c.maxRetry.toNat + 1) (he : event <:+ c.giveUp)
    (hr : ∀ h ∈ t.registered, .unregister h ∈ event)

/-- Where the two tasks are. -/
structure Wifi.Tasks (c : WifiConfig) (s : Wifi) : Prop where
  waits : s.result = none → s.main <:+ c.waits
  returned : s.result ≠ none → s.main <:+ c.doDisconnect
  known : ∀ h ∈ s.state.registered, h ∈ c.handlers
  phase : EventPhase c s.state s.event s.handled

theorem suffix_of_cons {l m : List α} (h : l <:+ m) (hl : l = a :: as) : as <:+ m :=
  (hl ▸ List.suffix_cons a as : as <:+ l).trans h

theorem mem_of_suffix {l m : List α} (h : l <:+ m) (hl : l = a :: as) : a ∈ m :=
  h.subset (hl ▸ List.mem_cons_self)

section
variable {c : WifiConfig} {s s' : Wifi}

theorem EventPhase.quiet {t t' : WifiState} {event : List WifiOp} {handled : List WifiEvent}
    (h : EventPhase c t event handled) (hn : t'.retryNum = t.retryNum)
    (hr : ∀ k ∈ t'.registered, k ∈ t.registered) : EventPhase c t' event handled := by
  rcases h with ⟨hle, he⟩ | ⟨hle, he⟩ | ⟨hle, e, hh, he⟩ | ⟨heq, he, hun⟩
  · exact .idle (hn ▸ hle) he
  · exact .reconnect (hn ▸ hle) he
  · exact .handler (hn ▸ hle) e hh he
  · exact .gaveUp (hn ▸ heq) he fun k hk => hun k (hr k hk)

theorem Wifi.Tasks.main_mem (h : s.Tasks c) (hm : s.main = op :: ops) :
    s.result = none ∧ op ∈ c.waits ∨ s.result ≠ none ∧ op ∈ c.doDisconnect := by
  by_cases hr : s.result = none
  · exact .inl ⟨hr, mem_of_suffix (h.waits hr) hm⟩
  · exact .inr ⟨hr, mem_of_suffix (h.returned hr) hm⟩

theorem Wifi.Tasks.main (h : s.Tasks c) (hm : s.main = op :: ops)
    (hx : op.exec c r s.state = some q) : (s.afterMain ops q).Tasks c := by
  have hop : op ∈ c.waits ∨ op ∈ c.giveUp := by
    rcases h.main_mem hm with ⟨_, hop⟩ | ⟨_, hop⟩
    · exact .inl hop
    · exact .inr (mem_giveUp.2 (.inr hop))
  obtain ⟨hn, -, hreg⟩ := (WifiOp.exec_effect hx).quiet hop
  have hphase := h.phase.quiet hn fun k hk => (hreg k hk).1
  have hknown : ∀ k ∈ q.1.registered, k ∈ c.handlers := by
    intro k hk
    exact h.known k (hreg k hk).1
  have hgo (hq : q.2 = .goOn) : (s.afterMain ops q).Tasks c := by
    obtain ⟨t, next⟩ := q
    cases hq
    apply Tasks.mk _ _ hknown hphase
    · intro hr
      exact suffix_of_cons (h.waits hr) hm
    · intro hr
      exact suffix_of_cons (h.returned hr) hm
  rcases h.main_mem hm with ⟨_, hop⟩ | ⟨_, hop⟩
  · rcases exec_waits hx hop with ⟨x, _, _, _, hq⟩ | ⟨_, hq⟩
    · exact hgo hq
    · obtain ⟨t, next⟩ := q
      cases hq
      apply Tasks.mk _ _ hknown hphase
      · rintro ⟨⟩
      · intro _
        exact List.nil_suffix
  · exact hgo (exec_giveUp hx (mem_giveUp.2 (.inr hop)))

theorem Wifi.Tasks.event (h : s.Tasks c) (hm : s.event = op :: ops)
    (hx : op.exec c r s.state = some q) : (s.afterEvent ops q).Tasks c := by
  have heff := WifiOp.exec_effect hx
  have hreg : ∀ k ∈ q.1.registered, k ∈ s.state.registered := by
    intro k hk
    rw [heff.registered] at hk
    unfold WifiOp.registeredAfter at hk
    split at hk
    · exact List.mem_of_mem_filter hk
    · exact hk
  have hknown : ∀ k ∈ q.1.registered, k ∈ c.handlers := by
    intro k hk
    exact h.known k (hreg k hk)
  have hphase : EventPhase c (s.afterEvent ops q).state (s.afterEvent ops q).event s.handled := by
    rcases h.phase with ⟨_, he⟩ | ⟨hle, he⟩ | ⟨hle, e, hh, he⟩ | ⟨heq, he, hun⟩
    · cases hm.symm.trans he
    · cases hm.symm.trans he
      have hn := heff.retryNum
      cases hx
      exact .idle (hn ▸ hle) rfl
    · rcases handler_ops (hm ▸ he) with ⟨b, rfl, rfl, _⟩ | ⟨d, rfl, rfl, _⟩ | ⟨x, rfl, _⟩
      · cases exec_countRetry hx
        simp only [afterEvent]
        by_cases hmax : c.maxRetry.toNat < s.state.retryNum + 1
        · rw [if_pos hmax]
          have heq : s.state.retryNum + 1 = c.maxRetry.toNat + 1 := by omega
          apply EventPhase.gaveUp heq (List.suffix_refl _)
          intro k hk
          exact mem_giveUp.2 (.inr (mem_doDisconnect.2 (.inl ⟨k, hknown k hk, rfl⟩)))
        · rw [if_neg hmax]
          split
          · exact .idle (Nat.le_of_not_lt hmax) rfl
          · exact .reconnect (Nat.le_of_not_lt hmax) rfl
      · cases hx
        exact .handler (Nat.zero_le _) _ hh (suffix_of_cons he hm)
      · have hn := heff.retryNum
        cases hx
        exact .handler (hn ▸ hle) e hh (suffix_of_cons he hm)
    · have hop := mem_of_suffix he hm
      obtain ⟨hn, -, hr⟩ := heff.quiet (.inr hop)
      have hq := exec_giveUp hx hop
      obtain ⟨t, next⟩ := q
      cases hq
      apply EventPhase.gaveUp (hn.trans heq) (suffix_of_cons he hm)
      intro k hk
      obtain ⟨hk, hne⟩ := hr k hk
      have hin := hun k hk
      rw [hm] at hin
      exact (List.mem_cons.1 hin).resolve_left (Ne.symm hne)
  apply Tasks.mk
  · simpa using h.waits
  · simpa using h.returned
  · simpa using hknown
  · simpa using hphase

theorem Wifi.Tasks.step (h : s.Tasks c) (hs : (wifi c).step s e = some s') : s'.Tasks c := by
  cases (Wifi.steps hs).2 with
  | main r hm hx => exact h.main hm hx
  | event r hm hx => exact h.event hm hx
  | dispatch v hm hr =>
    refine ⟨h.waits, h.returned, h.known, ?_⟩
    rcases h.phase with ⟨hle, _⟩ | ⟨_, he⟩ | ⟨hle, _, _, _⟩ | ⟨_, _, hun⟩
    · exact .handler hle v List.mem_cons_self (List.suffix_refl _)
    · cases hm.symm.trans he
    · exact .handler hle v List.mem_cons_self (List.suffix_refl _)
    · have hin := hun _ hr
      rw [hm] at hin
      cases hin
  | shutdown hm hr =>
    refine ⟨?_, ?_, h.known, h.phase⟩
    · intro he
      exact absurd he hr
    · intro _
      exact List.suffix_refl _

/-- How `example_wifi_connect` stands when the event task starts. -/
structure Wifi.Started (c : WifiConfig) (o : WifiOutcome) (s : Wifi) : Prop where
  main : s.main = if s.result = none ∧ s.state.aborted = false then c.waits else []
  result : ∀ e, s.result = some e → e = .noMem ∨ e = o.connect ∧ e ≠ .ok
  retryNum : s.state.retryNum = 0
  registered : ∀ h ∈ s.state.registered, h ∈ c.handlers
  attempts : s.state.attempts ≤ 1
  given : s.state.given = []
  event : s.event = []
  handled : s.handled = []

/-- The shared state when both semaphores have been created. -/
def WifiConfig.created (c : WifiConfig) : WifiState :=
  ⟨0, c.semphs.reverse, [], [], 0, c.semphs.map .opened, false⟩

theorem create_semphs (c : WifiConfig) :
    (if c.ipv6 then (WifiState.new.create .ipAddrs).create .ip6Addrs
      else WifiState.new.create .ipAddrs) = c.created := by
  obtain ⟨n, v4, v6⟩ := c
  cases v6 <;> rfl

theorem exampleWifiConnect_cases (c : WifiConfig) (o : WifiOutcome) :
    let s := exampleWifiConnect c o
    s = ⟨.new, [], some .noMem, [], []⟩ ∨
      s = ⟨(WifiState.new.create .ipAddrs).delete .ipAddrs, [], some .noMem, [], []⟩ ∨
      s = ⟨{ c.created with aborted := true }, [], none, [], []⟩ ∨
      (o.connect ≠ .ok ∧ s = ⟨{ c.created with registered := c.handlers, attempts := 1 }, [],
        some o.connect, [], []⟩) ∨
      s = ⟨{ c.created with registered := c.handlers, attempts := 1 }, c.waits, none, [], []⟩ := by
  simp only [exampleWifiConnect, exampleWifiStaDoConnect, true_and, if_true, create_semphs]
  split
  · exact .inl rfl
  · split
    · exact .inr (.inl rfl)
    · split
      · rename_i hne
        simp only [WifiState.errorCheck, hne, decide_true, ne_eq, not_false_eq_true]
        exact .inr (.inr (.inl rfl))
      · split
        · rename_i hne
          exact .inr (.inr (.inr (.inl ⟨hne, rfl⟩)))
        · exact .inr (.inr (.inr (.inr rfl)))

theorem exampleWifiConnect_started (c : WifiConfig) (o : WifiOutcome) :
    (exampleWifiConnect c o).Started c o := by
  have hknown : ∀ h ∈ c.handlers, h ∈ c.handlers := fun _ h => h
  rcases exampleWifiConnect_cases c o with he | he | he | ⟨hne, he⟩ | he
  · rw [he]
    exact ⟨rfl, by rintro e ⟨⟩; exact .inl rfl, rfl, nofun, Nat.zero_le 1, rfl, rfl, rfl⟩
  · rw [he]
    exact ⟨rfl, by rintro e ⟨⟩; exact .inl rfl, rfl, nofun, Nat.zero_le 1, rfl, rfl, rfl⟩
  · rw [he]
    exact ⟨rfl, nofun, rfl, nofun, Nat.zero_le 1, rfl, rfl, rfl⟩
  · rw [he]
    exact ⟨rfl, by rintro e ⟨⟩; exact .inr ⟨rfl, hne⟩, rfl, hknown, Nat.le_refl 1, rfl, rfl, rfl⟩
  · rw [he]
    exact ⟨rfl, nofun, rfl, hknown, Nat.le_refl 1, rfl, rfl, rfl⟩

theorem Wifi.Started.tasks (h : s.Started c o) : s.Tasks c := by
  refine ⟨?_, ?_, h.registered, .idle (h.retryNum ▸ Nat.zero_le _) h.event⟩
  · intro hr
    rw [h.main]
    split
    · exact List.suffix_refl _
    · exact List.nil_suffix
  · intro hr
    rw [h.main, if_neg fun hn => hr hn.1]
    exact List.nil_suffix

/-- What the retry counter and the attempts say about the events handled. -/
structure Wifi.Counts (c : WifiConfig) (s : Wifi) : Prop where
  counted : counted s.event s.state.retryNum = failures s.handled
  attempts : s.state.attempts + (if .reconnect ∈ s.event then 1 else 0) ≤
    1 + c.maxRetry.toNat * s.handled.countP WifiEvent.isGotIp +
      min (attempted s.event s.state.retryNum) c.maxRetry.toNat

theorem Wifi.Started.counts (h : s.Started c o) : s.Counts c := by
  obtain ⟨-, -, hn, -, ha, -, he, hh⟩ := h
  apply Counts.mk
  · rw [hn, he, hh]
    rfl
  · rw [hn, he, hh, if_neg List.not_mem_nil]
    omega

theorem Wifi.Counts.main (h : s.Counts c) (ht : s.Tasks c) (hm : s.main = op :: ops)
    (hx : op.exec c r s.state = some q) : (s.afterMain ops q).Counts c := by
  have hop : op ∈ c.waits ∨ op ∈ c.giveUp := by
    rcases ht.main_mem hm with ⟨_, hop⟩ | ⟨_, hop⟩
    · exact .inl hop
    · exact .inr (mem_giveUp.2 (.inr hop))
  obtain ⟨hn, ha, -⟩ := (WifiOp.exec_effect hx).quiet hop
  apply Counts.mk
  · simp only [afterMain_state, afterMain_event, afterMain_handled, hn]
    exact h.counted
  · simp only [afterMain_state, afterMain_event, afterMain_handled, hn, ha]
    exact h.attempts

theorem Wifi.Counts.of_quiet {t : WifiState} {event : List WifiOp}
    (hn : t.retryNum = failures s.handled)
    (ha : t.attempts ≤ 1 + c.maxRetry.toNat * s.handled.countP WifiEvent.isGotIp +
      min t.retryNum c.maxRetry.toNat) (hops : ∀ op ∈ event, op.IsQuiet) :
    Counts c { s with state := t, event := event } := by
  obtain ⟨h₁, h₂, h₃⟩ := quiet_ops hops t.retryNum
  apply Counts.mk
  · exact h₁.trans hn
  · simp only [h₂, if_neg h₃]
    exact ha

theorem Wifi.Counts.countRetry (h : s.Counts c) (hle : s.state.retryNum ≤ c.maxRetry.toNat)
    (hm : s.event = [.countRetry b]) (hx : (WifiOp.countRetry b).exec c r s.state = some q) :
    (s.afterEvent [] q).Counts c := by
  obtain ⟨hcount, hatt⟩ := h
  rw [hm] at hcount hatt
  have hno : WifiOp.reconnect ∉ [WifiOp.countRetry b] := by simp
  rw [if_neg hno] at hatt
  simp only [attempted] at hatt
  cases exec_countRetry hx
  simp only [afterEvent]
  by_cases hmax : c.maxRetry.toNat < s.state.retryNum + 1
  · rw [if_pos hmax]
    apply of_quiet hcount
    · simp only
      omega
    · intro op hop
      exact quiet_of_mem_giveUp hop
  · rw [if_neg hmax]
    split
    · apply of_quiet hcount
      · simp only
        omega
      · intro op hop
        cases hop
    · apply Counts.mk hcount
      simp only [attempted, List.mem_singleton, if_true]
      omega

theorem Wifi.Counts.quiet_event (h : s.Counts c) (hm : s.event = op :: ops)
    (hops : ∀ op' ∈ op :: ops, op'.IsQuiet) (hn : q.1.retryNum = s.state.retryNum)
    (ha : q.1.attempts = s.state.attempts) (hq : q.2 = .goOn) : (s.afterEvent ops q).Counts c := by
  obtain ⟨hcount, hatt⟩ := h
  obtain ⟨h₁, h₂, h₃⟩ := quiet_ops hops s.state.retryNum
  rw [hm, h₁] at hcount
  rw [hm, h₂, if_neg h₃] at hatt
  obtain ⟨t, next⟩ := q
  cases hq
  have hn : t.retryNum = s.state.retryNum := hn
  have ha : t.attempts = s.state.attempts := ha
  apply of_quiet (hn.trans hcount)
  · rw [ha, hn]
    exact hatt
  · intro op' hop'
    exact hops op' (List.mem_cons_of_mem _ hop')

theorem Wifi.Counts.event (h : s.Counts c) (ht : s.Tasks c) (hm : s.event = op :: ops)
    (hx : op.exec c r s.state = some q) : (s.afterEvent ops q).Counts c := by
  have heff := WifiOp.exec_effect hx
  rcases ht.phase with ⟨_, he⟩ | ⟨hle, he⟩ | ⟨hle, e, hh, he⟩ | ⟨heq, he, hun⟩
  · cases hm.symm.trans he
  · cases hm.symm.trans he
    obtain ⟨hcount, hatt⟩ := h
    have hn := heff.retryNum
    have ha := heff.attempts
    cases hx
    rw [hm] at hcount hatt
    rw [if_pos List.mem_cons_self] at hatt
    apply of_quiet
    · exact hn.trans hcount
    · rw [ha, hn]
      exact hatt
    · intro op hop
      cases hop
  · rcases handler_ops (hm ▸ he) with ⟨b, rfl, rfl, rfl⟩ | ⟨d, rfl, rfl, hops⟩ | ⟨x, rfl, rfl⟩
    · exact h.countRetry hle hm hx
    · cases hx
      obtain ⟨hcount, hatt⟩ := h
      have hno : WifiOp.reconnect ∉ WifiOp.resetRetryNum :: ops := by
        intro hmem
        rcases List.mem_cons.1 hmem with hmem | hmem
        · cases hmem
        · exact hops _ hmem
      rw [hm] at hcount hatt
      rw [if_neg hno] at hatt
      exact of_quiet hcount hatt hops
    · have hquiet : ∀ op' ∈ [WifiOp.give x], op'.IsQuiet := by
        intro op' hop'
        cases List.mem_singleton.1 hop'
        trivial
      have hq : q.2 = .goOn := by
        cases hx
        rfl
      exact h.quiet_event hm hquiet heff.retryNum heff.attempts hq
  · have hop := mem_of_suffix he hm
    obtain ⟨hn, ha, -⟩ := heff.quiet (.inr hop)
    have hall : ∀ op' ∈ op :: ops, op'.IsQuiet := by
      intro op' hop'
      exact quiet_of_mem_giveUp (he.subset (hm ▸ hop'))
    exact h.quiet_event hm hall hn ha (exec_giveUp hx hop)

theorem Wifi.Counts.step (h : s.Counts c) (ht : s.Tasks c)
    (hs : (wifi c).step s e = some s') : s'.Counts c := by
  cases (Wifi.steps hs).2 with
  | main r hm hx => exact h.main ht hm hx
  | event r hm hx => exact h.event ht hm hx
  | dispatch v hm hr =>
    obtain ⟨hcount, hatt⟩ := h
    rw [hm] at hcount hatt
    rw [if_neg List.not_mem_nil] at hatt
    simp only [attempted] at hatt
    cases v with
    | staDisconnected b =>
      have hno : WifiOp.reconnect ∉ (WifiEvent.staDisconnected b).ops := by
        simp [WifiEvent.ops]
      constructor
      · exact congrArg Nat.succ hcount
      · rw [if_neg hno, List.countP_cons_of_neg Bool.false_ne_true]
        exact hatt
    | staGotIp d =>
      have hno : WifiOp.reconnect ∉ (WifiEvent.staGotIp d).ops := by
        simp only [WifiEvent.ops]
        split
        · simp
        · simp
      have hgot : (WifiEvent.staGotIp d :: s.handled).countP WifiEvent.isGotIp =
          s.handled.countP WifiEvent.isGotIp + 1 := List.countP_cons_of_pos rfl
      constructor
      · rfl
      · have hzero : attempted (WifiEvent.staGotIp d).ops s.state.retryNum = 0 := rfl
        rw [if_neg hno, hgot, Nat.mul_succ, hzero]
        change s.state.attempts + 0 ≤ _
        omega
    | staConnected => exact ⟨hcount, hatt⟩
    | gotIp6 d b =>
      have hops : ∀ op ∈ (WifiEvent.gotIp6 d b).ops, op.IsQuiet := by
        intro op hop
        exact quiet_of_mem_give hop
      obtain ⟨h₁, h₂, h₃⟩ := quiet_ops hops s.state.retryNum
      apply Counts.mk (h₁.trans hcount)
      simp only [h₂, if_neg h₃]
      exact hatt
  | shutdown hm hr => exact ⟨h.counted, h.attempts⟩

theorem Wifi.GaveUp.phase (hg : s.GaveUp c) (ht : s.Tasks c) :
    s.state.retryNum = c.maxRetry.toNat + 1 ∧ s.event <:+ c.giveUp ∧
      ∀ h ∈ s.state.registered, .unregister h ∈ s.event := by
  have hlt : c.maxRetry.toNat < s.state.retryNum := hg
  rcases ht.phase with ⟨hle, _⟩ | ⟨hle, _⟩ | ⟨hle, _, _, _⟩ | ⟨heq, he, hr⟩
  · omega
  · omega
  · omega
  · exact ⟨heq, he, hr⟩

/-- Once the handler has given up, nothing is attempted and no event is handled any more. -/
theorem Wifi.GaveUp.step (hg : s.GaveUp c) (ht : s.Tasks c) (hs : (wifi c).step s e = some s') :
    s'.GaveUp c ∧ s'.state.attempts = s.state.attempts ∧ s'.handled = s.handled := by
  obtain ⟨-, he, hun⟩ := hg.phase ht
  have hkeep {t : WifiState} {op : WifiOp} (heff : op.Effect s.state t)
      (hop : op ∈ c.waits ∨ op ∈ c.giveUp) :
      c.maxRetry.toNat < t.retryNum ∧ t.attempts = s.state.attempts := by
    obtain ⟨hn, ha, -⟩ := heff.quiet hop
    exact ⟨hn ▸ hg, ha⟩
  cases (Wifi.steps hs).2 with
  | main r hm hx =>
    have hop := (ht.main_mem hm).imp And.right fun h => mem_giveUp.2 (.inr h.2)
    have hq := hkeep (WifiOp.exec_effect hx) hop
    simpa [GaveUp] using hq
  | event r hm hx =>
    have hq := hkeep (WifiOp.exec_effect hx) (.inr (mem_of_suffix he hm))
    simpa [GaveUp] using hq
  | dispatch v hm hr =>
    have hin := hun _ hr
    rw [hm] at hin
    cases hin
  | shutdown hm hr => exact ⟨hg, rfl, rfl⟩

theorem Wifi.reach_tasks (h : (wifi c).Reach G (exampleWifiConnect c o) s) : s.Tasks c :=
  h.invariant (exampleWifiConnect_started c o).tasks fun _ _ _ _ hI _ hs => hI.step hs

theorem Wifi.reach_counts (h : (wifi c).Reach G (exampleWifiConnect c o) s) : s.Counts c :=
  h.invariant (exampleWifiConnect_started c o).counts fun _ _ _ hr hI _ hs =>
    hI.step (reach_tasks hr) hs

theorem Wifi.GaveUp.failures (hg : s.GaveUp c) (ht : s.Tasks c) (hc : s.Counts c) :
    failures s.handled = c.maxRetry.toNat + 1 := by
  obtain ⟨hn, he, -⟩ := hg.phase ht
  have hquiet : ∀ op ∈ s.event, op.IsQuiet := fun op hop => quiet_of_mem_giveUp (he.subset hop)
  rw [← hc.counted, (quiet_ops hquiet _).1, hn]

/-- The retry counter counts the disconnections in a row, up to one more than the maximum. Until
then each of them is followed by one attempt at most, and after it nothing is attempted and
nothing handled any more. -/
theorem wifi_retry_bounds (h : (wifi c).Reach Machine.Free (exampleWifiConnect c o) s) :
    s.state.retryNum ≤ c.maxRetry.toNat + 1 ∧
      s.state.attempts ≤ 1 + c.maxRetry.toNat * (s.handled.countP WifiEvent.isGotIp + 1) ∧
      (s.event = [] → s.state.retryNum = failures s.handled) ∧
      (c.maxRetry.toNat < s.state.retryNum → ∀ s', (wifi c).Reach Machine.Free s s' →
        c.maxRetry.toNat < s'.state.retryNum ∧ s'.state.attempts = s.state.attempts ∧
          s'.handled = s.handled) := by
  have ht := Wifi.reach_tasks h
  have hc := Wifi.reach_counts h
  have hn : s.state.retryNum ≤ c.maxRetry.toNat + 1 := by
    rcases ht.phase with ⟨hle, _⟩ | ⟨hle, _⟩ | ⟨hle, _, _, _⟩ | ⟨heq, _, _⟩
    · exact Nat.le_succ_of_le hle
    · exact Nat.le_succ_of_le hle
    · exact Nat.le_succ_of_le hle
    · exact heq.le
  refine ⟨hn, ?_, ?_, ?_⟩
  · have ha := hc.attempts
    rw [Nat.mul_succ]
    omega
  · intro he
    have hcount := hc.counted
    rw [he] at hcount
    exact hcount
  · intro hg s' hr
    induction hr with
    | refl => exact ⟨hg, rfl, rfl⟩
    | step hr _ hs ih =>
      obtain ⟨hg', ha, hh⟩ := ih
      have hstep := Wifi.GaveUp.step hg' (Wifi.reach_tasks (h.trans hr)) hs
      exact ⟨hstep.1, hstep.2.1.trans ha, hstep.2.2.trans hh⟩

end

/-- At most one reconnection and IPv4 only. -/
def oneRetry : WifiConfig := ⟨1, true, false⟩

def allOk : WifiOutcome := ⟨true, true, .ok, .ok⟩

/-- Two disconnections with a reconnection in between. -/
def twoDisconnections : List WifiStep :=
  [.dispatch (.staDisconnected false), .event .ok, .event .ok, .dispatch (.staDisconnected false),
    .event .ok]

theorem wifi_retry_bounds_twice :
    ∃ s, (wifi oneRetry).run (exampleWifiConnect oneRetry allOk) twoDisconnections = some s ∧
      s.state.attempts ≤ 1 + 1 * (s.handled.countP WifiEvent.isGotIp + 1) := by
  obtain ⟨s, hs⟩ : ∃ s, (wifi oneRetry).run (exampleWifiConnect oneRetry allOk)
      twoDisconnections = some s := ⟨_, rfl⟩
  exact ⟨s, hs, (wifi_retry_bounds (Machine.reach_of_run hs)).2.1⟩

end TeleopLedBenchmarks
