import TeleopLedBenchmarks.WifiAddresses

namespace TeleopLedBenchmarks
set_option autoImplicit true

/-- The semaphores that have been created and not deleted. -/
def Wifi.held (s : Wifi) : List Semph := HandleCall.heldAfter [] s.state.calls

/-- No semaphore is used or deleted after its deletion. -/
def Wifi.Proper (s : Wifi) : Prop := HandleCall.Proper [] s.state.calls

/-- What a statement takes or deletes has not been deleted before. -/
def WifiOp.Timely (s : Wifi) : WifiOp → Prop
  | .take x => x ∈ s.held
  | .delete x => x ∈ s.state.created → x ∈ s.held
  | _ => True

def WifiOp.isUnregister : WifiOp → Bool
  | .unregister _ => true
  | _ => false

/-- The event library unregisters no handler for the main task while one is running. -/
def Wifi.Exclusive (s : Wifi) : WifiStep → Prop
  | .main _ => ∀ op ∈ s.main.take 1, op.isUnregister → s.event = []
  | _ => True

def Wifi.Timely (s : Wifi) : WifiStep → Prop
  | .main _ => ∀ op ∈ s.main.take 1, op.Timely s
  | .event _ => ∀ op ∈ s.event.take 1, op.Timely s
  | _ => True

instance (s : Wifi) (op : WifiOp) : Decidable (op.Timely s) :=
  match op with
  | .take x => inferInstanceAs (Decidable (x ∈ s.held))
  | .delete x => inferInstanceAs (Decidable (x ∈ s.state.created → x ∈ s.held))
  | .checkRetryNum | .countRetry _ | .reconnect | .resetRetryNum | .give _ | .unregister _
  | .wifiDisconnect => isTrue trivial

instance (s : Wifi) (e : WifiStep) : Decidable (s.Exclusive e) :=
  match e with
  | .main _ => inferInstanceAs (Decidable (∀ op ∈ s.main.take 1, op.isUnregister → s.event = []))
  | .event _ | .dispatch _ | .shutdown => isTrue trivial

instance (s : Wifi) (e : WifiStep) : Decidable (s.Timely e) :=
  match e with
  | .main _ => inferInstanceAs (Decidable (∀ op ∈ s.main.take 1, op.Timely s))
  | .event _ => inferInstanceAs (Decidable (∀ op ∈ s.event.take 1, op.Timely s))
  | .dispatch _ | .shutdown => isTrue trivial

/-- Either every semaphore is there, or nothing is left that could give one. -/
structure Wifi.Custody (c : WifiConfig) (s : Wifi) : Prop where
  semphs : (∀ x ∈ s.state.created, x ∈ s.held) ∨
    s.state.registered = [] ∧ ∀ op ∈ s.event, (∀ x, op ≠ .give x) ∧ ∀ b, op ≠ .countRetry b
  created : ∀ x ∈ s.state.given, x ∈ s.state.created
  unregisters : s.result ≠ none → s.main ≠ [] →
    ∀ h ∈ s.state.registered, .unregister h ∈ s.main
  quiet : s.result ≠ none → s.main ≠ [] → (∀ h, .unregister h ∉ s.main) → s.event = []

section
variable {c : WifiConfig} {s s' : Wifi}

theorem suffix_append_right {l₁ l₂ as : List α} (h : a :: as <:+ l₁ ++ l₂) (ha : a ∉ l₁) :
    a :: as <:+ l₂ := by
  induction l₁ with
  | nil => exact h
  | cons b bs ih =>
    rw [List.mem_cons, not_or] at ha
    rcases List.suffix_cons_iff.1 h with he | hs
    · cases he
      exact absurd rfl ha.1
    · exact ih hs ha.2

theorem deletes_suffix (h : .delete x :: ops <:+ c.giveUp) :
    ∀ op ∈ ops, (∃ y, op = .delete y) ∨ op = .wifiDisconnect := by
  rw [WifiConfig.giveUp, WifiConfig.doDisconnect, List.append_assoc] at h
  have h₁ := suffix_append_right h (by simp)
  have h₂ := suffix_append_right h₁ (by simp)
  intro op hop
  have hin := h₂.subset (List.mem_cons_of_mem _ hop)
  rcases List.mem_append.1 hin with hin | hin
  · obtain ⟨y, _, rfl⟩ := List.mem_map.1 hin
    exact .inl ⟨y, rfl⟩
  · exact .inr (List.mem_singleton.1 hin)

/-- The semaphore that a statement is about to use or delete. -/
def WifiOp.Uses (t : WifiState) (x : Semph) : WifiOp → Prop
  | .take y => y = x
  | .give y | .delete y => y = x ∧ y ∈ t.created
  | _ => False

theorem WifiOp.Effect.proper_iff {op : WifiOp} {t t' : WifiState} (h : op.Effect t t') :
    HandleCall.Proper [] t'.calls ↔ HandleCall.Proper [] t.calls ∧
      ∀ x, op.Uses t x → x ∈ HandleCall.heldAfter [] t.calls := by
  rw [h.calls, HandleCall.proper_append]
  apply and_congr_right
  intro _
  cases op with
  | take y => simp [callOn, Uses, HandleCall.Proper]
  | give y =>
    by_cases hy : y ∈ t.created
    · simp [callOn, Uses, HandleCall.Proper, hy]
    · simp [callOn, Uses, HandleCall.Proper, hy]
  | delete y =>
    by_cases hy : y ∈ t.created
    · simp [callOn, Uses, HandleCall.Proper, hy]
    · simp [callOn, Uses, HandleCall.Proper, hy]
  | _ => simp [callOn, Uses, HandleCall.Proper]

theorem WifiOp.Effect.held_eq {op : WifiOp} {t t' : WifiState} (h : op.Effect t t') :
    HandleCall.heldAfter [] t'.calls =
      match op with
      | .delete x => if x ∈ t.created then (HandleCall.heldAfter [] t.calls).erase x
        else HandleCall.heldAfter [] t.calls
      | _ => HandleCall.heldAfter [] t.calls := by
  rw [h.calls, HandleCall.heldAfter_append]
  cases op with
  | give y =>
    simp only [callOn]
    split
    · rfl
    · rfl
  | delete y =>
    simp only [callOn]
    split
    · rfl
    · rfl
  | _ => rfl

theorem WifiOp.Effect.held_of_ne {op : WifiOp} {t t' : WifiState} (h : op.Effect t t')
    (hne : ∀ x, op ≠ .delete x) :
    HandleCall.heldAfter [] t'.calls = HandleCall.heldAfter [] t.calls := by
  rw [h.held_eq]
  split
  · exact absurd rfl (hne _)
  · rfl

theorem WifiConfig.created_proper (c : WifiConfig) :
    HandleCall.Proper [] c.created.calls ∧
      HandleCall.heldAfter [] c.created.calls = c.semphs.reverse := by
  obtain ⟨n, v4, v6⟩ := c
  cases v6 <;> simp [WifiConfig.created, WifiConfig.semphs, HandleCall.Proper,
    HandleCall.heldAfter]

theorem exampleWifiConnect_custody (c : WifiConfig) (o : WifiOutcome) :
    (exampleWifiConnect c o).Custody c ∧ (exampleWifiConnect c o).Proper := by
  obtain ⟨hproper, hheld⟩ := c.created_proper
  have hall {k : List WifiHandler} {n : Nat} {b : Bool} {main : List WifiOp}
      {result : Option EspErr} (hr : result = none ∨ main = []) :
      let s : Wifi := ⟨{ c.created with registered := k, attempts := n, aborted := b }, main,
        result, [], []⟩
      s.Custody c ∧ s.Proper := by
    refine ⟨⟨.inl ?_, nofun, ?_, fun _ _ _ => rfl⟩, hproper⟩
    · intro x hx
      change x ∈ HandleCall.heldAfter [] c.created.calls
      rw [hheld]
      exact hx
    · intro hne hne'
      rcases hr with hr | hr
      · exact absurd hr hne
      · exact absurd hr hne'
  rcases exampleWifiConnect_cases c o with he | he | he | ⟨_, he⟩ | he
  · rw [he]
    exact ⟨⟨.inr ⟨rfl, nofun⟩, nofun, fun _ h => absurd rfl h, fun _ _ _ => rfl⟩, trivial⟩
  · rw [he]
    have hp : HandleCall.Proper [] [.opened Semph.ipAddrs, .closed Semph.ipAddrs] := by
      simp [HandleCall.Proper]
    exact ⟨⟨.inr ⟨rfl, nofun⟩, nofun, fun _ h => absurd rfl h, fun _ _ _ => rfl⟩, hp⟩
  · rw [he]
    exact hall (.inr rfl)
  · rw [he]
    exact hall (.inr rfl)
  · rw [he]
    exact hall (.inl rfl)

theorem Wifi.Custody.main_delete (h : s.Custody c) (ht : s.Tasks c)
    (hm : s.main = .delete x :: ops) : s.state.registered = [] ∧ s.event = [] := by
  have hr : s.result ≠ none := by
    intro hr
    have hop := mem_of_suffix (ht.waits hr) hm
    simp [mem_waits] at hop
  have hne : s.main ≠ [] := by
    rw [hm]
    exact List.cons_ne_nil _ _
  have hsuf : .delete x :: ops <:+ c.giveUp := by
    rw [← hm, WifiConfig.giveUp]
    exact (ht.returned hr).trans (List.suffix_append _ _)
  have hno : ∀ k, .unregister k ∉ s.main := by
    intro k hk
    rw [hm] at hk
    rcases List.mem_cons.1 hk with hk | hk
    · cases hk
    · rcases deletes_suffix hsuf _ hk with ⟨y, hy⟩ | hy
      · cases hy
      · cases hy
  apply And.intro _ (h.quiet hr hne hno)
  apply List.eq_nil_iff_forall_not_mem.2
  intro k hk
  exact hno k (h.unregisters hr hne k hk)

theorem Wifi.Tasks.event_delete (ht : s.Tasks c) (hm : s.event = .delete x :: ops) :
    s.state.registered = [] ∧
      ∀ op ∈ ops, (∀ y, op ≠ .give y) ∧ ∀ b, op ≠ .countRetry b := by
  have hsuf : .delete x :: ops <:+ c.giveUp := by
    rcases ht.phase with ⟨_, he⟩ | ⟨_, he⟩ | ⟨_, e, _, he⟩ | ⟨_, he, _⟩
    · cases hm.symm.trans he
    · cases hm.symm.trans he
    · rcases handler_ops (hm ▸ he) with ⟨_, _, ⟨⟩, _⟩ | ⟨_, _, ⟨⟩, _⟩ | ⟨_, ⟨⟩, _⟩
    · exact hm ▸ he
  have hlater := deletes_suffix hsuf
  apply And.intro
  · apply List.eq_nil_iff_forall_not_mem.2
    intro k hk
    have hun : .unregister k ∈ s.event := by
      rcases ht.phase with ⟨_, he⟩ | ⟨_, he⟩ | ⟨_, e, _, he⟩ | ⟨_, _, hr⟩
      · cases hm.symm.trans he
      · cases hm.symm.trans he
      · rcases handler_ops (hm ▸ he) with ⟨_, _, ⟨⟩, _⟩ | ⟨_, _, ⟨⟩, _⟩ | ⟨_, ⟨⟩, _⟩
      · exact hr k hk
    rw [hm] at hun
    rcases List.mem_cons.1 hun with hun | hun
    · cases hun
    · rcases hlater _ hun with ⟨y, hy⟩ | hy
      · cases hy
      · cases hy
  · intro op hop
    rcases hlater op hop with ⟨y, rfl⟩ | rfl
    · exact ⟨nofun, nofun⟩
    · exact ⟨nofun, nofun⟩

theorem Wifi.Tasks.event_ne_take (ht : s.Tasks c) (x : Semph) (ops : List WifiOp) :
    s.event ≠ .take x :: ops := by
  intro hm
  rcases ht.phase with ⟨_, he⟩ | ⟨_, he⟩ | ⟨_, e, _, he⟩ | ⟨_, he, _⟩
  · cases hm.symm.trans he
  · cases hm.symm.trans he
  · rcases handler_ops (hm ▸ he) with ⟨_, _, ⟨⟩, _⟩ | ⟨_, _, ⟨⟩, _⟩ | ⟨_, ⟨⟩, _⟩
  · have hop := mem_of_suffix he hm
    simp [mem_giveUp, mem_doDisconnect] at hop

theorem mem_given_created {op : WifiOp} {t t' : WifiState} (h : op.Effect t t')
    (hc : ∀ x ∈ t.given, x ∈ t.created) : ∀ x ∈ t'.given, x ∈ t'.created := by
  intro x hx
  rw [h.created]
  rw [h.given] at hx
  cases op with
  | take y => exact hc x (List.mem_of_mem_erase hx)
  | give y =>
    rw [WifiOp.givenAfter] at hx
    split at hx
    · rename_i hy
      rcases List.mem_insert_iff.1 hx with rfl | hx
      · exact hy
      · exact hc x hx
    · exact hc x hx
  | _ => exact hc x hx

theorem mem_registered {op : WifiOp} {t t' : WifiState} (h : op.Effect t t') :
    ∀ k ∈ t'.registered, k ∈ t.registered := by
  intro k hk
  rw [h.registered] at hk
  unfold WifiOp.registeredAfter at hk
  split at hk
  · exact List.mem_of_mem_filter hk
  · exact hk

/-- A main task that has returned and has statements left is shutting down. -/
theorem Wifi.Tasks.shutting_down (ht : s.Tasks c) (hm : s.main = op :: ops)
    (hx : op.exec c r s.state = some q) (hr : (s.afterMain ops q).result ≠ none)
    (hne : (s.afterMain ops q).main ≠ []) :
    s.result ≠ none ∧ op ∈ c.giveUp ∧ (s.afterMain ops q).main = ops := by
  obtain ⟨t, next⟩ := q
  rcases ht.main_mem hm with ⟨hnone, hop⟩ | ⟨hsome, hop⟩
  · rcases exec_waits hx hop with ⟨_, _, _, _, hq⟩ | ⟨_, hq⟩
    · cases hq
      exact absurd hnone hr
    · cases hq
      exact absurd rfl hne
  · have hop := mem_giveUp.2 (.inr hop)
    have hq := exec_giveUp hx hop
    cases hq
    exact ⟨hsome, hop, rfl⟩

theorem Wifi.Custody.main (h : s.Custody c) (ht : s.Tasks c) (hex : s.Exclusive (.main r))
    (hm : s.main = op :: ops) (hx : op.exec c r s.state = some q) :
    (s.afterMain ops q).Custody c := by
  have heff := WifiOp.exec_effect hx
  have hreg := mem_registered heff
  apply Custody.mk
  · rw [afterMain_state, afterMain_event]
    by_cases hdel : ∃ x, op = .delete x
    · obtain ⟨x, rfl⟩ := hdel
      obtain ⟨hnil, he⟩ := h.main_delete ht hm
      right
      apply And.intro
      · exact heff.registered.trans hnil
      · rw [he]
        exact nofun
    · have hheld := heff.held_of_ne fun x he => hdel ⟨x, he⟩
      rcases h.semphs with hall | ⟨hnil, hev⟩
      · left
        intro x hx
        rw [heff.created] at hx
        rw [held, afterMain_state, hheld]
        exact hall x hx
      · right
        apply And.intro _ hev
        apply List.eq_nil_iff_forall_not_mem.2
        intro k hk
        have hk := hreg k hk
        rw [hnil] at hk
        cases hk
  · rw [afterMain_state]
    exact mem_given_created heff h.created
  · intro hr hne k hk
    obtain ⟨hr, hop, hops⟩ := ht.shutting_down hm hx hr hne
    rw [afterMain_state] at hk
    obtain ⟨hk, hun⟩ := (heff.quiet (.inr hop)).2.2 k hk
    have hin := h.unregisters hr (hm ▸ List.cons_ne_nil _ _) k hk
    rw [hm] at hin
    rw [hops]
    exact (List.mem_cons.1 hin).resolve_left (Ne.symm hun)
  · intro hr hne hno
    obtain ⟨hr, hop, hops⟩ := ht.shutting_down hm hx hr hne
    rw [afterMain_event]
    by_cases hun : ∃ k, op = .unregister k
    · obtain ⟨k, rfl⟩ := hun
      have hfirst : .unregister k ∈ s.main.take 1 := hm ▸ List.mem_cons_self
      exact hex _ hfirst rfl
    · apply h.quiet hr (hm ▸ List.cons_ne_nil _ _)
      intro k hk
      rw [hm] at hk
      rw [hops] at hno
      rcases List.mem_cons.1 hk with he | hk
      · exact hun ⟨k, he.symm⟩
      · exact hno k hk

theorem afterEvent_subset {op : WifiOp} (hx : op.exec c r s.state = some q)
    (hne : ∀ b, op ≠ .countRetry b) :
    (s.afterEvent ops q).event ⊆ ops := by
  obtain ⟨t, next⟩ := q
  cases next with
  | goOn => exact List.Subset.refl _
  | ret err => exact List.nil_subset _
  | jump ops' =>
    cases op with
    | take x =>
      rw [WifiOp.exec] at hx
      split at hx
      · cases hx
      · cases hx
    | countRetry b => exact absurd rfl (hne b)
    | _ => cases hx

theorem Wifi.Custody.event (h : s.Custody c) (ht : s.Tasks c) (hm : s.event = op :: ops)
    (hx : op.exec c r s.state = some q) : (s.afterEvent ops q).Custody c := by
  have heff := WifiOp.exec_effect hx
  have hreg := mem_registered heff
  apply Custody.mk
  · rw [afterEvent_state]
    by_cases hdel : ∃ x, op = .delete x
    · obtain ⟨x, rfl⟩ := hdel
      obtain ⟨hnil, hlater⟩ := ht.event_delete hm
      right
      apply And.intro
      · exact heff.registered.trans hnil
      · intro op hop
        exact hlater op (afterEvent_subset hx nofun hop)
    · have hheld := heff.held_of_ne fun x he => hdel ⟨x, he⟩
      rcases h.semphs with hall | ⟨hnil, hev⟩
      · left
        intro x hx
        rw [heff.created] at hx
        rw [held, afterEvent_state, hheld]
        exact hall x hx
      · right
        rw [hm] at hev
        apply And.intro
        · apply List.eq_nil_iff_forall_not_mem.2
          intro k hk
          have hk := hreg k hk
          rw [hnil] at hk
          cases hk
        · intro op' hop'
          have hne := (hev op List.mem_cons_self).2
          exact hev op' (List.mem_cons_of_mem _ (afterEvent_subset hx hne hop'))
  · rw [afterEvent_state]
    exact mem_given_created heff h.created
  · intro hr hne k hk
    rw [afterEvent_result] at hr
    rw [afterEvent_main] at hne ⊢
    rw [afterEvent_state] at hk
    exact h.unregisters hr hne k (hreg k hk)
  · intro hr hne hno
    rw [afterEvent_result] at hr
    rw [afterEvent_main] at hne hno
    cases hm.symm.trans (h.quiet hr hne hno)

theorem Wifi.Custody.step (h : s.Custody c) (ht : s.Tasks c) (hex : s.Exclusive e)
    (hs : (wifi c).step s e = some s') : s'.Custody c := by
  cases (Wifi.steps hs).2 with
  | main r hm hx => exact h.main ht hex hm hx
  | event r hm hx => exact h.event ht hm hx
  | dispatch v hm hr =>
    refine ⟨?_, h.created, h.unregisters, ?_⟩
    · rcases h.semphs with hall | ⟨hnil, _⟩
      · exact .inl hall
      · rw [hnil] at hr
        cases hr
    · intro hres hne hno
      exact absurd (h.unregisters hres hne _ hr) (hno _)
  | shutdown hm hr =>
    refine ⟨h.semphs, h.created, ?_, ?_⟩
    · intro _ _ k hk
      exact mem_doDisconnect.2 (.inl ⟨k, ht.known k hk, rfl⟩)
    · intro _ _ hno
      have hfirst : .unregister .wifiDisconnect ∈ c.doDisconnect :=
        mem_doDisconnect.2 (.inl ⟨_, List.mem_cons_self, rfl⟩)
      exact absurd hfirst (hno _)

theorem Wifi.Tasks.main_proper_iff (ht : s.Tasks c) (hp : s.Proper)
    (hm : s.main = op :: ops) (hx : op.exec c r s.state = some q) :
    (s.afterMain ops q).Proper ↔ s.Timely (.main r) := by
  rw [Proper, afterMain_state, (WifiOp.exec_effect hx).proper_iff]
  simp only [Timely, hm, List.take_succ_cons, List.take_zero, List.mem_singleton, forall_eq]
  constructor
  · rintro ⟨_, huse⟩
    cases op with
    | take x => exact huse x rfl
    | delete x => exact fun hc => huse x ⟨rfl, hc⟩
    | _ => trivial
  · intro htimely
    apply And.intro hp
    intro x hu
    rcases ht.main_mem hm with ⟨_, hop⟩ | ⟨_, hop⟩
    · rcases mem_waits.1 hop with ⟨y, _, rfl⟩ | rfl
      · cases hu
        exact htimely
      · cases hu
    · rcases mem_doDisconnect.1 hop with ⟨k, _, rfl⟩ | ⟨y, _, rfl⟩ | rfl
      · cases hu
      · obtain ⟨rfl, hc⟩ := hu
        exact htimely hc
      · cases hu

theorem Wifi.Custody.event_proper_iff (h : s.Custody c) (ht : s.Tasks c) (hp : s.Proper)
    (hm : s.event = op :: ops) (hx : op.exec c r s.state = some q) :
    (s.afterEvent ops q).Proper ↔ s.Timely (.event r) := by
  rw [Proper, afterEvent_state, (WifiOp.exec_effect hx).proper_iff]
  simp only [Timely, hm, List.take_succ_cons, List.take_zero, List.mem_singleton, forall_eq]
  constructor
  · rintro ⟨_, huse⟩
    cases op with
    | take x => exact absurd hm (ht.event_ne_take x ops)
    | delete x => exact fun hc => huse x ⟨rfl, hc⟩
    | _ => trivial
  · intro htimely
    apply And.intro hp
    intro x hu
    cases op with
    | take y => exact absurd hm (ht.event_ne_take y ops)
    | give y =>
      obtain ⟨rfl, hc⟩ := hu
      rcases h.semphs with hall | ⟨_, hev⟩
      · exact hall y hc
      · exact absurd rfl ((hev (.give y) (hm ▸ List.mem_cons_self)).1 y)
    | delete y =>
      obtain ⟨rfl, hc⟩ := hu
      exact htimely hc
    | _ => cases hu

/-- A step keeps the calls proper exactly if it is timely. -/
theorem Wifi.Custody.proper_iff (h : s.Custody c) (ht : s.Tasks c) (hp : s.Proper)
    (hs : (wifi c).step s e = some s') : s'.Proper ↔ s.Timely e := by
  cases (Wifi.steps hs).2 with
  | main r hm hx => exact ht.main_proper_iff hp hm hx
  | event r hm hx => exact h.event_proper_iff ht hp hm hx
  | dispatch v hm hr => exact iff_of_true hp trivial
  | shutdown hm hr => exact iff_of_true hp trivial

theorem Wifi.Proper.back (hs : (wifi c).step s e = some s') (hp : s'.Proper) : s.Proper := by
  cases (Wifi.steps hs).2 with
  | main r hm hx =>
    rw [Proper, afterMain_state, (WifiOp.exec_effect hx).proper_iff] at hp
    exact hp.1
  | event r hm hx =>
    rw [Proper, afterEvent_state, (WifiOp.exec_effect hx).proper_iff] at hp
    exact hp.1
  | dispatch v hm hr => exact hp
  | shutdown hm hr => exact hp

/-- No semaphore is used or deleted after its deletion exactly if every take and every deletion
comes before that: the handlers never give one that is gone. -/
theorem wifi_semaphores_iff (hex : (wifi c).Along Wifi.Exclusive (exampleWifiConnect c o) es)
    (hr : (wifi c).run (exampleWifiConnect c o) es = some s) :
    HandleCall.Proper [] s.state.calls ↔
      (wifi c).Along Wifi.Timely (exampleWifiConnect c o) es := by
  obtain ⟨hcust, hp⟩ := exampleWifiConnect_custody c o
  have htasks := (exampleWifiConnect_started c o).tasks
  apply Machine.run_holds_iff (I := fun s => s.Tasks c ∧ s.Custody c) (P := Wifi.Proper)
    _ _ ⟨htasks, hcust⟩ hp hex hr
  · intro s e s' hs
    exact Wifi.Proper.back hs
  · rintro s e s' ⟨ht, hc⟩ hp hex hs
    exact ⟨hc.proper_iff ht hp hs, fun _ => ⟨ht.step hs, hc.step ht hex hs⟩⟩

/-- A handler that has given up still has to delete every semaphore that is left. -/
structure Wifi.Deleting (c : WifiConfig) (s : Wifi) : Prop where
  gone : s.GaveUp c → ∀ x ∈ s.held, .delete x ∈ s.event
  known : ∀ x ∈ s.held, x ∈ c.semphs ∧ x ∈ s.state.created

theorem Wifi.Deleting.held_eq_nil (h : s.Deleting c) (hg : s.GaveUp c) (he : s.event = []) :
    s.held = [] := by
  apply List.eq_nil_iff_forall_not_mem.2
  intro x hx
  have hin := h.gone hg x hx
  rw [he] at hin
  cases hin

theorem exampleWifiConnect_deleting (c : WifiConfig) (o : WifiOutcome) :
    (exampleWifiConnect c o).Deleting c := by
  have hstart := exampleWifiConnect_started c o
  constructor
  · intro hg
    have hlt : c.maxRetry.toNat < (exampleWifiConnect c o).state.retryNum := hg
    rw [hstart.retryNum] at hlt
    omega
  · intro x hx
    have hall : x ∈ HandleCall.heldAfter [] c.created.calls →
        x ∈ c.semphs ∧ x ∈ c.created.created := by
      rw [c.created_proper.2]
      intro hx
      exact ⟨List.mem_reverse.1 hx, hx⟩
    rcases exampleWifiConnect_cases c o with he | he | he | ⟨_, he⟩ | he
    · rw [he] at hx
      cases hx
    · rw [he] at hx
      simp [Wifi.held, WifiState.delete, WifiState.create, WifiState.new,
        HandleCall.heldAfter] at hx
    · rw [he] at hx ⊢
      exact hall hx
    · rw [he] at hx ⊢
      exact hall hx
    · rw [he] at hx ⊢
      exact hall hx

theorem WifiOp.Effect.held_subset {op : WifiOp} {t t' : WifiState} (h : op.Effect t t')
    (hx : x ∈ HandleCall.heldAfter [] t'.calls) : x ∈ HandleCall.heldAfter [] t.calls := by
  rw [h.held_eq] at hx
  split at hx
  · split at hx
    · exact List.mem_of_mem_erase hx
    · exact hx
  · exact hx

theorem Wifi.held_subset (hs : (wifi c).step s e = some s') : s'.held ⊆ s.held := by
  intro x hx
  cases (Wifi.steps hs).2 with
  | main r hm he =>
    rw [held, afterMain_state] at hx
    exact (WifiOp.exec_effect he).held_subset hx
  | event r hm he =>
    rw [held, afterEvent_state] at hx
    exact (WifiOp.exec_effect he).held_subset hx
  | dispatch v hm hr => exact hx
  | shutdown hm hr => exact hx

theorem Wifi.Deleting.event (h : s.Deleting c) (ht : s.Tasks c) (hp : s.Proper)
    (hm : s.event = op :: ops) (hx : op.exec c r s.state = some q) :
    (s.afterEvent ops q).Deleting c := by
  have heff := WifiOp.exec_effect hx
  constructor
  · intro hg x hheld
    rw [held, afterEvent_state] at hheld
    by_cases hgs : s.GaveUp c
    · have hq := exec_giveUp hx (mem_of_suffix (hgs.phase ht).2.1 hm)
      have hin := h.gone hgs x (heff.held_subset hheld)
      rw [hm] at hin
      obtain ⟨t, next⟩ := q
      cases hq
      rcases List.mem_cons.1 hin with rfl | hin
      · have hnodup := HandleCall.Proper.nodup hp List.nodup_nil
        rw [heff.held_eq] at hheld
        simp only [if_pos (h.known x (heff.held_subset (heff.held_eq ▸ hheld))).2] at hheld
        exact absurd hheld hnodup.not_mem_erase
      · exact hin
    · rw [event_of_gaveUp hx hgs hg]
      have hsem := (h.known x (heff.held_subset hheld)).1
      exact mem_giveUp.2 (.inr (mem_doDisconnect.2 (.inr (.inl ⟨x, hsem, rfl⟩))))
  · intro x hheld
    rw [held, afterEvent_state] at hheld
    rw [afterEvent_state, heff.created]
    exact h.known x (heff.held_subset hheld)

theorem Wifi.Deleting.main (h : s.Deleting c) (ht : s.Tasks c)
    (hsub : (s.afterMain ops q).held ⊆ s.held) (hm : s.main = op :: ops)
    (hx : op.exec c r s.state = some q) : (s.afterMain ops q).Deleting c := by
  have heff := WifiOp.exec_effect hx
  have hop : op ∈ c.waits ∨ op ∈ c.giveUp :=
    (ht.main_mem hm).imp And.right fun h => mem_giveUp.2 (.inr h.2)
  constructor
  · intro hg x hx
    rw [GaveUp, afterMain_state, (heff.quiet hop).1] at hg
    rw [afterMain_event]
    exact h.gone hg x (hsub hx)
  · intro x hx
    rw [afterMain_state, heff.created]
    exact h.known x (hsub hx)

theorem Wifi.Deleting.step (h : s.Deleting c) (ht : s.Tasks c) (hp : s.Proper)
    (hs : (wifi c).step s e = some s') : s'.Deleting c := by
  cases (Wifi.steps hs).2 with
  | main r hm hx => exact h.main ht (held_subset hs) hm hx
  | event r hm hx => exact h.event ht hp hm hx
  | dispatch v hm hr =>
    refine ⟨?_, h.known⟩
    intro hg
    have hin := (GaveUp.phase (s := s) hg ht).2.2 _ hr
    rw [hm] at hin
    cases hin
  | shutdown hm hr => exact ⟨h.gone, h.known⟩

theorem Wifi.reach_deleting (h : (wifi c).Reach G (exampleWifiConnect c o) s) (hp : s.Proper) :
    s.Deleting c := by
  have hall : s.Proper → s.Deleting c := by
    apply h.invariant fun _ => exampleWifiConnect_deleting c o
    intro s e s' hr hI _ hs hp'
    have hp := Wifi.Proper.back hs hp'
    exact (hI hp).step (reach_tasks hr) hp hs
  exact hall hp

/-- The main task cannot get past a take whose semaphore is gone, unless it uses it. -/
def Wifi.Overtaken (x : Semph) (s : Wifi) : Prop :=
  ¬s.Proper ∨ s.result = none ∧ x ∉ s.held ∧ .take x ∈ s.main

theorem Wifi.Overtaken.main (ht : s.Tasks c) (hw : s.Addresses c o) (hp : s.Proper)
    (hp' : (s.afterMain ops q).Proper) (halive : s.state.aborted = false) (hr : s.result = none)
    (hx : x ∉ s.held) (htake : .take x ∈ s.main) (hm : s.main = op :: ops)
    (he : op.exec c r s.state = some q) :
    (s.afterMain ops q).result = none ∧ .take x ∈ (s.afterMain ops q).main := by
  have htimely := (ht.main_proper_iff hp hm he).1 hp' op (hm ▸ List.mem_cons_self)
  obtain ⟨xs, _, hmain⟩ := hw.waiting hr halive
  rw [hm] at hmain htake
  cases xs with
  | nil =>
    cases hmain
    cases List.mem_singleton.1 htake
  | cons y ys =>
    cases hmain
    rcases exec_waits he (mem_of_suffix (ht.waits hr) hm) with ⟨_, _, ⟨⟩, _, hq⟩ | ⟨⟨⟩, _⟩
    obtain ⟨t, next⟩ := q
    cases hq
    refine ⟨hr, ?_⟩
    rcases List.mem_cons.1 htake with he | hin
    · cases he
      exact absurd htimely hx
    · exact hin

theorem Wifi.Overtaken.step (h : s.Overtaken x) (ht : s.Tasks c) (hw : s.Addresses c o)
    (hs : (wifi c).step s e = some s') : s'.Overtaken x := by
  by_cases hp' : s'.Proper
  · have hp := Wifi.Proper.back hs hp'
    obtain ⟨hr, hx, htake⟩ := h.resolve_left (not_not_intro hp)
    have hx' : x ∉ s'.held := fun hin => hx (held_subset hs hin)
    obtain ⟨halive, hsteps⟩ := Wifi.steps hs
    right
    cases hsteps with
    | main r hm he =>
      obtain ⟨hr', htake'⟩ := Overtaken.main ht hw hp hp' halive hr hx htake hm he
      exact ⟨hr', hx', htake'⟩
    | event r hm he =>
      rw [afterEvent_main, afterEvent_result]
      exact ⟨hr, hx', htake⟩
    | dispatch v hm hd => exact ⟨hr, hx', htake⟩
    | shutdown hm hd => exact absurd hr hd
  · exact .inl hp'

theorem proper_used {held : List Semph} (xs : List Semph) :
    HandleCall.Proper held (xs.map .used) ↔ ∀ x ∈ xs, x ∈ held := by
  induction xs with
  | nil => simp [HandleCall.Proper]
  | cons x xs ih => simp [HandleCall.Proper, ih]

/-- Once the handler has given up and has given the semaphores, the main task alone reports
`ESP_FAIL`, if each semaphore it still takes is there. From a state in which one is gone it returns
only after it has used it, and none is there any more when the handler is done. -/
theorem wifi_failure_reported (h : (wifi c).Reach Machine.Free (exampleWifiConnect c o) s)
    (hp : HandleCall.Proper [] s.state.calls) (hg : c.maxRetry.toNat < s.state.retryNum)
    (hr : s.result = none) (ha : s.state.aborted = false) :
    ((∀ x, .give x ∉ s.event) →
      (∀ x, .take x ∈ s.main → x ∈ HandleCall.heldAfter [] s.state.calls) →
      ∃ s', (wifi c).run s (List.replicate s.main.length (.main .ok)) = some s' ∧
        s'.result = some .fail ∧ HandleCall.Proper [] s'.state.calls) ∧
    (∀ x, .take x ∈ s.main → x ∉ HandleCall.heldAfter [] s.state.calls →
      ∀ s', (wifi c).Reach Machine.Free s s' → s'.result ≠ none →
        ¬HandleCall.Proper [] s'.state.calls) ∧
    (s.event = [] → HandleCall.heldAfter [] s.state.calls = []) := by
  refine ⟨?_, ?_, ?_⟩
  · intro hgive hheld
    obtain ⟨xs, hxs, hm⟩ := (Wifi.reach_addresses h).waiting hr ha
    have hlen : s.main.length = xs.length + 1 := by
      rw [hm, List.length_append, List.length_map]
      rfl
    have hmem {x : Semph} (hx : x ∈ xs) : .take x ∈ s.main :=
      hm ▸ List.mem_append_left _ (List.mem_map_of_mem hx)
    have hgiven : ∀ x ∈ xs, x ∈ s.state.given := by
      intro x hx
      exact ((Wifi.reach_supplied h).supplied hg hr ha x (hmem hx)).resolve_left (hgive x)
    obtain ⟨s', hs, hres, hcalls⟩ :=
      run_waits hg ha xs ((waited_nodup c).sublist hxs.sublist) hm hgiven
    rw [hlen]
    refine ⟨s', hs, hres, ?_⟩
    rw [hcalls, HandleCall.proper_append, proper_used]
    exact ⟨hp, fun x hx => hheld x (hmem hx)⟩
  · intro x htake hx s' hreach hres
    have hover : s'.Overtaken x := by
      apply hreach.invariant (I := Wifi.Overtaken x) (.inr ⟨hr, hx, htake⟩)
      intro s e s' hreach ho _ hs
      have hreach := h.trans hreach
      exact ho.step (Wifi.reach_tasks hreach) (Wifi.reach_addresses hreach) hs
    exact hover.resolve_right fun hn => hres hn.1
  · exact (Wifi.reach_deleting h hp).held_eq_nil hg

end

/-- The handler has given up and is done. -/
def givenUp : List WifiStep := twoDisconnections ++ List.replicate 6 (.event .ok)

/-- The address comes first, and the handler gives up before the check. -/
def waitOver : List WifiStep :=
  [.dispatch (.staGotIp exampleNetifDescSta), .event .ok, .event .ok, .main .ok] ++ givenUp

theorem wifi_failure_reported_oneRetry :
    (∃ s s', (wifi oneRetry).run (exampleWifiConnect oneRetry allOk) waitOver = some s ∧
      (wifi oneRetry).run s [.main .ok] = some s' ∧ s'.result = some .fail ∧
        HandleCall.Proper [] s'.state.calls) ∧
    ∃ s, (wifi oneRetry).run (exampleWifiConnect oneRetry allOk) givenUp = some s ∧
      HandleCall.heldAfter [] s.state.calls = [] ∧
      ∀ s', (wifi oneRetry).Reach Machine.Free s s' → s'.result ≠ none →
        ¬HandleCall.Proper [] s'.state.calls := by
  constructor
  · have hrun : ((wifi oneRetry).run (exampleWifiConnect oneRetry allOk) waitOver).any (fun s =>
        HandleCall.Proper [] s.state.calls ∧ 1 < s.state.retryNum ∧ s.result = none ∧
          s.state.aborted = false ∧ s.event = [] ∧ s.main = [.checkRetryNum]) = true := by decide
    obtain ⟨s, hs, hall⟩ := (Option.any_eq_true _ _).1 hrun
    obtain ⟨hp, hg, hr, ha, hev, hm⟩ := of_decide_eq_true hall
    obtain ⟨hreport, _, _⟩ := wifi_failure_reported (Machine.reach_of_run hs) hp hg hr ha
    obtain ⟨s', hs', hfail, hp'⟩ := hreport (by simp [hev]) (by simp [hm])
    rw [hm] at hs'
    exact ⟨s, s', hs, hs', hfail, hp'⟩
  · have hrun : ((wifi oneRetry).run (exampleWifiConnect oneRetry allOk) givenUp).any (fun s =>
        HandleCall.Proper [] s.state.calls ∧ 1 < s.state.retryNum ∧ s.result = none ∧
          s.state.aborted = false ∧ s.event = [] ∧ .take .ipAddrs ∈ s.main) = true := by decide
    obtain ⟨s, hs, hall⟩ := (Option.any_eq_true _ _).1 hrun
    obtain ⟨hp, hg, hr, ha, hev, hm⟩ := of_decide_eq_true hall
    obtain ⟨_, hgone, hnil⟩ := wifi_failure_reported (Machine.reach_of_run hs) hp hg hr ha
    have hheld := hnil hev
    refine ⟨s, hs, hheld, ?_⟩
    exact hgone .ipAddrs hm (by simp [hheld])

/-- The handler has deleted the semaphore by the time the main task takes it. -/
theorem wifi_semaphores_iff_late :
    ∃ s, (wifi oneRetry).run (exampleWifiConnect oneRetry allOk)
        (givenUp ++ List.replicate 2 (.main .ok)) = some s ∧
      s.result = some .fail ∧ ¬HandleCall.Proper [] s.state.calls := by
  obtain ⟨s, hs, hr⟩ : ∃ s, (wifi oneRetry).run (exampleWifiConnect oneRetry allOk)
      (givenUp ++ List.replicate 2 (.main .ok)) = some s ∧ s.result = some .fail :=
    ⟨_, rfl, rfl⟩
  refine ⟨s, hs, hr, ?_⟩
  rw [wifi_semaphores_iff (by decide) hs]
  decide

/-- The main task runs only while no handler does, as when the event task has the higher
priority on the same core. -/
def Wifi.Preempted (s : Wifi) : WifiStep → Prop
  | .main _ | .shutdown => s.event = []
  | _ => True

instance (s : Wifi) (e : WifiStep) : Decidable (s.Preempted e) :=
  match e with
  | .main _ | .shutdown => inferInstanceAs (Decidable (s.event = []))
  | .event _ | .dispatch _ => isTrue trivial

/-- What is known of a run in which every use so far was proper, and each take of the main task
came before or after a handler. -/
structure Wifi.Clean (c : WifiConfig) (o : WifiOutcome) (s : Wifi) : Prop where
  taken : s.result = none → s.state.aborted = false → ∀ x ∈ c.waited, .take x ∈ s.main ∨ s.Got x
  fail : s.result = some .fail → o.connect = .fail ∨ ∀ x ∈ c.waited, s.Got x

section
variable {c : WifiConfig} {o : WifiOutcome} {s s' : Wifi}

theorem exampleWifiConnect_clean (c : WifiConfig) (o : WifiOutcome) :
    (exampleWifiConnect c o).Clean c o := by
  have hstart := exampleWifiConnect_started c o
  apply Wifi.Clean.mk
  · intro hr ha x hx
    rw [hstart.main, if_pos ⟨hr, ha⟩]
    exact .inl (mem_waits.2 (.inl ⟨x, hx, rfl⟩))
  · intro hr
    rcases hstart.result _ hr with he | ⟨he, _⟩
    · cases he
    · exact .inl he.symm

theorem Wifi.Clean.main (h : s.Clean c o) (hdel : s.Deleting c) (ht : s.Tasks c)
    (hw : s.Addresses c o) (hp : s.Proper) (hp' : (s.afterMain ops q).Proper) (he : s.event = [])
    (halive : s.state.aborted = false) (hm : s.main = op :: ops)
    (hx : op.exec c r s.state = some q) : (s.afterMain ops q).Clean c o := by
  obtain ⟨t, next⟩ := q
  rcases ht.main_mem hm with ⟨hnone, hop⟩ | ⟨hsome, hop⟩
  · rcases exec_waits hx hop with ⟨x, _, rfl, hgx, hq⟩ | ⟨rfl, hq⟩
    · cases hq
      have htimely := (ht.main_proper_iff hp hm hx).1 hp'
      have hfirst : .take x ∈ s.main.take 1 := by
        rw [hm]
        exact List.mem_cons_self
      have hheld : x ∈ s.held := htimely _ hfirst
      have hgot : s.Got x := by
        rcases hw.given x hgx with hgot | hg
        · exact hgot
        · rw [hdel.held_eq_nil hg he] at hheld
          cases hheld
      constructor
      · intro _ _ y hy
        rcases h.taken hnone halive y hy with htake | hgot'
        · rw [hm] at htake
          rcases List.mem_cons.1 htake with he | hin
          · cases he
            exact .inr hgot
          · exact .inl hin
        · exact .inr hgot'
      · intro hfail
        cases hnone.symm.trans hfail
    · cases hq
      constructor
      · intro hres
        cases hres
      intro _
      right
      intro y hy
      rcases h.taken hnone halive y hy with htake | hgot
      · obtain ⟨xs, _, hmain⟩ := hw.waiting hnone halive
        rw [hm] at hmain htake
        cases xs with
        | nil =>
          cases hmain
          cases List.mem_singleton.1 htake
        | cons z zs => cases hmain
      · exact hgot
  · have hq := exec_giveUp hx (mem_giveUp.2 (.inr hop))
    cases hq
    refine ⟨?_, h.fail⟩
    intro hres
    exact absurd hres hsome

theorem Wifi.Clean.step (h : s.Clean c o) (hdel : s.Deleting c) (ht : s.Tasks c)
    (hw : s.Addresses c o) (hp' : s'.Proper) (hpre : s.Preempted e)
    (hs : (wifi c).step s e = some s') : s'.Clean c o := by
  have hp := Wifi.Proper.back hs hp'
  obtain ⟨halive, hsteps⟩ := Wifi.steps hs
  cases hsteps with
  | main r hm hx => exact h.main hdel ht hw hp hp' hpre halive hm hx
  | event r hm hx =>
    constructor
    · intro hres _ x hx
      rw [afterEvent_result] at hres
      rw [afterEvent_main, Got, afterEvent_handled]
      exact h.taken hres halive x hx
    · intro hres
      rw [afterEvent_result] at hres
      simp only [Got, afterEvent_handled]
      exact h.fail hres
  | dispatch v hm hr =>
    have hgot {x : Semph} (hg : s.Got x) : ∃ e ∈ v :: s.handled, .give x ∈ e.ops := by
      obtain ⟨w, hw, hwx⟩ := hg
      exact ⟨w, List.mem_cons_of_mem _ hw, hwx⟩
    constructor
    · intro hres ha x hx
      exact (h.taken hres ha x hx).imp_right hgot
    · intro hres
      rcases h.fail hres with ho | hall
      · exact .inl ho
      · exact .inr fun x hx => hgot (hall x hx)
  | shutdown hm hr =>
    refine ⟨?_, h.fail⟩
    intro hres
    exact absurd hres hr

end

/-- The handler gives up between the last take and the check. -/
def failedLate : List WifiStep := waitOver ++ [.main .ok]

end TeleopLedBenchmarks
