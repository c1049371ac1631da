import TeleopLedBenchmarks.WifiRetry

namespace TeleopLedBenchmarks
set_option autoImplicit true

/-- What the main task may rely on. -/
structure Wifi.Addresses (c : WifiConfig) (o : WifiOutcome) (s : Wifi) : Prop where
  waiting : s.result = none → s.state.aborted = false →
    ∃ xs, xs <:+ c.waited ∧ s.main = xs.map .take ++ [.checkRetryNum]
  given : ∀ x ∈ s.state.given, s.Got x ∨ s.GaveUp c
  taken : s.result = none → s.state.aborted = false →
    ∀ x ∈ c.waited, .take x ∈ s.main ∨ s.Got x ∨ s.GaveUp c
  ok : s.result = some .ok → ∀ x ∈ c.waited, s.Got x
  fail : s.result = some .fail → o.connect = .fail ∨ s.GaveUp c ∨ c.maxRetry < 0

section
variable {c : WifiConfig} {o : WifiOutcome} {s s' : Wifi}

theorem check_fails : c.maxRetry < s.state.retryNum ↔ s.GaveUp c ∨ c.maxRetry < 0 := by
  rw [Wifi.GaveUp]
  omega

theorem Wifi.Started.addresses (h : s.Started c o) : s.Addresses c o := by
  have hmain (hr : s.result = none) (ha : s.state.aborted = false) : s.main = c.waits :=
    h.main.trans (if_pos ⟨hr, ha⟩)
  refine ⟨?_, ?_, ?_, ?_, ?_⟩
  · intro hr ha
    exact ⟨c.waited, List.suffix_refl _, hmain hr ha⟩
  · intro x hx
    rw [h.given] at hx
    cases hx
  · intro hr ha x hx
    rw [hmain hr ha]
    exact .inl (mem_waits.2 (.inl ⟨x, hx, rfl⟩))
  · intro hr
    rcases h.result _ hr with he | ⟨_, hne⟩
    · cases he
    · exact absurd rfl hne
  · intro hr
    rcases h.result _ hr with he | ⟨he, _⟩
    · cases he
    · exact .inl he.symm

theorem Wifi.handled_subset (hs : (wifi c).step s e = some s') : s.handled ⊆ s'.handled := by
  intro v hv
  cases (Wifi.steps hs).2 with
  | main r hm hx => simpa using hv
  | event r hm hx => simpa using hv
  | dispatch w hm hr => exact List.mem_cons_of_mem _ hv
  | shutdown hm hr => exact hv

theorem Wifi.kept (ht : s.Tasks c) (hs : (wifi c).step s e = some s')
    (h : s.Got x ∨ s.GaveUp c) : s'.Got x ∨ s'.GaveUp c := by
  rcases h with ⟨v, hv, hx⟩ | hg
  · exact .inl ⟨v, handled_subset hs hv, hx⟩
  · exact .inr (hg.step ht hs).1

/-- Whoever gives a semaphore has got the address or given up. -/
theorem Wifi.Tasks.give (ht : s.Tasks c) (hx : .give x ∈ s.event) : s.Got x ∨ s.GaveUp c := by
  rcases ht.phase with ⟨_, he⟩ | ⟨_, he⟩ | ⟨_, v, hv, he⟩ | ⟨heq, _, _⟩
  · rw [he] at hx
    cases hx
  · rw [he] at hx
    cases List.mem_singleton.1 hx
  · exact .inl ⟨v, hv, he.subset hx⟩
  · exact .inr (Nat.lt_of_lt_of_eq (Nat.lt_succ_self _) heq.symm)

theorem WifiOp.Effect.mem_given {op : WifiOp} {t t' : WifiState} (h : op.Effect t t')
    (hx : x ∈ t'.given) :
    x ∈ t.given ∨ op = .give x := by
  rw [h.given] at hx
  cases op with
  | take y => exact .inl (List.mem_of_mem_erase hx)
  | give y =>
    rw [WifiOp.givenAfter] at hx
    split at hx
    · rcases List.mem_insert_iff.1 hx with rfl | hx
      · exact .inr rfl
      · exact .inl hx
    · exact .inl hx
  | _ => exact .inl hx

theorem Wifi.Addresses.main (h : s.Addresses c o) (ht : s.Tasks c)
    (hs : (wifi c).step s e = some (s.afterMain ops q)) (halive : s.state.aborted = false)
    (hm : s.main = op :: ops) (hx : op.exec c r s.state = some q) :
    (s.afterMain ops q).Addresses c o := by
  have hgiven : ∀ x ∈ q.1.given, op ≠ .give x →
      (s.afterMain ops q).Got x ∨ (s.afterMain ops q).GaveUp c := by
    intro x hg hne
    have hg' := ((WifiOp.exec_effect hx).mem_given hg).resolve_right hne
    exact kept ht hs (h.given x hg')
  by_cases hr : s.result = none
  · obtain ⟨xs, hxs, hmain⟩ := h.waiting hr halive
    rw [hm] at hmain
    cases xs with
    | nil =>
      cases hmain
      cases hx
      refine ⟨nofun, fun x hg => hgiven x hg nofun, nofun, ?_, ?_⟩
      · intro hok x hw
        by_cases hmax : c.maxRetry < s.state.retryNum
        · simp [afterMain, if_pos hmax] at hok
        · rcases h.taken hr halive x hw with htake | hgot | hg
          · rw [hm] at htake
            cases List.mem_singleton.1 htake
          · exact hgot
          · exact absurd (check_fails.2 (.inl hg)) hmax
      · intro hfail
        by_cases hmax : c.maxRetry < s.state.retryNum
        · exact .inr (check_fails.1 hmax)
        · simp [afterMain, if_neg hmax] at hfail
    | cons x xs =>
      cases hmain
      rcases exec_waits hx (mem_waits.2 (.inl ⟨x, hxs.subset List.mem_cons_self, rfl⟩))
        with ⟨y, _, ⟨⟩, hgx, hq⟩ | ⟨⟨⟩, _⟩
      obtain ⟨t, next⟩ := q
      cases hq
      refine ⟨?_, fun x hg => hgiven x hg nofun, ?_, h.ok, ?_⟩
      · intro _ _
        exact ⟨xs, (List.suffix_cons x xs).trans hxs, rfl⟩
      · intro _ _ y hw
        rcases h.taken hr halive y hw with htake | hdone
        · rw [hm] at htake
          rcases List.mem_cons.1 htake with he | hin
          · cases he
            exact .inr (kept ht hs (h.given x hgx))
          · exact .inl hin
        · exact .inr (kept ht hs hdone)
      · intro hfail
        have hsome : s.result = some .fail := hfail
        cases hr.symm.trans hsome
  · have hop := mem_of_suffix (ht.returned hr) hm
    have hq := exec_giveUp hx (mem_giveUp.2 (.inr hop))
    obtain ⟨t, next⟩ := q
    cases hq
    refine ⟨fun hn => absurd hn hr, ?_, fun hn => absurd hn hr, ?_, ?_⟩
    · intro x hg
      apply hgiven x hg
      rintro rfl
      rw [mem_doDisconnect] at hop
      simp at hop
    · exact h.ok
    · intro hfail
      exact (h.fail hfail).imp_right fun hg => hg.imp_left fun hg => (hg.step ht hs).1

theorem Wifi.Addresses.event (h : s.Addresses c o) (ht : s.Tasks c)
    (hs : (wifi c).step s e = some (s.afterEvent ops q)) (halive : s.state.aborted = false)
    (hm : s.event = op :: ops) (hx : op.exec c r s.state = some q) :
    (s.afterEvent ops q).Addresses c o := by
  apply Addresses.mk
  · intro hr _
    rw [afterEvent_main]
    rw [afterEvent_result] at hr
    exact h.waiting hr halive
  · intro x hg
    rw [afterEvent_state] at hg
    apply kept ht hs
    rcases (WifiOp.exec_effect hx).mem_given hg with hg | rfl
    · exact h.given x hg
    · exact ht.give (hm ▸ List.mem_cons_self)
  · intro hr _ x hw
    rw [afterEvent_main]
    rw [afterEvent_result] at hr
    exact (h.taken hr halive x hw).imp_right (kept ht hs)
  · intro hr x hw
    rw [afterEvent_result] at hr
    obtain ⟨v, hv, hvx⟩ := h.ok hr x hw
    exact ⟨v, by simpa using hv, hvx⟩
  · intro hr
    rw [afterEvent_result] at hr
    exact (h.fail hr).imp_right fun hg => hg.imp_left fun hg => (hg.step ht hs).1

theorem Wifi.Addresses.step (h : s.Addresses c o) (ht : s.Tasks c)
    (hs : (wifi c).step s e = some s') : s'.Addresses c o := by
  have hkept (x : Semph) := kept (x := x) ht hs
  obtain ⟨halive, hsteps⟩ := Wifi.steps hs
  cases hsteps with
  | main r hm hx => exact h.main ht hs halive hm hx
  | event r hm hx => exact h.event ht hs halive hm hx
  | dispatch v hm hr =>
    refine ⟨h.waiting, ?_, ?_, ?_, ?_⟩
    · intro x hx
      exact hkept x (h.given x hx)
    · intro hn ha x hx
      exact (h.taken hn ha x hx).imp_right (hkept x)
    · intro hn x hx
      obtain ⟨w, hw, hwx⟩ := h.ok hn x hx
      exact ⟨w, List.mem_cons_of_mem _ hw, hwx⟩
    · exact h.fail
  | shutdown hm hr =>
    refine ⟨?_, h.given, ?_, h.ok, h.fail⟩
    · intro hn
      exact absurd hn hr
    · intro hn
      exact absurd hn hr

theorem Wifi.reach_addresses (h : (wifi c).Reach G (exampleWifiConnect c o) s) :
    s.Addresses c o :=
  h.invariant (exampleWifiConnect_started c o).addresses fun _ _ _ hr hI _ hs =>
    hI.step (reach_tasks hr) hs

theorem exampleIsOurNetif_sta (h : exampleIsOurNetif exampleNetifDescSta desc = true) :
    desc.take 16 = chars "example_netif_st" :=
  (eq_of_beq h).symm

theorem Wifi.Got.staGotIp (h : s.Got .ipAddrs) :
    ∃ desc, .staGotIp desc ∈ s.handled ∧ desc.take 16 = chars "example_netif_st" := by
  obtain ⟨e, he, hx⟩ := h
  cases e with
  | staDisconnected b => cases List.mem_singleton.1 hx
  | staConnected => cases hx
  | staGotIp desc =>
    refine ⟨desc, he, ?_⟩
    cases hd : exampleIsOurNetif exampleNetifDescSta desc with
    | true => exact exampleIsOurNetif_sta hd
    | false => simp [WifiEvent.ops, hd] at hx
  | gotIp6 desc preferred =>
    rw [WifiEvent.ops] at hx
    split at hx
    · cases List.mem_singleton.1 hx
    · cases hx

theorem Wifi.Got.gotIp6 (h : s.Got .ip6Addrs) :
    ∃ desc, .gotIp6 desc true ∈ s.handled ∧ desc.take 16 = chars "example_netif_st" := by
  obtain ⟨e, he, hx⟩ := h
  cases e with
  | staDisconnected b => cases List.mem_singleton.1 hx
  | staConnected => cases hx
  | staGotIp desc =>
    rw [WifiEvent.ops] at hx
    split at hx
    · simp at hx
    · simp at hx
  | gotIp6 desc preferred =>
    rw [WifiEvent.ops] at hx
    split at hx
    · rename_i hg
      rw [Bool.and_eq_true] at hg
      obtain ⟨hd, rfl⟩ := hg
      exact ⟨desc, he, exampleIsOurNetif_sta hd⟩
    · cases hx

/-- `ESP_OK` is returned only once the handlers have got each address waited for, on an interface
whose description starts with `example_netif_st`, and `ESP_FAIL` only if `esp_wifi_connect` has
returned it, once there has been one more disconnection in a row than the maximum, or for a negative
maximum. -/
theorem wifi_connect_result (h : (wifi c).Reach Machine.Free (exampleWifiConnect c o) s) :
    (s.result = some .ok →
      (c.ipv4 = true → ∃ desc, .staGotIp desc ∈ s.handled ∧
        desc.take 16 = chars "example_netif_st") ∧
      (c.ipv6 = true → ∃ desc, .gotIp6 desc true ∈ s.handled ∧
        desc.take 16 = chars "example_netif_st")) ∧
    (s.result = some .fail → o.connect = .fail ∨ failures s.handled = c.maxRetry.toNat + 1 ∨
      c.maxRetry < 0) := by
  have haddr := Wifi.reach_addresses h
  constructor
  · intro hok
    constructor
    · intro h4
      exact (haddr.ok hok .ipAddrs (by simp [WifiConfig.waited, h4])).staGotIp
    · intro h6
      exact (haddr.ok hok .ip6Addrs (by simp [WifiConfig.waited, h6])).gotIp6
  · intro hfail
    rcases haddr.fail hfail with ho | hg | hn
    · exact .inl ho
    · exact .inr (.inl (hg.failures (Wifi.reach_tasks h) (Wifi.reach_counts h)))
    · exact .inr (.inr hn)

/-- The station gets its address. -/
def addressGot : List WifiStep :=
  [.dispatch (.staGotIp exampleNetifDescSta), .event .ok, .event .ok, .main .ok, .main .ok]

theorem wifi_connect_result_ok :
    ∃ s, (wifi oneRetry).run (exampleWifiConnect oneRetry allOk) addressGot = some s ∧
      s.result = some .ok ∧
      ∃ desc, .staGotIp desc ∈ s.handled ∧ desc.take 16 = chars "example_netif_st" := by
  obtain ⟨s, hs, hok⟩ : ∃ s, (wifi oneRetry).run (exampleWifiConnect oneRetry allOk)
      addressGot = some s ∧ s.result = some .ok := ⟨_, rfl, rfl⟩
  have h := wifi_connect_result (Machine.reach_of_run hs)
  exact ⟨s, hs, hok, (h.1 hok).1 rfl⟩

/-- The semaphores that the main task still waits for are given, or will be. -/
structure Wifi.Supplied (c : WifiConfig) (s : Wifi) : Prop where
  created : s.result = none → s.state.aborted = false → ∀ x ∈ c.semphs, x ∈ s.state.created
  supplied : s.GaveUp c → s.result = none → s.state.aborted = false →
    ∀ x, .take x ∈ s.main → .give x ∈ s.event ∨ x ∈ s.state.given

theorem waited_subset (c : WifiConfig) : c.waited ⊆ c.semphs := by
  intro x hx
  obtain ⟨n, v4, v6⟩ := c
  cases v4 <;> cases v6 <;> simp_all [WifiConfig.waited, WifiConfig.semphs]

theorem waited_nodup (c : WifiConfig) : c.waited.Nodup := by
  obtain ⟨n, v4, v6⟩ := c
  cases v4 <;> cases v6 <;> simp [WifiConfig.waited]

theorem exampleWifiConnect_supplied (c : WifiConfig) (o : WifiOutcome) :
    (exampleWifiConnect c o).Supplied c := by
  have hstart := exampleWifiConnect_started c o
  apply Wifi.Supplied.mk
  · intro hr ha x hx
    rcases exampleWifiConnect_cases c o with he | he | he | ⟨_, he⟩ | he
    · rw [he] at hr
      cases hr
    · rw [he] at hr
      cases hr
    · rw [he] at ha
      cases ha
    · rw [he] at hr
      cases hr
    · rw [he]
      exact List.mem_reverse.2 hx
  · intro hg
    have hlt : c.maxRetry.toNat < (exampleWifiConnect c o).state.retryNum := hg
    rw [hstart.retryNum] at hlt
    omega

theorem mem_given_of_giveUp {op : WifiOp} {t : WifiState} (hop : op ∈ c.giveUp)
    (hx : x ∈ t.given) : x ∈ op.givenAfter t := by
  cases op with
  | take y => simp [mem_giveUp, mem_doDisconnect] at hop
  | give y =>
    rw [WifiOp.givenAfter]
    split
    · exact List.mem_insert_of_mem hx
    · exact hx
  | _ => exact hx

theorem Wifi.Supplied.main (h : s.Supplied c) (ht : s.Tasks c) (hw : s.Addresses c o)
    (hs : (wifi c).step s e = some (s.afterMain ops q)) (halive : s.state.aborted = false)
    (hm : s.main = op :: ops) (hx : op.exec c r s.state = some q) :
    (s.afterMain ops q).Supplied c := by
  by_cases hr : s.result = none
  · obtain ⟨xs, hxs, hmain⟩ := hw.waiting hr halive
    rw [hm] at hmain
    cases xs with
    | nil =>
      cases hmain
      cases hx
      exact ⟨nofun, fun _ => nofun⟩
    | cons y ys =>
      cases hmain
      rcases exec_waits hx (mem_waits.2 (.inl ⟨y, hxs.subset List.mem_cons_self, rfl⟩))
        with ⟨_, _, ⟨⟩, _, hq⟩ | ⟨⟨⟩, _⟩
      have heff := WifiOp.exec_effect hx
      have hnodup : y ∉ ys :=
        (List.nodup_cons.1 ((waited_nodup c).sublist hxs.sublist)).1
      obtain ⟨t, next⟩ := q
      cases hq
      have hcreated : t.created = s.state.created := heff.created
      have hgiven : t.given = s.state.given.erase y := heff.given
      have hn := (heff.quiet (.inl (mem_waits.2 (.inl ⟨y, hxs.subset List.mem_cons_self, rfl⟩)))).1
      apply Supplied.mk
      · intro _ _ x hx
        exact hcreated ▸ h.created hr halive x hx
      · intro hg _ _ x hx
        have hg' : s.GaveUp c := Nat.lt_of_lt_of_eq hg hn
        have hxys : x ∈ ys := by
          rcases List.mem_append.1 hx with hx | hx
          · obtain ⟨z, hz, he⟩ := List.mem_map.1 hx
            cases he
            exact hz
          · cases List.mem_singleton.1 hx
        have hne : x ≠ y := fun he => hnodup (he ▸ hxys)
        have hmem : .take x ∈ s.main := hm ▸ List.mem_cons_of_mem _ hx
        rcases h.supplied hg' hr halive x hmem with hgive | hin
        · exact .inl hgive
        · exact .inr (hgiven ▸ (List.mem_erase_of_ne hne).2 hin)
  · have hop := mem_of_suffix (ht.returned hr) hm
    have hq := exec_giveUp hx (mem_giveUp.2 (.inr hop))
    obtain ⟨t, next⟩ := q
    cases hq
    exact ⟨fun hn => absurd hn hr, fun _ hn => absurd hn hr⟩

theorem Wifi.event_of_gaveUp {op : WifiOp} (hx : op.exec c r s.state = some q) (hgs : ¬s.GaveUp c)
    (hg : (s.afterEvent ops q).GaveUp c) : (s.afterEvent ops q).event = c.giveUp := by
  have hcount : ∃ b, op = .countRetry b := by
    by_contra hne
    have hn : q.1.retryNum ≤ s.state.retryNum := by
      rw [(WifiOp.exec_effect hx).retryNum]
      unfold WifiOp.retryNumAfter
      split
      · exact absurd ⟨_, rfl⟩ hne
      · exact Nat.zero_le _
      · exact Nat.le_refl _
    rw [GaveUp, afterEvent_state] at hg
    exact hgs (Nat.lt_of_lt_of_le hg hn)
  obtain ⟨b, rfl⟩ := hcount
  cases exec_countRetry hx
  have hmax : c.maxRetry.toNat < s.state.retryNum + 1 := hg
  simp only [afterEvent, if_pos hmax]

theorem Wifi.Supplied.event (h : s.Supplied c) (ht : s.Tasks c) (hw : s.Addresses c o)
    (halive : s.state.aborted = false) (hm : s.event = op :: ops)
    (hx : op.exec c r s.state = some q) : (s.afterEvent ops q).Supplied c := by
  have heff := WifiOp.exec_effect hx
  apply Supplied.mk
  · intro hr _ x hx
    rw [afterEvent_state, heff.created]
    rw [afterEvent_result] at hr
    exact h.created hr halive x hx
  · intro hg hr _ x hmem
    rw [afterEvent_result] at hr
    rw [afterEvent_main] at hmem
    rw [afterEvent_state]
    have hsem : x ∈ c.semphs := by
      obtain ⟨xs, hxs, hmain⟩ := hw.waiting hr halive
      rw [hmain] at hmem
      rcases List.mem_append.1 hmem with hmem | hmem
      · obtain ⟨z, hz, he⟩ := List.mem_map.1 hmem
        cases he
        exact waited_subset c (hxs.subset hz)
      · cases List.mem_singleton.1 hmem
    have hcreated := h.created hr halive x hsem
    by_cases hgs : s.GaveUp c
    · have hop := mem_of_suffix (hgs.phase ht).2.1 hm
      have hq := exec_giveUp hx hop
      have hkeep : .give x = op ∨ x ∈ s.state.given → x ∈ q.1.given := by
        intro hor
        rw [heff.given]
        rcases hor with rfl | hin
        · rw [WifiOp.givenAfter, if_pos hcreated]
          exact List.mem_insert_self
        · exact mem_given_of_giveUp hop hin
      obtain ⟨t, next⟩ := q
      cases hq
      rcases h.supplied hgs hr halive x hmem with hgive | hin
      · rw [hm] at hgive
        rcases List.mem_cons.1 hgive with he | hgive
        · exact .inr (hkeep (.inl he))
        · exact .inl hgive
      · exact .inr (hkeep (.inr hin))
    · left
      rw [event_of_gaveUp hx hgs hg]
      exact mem_giveUp.2 (.inl ⟨x, hsem, rfl⟩)

theorem Wifi.Supplied.step (h : s.Supplied c) (ht : s.Tasks c) (hw : s.Addresses c o)
    (hs : (wifi c).step s e = some s') : s'.Supplied c := by
  obtain ⟨halive, hsteps⟩ := Wifi.steps hs
  cases hsteps with
  | main r hm hx => exact h.main ht hw hs halive hm hx
  | event r hm hx => exact h.event ht hw halive hm hx
  | dispatch v hm hr =>
    refine ⟨h.created, fun hg => ?_⟩
    have hin := (GaveUp.phase (s := s) hg ht).2.2 _ hr
    rw [hm] at hin
    cases hin
  | shutdown hm hr => exact ⟨h.created, fun _ hn => absurd hn hr⟩

theorem Wifi.reach_supplied (h : (wifi c).Reach G (exampleWifiConnect c o) s) : s.Supplied c :=
  h.invariant (exampleWifiConnect_supplied c o) fun _ _ _ hr hI _ hs =>
    hI.step (reach_tasks hr) (reach_addresses hr) hs

theorem run_waits (hg : s.GaveUp c) (ha : s.state.aborted = false) (xs : List Semph)
    (hxs : xs.Nodup) (hm : s.main = xs.map .take ++ [.checkRetryNum])
    (hgiven : ∀ x ∈ xs, x ∈ s.state.given) :
    ∃ s', (wifi c).run s (List.replicate (xs.length + 1) (.main .ok)) = some s' ∧
      s'.result = some .fail ∧ s'.state.calls = s.state.calls ++ xs.map .used := by
  induction xs generalizing s with
  | nil =>
    have hx : WifiOp.exec c .ok s.state .checkRetryNum = some (s.state, .ret .fail) := by
      rw [WifiOp.exec, if_pos (check_fails.2 (.inl hg))]
    have hstep : (wifi c).step s (.main .ok) =
        some { s with main := [], result := some .fail } := by
      simp [wifi, ha, hm, hx, Wifi.afterMain]
    exact ⟨_, Option.bind_eq_some_iff.2 ⟨_, hstep, rfl⟩, rfl, (List.append_nil _).symm⟩
  | cons x xs ih =>
    obtain ⟨hnot, hxs⟩ := List.nodup_cons.1 hxs
    let t : WifiState :=
      { s.state with given := s.state.given.erase x, calls := s.state.calls ++ [.used x] }
    have hx : WifiOp.exec c .ok s.state (.take x) = some (t, .goOn) :=
      if_pos (hgiven x List.mem_cons_self)
    have hstep : (wifi c).step s (.main .ok) =
        some { s with state := t, main := xs.map .take ++ [.checkRetryNum] } := by
      simp [wifi, ha, hm, hx, Wifi.afterMain]
    obtain ⟨s', hrun, hres, hcalls⟩ := ih (s := { s with
      state := t, main := xs.map .take ++ [.checkRetryNum] }) hg ha hxs rfl (by
        intro y hy
        have hne : y ≠ x := fun he => hnot (he ▸ hy)
        exact (List.mem_erase_of_ne hne).2 (hgiven y (List.mem_cons_of_mem _ hy)))
    refine ⟨s', Option.bind_eq_some_iff.2 ⟨_, hstep, hrun⟩, hres, ?_⟩
    rw [hcalls, List.append_assoc]
    rfl

end

end TeleopLedBenchmarks
