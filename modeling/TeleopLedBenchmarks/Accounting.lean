import Mathlib.Data.Int.ConditionallyCompleteOrder
import TeleopLedBenchmarks.Outbound
import TeleopLedBenchmarks.Framing

namespace TeleopLedBenchmarks
set_option autoImplicit true

/-- When each processed reply was processed, and the latency that was assigned there. -/
def answers (history : List Action) : List (Time × Duration) :=
  history.filterMap fun
    | .processMessage _ now _ after => some (now, after.blinkLatency)
    | _ => none

/-- A command is sent only while none is in flight. -/
def Action.SentIdle : Action → Prop
  | .sendCommand _ wasSending _ => wasSending = false
  | _ => True

theorem answers_append (h l : List Action) : answers (h ++ l) = answers h ++ answers l :=
  List.filterMap_append ..

theorem answers_length (h : List Action) : (answers h).length = (processed h).length := by
  induction h with
  | nil => rfl
  | cons a h ih =>
    cases a with
    | processMessage => exact congrArg (· + 1) ih
    | _ => exact ih

namespace AppState
variable {clock : Nat → Time} {s : AppState}

/-- The commands and the replies processed so far match in order, and the flag says whether
one command is open. -/
structure Accounted (clock : Nat → Time) (s : AppState) : Prop where
  count : (sends s.history).length =
    (processed s.history).length + s.isSendingBlinkCommand.toNat
  idle : ∀ a ∈ s.history, a.SentIdle
  past : ∀ t ∈ sends s.history, ∃ r < s.readings, t = clock r
  paired : ∀ (k : Nat) now latency, (answers s.history)[k]? = some (now, latency) →
    ∃ r r', r < r' ∧ (sends s.history)[k]? = some (clock r) ∧ now = clock r' ∧
      latency = .ofTicks (now - clock r)
  latest : s.blinkLatency = ((answers s.history).getLast?.map Prod.snd).getD 0

theorem Accounted.new (clock : Nat → Time) (c : ConnectionType) :
    (AppState.new c).Accounted clock := by
  refine ⟨rfl, ?_, ?_, ?_, rfl⟩
  · intro a ha
    cases ha
  · intro t ht
    cases ht
  · intro k now latency hk
    cases hk

theorem Accounted.extend (h : s.Accounted clock) (l : List Action) {t : AppState}
    (hh : t.history = s.history ++ l) (hm : t.measurement = s.measurement)
    (hr : t.readings = s.readings) (hs : sends l = []) (hp : processed l = [])
    (hi : ∀ a ∈ l, a.SentIdle) : t.Accounted clock := by
  simp only [measurement, Measurement.mk.injEq] at hm
  obtain ⟨hf, _, hb⟩ := hm
  have hsends : sends t.history = sends s.history := by
    rw [hh, sends_append, hs, List.append_nil]
  have hproc : processed t.history = processed s.history := by
    rw [hh, processed_append, hp, List.append_nil]
  have hans : answers t.history = answers s.history := by
    have hl := answers_length l
    rw [hp, List.length_nil] at hl
    rw [hh, answers_append, List.length_eq_zero_iff.1 hl, List.append_nil]
  refine ⟨?_, ?_, ?_, ?_, ?_⟩
  · rw [hsends, hproc, hf]
    exact h.count
  · intro a ha
    rw [hh] at ha
    obtain ha | ha := List.mem_append.1 ha
    · exact h.idle a ha
    · exact hi a ha
  · rw [hsends, hr]
    exact h.past
  · rw [hans, hsends]
    exact h.paired
  · rw [hans, hb]
    exact h.latest

theorem Accounted.sent (h : s.Accounted clock) (hf : s.isSendingBlinkCommand = false) :
    (s.sent clock).Accounted clock := by
  have hsends : sends (s.sent clock).history = sends s.history ++ [clock s.readings] :=
    sends_append _ _
  have hproc : processed (s.sent clock).history = processed s.history := by
    rw [AppState.sent, processed_append]
    exact List.append_nil _
  have hans : answers (s.sent clock).history = answers s.history := by
    rw [AppState.sent, answers_append]
    exact List.append_nil _
  have hcount := h.count
  rw [hf, Bool.toNat_false, Nat.add_zero] at hcount
  refine ⟨?_, ?_, ?_, ?_, ?_⟩
  · rw [hsends, hproc, List.length_append, hcount]
    rfl
  · intro a ha
    obtain ha | ha := List.mem_append.1 ha
    · exact h.idle a ha
    · rw [List.mem_singleton.1 ha]
      exact hf
  · intro t ht
    rw [hsends] at ht
    obtain ht | ht := List.mem_append.1 ht
    · obtain ⟨r, hr, he⟩ := h.past t ht
      exact ⟨r, Nat.lt_succ_of_lt hr, he⟩
    · exact ⟨s.readings, Nat.lt_succ_self _, List.mem_singleton.1 ht⟩
  · intro k now latency hk
    rw [hans] at hk
    obtain ⟨r, r', hlt, ht, hl⟩ := h.paired k now latency hk
    refine ⟨r, r', hlt, ?_, hl⟩
    rw [hsends]
    exact getElem?_of_prefix (List.prefix_append _ _) ht
  · rw [hans]
    exact h.latest

theorem Accounted.sendQueued (h : s.Accounted clock) (hk : s.ClickOk slot) :
    (s.sendQueued clock).Accounted clock := by
  obtain ⟨_, he⟩ | ⟨hu, he⟩ := s.sendQueued_cases clock
  · rw [he]
    exact h
  · obtain hn | ⟨_, hf, _⟩ := hk
    · exact (hu hn).elim
    · rw [he]
      exact (h.sent hf).extend [] (List.append_nil _).symm rfl rfl rfl rfl fun a ha => by cases ha

theorem Accounted.open_command (h : s.Accounted clock) (ht : s.Timed)
    (hf : s.isSendingBlinkCommand = true) :
    (sends s.history)[(processed s.history).length]? = some s.timeSendBlinkCommand := by
  have hlast := ht hf
  have hcount := h.count
  rw [hf, Bool.toNat_true] at hcount
  rw [List.getLast?_eq_getElem?, hcount, Nat.add_sub_cancel] at hlast
  exact hlast

theorem Accounted.take (h : s.Accounted clock) (ht : s.Timed)
    (hf : s.isSendingBlinkCommand = true) : (s.take clock).Accounted clock := by
  have hsends : sends (s.take clock).history = sends s.history := by
    rw [AppState.take, sends_append]
    exact List.append_nil _
  have hproc : processed (s.take clock).history = processed s.history ++ [s.content] :=
    processed_append _ _
  have hans : answers (s.take clock).history = answers s.history ++
      [(clock s.readings, .ofTicks (clock s.readings - s.timeSendBlinkCommand))] :=
    answers_append _ _
  have hcount := h.count
  have hopen := h.open_command ht hf
  rw [hf, Bool.toNat_true] at hcount
  refine ⟨?_, ?_, ?_, ?_, ?_⟩
  · rw [hsends, hproc, List.length_append, hcount]
    rfl
  · intro a ha
    obtain ha | ha := List.mem_append.1 ha
    · exact h.idle a ha
    · rw [List.mem_singleton.1 ha]
      trivial
  · intro t ht
    rw [hsends] at ht
    obtain ⟨r, hr, he⟩ := h.past t ht
    exact ⟨r, Nat.lt_succ_of_lt hr, he⟩
  · intro k now latency hk
    rw [hsends]
    rw [hans] at hk
    by_cases hlt : k < (answers s.history).length
    · rw [List.getElem?_append_left hlt] at hk
      exact h.paired k now latency hk
    · have hk' := (List.getElem?_eq_some_iff.1 hk).1
      rw [List.length_append, List.length_singleton] at hk'
      have hlen : k = (answers s.history).length := by omega
      subst hlen
      rw [List.getElem?_concat_length, Option.some.injEq, Prod.mk.injEq] at hk
      obtain ⟨rfl, rfl⟩ := hk
      rw [← answers_length] at hopen
      obtain ⟨r, hr, he⟩ := h.past _ (List.mem_of_getElem? hopen)
      rw [he] at hopen ⊢
      exact ⟨r, s.readings, hr, hopen, rfl, rfl⟩
  · rw [hans, List.getLast?_concat]
    rfl

theorem Accounted.settle (h : s.Accounted clock) (ht : s.Timed) (slot : Slot)
    (hf : ∀ sock, slot = .message sock → s.isSendingBlinkCommand = true) :
    (s.settle clock slot).Accounted clock := by
  cases slot with
  | accepting | reading | idle => exact h
  | cancelled =>
    exact h.extend [] (List.append_nil _).symm rfl rfl rfl rfl fun a ha => by cases ha
  | connected sock =>
    exact h.extend [.assignStream s.connType] rfl rfl rfl rfl rfl fun a ha => by
      rw [List.mem_singleton.1 ha]
      trivial
  | message sock => exact h.take ht (hf sock rfl)

theorem Accounted.ran (h : s.Accounted clock) (ht : s.Timed) (hk : s.ClickOk slot)
    (hf : ∀ sock, slot = .message sock → (s.sendQueued clock).isSendingBlinkCommand = true)
    (clicked : Bool) : (s.ran clock slot clicked).Accounted clock :=
  ((h.sendQueued hk).settle (ht.sendQueued clock) slot hf).extend _ rfl rfl rfl rfl rfl
    fun a ha => by
      rw [List.mem_singleton.1 ha]
      trivial

end AppState

namespace System
variable {clock : Nat → Time} {w w' : System}

/-- The whole commands the peer has received. -/
def commandsReceived (w : System) : Nat := w.net.peerReceived.length / blinkCommand.length

/-- The peer answers only commands it has received, each at most once: with the bytes of one
reply on TCP, with one non-empty message on a WebSocket. -/
def Honest (w : System) : Event → Prop
  | .peerSendBytes bytes =>
      w.net.tcpSent.length + bytes.length ≤ expectedMsg.length * w.commandsReceived
  | .peerSendMessage msg => msg ≠ [] ∧ w.net.wsSent.length < w.commandsReceived
  | _ => True

/-- No reply was sent before its command had arrived. -/
def Solicited (w : System) : Prop :=
  w.net.tcpSent.length ≤ expectedMsg.length * w.commandsReceived ∧
    w.net.wsSent.length ≤ w.commandsReceived

theorem Solicited.step (h : w.Solicited) (hw : w.Ok slot) (hg : w.Honest e)
    (hs : (system clock).step w e = some w') : w'.Solicited := by
  cases hp : e.fromPeer with
  | false =>
    have hn := (hw.step_untouched hs).byPeer hp
    simp only [Network.byPeer, Prod.mk.injEq] at hn
    obtain ⟨hr, ht, hws⟩ := hn
    rw [Solicited, commandsReceived, hr, ht, hws]
    exact h
  | true =>
    cases e with
    | peerRecv n =>
      obtain ⟨_, rfl⟩ := peerRecv_cases hs
      have hle : w.commandsReceived ≤ commandsReceived { w with net := { w.net with
          toPeer := w.net.toPeer.drop n
          peerReceived := w.net.peerReceived ++ w.net.toPeer.take n } } := by
        apply Nat.div_le_div_right
        rw [List.length_append]
        exact Nat.le_add_right _ _
      exact ⟨h.1.trans (Nat.mul_le_mul_left _ hle), h.2.trans hle⟩
    | peerSendBytes bytes =>
      obtain ⟨_, rfl⟩ := peerSendBytes_cases hs
      exact ⟨by rw [List.length_append]; exact hg, h.2⟩
    | peerSendMessage msg =>
      obtain ⟨_, rfl⟩ := peerSendMessage_cases hs
      exact ⟨h.1, by rw [List.length_append]; exact hg.2⟩
    | _ => cases hp

theorem reach_solicited (h : (system clock).Reach Honest (.new c) w) : w.Solicited := by
  refine h.invariant (I := Solicited) ⟨Nat.zero_le _, Nat.zero_le _⟩ ?_
  intro s e s' hr hi hg hs
  obtain ⟨slot, hw⟩ := reach_ok hr
  exact hi.step hw hg hs

theorem Framed.message_sent (h : w.Framed (.message sock)) :
    w.app.connType = .customTcp ∧
        expectedMsg.length * ((processed w.app.history).length + 1) ≤ w.net.tcpSent.length ∨
      w.app.connType = .webSocket ∧
        (processed w.app.history).length + 1 ≤ w.net.wsSent.length := by
  cases hc : w.app.connType with
  | customTcp =>
    have hf := h.tcp hc
    have hst := hf.stream fun k hk => by cases hk
    left
    rw [hst, List.length_append, List.length_append, hf.blocks.flatten_length, Slot.part,
      hf.length, Nat.mul_succ]
    exact ⟨rfl, by omega⟩
  | webSocket =>
    have hst := (h.ws hc).stream
    right
    rw [hst, List.length_append, List.length_cons]
    exact ⟨rfl, by omega⟩

theorem commandsReceived_le (h : w.pipe.Conserved blinkCommand.length) :
    w.commandsReceived ≤ (sends w.app.history).length :=
  Nat.div_le_of_le_mul h.received_le

/-- With an honest peer a waiting reply finds its command open. -/
theorem Solicited.open_command (h : w.Solicited) (hf : w.Framed (.message sock))
    (hp : w.pipe.Conserved blinkCommand.length) (ha : w.app.Accounted clock) :
    w.app.isSendingBlinkCommand = true := by
  have hle := commandsReceived_le hp
  have hcount := ha.count
  have hsent : (processed w.app.history).length + 1 ≤ w.commandsReceived := by
    obtain ⟨_, ht⟩ | ⟨_, hws⟩ := hf.message_sent
    · exact Nat.le_of_mul_le_mul_left (ht.trans h.1) (by decide)
    · exact hws.trans h.2
  cases hb : w.app.isSendingBlinkCommand with
  | true => rfl
  | false =>
    rw [hb, Bool.toNat_false] at hcount
    omega

theorem reach_accounted (h : (system clock).Reach Honest (.new c) w) :
    w.app.Accounted clock := by
  refine h.invariant (I := fun w => w.app.Accounted clock) (.new clock c) ?_
  intro s e s' hr ha _ hs
  obtain ⟨slot, hw, hf⟩ := reach_framed hr
  obtain ⟨clicked, n, _, _, rfl, _⟩ | ⟨hq, _⟩ := hw.step_cases hs
  · have ha' : (s.app.withPosted n).Accounted clock :=
      ha.extend [] (List.append_nil _).symm rfl rfl rfl rfl fun a ha => by cases ha
    refine ha'.ran (reach_timed hr) hw.click ?_ clicked
    rintro sock rfl
    have ho := (reach_solicited hr).open_command hf (reach_conserved hr) ha
    obtain ⟨_, he⟩ | ⟨_, he⟩ := (s.app.withPosted n).sendQueued_cases clock
    · rw [he]
      exact ho
    · rw [he]
      rfl
  · obtain hh | ⟨_, hh⟩ := hq.history
    · exact ha.extend [] (hh.trans (List.append_nil _).symm) hq.measurement hq.readings rfl rfl
        fun a ha => by cases ha
    · exact ha.extend _ hh hq.measurement hq.readings rfl rfl fun a ha => by
        rw [List.mem_singleton.1 ha]
        trivial

/-- Decided for runs on fixed events. -/
instance (w : System) : (e : Event) → Decidable (w.Honest e)
  | .peerSendBytes bytes => inferInstanceAs (Decidable
      (w.net.tcpSent.length + bytes.length ≤ expectedMsg.length * w.commandsReceived))
  | .peerSendMessage msg => inferInstanceAs (Decidable
      (msg ≠ [] ∧ w.net.wsSent.length < w.commandsReceived))
  | .frame _ | .acceptHandler _ _ _ _ | .readSome _ _ | .readHandler _ _ | .writeSome _ _
  | .writeHandler _ _ | .peerRecv _ | .setStopFlag | .closeWindow =>
    inferInstanceAs (Decidable True)

end System

section
variable {clock : Nat → Time} {w : System}

/-- With an honest peer each command is sent while none is open, and reply `k` gives the time
from sending command `k` to processing the reply. -/
theorem honest_accounting (hm : Monotone clock)
    (h : (system clock).Reach System.Honest (.new c) w) :
    (sends w.app.history).length = (processed w.app.history).length +
        (if w.app.isSendingBlinkCommand then 1 else 0) ∧
      (∀ conn wasSending t, Action.sendCommand conn wasSending t ∈ w.app.history →
        wasSending = false) ∧
      (∀ (k : Nat) now latency, (answers w.app.history)[k]? = some (now, latency) →
        ∃ t, (sends w.app.history)[k]? = some t ∧ latency = .ofTicks (now - t) ∧ 0 ≤ latency) ∧
      w.app.blinkLatency = ((answers w.app.history).getLast?.map Prod.snd).getD 0 := by
  have ha := System.reach_accounted h
  refine ⟨?_, ?_, ?_, ha.latest⟩
  · rw [ha.count]
    cases w.app.isSendingBlinkCommand <;> rfl
  · intro conn wasSending t ht
    exact ha.idle _ ht
  · intro k now latency hk
    obtain ⟨r, r', hlt, ht, hnow, hl⟩ := ha.paired k now latency hk
    have hle := hm hlt.le
    refine ⟨_, ht, hl, ?_⟩
    rw [hl, hnow]
    exact Duration.ofTicks_nonneg (Int.sub_nonneg_of_le hle)

/-- A command and its reply. -/
def replyRun : List Event :=
  connectRun ++ [.frame true, .frame false, .writeSome 0 16, .writeHandler 0 none, .peerRecv 16,
    .peerSendBytes expectedMsg, .readSome 0 8, .readHandler 0 none, .frame false]

/-- One reading in each millisecond. -/
def everyMillisecond (n : Nat) : Time := 1000000 * n

theorem everyMillisecond_monotone : Monotone everyMillisecond := fun _ _ h =>
  Int.mul_le_mul_of_nonneg_left (Int.ofNat_le.2 h) (by decide)

theorem honest_accounting_replyRun :
    ∃ w, (system everyMillisecond).run (.new .customTcp) replyRun = some w ∧
      (answers w.app.history)[0]? = some (1000000, 1) ∧
      ∃ t, (sends w.app.history)[0]? = some t ∧ 1 = Duration.ofTicks (1000000 - t) ∧
        (0 : Duration) ≤ 1 := by
  have hs : ((system everyMillisecond).run (.new .customTcp) replyRun).any (fun w =>
      (answers w.app.history)[0]? = some (1000000, 1)) = true := by decide +kernel
  obtain ⟨w, hw, hp⟩ := (Option.any_eq_true _ _).1 hs
  have he := of_decide_eq_true hp
  have hg : (system everyMillisecond).Along System.Honest (.new .customTcp) replyRun := by decide
  obtain ⟨_, _, hk, _⟩ := honest_accounting everyMillisecond_monotone (.of_run hw hg)
  exact ⟨w, hw, he, hk 0 1000000 1 he⟩

end

end TeleopLedBenchmarks
