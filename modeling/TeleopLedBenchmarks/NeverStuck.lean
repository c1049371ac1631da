import TeleopLedBenchmarks.Progress
import TeleopLedBenchmarks.WsSession

namespace TeleopLedBenchmarks
set_option autoImplicit true

theorem Event.Forward.fromPeer {e : Event} (h : e.Forward) : e.fromPeer = false := by
  cases e with
  | peerRecv | peerSendBytes | peerSendMessage => exact h.elim
  | _ => rfl

/-- A desktop between two frames that can run and is not about to stop. -/
def System.GoesOn (w : System) : Prop := w.running = true ∧ w.stopping = false

theorem System.GoesOn.steady {w w' : System} (h : w.GoesOn) (hst : w.Steady w') : w'.GoesOn :=
  ⟨hst.running.trans h.1, hst.stopping.trans h.2⟩

theorem repliesTo_command : repliesTo 0x1 blinkCommand.length = true := by decide

namespace WsBench
variable {cJsonParse : List Byte → Option CJson} {clock : Nat → Time} {b b' : WsBench}

/-- No operation fails, each command arrives in one event and its text gets out, and the other
events are neither replied to nor crash the handler. -/
def Undisturbed (cJsonParse : List Byte → Option CJson) (_ : WsBench) : WsEvent → Prop
  | .desktop e => e.Healthy
  | .data n _ sent => n = blinkCommand.length ∧ sent = true
  | .control opCode payload beyond _ => repliesTo opCode payload.length = false ∧
      crashes cJsonParse (controlEvent opCode payload beyond) = false
  | .event _ _ => True

instance (b : WsBench) : (ev : WsEvent) → Decidable (b.Undisturbed cJsonParse ev)
  | .desktop e => inferInstanceAs (Decidable e.Healthy)
  | .data n _ sent => inferInstanceAs (Decidable (n = blinkCommand.length ∧ sent = true))
  | .control opCode payload beyond _ =>
    inferInstanceAs (Decidable (repliesTo opCode payload.length = false ∧
      crashes cJsonParse (controlEvent opCode payload beyond) = false))
  | .event _ _ => inferInstanceAs (Decidable True)

theorem Undisturbed.whole (h : b.Undisturbed cJsonParse ev) : b.Whole ev := by
  cases ev with
  | desktop | event => trivial
  | data => exact h.1
  | control => exact h.1

/-- What an undisturbed run keeps, besides the exchange. -/
structure Calm (clock : Nat → Time) (b : WsBench) : Prop where
  exchanged : b.Exchanged clock
  smooth : (system clock).Reach System.Smooth (.new .webSocket) b.desktop
  fault : b.esp.fault = none
  lost : b.lost = 0

theorem Calm.new (clock : Nat → Time) : Calm clock .new := ⟨.new clock, .refl, rfl, rfl⟩

theorem Calm.payload (h : b.Calm clock)
    (hle : blinkCommand.length ≤ b.desktop.net.toPeer.length) :
    b.desktop.net.toPeer.take blinkCommand.length = blinkCommand := by
  exact (System.reach_inOrder h.smooth).next_command h.exchanged.received hle
    System.blinkCommand_ne_nil

theorem not_crashes {data : WebsocketEventData} (h : cJsonParse data.dataPtr = none) :
    crashes cJsonParse (.data, data) = false := by
  rw [crashes, h]
  rfl

theorem Calm.step (hparse : ∀ beyond, cJsonParse (blinkCommand ++ beyond) = none)
    (h : b.Calm clock) (hg : b.Undisturbed cJsonParse ev)
    (hs : (wsBench cJsonParse clock).step b ev = some b') : b'.Calm clock := by
  have hx := h.exchanged.step hg.whole hs
  have hfault : ∀ {w e sent}, b.handle cJsonParse clock w e sent = some b' →
      crashes cJsonParse e = false → b'.esp.fault = none := by
    intro w e sent hh hc
    rw [(handle_cases hh).2.1, eventEffect_fault, hc]
    rfl
  cases ev with
  | desktop e =>
    obtain ⟨hp, he⟩ := Option.ite_none_left_eq_some.1 hs
    obtain ⟨w, hw, rfl⟩ := Option.map_eq_some_iff.1 he
    have hhonest : b.desktop.Honest e := by
      cases e with
      | peerRecv | peerSendBytes | peerSendMessage => exact (hp rfl).elim
      | _ => trivial
    exact ⟨hx, .step h.smooth ⟨hhonest, hg⟩ hw, h.fault, h.lost⟩
  | data n beyond sent =>
    obtain ⟨rfl, rfl⟩ := hg
    obtain ⟨_, he⟩ := Option.ite_none_right_eq_some.1 hs
    obtain ⟨w, hw, hh⟩ := Option.bind_eq_some_iff.1 he
    have hpayload := h.payload (System.peerRecv_cases hw).1.2
    have hcrash : crashes cJsonParse (b.dataEvent blinkCommand.length beyond) = false := by
      apply not_crashes
      simp only [hpayload, hparse]
    have hrecv : b.desktop.Smooth (.peerRecv blinkCommand.length) := ⟨trivial, trivial⟩
    have hsend : w.Smooth (.peerSendMessage receivedMsg) :=
      ⟨h.exchanged.reply_honest hw, trivial⟩
    have ha := (handle_cases hh).2.2
    rw [if_pos ⟨rfl, by exact repliesTo_command⟩] at ha
    cases ha with
    | sent hm hl =>
      exact ⟨hx, .step (.step h.smooth hrecv hw) hsend hm, hfault hh hcrash, hl.trans h.lost⟩
  | control opCode payload beyond sent =>
    obtain ⟨_, he⟩ := Option.ite_none_right_eq_some.1 hs
    have ha := (handle_cases he).2.2
    rw [if_neg fun hr => Bool.false_ne_true (hg.1.symm.trans hr.2)] at ha
    exact ⟨hx, ha.1 ▸ h.smooth, hfault he hg.2, ha.2.trans h.lost⟩
  | event id data =>
    obtain ⟨hid, he⟩ := Option.ite_none_left_eq_some.1 hs
    have ha := (handle_cases he).2.2
    rw [if_neg fun hr => hid hr.1] at ha
    have hcrash : crashes cJsonParse (id, data) = false := by simp [crashes, hid]
    exact ⟨hx, ha.1 ▸ h.smooth, hfault he hcrash, ha.2.trans h.lost⟩

theorem handle_sent (hf : b.esp.fault = none)
    (hr : e.1 = .data ∧ repliesTo e.2.opCode e.2.dataLen = true)
    (hw : (system clock).step w (.peerSendMessage receivedMsg) = some w') :
    b.handle cJsonParse clock w e true = some ⟨w', ⟨b.esp.outputs ++
      (eventEffect cJsonParse e).outputs, (eventEffect cJsonParse e).fault⟩, b.lost⟩ := by
  have hesp : b.esp = ⟨b.esp.outputs, none⟩ := by rw [← hf]
  have hs : (websocketApp cJsonParse).step b.esp e =
      some (websocketEventHandler cJsonParse e.1 e.2 b.esp) := by
    rw [hesp]
    rfl
  rw [hesp, websocketEventHandler_eq, ← hesp] at hs
  simp only [handle, hs, Option.bind_some, List.drop_left, texts_eventEffect, if_pos hr,
    List.map_cons, List.map_nil, Machine.run_cons, Machine.run_nil, hw, ↓reduceIte]
  rfl

theorem Calm.serve (cJsonParse : List Byte → Option CJson) (h : b.Calm clock)
    (hle : blinkCommand.length ≤ b.desktop.net.toPeer.length) :
    ∃ b', (wsBench cJsonParse clock).step b (.data blinkCommand.length [] true) = some b' ∧
      b.desktop.Steady b'.desktop ∧
      b'.desktop.net.wsSent.length = b.desktop.net.wsSent.length + 1 := by
  have hpos : 0 < blinkCommand.length := by decide
  have hoff : blinkCommand.length ≤
      blinkCommand.length - b.desktop.net.peerReceived.length % blinkCommand.length := by
    rw [h.exchanged.received, Nat.mul_mod_right]
    exact Nat.le_refl _
  have hc := System.reach_connType h.smooth
  obtain ⟨w, hw⟩ : ∃ w, (system clock).step b.desktop (.peerRecv blinkCommand.length) = some w :=
    ⟨_, if_pos ⟨hpos, hle⟩⟩
  have he := (System.peerRecv_cases hw).2
  obtain ⟨w', hm⟩ : ∃ w', (system clock).step w (.peerSendMessage receivedMsg) = some w' :=
    ⟨_, if_pos (by rw [he]; exact hc)⟩
  have he' := (System.peerSendMessage_cases hm).2
  have hs : (wsBench cJsonParse clock).step b (.data blinkCommand.length [] true) =
      b.handle cJsonParse clock w (b.dataEvent blinkCommand.length []) true := by
    simp only [wsBench, if_pos hoff, hw, Option.bind_some]
  refine ⟨_, hs.trans (handle_sent h.fault ⟨rfl, repliesTo_command⟩ hm), ?_, ?_⟩
  · rw [he', he]
    exact ⟨rfl, rfl, rfl, rfl, rfl⟩
  · rw [he', he]
    exact List.length_append

end WsBench

/-- An event that goes towards the end of a round. -/
def WsEvent.Forward : WsEvent → Prop
  | .desktop e => e.Forward
  | .data n _ sent => n = blinkCommand.length ∧ sent = true
  | _ => False

namespace WsBench
variable {cJsonParse : List Byte → Option CJson} {clock : Nat → Time} {b b' : WsBench}

theorem Calm.accepts (h : b.Calm clock) (hgo : b.desktop.GoesOn)
    (hsend : b.desktop.app.isSendingBlinkCommand = true)
    (ha : (processed b.desktop.app.history).length < b.desktop.net.wsSent.length) :
    ∃ es, es.length ≤ 3 ∧
      EndsRound (wsBench cJsonParse clock) desktop WsEvent.Forward b es := by
  have harrived : b.desktop.ReplyArrived := by
    rw [System.ReplyArrived, System.reach_connType h.smooth]
    exact ha
  obtain ⟨es, hlen, hes⟩ := System.reply_accepted h.smooth hgo.1 hgo.2 hsend harrived
  refine ⟨es.map .desktop, ?_, hes.lift (P := fun _ => True) desktop WsEvent.desktop ?_ trivial⟩
  · rw [List.length_map]
    exact hlen
  · intro b e w _ he hs
    refine ⟨he, { b with desktop := w }, ?_, rfl, trivial⟩
    simp only [wsBench, he.fromPeer, hs]
    rfl

theorem Calm.round_ends (hparse : ∀ beyond, cJsonParse (blinkCommand ++ beyond) = none)
    (h : b.Calm clock) (hgo : b.desktop.GoesOn)
    (hsend : b.desktop.app.isSendingBlinkCommand = true) :
    ∃ es, es.length ≤ 5 ∧
      EndsRound (wsBench cJsonParse clock) desktop WsEvent.Forward b es := by
  have hcount := (System.reach_accounted (System.reach_honest h.smooth)).count
  rw [hsend, Bool.toNat_true] at hcount
  have hle := h.exchanged.valid.accepts_le
  simp only [counts] at hle
  rcases Nat.lt_or_ge (processed b.desktop.app.history).length b.desktop.net.wsSent.length with
    ha | hge
  · obtain ⟨es, hlen, hes⟩ := h.accepts hgo hsend ha
    exact ⟨es, hlen.trans (by decide), hes⟩
  · -- The command has not reached the ESP32 yet.
    have hserve : ∀ {v : WsBench}, v.Calm clock → b.desktop.Steady v.desktop →
        sends v.desktop.app.history = sends b.desktop.app.history →
        v.desktop.net.wsSent = b.desktop.net.wsSent → v.desktop.pipe.writes.flatten = [] →
        ∃ es, es.length ≤ 4 ∧
          EndsRound (wsBench cJsonParse clock) desktop WsEvent.Forward v es := by
      intro v hv hst hsends hwsent hnil
      have hlength := (System.reach_inOrder hv.smooth).length
      rw [Parts.total, ← List.length_flatten, hnil] at hlength
      have hreceived := hv.exchanged.received
      have hle : blinkCommand.length ≤ v.desktop.net.toPeer.length := by
        rw [hwsent, hv.lost, Nat.add_zero, Nat.le_antisymm hge hle] at hreceived
        simp only [System.pipe, hsends, hcount, Nat.mul_succ, List.length_nil] at hlength
        omega
      obtain ⟨v', hs, hst', hnext⟩ := hv.serve cJsonParse hle
      have hg : v.Undisturbed cJsonParse (.data blinkCommand.length [] true) := ⟨rfl, rfl⟩
      have hforward : WsEvent.Forward (.data blinkCommand.length [] true) := ⟨rfl, rfl⟩
      have hgo' := (hgo.steady hst).steady hst'
      have hsend' := hst'.sending.trans (hst.sending.trans hsend)
      have ha : (processed v'.desktop.app.history).length < v'.desktop.net.wsSent.length := by
        rw [hst'.processed, hst.processed, hnext, hwsent]
        omega
      obtain ⟨es, hlen, hes⟩ := (hv.step hparse hg hs).accepts hgo' hsend' ha
      exact ⟨_ :: es, Nat.succ_le_succ hlen, hes.cons hforward hs hst'⟩
    by_cases hnil : b.desktop.pipe.writes.flatten = []
    · obtain ⟨es, hlen, hes⟩ := hserve h ⟨rfl, rfl, rfl, rfl, rfl⟩ rfl rfl hnil
      exact ⟨es, hlen.trans (by decide), hes⟩
    · obtain ⟨i, n, w, hs, hw, hst, hsends, hnet⟩ :=
        System.command_handed clock hgo.1 (System.reach_inOrder h.smooth) hnil
      have hstep : (wsBench cJsonParse clock).step b (.desktop (.writeSome i n)) =
          some { b with desktop := w } := by
        simp only [wsBench, Event.fromPeer, hs]
        rfl
      have hg : b.Undisturbed cJsonParse (.desktop (.writeSome i n)) := trivial
      have hforward : WsEvent.Forward (.desktop (.writeSome i n)) := trivial
      simp only [Network.byPeer, Prod.mk.injEq] at hnet
      obtain ⟨es, hlen, hes⟩ := hserve (h.step hparse hg hstep) hst hsends hnet.2.2 hw
      exact ⟨_ :: es, Nat.succ_le_succ hlen, hes.cons hforward hstep hst⟩

end WsBench

def SessionEvent.Forward : SessionEvent → Prop
  | .bench ev => ev.Forward
  | _ => False

namespace WsSession
variable {cJsonParse : List Byte → Option CJson} {clock : Nat → Time} {s₀ s s' : WsSession}

/-- The events of the two parties are undisturbed. Time may pass, and the client be destroyed. -/
def Undisturbed (cJsonParse : List Byte → Option CJson) (s : WsSession) : SessionEvent → Prop
  | .bench ev => s.bench.Undisturbed cJsonParse ev
  | _ => True

instance (s : WsSession) : (e : SessionEvent) → Decidable (s.Undisturbed cJsonParse e)
  | .bench ev => inferInstanceAs (Decidable (s.bench.Undisturbed cJsonParse ev))
  | .tick | .destroyClient => inferInstanceAs (Decidable True)

theorem step_cases (hs : (wsSession cJsonParse clock).step s e = some s') :
    (∃ ev b, e = .bench ev ∧ (s.destroyed = true → ev.fromClient = false) ∧
      (wsBench cJsonParse clock).step s.bench ev = some b ∧ s' = s.moved b) ∨
    (e = .tick ∧ s' = s.tick) ∨ e = .destroyClient ∧ s' = { s with destroyed := true } := by
  cases e with
  | bench ev =>
    left
    obtain ⟨hd, hs⟩ := Option.ite_none_left_eq_some.1 hs
    obtain ⟨b, hb, rfl⟩ := Option.map_eq_some_iff.1 hs
    exact ⟨ev, b, rfl, fun hd' => Bool.eq_false_iff.2 fun hc => hd ⟨hd', hc⟩, hb, rfl⟩
  | tick =>
    right; left
    exact ⟨rfl, (Option.some.inj hs).symm⟩
  | destroyClient =>
    right; right
    obtain ⟨_, hs⟩ := Option.ite_none_right_eq_some.1 hs
    exact ⟨rfl, (Option.some.inj hs).symm⟩

theorem tick_bench (s : WsSession) : s.tick.destroyed = s.destroyed ∧
    (s.tick.bench = s.bench ∨
      ∃ text, s.tick.bench = { s.bench with esp := s.bench.esp.emit (.logInfo text) }) := by
  unfold tick
  simp only
  split
  · exact ⟨rfl, .inr ⟨_, rfl⟩⟩
  · exact ⟨rfl, .inl rfl⟩

theorem calm_logInfo {b : WsBench} (h : b.Calm clock) (text : String) :
    WsBench.Calm clock { b with esp := b.esp.emit (.logInfo text) } := by
  refine ⟨⟨h.exchanged.desktop, h.exchanged.received, ?_, h.exchanged.messages⟩, h.smooth,
    h.fault, h.lost⟩
  have htexts : texts (b.esp.outputs ++ [.logInfo text]) = texts b.esp.outputs :=
    (texts_append _ _).trans (List.append_nil _)
  exact htexts.trans h.exchanged.texts

theorem along_calm (hparse : ∀ beyond, cJsonParse (blinkCommand ++ beyond) = none)
    (h : (wsSession cJsonParse clock).run (.new rate) es = some s)
    (hg : (wsSession cJsonParse clock).Along (Undisturbed cJsonParse) (.new rate) es) :
    s.bench.Calm clock := by
  apply (Machine.Reach.of_run h hg).invariant (I := fun s => s.bench.Calm clock) (.new clock)
  intro s e s' _ hi hg hs
  obtain ⟨ev, b, rfl, _, hb, rfl⟩ | ⟨rfl, rfl⟩ | ⟨rfl, rfl⟩ := step_cases hs
  · exact hi.step hparse hg hb
  · obtain ⟨_, he | ⟨text, he⟩⟩ := s.tick_bench
    · rw [he]
      exact hi
    · rw [he]
      exact calm_logInfo hi text
  · exact hi

/-- Before its client is gone, the ESP32 takes part in a round as if there were no timer. -/
theorem lift_round (hd : s.destroyed = false)
    (h : EndsRound (wsBench cJsonParse clock) WsBench.desktop WsEvent.Forward s.bench es) :
    EndsRound (wsSession cJsonParse clock) (fun s => s.bench.desktop) SessionEvent.Forward s
      (es.map .bench) := by
  apply h.lift (P := fun s => s.destroyed = false) WsSession.bench SessionEvent.bench _ hd
  intro s ev b hd hev hs
  refine ⟨hev, s.moved b, ?_, rfl, hd⟩
  simp only [wsSession, hd, hs]
  rfl

theorem accepts_round (h : s.bench.Calm clock) (hgo : s.bench.desktop.GoesOn)
    (hsend : s.bench.desktop.app.isSendingBlinkCommand = true)
    (ha : (processed s.bench.desktop.app.history).length <
      s.bench.desktop.net.wsSent.length) :
    ∃ es, es.length ≤ 3 ∧ EndsRound (wsSession cJsonParse clock) (fun s => s.bench.desktop)
      SessionEvent.Forward s es := by
  have harrived : s.bench.desktop.ReplyArrived := by
    rw [System.ReplyArrived, System.reach_connType h.smooth]
    exact ha
  obtain ⟨es, hlen, hes⟩ := System.reply_accepted h.smooth hgo.1 hgo.2 hsend harrived
  refine ⟨es.map fun e => .bench (.desktop e), ?_, hes.lift (P := fun _ => True)
    (fun s : WsSession => s.bench.desktop) (fun e => SessionEvent.bench (.desktop e)) ?_ trivial⟩
  · rw [List.length_map]
    exact hlen
  · intro s e w _ he hs
    refine ⟨he, s.moved { s.bench with desktop := w }, ?_, rfl, trivial⟩
    simp only [wsSession, wsBench, WsEvent.fromClient, he.fromPeer, hs, Bool.false_eq_true,
      and_false, if_false, Option.map_some]

/-- What lies between a state whose client is gone and a later one. -/
structure Gone (clock : Nat → Time) (s s' : WsSession) : Prop where
  desktop : (system clock).Reach Machine.Free (.new .webSocket) s'.bench.desktop
  destroyed : s'.destroyed = true
  alone : s.bench.desktop.Alone s'.bench.desktop

theorem Gone.step (h : s₀.Gone clock s) (hs : (wsSession cJsonParse clock).step s e = some s') :
    s₀.Gone clock s' := by
  obtain ⟨hr, hd, ha⟩ := h
  obtain ⟨slot, hok⟩ := System.reach_ok hr
  obtain ⟨ev, b, rfl, hc, hb, rfl⟩ | ⟨rfl, rfl⟩ | ⟨rfl, rfl⟩ := step_cases hs
  · cases ev with
    | data | control | event => cases hc hd
    | desktop e =>
      obtain ⟨hp, hb⟩ := Option.ite_none_left_eq_some.1 hb
      obtain ⟨w, hw, rfl⟩ := Option.map_eq_some_iff.1 hb
      exact ⟨.step hr trivial hw, hd, ha.step hok (Bool.eq_false_of_not_eq_true hp) hw⟩
  · obtain ⟨hdest, he | ⟨text, he⟩⟩ := s.tick_bench
    · rw [← he] at hr ha
      exact ⟨hr, hdest.trans hd, ha⟩
    · have hdesk : s.tick.bench.desktop = s.bench.desktop := by rw [he]
      rw [← hdesk] at hr ha
      exact ⟨hr, hdest.trans hd, ha⟩
  · exact ⟨hr, rfl, ha⟩

/-- Without a reply on its way the open command stays open, and is the last. -/
theorem Gone.unanswered (h : s₀.Gone clock s)
    (hsend : s₀.bench.desktop.app.isSendingBlinkCommand = true)
    (hnone : s₀.bench.desktop.net.wsSent.length ≤
      (processed s₀.bench.desktop.app.history).length) :
    s.bench.desktop.app.isSendingBlinkCommand = true ∧
      (sends s.bench.desktop.app.history).length =
        (sends s₀.bench.desktop.app.history).length := by
  obtain ⟨slot, _, hf⟩ := System.reach_framed h.desktop
  have hle := (hf.ws (System.reach_connType h.desktop)).flat.length_le
  have hsent : s.bench.desktop.net.wsSent = s₀.bench.desktop.net.wsSent :=
    congrArg (fun net => net.2.2) h.alone.byPeer
  have hmono := h.alone.sends
  have hpaid := h.alone.paid
  rw [hsent] at hle
  rw [hsend] at hpaid
  cases hflag : s.bench.desktop.app.isSendingBlinkCommand with
  | true =>
    rw [hflag] at hpaid
    simp only [Bool.not_true, Bool.toNat_false] at hpaid
    exact ⟨rfl, by omega⟩
  | false =>
    rw [hflag] at hpaid
    simp only [Bool.not_true, Bool.not_false, Bool.toNat_false, Bool.toNat_true] at hpaid
    omega

end WsSession

section
variable {cJsonParse : List Byte → Option CJson} {clock : Nat → Time}

/-- The first command is on its way. -/
def wsSentRun : List SessionEvent :=
  connectRun.map (fun e => .bench (.desktop e)) ++
    [.bench (.desktop (.frame true)), .bench (.desktop (.frame false))]

/-- One tick in a second, for the sake of short runs. -/
def slowRate : TickRate := ⟨1, by decide⟩

/-- A keep-alive frame starts the timer, and five seconds later the client is gone. The user
clicks too late. -/
def wsGoneRun : List SessionEvent :=
  .bench (.control 0x8 [0, 0] [] false) :: List.replicate 5 .tick ++ .destroyClient :: wsSentRun

end

/-- An event that goes towards the end of a round. -/
def TcpEvent.Forward : TcpEvent → Prop
  | .desktop e => e.Forward
  | .recv n => n = blinkCommand.length
  | .send => True

namespace TcpBench
variable {clock : Nat → Time} {b b' : TcpBench}

/-- No operation of the desktop fails, and every `recv` takes one whole command. -/
def Undisturbed (b : TcpBench) : TcpEvent → Prop
  | .desktop e => e.Healthy
  | ev => b.WholeRecv ev

theorem Undisturbed.whole (h : b.Undisturbed ev) : b.WholeRecv ev := by
  cases ev with
  | desktop | send => trivial
  | recv => exact h

theorem InStep.reply_honest (h : b.InStep) (hp : b.esp.point = .sending) :
    b.desktop.Honest (.peerSendBytes receivedMsg) := by
  have hrecvs : b.recvs = b.esp.replies + 1 := by simp [recvs, hp]
  have hcommands : b.desktop.commandsReceived = b.esp.replies + 1 := by
    rw [System.commandsReceived, h.received, hrecvs]
    exact Nat.mul_div_cancel_left _ (by decide)
  simp only [System.Honest, hcommands, h.sent, Nat.mul_succ]
  exact Nat.le_refl _

/-- What an undisturbed run keeps, besides the exchange. -/
structure Calm (clock : Nat → Time) (b : TcpBench) : Prop where
  exchanged : b.Exchanged clock
  smooth : (system clock).Reach System.Smooth (.new .customTcp) b.desktop
  looping : b.esp.point ≠ .stopped

theorem Calm.new (clock : Nat → Time) (fd : Nat) : Calm clock (.new fd) :=
  ⟨.new clock fd, .refl, LoopPoint.noConfusion⟩

theorem Calm.step (h : b.Calm clock) (hg : b.Undisturbed ev)
    (hs : (tcpBench clock).step b ev = some b') : b'.Calm clock := by
  have hx := h.exchanged.step hg.whole hs
  obtain ⟨e, w, rfl, hp, hw, rfl⟩ | ⟨n, w, rfl, _, _, hw, rfl, _, _, hpt, _⟩ |
    ⟨w, rfl, hpt, hw, rfl⟩ := step_cases h.exchanged.connected hs
  · have hhonest : b.desktop.Honest e := by
      cases e with
      | peerRecv | peerSendBytes | peerSendMessage => cases hp
      | _ => trivial
    exact ⟨hx, .step h.smooth ⟨hhonest, hg⟩ hw, h.looping⟩
  · have hrecv : b.desktop.Smooth (.peerRecv n) := ⟨trivial, trivial⟩
    refine ⟨hx, .step h.smooth hrecv hw, ?_⟩
    rw [hpt]
    exact LoopPoint.noConfusion
  · have hsend : b.desktop.Smooth (.peerSendBytes receivedMsg) :=
      ⟨h.exchanged.inStep.reply_honest hpt, trivial⟩
    exact ⟨hx, .step h.smooth hsend hw, LoopPoint.noConfusion⟩

theorem Calm.reply (h : b.Calm clock) (hp : b.esp.point = .sending) :
    ∃ b', (tcpBench clock).step b .send = some b' ∧ b.desktop.Steady b'.desktop ∧
      b'.desktop.net.tcpSent.length = expectedMsg.length * (b.esp.replies + 1) := by
  have hc := h.exchanged.connected.connType
  obtain ⟨w, hw⟩ : ∃ w, (system clock).step b.desktop (.peerSendBytes receivedMsg) = some w :=
    ⟨_, if_pos hc⟩
  have he := (System.peerSendBytes_cases hw).2
  refine ⟨⟨w, b.esp.send (some receivedMsg.length)⟩, ?_, ?_, ?_⟩
  · simp only [tcpBench, if_pos hp, hw]
    rfl
  · rw [he]
    exact ⟨rfl, rfl, rfl, rfl, rfl⟩
  · rw [he]
    simp only [List.length_append, h.exchanged.inStep.sent, Nat.mul_succ]
    rfl

theorem Calm.take (h : b.Calm clock) (hp : b.esp.point = .receiving)
    (hle : blinkCommand.length ≤ b.desktop.net.toPeer.length) :
    ∃ b', (tcpBench clock).step b (.recv blinkCommand.length) = some b' ∧
      b.desktop.Steady b'.desktop ∧ b'.esp.point = .sending := by
  have hpos : 0 < blinkCommand.length := by decide
  obtain ⟨w, hw⟩ : ∃ w, (system clock).step b.desktop (.peerRecv blinkCommand.length) = some w :=
    ⟨_, if_pos ⟨hpos, hle⟩⟩
  have he := (System.peerRecv_cases hw).2
  have hlen : blinkCommand.length ≤ b.esp.buffer.length := h.exchanged.connected.length.ge
  refine ⟨⟨w, b.esp.receive (some (b.desktop.net.toPeer.take blinkCommand.length))⟩, ?_, ?_, ?_⟩
  · simp only [tcpBench, if_pos (And.intro hp hlen), hw]
    rfl
  · rw [he]
    exact ⟨rfl, rfl, rfl, rfl, rfl⟩
  · rw [TcpApp.receive_eq h.exchanged.connected.sock]

theorem Calm.accepts (h : b.Calm clock) (hgo : b.desktop.GoesOn)
    (hsend : b.desktop.app.isSendingBlinkCommand = true)
    (ha : expectedMsg.length * ((processed b.desktop.app.history).length + 1) ≤
      b.desktop.net.tcpSent.length) :
    ∃ es, es.length ≤ 3 ∧ EndsRound (tcpBench clock) desktop TcpEvent.Forward b es := by
  have harrived : b.desktop.ReplyArrived := by
    rw [System.ReplyArrived, System.reach_connType h.smooth]
    exact ha
  obtain ⟨es, hlen, hes⟩ := System.reply_accepted h.smooth hgo.1 hgo.2 hsend harrived
  refine ⟨es.map .desktop, ?_, hes.lift (P := fun _ => True) desktop TcpEvent.desktop ?_ trivial⟩
  · rw [List.length_map]
    exact hlen
  · intro b e w _ he hs
    refine ⟨he, { b with desktop := w }, ?_, rfl, trivial⟩
    simp only [tcpBench, he.fromPeer, hs]
    rfl

theorem Calm.sends_reply (h : b.Calm clock) (hgo : b.desktop.GoesOn)
    (hsend : b.desktop.app.isSendingBlinkCommand = true) (hp : b.esp.point = .sending) :
    ∃ es, es.length ≤ 4 ∧ EndsRound (tcpBench clock) desktop TcpEvent.Forward b es := by
  obtain ⟨b', hs, hst, hsent⟩ := h.reply hp
  have hg : b.Undisturbed .send := trivial
  have hf : TcpEvent.Forward .send := trivial
  have hle := h.exchanged.valid.accepts_le
  have ha : expectedMsg.length * ((processed b'.desktop.app.history).length + 1) ≤
      b'.desktop.net.tcpSent.length := by
    rw [hsent, hst.processed]
    exact Nat.mul_le_mul_left _ (Nat.succ_le_succ hle)
  obtain ⟨es, hlen, hes⟩ :=
    (h.step hg hs).accepts (hgo.steady hst) (hst.sending.trans hsend) ha
  exact ⟨_ :: es, Nat.succ_le_succ hlen, hes.cons hf hs hst⟩

theorem Calm.takes_command (h : b.Calm clock) (hgo : b.desktop.GoesOn)
    (hsend : b.desktop.app.isSendingBlinkCommand = true) (hp : b.esp.point = .receiving)
    (hle : blinkCommand.length ≤ b.desktop.net.toPeer.length) :
    ∃ es, es.length ≤ 5 ∧ EndsRound (tcpBench clock) desktop TcpEvent.Forward b es := by
  obtain ⟨b', hs, hst, hpt⟩ := h.take hp hle
  have hg : b.Undisturbed (.recv blinkCommand.length) := rfl
  have hf : TcpEvent.Forward (.recv blinkCommand.length) := rfl
  obtain ⟨es, hlen, hes⟩ :=
    (h.step hg hs).sends_reply (hgo.steady hst) (hst.sending.trans hsend) hpt
  exact ⟨_ :: es, Nat.succ_le_succ hlen, hes.cons hf hs hst⟩

theorem Calm.round_ends (h : b.Calm clock) (hgo : b.desktop.GoesOn)
    (hsend : b.desktop.app.isSendingBlinkCommand = true) :
    ∃ es, es.length ≤ 6 ∧ EndsRound (tcpBench clock) desktop TcpEvent.Forward b es := by
  have hcount := (System.reach_accounted (System.reach_honest h.smooth)).count
  rw [hsend, Bool.toNat_true] at hcount
  have hinOrder := System.reach_inOrder h.smooth
  have hlength := hinOrder.length
  cases hp : b.esp.point with
  | stopped => exact (h.looping hp).elim
  | sending =>
    obtain ⟨es, hlen, hes⟩ := h.sends_reply hgo hsend hp
    exact ⟨es, hlen.trans (by decide), hes⟩
  | receiving =>
    have hrecvs : b.recvs = b.esp.replies := by simp [recvs, hp]
    have hreceived := h.exchanged.inStep.received
    have hle := h.exchanged.valid.accepts_le
    simp only [counts] at hle
    rw [hrecvs] at hreceived
    rcases Nat.lt_or_ge (processed b.desktop.app.history).length b.esp.replies with ha | hge
    · have harrived : expectedMsg.length * ((processed b.desktop.app.history).length + 1) ≤
          b.desktop.net.tcpSent.length := by
        rw [h.exchanged.inStep.sent]
        exact Nat.mul_le_mul_left _ ha
      obtain ⟨es, hlen, hes⟩ := h.accepts hgo hsend harrived
      exact ⟨es, hlen.trans (by decide), hes⟩
    · -- The command has not reached the ESP32 yet.
      rw [Nat.le_antisymm hge hle] at hreceived
      by_cases hnil : b.desktop.pipe.writes.flatten = []
      · have htoPeer : blinkCommand.length ≤ b.desktop.net.toPeer.length := by
          rw [Parts.total, ← List.length_flatten, hnil] at hlength
          simp only [System.pipe, hcount, Nat.mul_succ, List.length_nil] at hlength
          omega
        obtain ⟨es, hlen, hes⟩ := h.takes_command hgo hsend hp htoPeer
        exact ⟨es, hlen.trans (by decide), hes⟩
      · obtain ⟨i, n, w, hs, hw, hst, hsends, hnet⟩ :=
          System.command_handed clock hgo.1 hinOrder hnil
        have hstep : (tcpBench clock).step b (.desktop (.writeSome i n)) =
            some { b with desktop := w } := by
          simp only [tcpBench, Event.fromPeer, hs]
          rfl
        have hg : b.Undisturbed (.desktop (.writeSome i n)) := trivial
        have hf : TcpEvent.Forward (.desktop (.writeSome i n)) := trivial
        have h' := h.step hg hstep
        simp only [Network.byPeer, Prod.mk.injEq] at hnet
        have htoPeer : blinkCommand.length ≤ w.net.toPeer.length := by
          have hlength' := (System.reach_inOrder h'.smooth).length
          rw [Parts.total, ← List.length_flatten, hw] at hlength'
          simp only [System.pipe, hsends, hcount, hnet.1, Nat.mul_succ, List.length_nil]
            at hlength'
          omega
        obtain ⟨es, hlen, hes⟩ :=
          h'.takes_command (hgo.steady hst) (hst.sending.trans hsend) hp htoPeer
        exact ⟨_ :: es, Nat.succ_le_succ hlen, hes.cons hf hstep hst⟩

end TcpBench

section
variable {clock : Nat → Time} {b : TcpBench}

/-- Nor does the closed TCP system: six steps lead from a disabled button to an enabled one. -/
theorem tcp_never_stuck (h : (tcpBench clock).run (.new fd) es = some b)
    (hg : (tcpBench clock).Along TcpBench.Undisturbed (.new fd) es) (hgo : b.desktop.GoesOn)
    (hsend : b.desktop.app.isSendingBlinkCommand = true) :
    ∃ es', es'.length ≤ 6 ∧
      EndsRound (tcpBench clock) TcpBench.desktop TcpEvent.Forward b es' := by
  have hb : b.Calm clock := (Machine.Reach.of_run h hg).invariant (I := TcpBench.Calm clock)
    (.new clock fd) fun _ _ _ _ hi hg hs => hi.step hg hs
  exact hb.round_ends hgo hsend

instance (b : TcpBench) : (ev : TcpEvent) → Decidable (b.Undisturbed ev)
  | .desktop e => inferInstanceAs (Decidable e.Healthy)
  | .recv n => inferInstanceAs (Decidable (n = blinkCommand.length))
  | .send => inferInstanceAs (Decidable True)

theorem tcp_never_stuck_writtenRun :
    ∃ b, (tcpBench Int.ofNat).run (.new 3) writtenRun = some b ∧ ∃ es', es'.length ≤ 6 ∧
      EndsRound (tcpBench Int.ofNat) TcpBench.desktop TcpEvent.Forward b es' := by
  have hs : ((tcpBench Int.ofNat).run (.new 3) writtenRun).any (fun b =>
      (b.desktop.running = true ∧ b.desktop.stopping = false) ∧
        b.desktop.app.isSendingBlinkCommand = true) = true := by decide
  obtain ⟨b, hb, hp⟩ := (Option.any_eq_true _ _).1 hs
  obtain ⟨hgo, hsend⟩ := of_decide_eq_true hp
  have hg : (tcpBench Int.ofNat).Along TcpBench.Undisturbed (.new 3) writtenRun := by decide
  exact ⟨b, hb, tcp_never_stuck hb hg hgo hsend⟩

end

end TeleopLedBenchmarks
