import TeleopLedBenchmarks.StopAndWait
import TeleopLedBenchmarks.WsApp
import TeleopLedBenchmarks.Replies
import TeleopLedBenchmarks.ReplyFraming
import TeleopLedBenchmarks.Failures

namespace TeleopLedBenchmarks
set_option autoImplicit true

open StopAndWait

namespace System
variable {clock : Nat → Time} {w w' : System}

theorem Ok.step_acts (h : w.Ok slot)
    (ho : ∀ sock, slot = .message sock → w.app.isSendingBlinkCommand = true)
    (hs : (system clock).step w e = some w') :
    (sends w.app.history).length ≤ (sends w'.app.history).length ∧
      (processed w.app.history).length ≤ (processed w'.app.history).length ∧
      (sends w'.app.history).length + (processed w'.app.history).length ≤
        (sends w.app.history).length + (processed w.app.history).length + 1 := by
  obtain ⟨clicked, n, _, _, rfl, _⟩ | ⟨hq, _⟩ := h.step_cases hs
  · have hh : (w.app.withPosted n).history = w.app.history := rfl
    have hsent : (sends ((w.app.withPosted n).sentActions clock)).length = 0 ∨
        (sends ((w.app.withPosted n).sentActions clock)).length = 1 ∧
          w.app.isSendingBlinkCommand = false := by
      obtain hu | ⟨hu, hf, _⟩ := h.click
      · left
        rw [sends_sentActions_nil (s := w.app.withPosted n) hu]
        rfl
      · right
        rw [AppState.sentActions, show (w.app.withPosted n).uiEventsToProcess = _ from hu]
        exact ⟨rfl, hf⟩
    have hwait : ((w.app.withPosted n).waiting slot).length = 0 ∨
        ((w.app.withPosted n).waiting slot).length = 1 ∧ w.app.isSendingBlinkCommand = true := by
      cases slot with
      | message sock => exact .inr ⟨rfl, ho sock rfl⟩
      | _ => exact .inl rfl
    simp only [sends_ran, processed_ran, List.length_append, hh]
    obtain hs | ⟨hs, hf⟩ := hsent
    · obtain hw | ⟨hw, _⟩ := hwait <;> omega
    · obtain hw | ⟨_, ht⟩ := hwait
      · omega
      · cases hf.symm.trans ht
  · rw [hq.sends, processed_quiet hq]
    omega

theorem reach_step_acts (h : (system clock).Reach Honest (.new c) w)
    (hs : (system clock).step w e = some w') :
    (sends w.app.history).length ≤ (sends w'.app.history).length ∧
      (processed w.app.history).length ≤ (processed w'.app.history).length ∧
      (sends w'.app.history).length + (processed w'.app.history).length ≤
        (sends w.app.history).length + (processed w.app.history).length + 1 := by
  obtain ⟨slot, hok, hf⟩ := reach_framed h
  refine hok.step_acts ?_ hs
  rintro sock rfl
  exact (reach_solicited h).open_command hf (reach_conserved h) (reach_accounted h)

end System

section
variable (cJsonParse : List Byte → Option CJson)

theorem texts_append (os os' : List Output) : texts (os ++ os') = texts os ++ texts os' :=
  List.filterMap_append ..

theorem texts_eq_nil {os : List Output} (h : ∀ bytes, .sendText bytes ∉ os) : texts os = [] := by
  apply List.filterMap_eq_nil_iff.2
  intro o ho
  cases o with
  | sendText bytes => exact (h bytes ho).elim
  | _ => rfl

theorem texts_replyToData (data : WebsocketEventData) :
    texts (replyToData data .new).outputs =
      if repliesTo data.opCode data.dataLen then [receivedMsg] else [] := by
  unfold replyToData repliesTo
  split
  · next h => simp [h, texts, Device.emit, Device.new]
  · next h =>
    split
    · next hc => simp [hc, texts, Device.emit, Device.new]
    · next hc => simp [h, hc, texts, Device.emit, Device.new]

theorem texts_eventEffect (e : WebsocketEventId × WebsocketEventData) :
    texts (eventEffect cJsonParse e).outputs =
      if e.1 = .data ∧ repliesTo e.2.opCode e.2.dataLen then [receivedMsg] else [] := by
  obtain ⟨eventId, data⟩ := e
  by_cases hid : eventId = .data
  · subst hid
    have hlines : texts (userLines (cJsonParse data.dataPtr)) = [] :=
      texts_eq_nil fun _ => not_userLine nofun
    have htail : ∀ lengths : Bool, texts (if lengths then [.logLengths data.payloadLen data.dataLen
        data.payloadOffset, .resetTimer] else []) = [] := by
      intro lengths
      cases lengths with
      | true => rfl
      | false => rfl
    rw [eventEffect_data]
    simp only [texts_append, texts_replyToData, hlines, htail, List.append_nil, true_and]
  · rw [if_neg fun h => hid h.1]
    exact texts_eq_nil fun _ => eventEffect_noData cJsonParse _ hid rfl

end

namespace WsBench
variable {cJsonParse : List Byte → Option CJson} {clock : Nat → Time} {b b' : WsBench}

/-- What happens to the text of an event that is replied to. -/
inductive Answered (clock : Nat → Time) (b : WsBench) (w : System) (b' : WsBench) : Bool → Prop
  | sent : (system clock).step w (.peerSendMessage receivedMsg) = some b'.desktop →
      b'.lost = b.lost → Answered clock b w b' true
  | lost : b'.desktop = w → b'.lost = b.lost + 1 → Answered clock b w b' false

theorem handle_cases (h : b.handle cJsonParse clock w e sent = some b') :
    b.esp.fault = none ∧
      b'.esp = ⟨b.esp.outputs ++ (eventEffect cJsonParse e).outputs,
        (eventEffect cJsonParse e).fault⟩ ∧
      if e.1 = .data ∧ repliesTo e.2.opCode e.2.dataLen then Answered clock b w b' sent
      else b'.desktop = w ∧ b'.lost = b.lost := by
  obtain ⟨d, hd, h⟩ := Option.bind_eq_some_iff.1 h
  have hf : b.esp.fault = none := by
    obtain ⟨hn, _⟩ := Option.ite_none_left_eq_some.1 hd
    exact Option.not_isSome_iff_eq_none.1 hn
  have hesp : b.esp = ⟨b.esp.outputs, none⟩ := by rw [← hf]
  have hd' := websocketApp_step hd
  rw [hesp, websocketEventHandler_eq] at hd'
  subst hd'
  simp only [List.drop_left, texts_eventEffect] at h
  refine ⟨hf, ?_⟩
  by_cases hr : e.1 = .data ∧ repliesTo e.2.opCode e.2.dataLen
  · rw [if_pos hr] at h ⊢
    cases sent with
    | true =>
      simp only [↓reduceIte, List.map_cons, List.map_nil, Machine.run_cons, Machine.run_nil] at h
      obtain ⟨w', hw, rfl⟩ := Option.map_eq_some_iff.1 h
      obtain ⟨v, hv, he⟩ := Option.bind_eq_some_iff.1 hw
      cases he
      exact ⟨rfl, .sent hv rfl⟩
    | false =>
      cases h
      exact ⟨rfl, .lost rfl rfl⟩
  · rw [if_neg hr] at h ⊢
    cases sent with
    | true =>
      cases h
      exact ⟨rfl, rfl, rfl⟩
    | false =>
      cases h
      exact ⟨rfl, rfl, rfl⟩

/-- Every data event carries one whole command, and no control frame is replied to. -/
def Whole (_ : WsBench) : WsEvent → Prop
  | .data n _ _ => n = blinkCommand.length
  | .control opCode payload _ _ => repliesTo opCode payload.length = false
  | _ => True

instance (b : WsBench) : (ev : WsEvent) → Decidable (b.Whole ev)
  | .data n _ _ => inferInstanceAs (Decidable (n = blinkCommand.length))
  | .control opCode payload _ _ =>
    inferInstanceAs (Decidable (repliesTo opCode payload.length = false))
  | .desktop _ | .event _ _ => inferInstanceAs (Decidable True)

theorem step_cases (hg : b.Whole ev) (hs : (wsBench cJsonParse clock).step b ev = some b') :
    (∃ e w, ev = .desktop e ∧ e.fromPeer = false ∧
      (system clock).step b.desktop e = some w ∧ b' = { b with desktop := w }) ∨
    (∃ beyond sent w, ev = .data blinkCommand.length beyond sent ∧ b.esp.fault = none ∧
      (system clock).step b.desktop (.peerRecv blinkCommand.length) = some w ∧
      b'.esp = ⟨b.esp.outputs ++ (eventEffect cJsonParse
          (b.dataEvent blinkCommand.length beyond)).outputs,
        (eventEffect cJsonParse (b.dataEvent blinkCommand.length beyond)).fault⟩ ∧
      Answered clock b w b' sent) ∨
    (b'.desktop = b.desktop ∧ b'.lost = b.lost ∧ texts b'.esp.outputs = texts b.esp.outputs) := by
  cases ev with
  | desktop e =>
    left
    obtain ⟨hp, he⟩ := Option.ite_none_left_eq_some.1 hs
    obtain ⟨w, hw, rfl⟩ := Option.map_eq_some_iff.1 he
    exact ⟨e, w, rfl, Bool.eq_false_of_not_eq_true hp, hw, rfl⟩
  | data n beyond sent =>
    right; left
    cases hg
    obtain ⟨_, he⟩ := Option.ite_none_right_eq_some.1 hs
    obtain ⟨w, hw, hh⟩ := Option.bind_eq_some_iff.1 he
    obtain ⟨hf, hesp, ha⟩ := handle_cases hh
    exact ⟨beyond, sent, w, rfl, hf, hw, hesp, ha⟩
  | control opCode payload beyond sent =>
    right; right
    obtain ⟨_, he⟩ := Option.ite_none_right_eq_some.1 hs
    obtain ⟨_, hesp, ha⟩ := handle_cases he
    have hn : ¬((controlEvent opCode payload beyond).1 = .data ∧
        repliesTo (controlEvent opCode payload beyond).2.opCode
          (controlEvent opCode payload beyond).2.dataLen) := fun h =>
      Bool.false_ne_true (hg.symm.trans h.2)
    rw [if_neg hn] at ha
    refine ⟨ha.1, ha.2, ?_⟩
    rw [hesp, texts_append, texts_eventEffect, if_neg hn, List.append_nil]
  | event id data =>
    right; right
    obtain ⟨hid, he⟩ := Option.ite_none_left_eq_some.1 hs
    obtain ⟨_, hesp, ha⟩ := handle_cases he
    have hn : ¬((id, data).1 = .data ∧ repliesTo data.opCode data.dataLen) := fun h => hid h.1
    rw [if_neg hn] at ha
    refine ⟨ha.1, ha.2, ?_⟩
    rw [hesp, texts_append, texts_eventEffect, if_neg hn, List.append_nil]

/-- The ESP32 has answered every command it has received, apart from the lost replies. -/
structure Exchanged (clock : Nat → Time) (b : WsBench) : Prop where
  desktop : (system clock).Reach System.Honest (.new .webSocket) b.desktop
  received : b.desktop.net.peerReceived.length =
    blinkCommand.length * (b.desktop.net.wsSent.length + b.lost)
  texts : texts b.esp.outputs = List.replicate (b.desktop.net.wsSent.length + b.lost) receivedMsg
  messages : ∀ m ∈ b.desktop.net.wsSent, m = receivedMsg

def counts (b : WsBench) : Counts where
  sends := (sends b.desktop.app.history).length
  serves := b.desktop.net.wsSent.length
  drops := b.lost
  accepts := (processed b.desktop.app.history).length

theorem Exchanged.new (clock : Nat → Time) : Exchanged clock .new := by
  refine ⟨.refl, rfl, rfl, ?_⟩
  intro m hm
  cases hm

theorem Exchanged.received_command (h : b.Exchanged clock)
    (hw : (system clock).step b.desktop (.peerRecv blinkCommand.length) = some w) :
    w.net.peerReceived.length =
      blinkCommand.length * (b.desktop.net.wsSent.length + b.lost + 1) := by
  obtain ⟨⟨_, hle⟩, rfl⟩ := System.peerRecv_cases hw
  simp only [List.length_append, List.length_take_of_le hle, h.received, Nat.mul_succ]

/-- The text for a command that has just been received is the reply of an honest peer. -/
theorem Exchanged.reply_honest (h : b.Exchanged clock)
    (hw : (system clock).step b.desktop (.peerRecv blinkCommand.length) = some w) :
    w.Honest (.peerSendMessage receivedMsg) := by
  have hr := h.received_command hw
  obtain ⟨_, rfl⟩ := System.peerRecv_cases hw
  refine ⟨by decide, ?_⟩
  rw [System.commandsReceived, hr, Nat.mul_div_cancel_left _ (by decide)]
  exact Nat.lt_succ_of_le (Nat.le_add_right _ _)

theorem Exchanged.step (h : b.Exchanged clock) (hg : b.Whole ev)
    (hs : (wsBench cJsonParse clock).step b ev = some b') : b'.Exchanged clock := by
  obtain ⟨e, w, rfl, hp, hw, rfl⟩ | ⟨beyond, sent, w, rfl, hf, hw, hesp, ha⟩ | ⟨hd, hl, ht⟩ :=
    step_cases hg hs
  · have hhonest : b.desktop.Honest e := by
      cases e with
      | peerRecv | peerSendBytes | peerSendMessage => cases hp
      | _ => trivial
    obtain ⟨slot, hok⟩ := System.reach_ok h.desktop
    have hn := (hok.step_untouched hw).byPeer hp
    simp only [Network.byPeer, Prod.mk.injEq] at hn
    obtain ⟨hr, _, hsent⟩ := hn
    refine ⟨.step h.desktop hhonest hw, ?_, ?_, ?_⟩
    · simp only [hr, hsent]
      exact h.received
    · simp only [hsent]
      exact h.texts
    · simp only [hsent]
      exact h.messages
  · have hrecv : b.desktop.Honest (.peerRecv blinkCommand.length) := trivial
    have hd := Machine.Reach.step h.desktop hrecv hw
    have hhonest := h.reply_honest hw
    have hr := h.received_command hw
    obtain ⟨_, rfl⟩ := System.peerRecv_cases hw
    have hreplied : repliesTo 0x1 blinkCommand.length = true := by decide
    have htexts : TeleopLedBenchmarks.texts b'.esp.outputs = List.replicate
        (b.desktop.net.wsSent.length + b.lost + 1) receivedMsg := by
      rw [hesp, texts_append, h.texts, texts_eventEffect, if_pos ⟨rfl, hreplied⟩,
        List.replicate_succ']
    rcases ha with ⟨hm, hl⟩ | ⟨hdesk, hl⟩
    · have hd' := Machine.Reach.step hd hhonest hm
      obtain ⟨_, he⟩ := System.peerSendMessage_cases hm
      refine ⟨hd', ?_, ?_, ?_⟩
      · rw [he, hl]
        simp only [hr, List.length_append, List.length_singleton]
        rw [Nat.add_right_comm]
      · rw [htexts, he, hl]
        simp only [List.length_append, List.length_singleton]
        rw [Nat.add_right_comm]
      · rw [he]
        intro m hmem
        obtain hmem | hmem := List.mem_append.1 hmem
        · exact h.messages m hmem
        · exact List.mem_singleton.1 hmem
    · refine ⟨hdesk ▸ hd, ?_, ?_, ?_⟩
      · rw [hdesk, hl]
        exact hr
      · rw [htexts, hdesk, hl]
        rfl
      · rw [hdesk]
        exact h.messages
  · refine ⟨hd ▸ h.desktop, ?_, ?_, ?_⟩
    · rw [hd, hl]
      exact h.received
    · rw [ht, hd, hl]
      exact h.texts
    · rw [hd]
      exact h.messages

theorem Exchanged.valid (h : b.Exchanged clock) : b.counts.Valid := by
  have hcount := (System.reach_accounted h.desktop).count
  have hreceived := (System.reach_conserved h.desktop).received_le
  obtain ⟨slot, _, hf⟩ := System.reach_framed h.desktop
  have hflag := Bool.toNat_le b.desktop.app.isSendingBlinkCommand
  refine ⟨?_, ?_, ?_⟩
  · exact (hf.ws (System.reach_connType h.desktop)).flat.length_le
  · simp only [System.pipe, h.received] at hreceived
    exact Nat.le_of_mul_le_mul_left hreceived (by decide)
  · simp only [counts]
    omega

theorem Exchanged.idle_iff (h : b.Exchanged clock) :
    b.counts.turn = .idle ↔ b.desktop.app.isSendingBlinkCommand = false := by
  have hcount := (System.reach_accounted h.desktop).count
  rw [Counts.idle_iff, counts, hcount]
  cases b.desktop.app.isSendingBlinkCommand with
  | true => simp
  | false => simp

theorem Exchanged.next (h : b.Exchanged clock) (hg : b.Whole ev)
    (hs : (wsBench cJsonParse clock).step b ev = some b') : b.counts.Next b'.counts := by
  obtain ⟨e, w, rfl, hp, hw, rfl⟩ | ⟨beyond, sent, w, rfl, hf, hw, hesp, ha⟩ | ⟨hd, hl, ht⟩ :=
    step_cases hg hs
  · obtain ⟨hsends, hproc, htotal⟩ := System.reach_step_acts h.desktop hw
    obtain ⟨slot, hok⟩ := System.reach_ok h.desktop
    have hn := (hok.step_untouched hw).byPeer hp
    simp only [Network.byPeer, Prod.mk.injEq] at hn
    have hsent := hn.2.2
    refine ⟨hsends, ?_, Nat.le_refl _, hproc, ?_⟩
    · simp only [counts, hsent, Nat.le_refl]
    · simp only [counts, Counts.total, hsent]
      omega
  · obtain ⟨_, rfl⟩ := System.peerRecv_cases hw
    rcases ha with ⟨hm, hl⟩ | ⟨hdesk, hl⟩
    · obtain ⟨_, he⟩ := System.peerSendMessage_cases hm
      constructor <;> simp only [counts, Counts.total, he, hl, List.length_append,
        List.length_singleton] <;> omega
    · constructor <;> simp only [counts, Counts.total, hdesk, hl] <;> omega
  · constructor <;> simp only [counts, Counts.total, hd, hl] <;> omega

theorem along_exchanged (h : (wsBench cJsonParse clock).run .new es = some b)
    (hg : (wsBench cJsonParse clock).Along Whole .new es) : b.Exchanged clock :=
  (Machine.Reach.of_run h hg).invariant (I := Exchanged clock) (.new clock)
    fun _ _ _ _ hi hg hs => hi.step hg hs

end WsBench

section
variable {cJsonParse : List Byte → Option CJson} {clock : Nat → Time} {b : WsBench}

/-- The acts by which a step of the closed system adds to the exchange. -/
def WsBench.acts (b b' : WsBench) : List Act := b.counts.since b'.counts

/-- A reply that does not get out is never made up for: the button stays disabled, and neither
party does anything any more. -/
theorem ws_lost_reply_final (h : (wsBench cJsonParse clock).run .new es = some b)
    (hg : (wsBench cJsonParse clock).Along WsBench.Whole .new es) (hl : 0 < b.lost)
    (h' : (wsBench cJsonParse clock).run b es' = some b')
    (hg' : (wsBench cJsonParse clock).Along WsBench.Whole b es') :
    b'.desktop.app.isSendingBlinkCommand = true ∧ b'.counts = b.counts := by
  have hinv : b'.Exchanged clock ∧ b'.counts = b.counts := by
    refine (Machine.Reach.of_run h' hg').invariant
      (I := fun b' => b'.Exchanged clock ∧ b'.counts = b.counts)
      ⟨WsBench.along_exchanged h hg, rfl⟩ ?_
    rintro s e s' _ ⟨hi, hc⟩ hg hs
    have hi' := hi.step hg hs
    have hd : 0 < s.counts.drops := by rw [hc]; exact hl
    exact ⟨hi', (hi.valid.next_eq_of_dropped hd hi'.valid (hi.next hg hs)).trans hc⟩
  obtain ⟨hb', hc⟩ := hinv
  refine ⟨?_, hc⟩
  have hd : 0 < b'.counts.drops := by rw [hc]; exact hl
  have hturn := (hb'.valid.dropped_of_pos hd).1
  rw [← Bool.not_eq_false, ← hb'.idle_iff, hturn]
  exact Turn.noConfusion

/-- A command, its text, and the processing of it. -/
def wsRoundRun : List WsEvent :=
  connectRun.map .desktop ++ [.desktop (.frame true), .desktop (.frame false),
    .desktop (.writeSome 0 16), .data 16 [] true, .desktop (.readSome 0 8),
    .desktop (.readHandler 0 none), .desktop (.frame false)]

/-- The command of this run is received, and its text does not get out. -/
def wsLostRun : List WsEvent :=
  connectRun.map .desktop ++ [.desktop (.frame true), .desktop (.frame false),
    .desktop (.writeSome 0 16), .data 16 [] false]

theorem ws_lost_reply_final_run :
    ∃ b b', (wsBench (fun _ => none) Int.ofNat).run .new wsLostRun = some b ∧
      (wsBench (fun _ => none) Int.ofNat).run b [.desktop (.frame true)] = some b' ∧
      b'.desktop.app.isSendingBlinkCommand = true ∧ b'.counts = b.counts := by
  have hs : ((wsBench (fun _ => none) Int.ofNat).run .new wsLostRun).any (fun b =>
      0 < b.lost ∧ ((wsBench (fun _ => none) Int.ofNat).run b
        [.desktop (.frame true)]).isSome) = true := by decide
  obtain ⟨b, hb, hp⟩ := (Option.any_eq_true _ _).1 hs
  obtain ⟨hl, hr⟩ := of_decide_eq_true hp
  obtain ⟨b', hb'⟩ := Option.isSome_iff_exists.1 hr
  have hg : (wsBench (fun _ => none) Int.ofNat).Along WsBench.Whole .new wsLostRun := by decide
  have hg' : (wsBench (fun _ => none) Int.ofNat).Along WsBench.Whole b
      [.desktop (.frame true)] := by
    refine ⟨trivial, ?_⟩
    split <;> trivial
  exact ⟨b, b', hb, hb', ws_lost_reply_final hb hg hl hb' hg'⟩

end

namespace TcpBench
variable {clock : Nat → Time} {b b' : TcpBench}

def counts (b : TcpBench) : Counts where
  sends := (sends b.desktop.app.history).length
  serves := b.esp.replies
  drops := 0
  accepts := (processed b.desktop.app.history).length

/-- What `reach_inStep` gives, and the bytes of the replies. -/
structure Exchanged (clock : Nat → Time) (b : TcpBench) : Prop where
  connected : b.Connected
  desktop : (system clock).Reach System.Honest (.new .customTcp) b.desktop
  inStep : b.InStep
  replies : b.desktop.net.tcpSent = (List.replicate b.esp.replies receivedMsg).flatten

theorem Exchanged.new (clock : Nat → Time) (fd : Nat) : Exchanged clock (.new fd) :=
  ⟨.new fd, .refl, .new fd, rfl⟩

theorem Exchanged.step (h : b.Exchanged clock) (hg : b.WholeRecv ev)
    (hs : (tcpBench clock).step b ev = some b') : b'.Exchanged clock := by
  obtain ⟨hd, hi⟩ := h.inStep.step h.connected h.desktop hg hs
  refine ⟨h.connected.step hs, hd, hi, ?_⟩
  have hreplies := h.replies
  obtain ⟨slot, hok⟩ := h.connected.reach
  obtain ⟨e, w, rfl, hp, hw, rfl⟩ | ⟨n, w, rfl, _, _, hw, rfl, _, _, _, hrep⟩ |
    ⟨w, rfl, _, hw, rfl⟩ := step_cases h.connected hs
  · have hn := (hok.step_untouched hw).byPeer hp
    simp only [Network.byPeer, Prod.mk.injEq] at hn
    exact hn.2.1.trans hreplies
  · rw [hrep, (System.peerRecv_cases hw).2]
    exact hreplies
  · rw [(System.peerSendBytes_cases hw).2]
    simp only [hreplies, List.replicate_succ', List.flatten_append, List.flatten_singleton]

theorem Exchanged.valid (h : b.Exchanged clock) : b.counts.Valid := by
  have hcount := (System.reach_accounted h.desktop).count
  have hflag := Bool.toNat_le b.desktop.app.isSendingBlinkCommand
  have hreceived := (System.reach_conserved h.desktop).received_le
  obtain ⟨slot, _, hf⟩ := System.reach_framed h.desktop
  have hblocks := (hf.tcp h.connected.connType).blocks.length_le
  have hrecvs : b.esp.replies ≤ b.recvs := Nat.le_add_right _ _
  constructor
  · rw [h.inStep.sent] at hblocks
    exact Nat.le_of_mul_le_mul_left hblocks (by decide)
  · simp only [System.pipe, h.inStep.received] at hreceived
    exact hrecvs.trans (Nat.le_of_mul_le_mul_left hreceived (by decide))
  · simp only [counts]
    omega

theorem Exchanged.idle_iff (h : b.Exchanged clock) :
    b.counts.turn = .idle ↔ b.desktop.app.isSendingBlinkCommand = false := by
  have hcount := (System.reach_accounted h.desktop).count
  rw [Counts.idle_iff, counts, hcount]
  cases b.desktop.app.isSendingBlinkCommand with
  | true => simp
  | false => simp

theorem Exchanged.next (h : b.Exchanged clock) (hs : (tcpBench clock).step b ev = some b') :
    b.counts.Next b'.counts := by
  obtain ⟨e, w, rfl, hp, hw, rfl⟩ | ⟨n, w, rfl, _, _, hw, rfl, _, _, _, hrep⟩ |
    ⟨w, rfl, _, hw, rfl⟩ := step_cases h.connected hs
  · obtain ⟨hsends, hproc, htotal⟩ := System.reach_step_acts h.desktop hw
    refine ⟨hsends, Nat.le_refl _, Nat.le_refl _, hproc, ?_⟩
    simp only [counts, Counts.total]
    omega
  · have hh : b'.desktop.app.history = b.desktop.app.history := by
      rw [(System.peerRecv_cases hw).2]
    constructor <;> simp only [counts, Counts.total, hh, hrep] <;> omega
  · have hh : w.app.history = b.desktop.app.history := by
      rw [(System.peerSendBytes_cases hw).2]
    constructor <;> simp only [counts, Counts.total, hh] <;> omega

end TcpBench

section
variable {clock : Nat → Time} {b : TcpBench}

def TcpBench.acts (b b' : TcpBench) : List Act := b.counts.since b'.counts

/-- While every `recv` takes one whole command, the closed TCP system is a stop-and-wait
exchange too: a reply is always `RECEIVED_MSG`, and none is lost. -/
theorem tcp_stop_and_wait (h : (tcpBench clock).run (.new fd) es = some b)
    (hg : (tcpBench clock).Along TcpBench.WholeRecv (.new fd) es) :
    (tcpBench clock).observed TcpBench.acts (.new fd) es = b.counts.state.trace ∧
      (b.desktop.app.isSendingBlinkCommand = true ↔ b.counts.turn ≠ .idle) ∧
      processed b.desktop.app.history = List.replicate b.counts.accepts receivedMsg := by
  have hb : b.Exchanged clock := (Machine.Reach.of_run h hg).invariant
    (I := TcpBench.Exchanged clock) (.new clock fd) fun _ _ _ _ hi hg hs => hi.step hg hs
  have hrun := Machine.run_observed (N := stopAndWait) (I := TcpBench.Exchanged clock)
    (fun b => b.counts.state) TcpBench.acts
    (fun _ _ _ hi hg hs => hi.step hg hs)
    (fun _ _ _ hi hg hs => Counts.run_since hi.valid (hi.step hg hs).valid (hi.next hs))
    (.new clock fd) hg h
  refine ⟨?_, ?_, ?_⟩
  · exact (run_trace hrun).symm
  · rw [Ne, hb.idle_iff, Bool.not_eq_false]
  · obtain ⟨slot, _, hf⟩ := System.reach_framed hb.desktop
    have hblocks := (hf.tcp hb.connected.connType).blocks
    rw [hb.replies] at hblocks
    exact List.eq_replicate_iff.2 ⟨rfl, hblocks.eq_of_replicate⟩

theorem tcp_stop_and_wait_round :
    ∃ b, (tcpBench Int.ofNat).run (.new 3) (writtenRun ++ [.recv 16, .send]) = some b ∧
      (tcpBench Int.ofNat).observed TcpBench.acts (.new 3) (writtenRun ++ [.recv 16, .send]) =
        [.send, .serve] ∧
      b.desktop.app.isSendingBlinkCommand = true := by
  have hs : ((tcpBench Int.ofNat).run (.new 3) (writtenRun ++ [.recv 16, .send])).any
      (fun b => b.counts = ⟨1, 1, 0, 0⟩) = true := by decide
  obtain ⟨b, hb, hp⟩ := (Option.any_eq_true _ _).1 hs
  have hc := of_decide_eq_true hp
  have hg : (tcpBench Int.ofNat).Along TcpBench.WholeRecv (.new 3)
      (writtenRun ++ [.recv 16, .send]) := by decide
  obtain ⟨htrace, hflag, _⟩ := tcp_stop_and_wait hb hg
  rw [hc] at htrace hflag
  exact ⟨b, hb, htrace, hflag.2 Turn.noConfusion⟩

end

namespace System
variable {clock : Nat → Time} {w₀ w w' : System}

/-- What the desktop does without its peer from `w` on: each further command is paid for by an
enabled button or by a reply that was on its way. -/
structure Alone (w w' : System) : Prop where
  byPeer : w'.net.byPeer = w.net.byPeer
  sends : (sends w.app.history).length ≤ (sends w'.app.history).length
  paid : (TeleopLedBenchmarks.sends w'.app.history).length +
      (!w'.app.isSendingBlinkCommand).toNat + (processed w.app.history).length ≤
    (TeleopLedBenchmarks.sends w.app.history).length +
      (!w.app.isSendingBlinkCommand).toNat + (processed w'.app.history).length

theorem Alone.refl (w : System) : w.Alone w := ⟨rfl, Nat.le_refl _, Nat.le_refl _⟩

theorem Alone.step (h : w₀.Alone w) (hok : w.Ok slot) (hp : e.fromPeer = false)
    (hs : (system clock).step w e = some w') : w₀.Alone w' := by
  obtain ⟨hmono, hstep⟩ := hok.step_sends hs
  obtain ⟨hn, hle, hpaid⟩ := h
  refine ⟨((hok.step_untouched hs).byPeer hp).trans hn, hle.trans hmono, ?_⟩
  omega

end System

namespace TcpBench
variable {clock : Nat → Time} {b b' : TcpBench}

/-- The whole replies on their way. -/
def unread (b : TcpBench) : Nat :=
  b.desktop.net.tcpSent.length / receivedMsg.length - (processed b.desktop.app.history).length

/-- The commands the desktop can still send if no reply is sent any more. -/
def chances (b : TcpBench) : Nat :=
  (!b.desktop.app.isSendingBlinkCommand).toNat + b.unread

theorem link_stopped (h : b.esp.point = .stopped) (hs : (tcpLink clock).step b ev = some b') :
    ∃ e w, e.fromPeer = false ∧ (system clock).step b.desktop e = some w ∧
      b' = { b with desktop := w } := by
  cases ev with
  | desktop e =>
    obtain ⟨hp, he⟩ := Option.ite_none_left_eq_some.1 hs
    obtain ⟨w, hw, rfl⟩ := Option.map_eq_some_iff.1 he
    exact ⟨e, w, Bool.eq_false_of_not_eq_true hp, hw, rfl⟩
  | recv r =>
    cases r with
    | none => cases h.symm.trans (Option.ite_none_right_eq_some.1 hs).1
    | some n =>
      cases n with
      | zero => cases h.symm.trans (Option.ite_none_right_eq_some.1 hs).1.1
      | succ n => cases h.symm.trans (Option.ite_none_right_eq_some.1 hs).1.1
  | send r =>
    cases r with
    | none => cases h.symm.trans (Option.ite_none_right_eq_some.1 hs).1
    | some n => cases h.symm.trans (Option.ite_none_right_eq_some.1 hs).1.1

/-- What lies between the end of the loop in `b` and a later state. -/
structure After (b b' : TcpBench) : Prop where
  linked : b'.Linked
  esp : b'.esp = b.esp
  alone : b.desktop.Alone b'.desktop

theorem After.refl (h : b.Linked) : b.After b :=
  ⟨h, rfl, .refl _⟩

theorem After.step {b₀ : TcpBench} (h : b₀.After b) (hstop : b₀.esp.point = .stopped)
    (hs : (tcpLink clock).step b ev = some b') : b₀.After b' := by
  obtain ⟨hl, he, ha⟩ := h
  have hl' := (link_cases hl hs).1
  obtain ⟨e, w, hp, hw, rfl⟩ := link_stopped (by rw [he]; exact hstop) hs
  obtain ⟨slot, hok, _⟩ := hl.framed
  exact ⟨hl', he, ha.step hok hp hw⟩

theorem After.chances_le (h : b.After b') (hl : b.Linked) :
    (sends b'.desktop.app.history).length + b'.chances ≤
      (sends b.desktop.app.history).length + b.chances := by
  have hsent : b'.desktop.net.tcpSent = b.desktop.net.tcpSent :=
    congrArg (fun net => net.2.1) h.alone.byPeer
  have hle : ∀ {c : TcpBench}, c.Linked → (processed c.desktop.app.history).length ≤
      c.desktop.net.tcpSent.length / receivedMsg.length := fun hc =>
    (Nat.le_div_iff_mul_le (by decide)).2 (by rw [Nat.mul_comm]; exact hc.blocks.length_le)
  have hb := hle hl
  have hb' := hle h.linked
  have hpaid := h.alone.paid
  rw [hsent] at hb'
  simp only [chances, unread, hsent]
  omega

end TcpBench

section
variable {clock : Nat → Time} {b b' : TcpBench}

/-- When the loop of `tcpAppStart` is over it stays over, nothing more is taken or answered,
and the desktop sends at most one command for each whole reply on its way, and one if the button
is enabled. From then on the button stays disabled. -/
theorem tcp_loop_end_final (h : (tcpLink clock).run (.new fd) es = some b)
    (hstop : b.esp.point = .stopped) (h' : (tcpLink clock).run b es' = some b') :
    b'.esp = b.esp ∧ b'.desktop.net.byPeer = b.desktop.net.byPeer ∧
      (sends b'.desktop.app.history).length + b'.chances ≤
        (sends b.desktop.app.history).length + b.chances ∧
      (b.chances = 0 → b'.desktop.app.isSendingBlinkCommand = true ∧
        (sends b'.desktop.app.history).length = (sends b.desktop.app.history).length) := by
  have hl := TcpBench.reach_linked (Machine.reach_of_run h)
  have ha : b.After b' := Machine.run_invariant (I := b.After)
    (fun _ _ _ ha hs => ha.step hstop hs) (.refl hl) h'
  have hle := ha.chances_le hl
  refine ⟨ha.esp, ha.alone.byPeer, hle, fun hz => ?_⟩
  have hmono := ha.alone.sends
  have hzero : b'.chances = 0 := by omega
  have hflag := Nat.eq_zero_of_add_eq_zero_right hzero
  constructor
  · cases hf : b'.desktop.app.isSendingBlinkCommand with
    | true => rfl
    | false => rw [hf] at hflag; cases hflag
  · omega

/-- The `recv` after a whole round fails, and the user clicks once more. -/
def lateClick : List LinkEvent := [.desktop (.frame true), .desktop (.frame false)]

theorem tcp_loop_end_final_lateClick :
    ∃ b b', (tcpLink Int.ofNat).run (.new 3) (wholeReplyRun ++ [.recv none]) = some b ∧
      (tcpLink Int.ofNat).run b lateClick = some b' ∧ b.chances = 1 ∧ b'.chances = 0 ∧
      b'.esp = b.esp ∧ (sends b'.desktop.app.history).length + b'.chances ≤
        (sends b.desktop.app.history).length + b.chances := by
  have hs : ((tcpLink Int.ofNat).run (.new 3) (wholeReplyRun ++ [.recv none])).any (fun b =>
      b.esp.point = .stopped ∧ b.chances = 1 ∧ ((tcpLink Int.ofNat).run b lateClick).any (fun b' =>
        b'.chances = 0) = true) = true := by decide
  obtain ⟨b, hb, hp⟩ := (Option.any_eq_true _ _).1 hs
  obtain ⟨hstop, hone, hs'⟩ := of_decide_eq_true hp
  obtain ⟨b', hb', hp'⟩ := (Option.any_eq_true _ _).1 hs'
  obtain ⟨hesp, _, hle, _⟩ := tcp_loop_end_final hb hstop hb'
  exact ⟨b, b', hb, hb', hone, of_decide_eq_true hp', hesp, hle⟩

end

end TeleopLedBenchmarks
