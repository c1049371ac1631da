import TeleopLedBenchmarks.Blocks
import TeleopLedBenchmarks.Frames
import TeleopLedBenchmarks.ReadLoop

namespace TeleopLedBenchmarks
set_option autoImplicit true

/-- The contents `processIOResults` saw in its message cases, in order. -/
def processed (history : List Action) : List (List Byte) :=
  history.filterMap fun
    | .processMessage content _ _ _ => some content
    | _ => none

/-- The contents that were complete when a read handler queued its result, in order. -/
def queued (history : List Action) : List (List Byte) :=
  history.filterMap fun
    | .queueMessage content => some content
    | _ => none

theorem processed_append (h l : List Action) : processed (h ++ l) = processed h ++ processed l :=
  List.filterMap_append ..

theorem queued_append (h l : List Action) : queued (h ++ l) = queued h ++ queued l :=
  List.filterMap_append ..

/-- The content of a message result that has not been processed. -/
def AppState.waiting (s : AppState) : Slot → List (List Byte)
  | .message _ => [s.content]
  | _ => []

section
variable (clock : Nat → Time)

theorem AppState.sendQueued_content (s : AppState) : (s.sendQueued clock).content = s.content := by
  unfold AppState.sendQueued
  split <;> rfl

theorem processed_ran (s : AppState) (slot : Slot) (clicked : Bool) :
    processed (s.ran clock slot clicked).history = processed s.history ++ s.waiting slot := by
  have hsent : processed (s.sentActions clock) = [] := by
    unfold AppState.sentActions
    split <;> rfl
  have hsettled : processed ((s.sendQueued clock).settledActions clock slot) =
      s.waiting slot := by
    cases slot with
    | message sock =>
      simp only [AppState.settledActions, AppState.sendQueued_content, AppState.waiting]
      rfl
    | _ => rfl
  rw [AppState.ran_history, processed_append, processed_append, processed_append, hsent, hsettled]
  simp only [List.nil_append, List.append_cancel_left_eq]
  exact List.append_nil _

theorem queued_ran (s : AppState) (slot : Slot) (clicked : Bool) :
    queued (s.ran clock slot clicked).history = queued s.history := by
  have hsent : queued (s.sentActions clock) = [] := by
    unfold AppState.sentActions
    split <;> rfl
  have hsettled : queued ((s.sendQueued clock).settledActions clock slot) = [] := by
    cases slot <;> rfl
  rw [AppState.ran_history, queued_append, queued_append, queued_append, hsent, hsettled]
  exact List.append_nil _

theorem AppState.ran_tcpReadBuf (s : AppState) (slot : Slot) (clicked : Bool) :
    (s.ran clock slot clicked).tcpReadBuf = s.tcpReadBuf := by
  have hs : (s.sendQueued clock).tcpReadBuf = s.tcpReadBuf := by
    unfold AppState.sendQueued
    split <;> rfl
  cases slot <;> exact hs

theorem AppState.ran_wsReadBuffer (s : AppState) (slot : Slot) (clicked : Bool) :
    (s.ran clock slot clicked).wsReadBuffer = match slot with
      | .message _ => if s.connType = .webSocket then [] else s.wsReadBuffer
      | _ => s.wsReadBuffer := by
  have hs : (s.sendQueued clock).wsReadBuffer = s.wsReadBuffer := by
    unfold AppState.sendQueued
    split <;> rfl
  cases slot with
  | message sock =>
    have hm : (s.ran clock (.message sock) clicked).wsReadBuffer =
        if (s.sendQueued clock).connType = .webSocket then []
        else (s.sendQueued clock).wsReadBuffer := rfl
    rw [hm, AppState.sendQueued_connType, hs]
  | _ => exact hs

end

/-- The part of the next block that `tcpReadBuf` holds. -/
def Slot.part (buf : List Byte) : Slot → List Byte
  | .reading _ got => buf.take got
  | .message _ => buf
  | _ => []

namespace System

/-- TCP: the stream is the processed blocks, the part in the buffer, and what is unread. -/
structure TcpFramed (w : System) (slot : Slot) : Prop where
  length : w.app.tcpReadBuf.length = expectedMsg.length
  blocks : Blocks expectedMsg.length (processed w.app.history) w.net.tcpSent
  stream : (∀ sock, slot ≠ .idle sock) → w.net.tcpSent =
    (processed w.app.history).flatten ++ (slot.part w.app.tcpReadBuf ++ w.net.tcpIn)

/-- WebSocket: the messages are the processed ones, the one in the buffer, and the unread. -/
structure WsFramed (w : System) (slot : Slot) : Prop where
  flat : processed w.app.history <+: w.net.wsSent
  stream : match slot with
    | .idle _ => True
    | .reading _ got => w.app.wsReadBuffer.length = got ∧ ∃ unread,
        w.net.wsSent = processed w.app.history ++ unread ∧
          PartRead w.app.wsReadBuffer w.net.wsIn unread
    | .message _ =>
        w.net.wsSent = processed w.app.history ++ w.app.wsReadBuffer :: w.net.wsIn
    | _ => w.app.wsReadBuffer = [] ∧ w.net.wsSent = processed w.app.history ++ w.net.wsIn

/-- What has been read and not processed, on either transport. -/
structure Framed (w : System) (slot : Slot) : Prop where
  queue : queued w.app.history = processed w.app.history ++ w.app.waiting slot
  tcp : w.app.connType = .customTcp → w.TcpFramed slot
  ws : w.app.connType = .webSocket → w.WsFramed slot

theorem Framed.new (c : ConnectionType) : (System.new c).Framed .accepting := by
  refine ⟨rfl, fun _ => ⟨rfl, .nil _ _, fun _ => rfl⟩, fun _ => ⟨List.nil_prefix, rfl, rfl⟩⟩

/-- The fields `Framed` looks at. -/
def inbound (w : System) :=
  (w.app.connType, w.app.history, w.app.tcpReadBuf, w.app.wsReadBuffer, w.net.tcpSent,
    w.net.tcpIn, w.net.wsSent, w.net.wsIn)

theorem Framed.congr {w w' : System} (h : w.Framed slot) (hv : w'.inbound = w.inbound) :
    w'.Framed slot := by
  simp only [inbound, Prod.mk.injEq] at hv
  obtain ⟨hc, hh, ht, hw, hts, hti, hws, hwi⟩ := hv
  have hcontent : w'.app.waiting slot = w.app.waiting slot := by
    cases slot <;> simp only [AppState.waiting, AppState.content, hc, ht, hw]
  constructor
  · rw [hh, hcontent]
    exact h.queue
  · intro htcp
    have hf := h.tcp (hc.symm.trans htcp)
    constructor
    · rw [ht]
      exact hf.length
    · rw [hh, hts]
      exact hf.blocks
    · rw [hh, hts, ht, hti]
      exact hf.stream
  · intro hwsc
    have hf := h.ws (hc.symm.trans hwsc)
    constructor
    · rw [hh, hws]
      exact hf.flat
    · rw [hh, hws, hw, hwi]
      exact hf.stream

variable {clock : Nat → Time} {w w' : System}

theorem TcpFramed.ran (h : w.TcpFramed slot) (hc : w.app.connType = .customTcp)
    (clicked : Bool) :
    System.TcpFramed { w with app := w.app.ran clock slot clicked, started := true }
      slot.frame := by
  have hp := processed_ran clock w.app slot clicked
  have hb := AppState.ran_tcpReadBuf clock w.app slot clicked
  have hbuf := h.stream
  have hblocks := h.blocks
  refine ⟨by rw [hb]; exact h.length, ?_, ?_⟩
  · simp only [hp]
    cases slot with
    | message sock =>
      simp only [AppState.waiting, AppState.content, hc]
      refine hblocks.snoc h.length ?_
      rw [hbuf (by simp)]
      exact ⟨w.net.tcpIn, by simp [Slot.part]⟩
    | _ =>
      simp only [AppState.waiting, List.append_nil]
      exact hblocks
  · intro hk
    simp only [hp, hb]
    cases slot with
    | message sock =>
      rw [hbuf (by simp)]
      simp [AppState.waiting, AppState.content, hc, Slot.part, Slot.frame]
    | idle sock => exact (hk sock rfl).elim
    | cancelled => exact (hk none rfl).elim
    | accepting | connected | reading =>
      rw [hbuf (by simp)]
      simp [AppState.waiting, Slot.part, Slot.frame]

theorem WsFramed.ran (h : w.WsFramed slot) (hc : w.app.connType = .webSocket)
    (clicked : Bool) :
    System.WsFramed { w with app := w.app.ran clock slot clicked, started := true }
      slot.frame := by
  have hp := processed_ran clock w.app slot clicked
  have hb := AppState.ran_wsReadBuffer clock w.app slot clicked
  have hstream := h.stream
  refine ⟨?_, ?_⟩
  · simp only [hp]
    cases slot with
    | message sock =>
      simp only [AppState.waiting, AppState.content, hc]
      exact ⟨w.net.wsIn, by rw [hstream]; simp⟩
    | _ =>
      simp only [AppState.waiting, List.append_nil]
      exact h.flat
  · cases slot with
    | message sock =>
      simp only [hc, ↓reduceIte] at hb
      simp only [Slot.frame, hp, hb, AppState.waiting, AppState.content, hc]
      exact ⟨rfl, w.net.wsIn, by rw [hstream]; simp, .start _⟩
    | idle | cancelled => trivial
    | accepting =>
      simp only [Slot.frame, hp, hb, AppState.waiting, List.append_nil]
      exact hstream
    | connected sock =>
      obtain ⟨hn, hs⟩ := hstream
      simp only [Slot.frame, hp, hb, AppState.waiting, List.append_nil]
      exact ⟨by rw [hn]; rfl, w.net.wsIn, hs, by rw [hn]; exact .start _⟩
    | reading sock got =>
      simp only [Slot.frame, hp, hb, AppState.waiting, List.append_nil]
      exact hstream

theorem Framed.ran (h : w.Framed slot) (clicked : Bool) :
    System.Framed { w with app := w.app.ran clock slot clicked, started := true }
      slot.frame := by
  refine ⟨?_, fun hc => ?_, fun hc => ?_⟩
  · simp only [processed_ran, queued_ran, h.queue]
    cases slot <;> simp [AppState.waiting, Slot.frame]
  · simp only [AppState.ran_connType] at hc
    exact (h.tcp hc).ran hc clicked
  · simp only [AppState.ran_connType] at hc
    exact (h.ws hc).ran hc clicked

theorem overwrite_take (hl : bytes.length = n) (h : got + n ≤ buffer.length) :
    (overwrite buffer got bytes).take (got + n) = buffer.take got ++ bytes := by
  have hlen : (buffer.take got ++ bytes).length = got + n := by
    rw [List.length_append, List.length_take, Nat.min_eq_left (by omega), hl]
  rw [overwrite, ← hlen, List.take_left]

theorem overwrite_length (hl : bytes.length = n) (h : got + n ≤ buffer.length) :
    (overwrite buffer got bytes).length = buffer.length := by
  simp only [overwrite, List.length_append, List.length_take, List.length_drop]
  omega

theorem TcpFramed.readSome {w : System} (h : w.TcpFramed (.reading sock got))
    (hn : got + n ≤ w.app.tcpReadBuf.length) (hl : n ≤ w.net.tcpIn.length) :
    System.TcpFramed { w with
      app := { w.app.setSlot (.reading sock (got + n)) with
        tcpReadBuf := overwrite w.app.tcpReadBuf got (w.net.tcpIn.take n) }
      net := { w.net with tcpIn := w.net.tcpIn.drop n } } (.reading sock (got + n)) := by
  have ht : (w.net.tcpIn.take n).length = n := List.length_take_of_le hl
  have hstream := h.stream fun k hk => by cases hk
  refine ⟨(overwrite_length ht hn).trans h.length, h.blocks, fun _ => ?_⟩
  simp only [Slot.part, overwrite_take ht hn, List.append_assoc, List.take_append_drop]
  exact hstream

theorem WsFramed.readSome {w : System} (h : w.WsFramed (.reading sock got))
    (hm : w.net.wsIn = msg :: rest) (hn : n ≤ msg.length) :
    System.WsFramed { w with
      app := { w.app.setSlot (.reading sock (got + n)) with
        wsReadBuffer := w.app.wsReadBuffer ++ msg.take n }
      net := { w.net with wsIn := msg.drop n :: rest } } (.reading sock (got + n)) := by
  obtain ⟨hg, unread, hs, hp⟩ := h.stream
  rw [hm] at hp
  refine ⟨h.flat, ?_, unread, hs, hp.read n⟩
  rw [List.length_append, List.length_take, Nat.min_eq_left hn, hg]

theorem Framed.readSome {w w' : System} (h : w.Framed slot) (hw : w.Ok slot)
    (hs : w.readSome i n = some w') : ∃ slot', w'.Ok slot' ∧ w'.Framed slot' := by
  obtain ⟨_, _, sock, got, rfl, hc⟩ := readSome_cases hw hs
  have hok := hw.setSlot (k := .reading sock (got + n)) rfl
  obtain ⟨ht, hn, hl, rfl⟩ | ⟨ht, msg, rest, hm, hn, rfl⟩ := hc
  · refine ⟨_, hok.congr rfl, h.queue, ?_, ?_⟩
    · exact fun _ => (h.tcp ht).readSome hn hl
    · exact fun hws => by cases ht.symm.trans hws
  · refine ⟨_, hok.congr rfl, h.queue, ?_, ?_⟩
    · exact fun htcp => by cases ht.symm.trans htcp
    · exact fun _ => (h.ws ht).readSome hm hn

theorem Framed.idle {w w' : System} (h : w.Framed (.reading sock got))
    (hh : w'.app.history = w.app.history) (hc : w'.app.connType = w.app.connType)
    (hb : w'.app.tcpReadBuf = w.app.tcpReadBuf) (ht : w'.net.tcpSent = w.net.tcpSent)
    (hs : w'.net.wsSent = w.net.wsSent) : w'.Framed (.idle (some sock)) := by
  refine ⟨by rw [hh]; exact h.queue, fun htcp => ?_, fun hws => ?_⟩
  · have hf := h.tcp (hc.symm.trans htcp)
    refine ⟨by rw [hb]; exact hf.length, ?_, fun hk => (hk _ rfl).elim⟩
    rw [hh, ht]
    exact hf.blocks
  · have hf := h.ws (hc.symm.trans hws)
    exact ⟨by rw [hh, hs]; exact hf.flat, trivial⟩

theorem queued_record (s : AppState) (b : List Byte) :
    queued (s.record (.queueMessage b)).history = queued s.history ++ [b] := by
  simp only [AppState.record, queued_append]
  rfl

theorem processed_record (s : AppState) (b : List Byte) :
    processed (s.record (.queueMessage b)).history = processed s.history := by
  simp only [AppState.record, processed_append]
  exact List.append_nil _

theorem Framed.readHandler {w w' : System} (h : w.Framed slot) (hw : w.Ok slot)
    (hs : w.readHandler i ec = some w') : ∃ slot', w'.Ok slot' ∧ w'.Framed slot' := by
  obtain ⟨_, sock, got, rfl, _, hc⟩ := readHandler_cases hw hs
  have hm := hw.setSlot (k := .message sock) rfl
  have hi := hw.setSlot (k := .idle (some sock)) rfl
  obtain ⟨_, rfl⟩ | ⟨_, ht, hg, rfl⟩ | ⟨_, ht, rest, hr, ⟨_, rfl⟩ | ⟨_, rfl⟩⟩ := hc
  · exact ⟨_, hi, h.idle rfl rfl rfl rfl rfl⟩
  · refine ⟨_, hm.congr rfl, ?_, fun _ => ?_, fun hws => ?_⟩
    · simp only [queued_record, processed_record]
      exact congrArg (· ++ _) (h.queue.trans (List.append_nil _))
    · have hf := h.tcp ht
      refine ⟨hf.length, ?_, fun _ => ?_⟩
      · simp only [processed_record]
        exact hf.blocks
      · have hst := hf.stream fun k hk => by cases hk
        rw [Slot.part, hg, List.take_length] at hst
        simp only [processed_record]
        exact hst
    · cases ht.symm.trans hws
  · exact ⟨_, hi.congr rfl, h.idle rfl rfl rfl rfl rfl⟩
  · refine ⟨_, hm.congr rfl, ?_, fun htcp => ?_, fun _ => ?_⟩
    · simp only [queued_record, processed_record]
      exact congrArg (· ++ _) (h.queue.trans (List.append_nil _))
    · cases ht.symm.trans htcp
    · have hf := h.ws ht
      obtain ⟨_, unread, hsent, hp⟩ := hf.stream
      rw [hr] at hp
      rw [hp.done] at hsent
      refine ⟨?_, ?_⟩
      · simp only [processed_record]
        exact hf.flat
      · simp only [processed_record]
        exact hsent

theorem Framed.accepted {w : System} (h : w.Framed .accepting) :
    System.Framed { w with app := w.app.setSlot (.accepted ec socket) }
      (.accepted ec socket) := by
  have hd : Slot.accepted ec socket = .idle none ∨ Slot.accepted ec socket = .cancelled ∨
      Slot.accepted ec socket = .connected socket := by
    unfold Slot.accepted
    split
    · exact .inl rfl
    · split
      · exact .inr (.inl rfl)
      · exact .inr (.inr rfl)
  refine ⟨?_, fun hc => ⟨(h.tcp hc).length, (h.tcp hc).blocks, fun _ => ?_⟩, fun hc =>
    ⟨(h.ws hc).flat, ?_⟩⟩
  · obtain hd | hd | hd := hd <;> rw [hd] <;> exact h.queue
  · have hst := (h.tcp hc).stream fun k hk => by cases hk
    obtain hd | hd | hd := hd <;> rw [hd] <;> exact hst
  · have hst := (h.ws hc).stream
    obtain hd | hd | hd := hd <;> rw [hd]
    · trivial
    · exact hst
    · exact hst

theorem Framed.sendBytes {w : System} (h : w.Framed slot) (hc : w.app.connType = .customTcp) :
    System.Framed { w with net := { w.net with
      tcpSent := w.net.tcpSent ++ bytes, tcpIn := w.net.tcpIn ++ bytes } } slot := by
  refine ⟨h.queue, fun _ => ?_, fun hw => by cases hc.symm.trans hw⟩
  have hf := h.tcp hc
  refine ⟨hf.length, hf.blocks.mono (List.prefix_append _ _), fun hk => ?_⟩
  simp only [hf.stream hk, List.append_assoc]

theorem Framed.sendMessage {w : System} (h : w.Framed slot)
    (hc : w.app.connType = .webSocket) :
    System.Framed { w with net := { w.net with
      wsSent := w.net.wsSent ++ [msg], wsIn := w.net.wsIn ++ [msg] } } slot := by
  refine ⟨h.queue, fun ht => (by cases hc.symm.trans ht), fun _ => ?_⟩
  have hf := h.ws hc
  refine ⟨hf.flat.trans (List.prefix_append _ _), ?_⟩
  have hst := hf.stream
  cases slot with
  | idle => trivial
  | reading sock got =>
    obtain ⟨hg, unread, hs, hp⟩ := hst
    exact ⟨hg, unread ++ [msg], by simp [hs], hp.send msg⟩
  | message sock => simp [hst]
  | accepting | cancelled | connected => simp [hst]

/-- Every step keeps the account of what the peer sent and the program saw. -/
theorem Framed.step (h : w.Framed slot) (hw : w.Ok slot)
    (hs : (system clock).step w e = some w') : ∃ slot', w'.Ok slot' ∧ w'.Framed slot' := by
  cases e with
  | frame clicked =>
    obtain ⟨_, n, ⟨_, rfl⟩ | ⟨_, rfl⟩⟩ := frame_cases hw hs
    · exact ⟨slot, hw.congr rfl,
        h.congr rfl⟩
    · have hp : System.Framed { w with app := w.app.withPosted n } slot :=
        h.congr rfl
      exact ⟨_, (hw.withPosted n).ran clicked, hp.ran clicked⟩
  | acceptHandler i ec socket handshake =>
    obtain ⟨_, rfl, rfl | ⟨_, rfl, rfl, rfl⟩⟩ := acceptHandler_cases hw hs
    · exact ⟨_, hw.setSlot (Slot.accepted_sock _ _), h.accepted⟩
    · exact ⟨_, hw.congr rfl,
        h.congr rfl⟩
  | readSome i n => exact h.readSome hw hs
  | readHandler i ec => exact h.readHandler hw hs
  | writeSome i n =>
    obtain ⟨_, _, _, _, _, rfl⟩ := writeSome_cases hs
    exact ⟨slot, hw.congr rfl,
      h.congr rfl⟩
  | writeHandler i ec =>
    obtain ⟨_, _, _, _, rfl⟩ := writeHandler_cases hs
    exact ⟨slot, hw.congr rfl,
      h.congr rfl⟩
  | peerRecv n =>
    obtain ⟨_, rfl⟩ := peerRecv_cases hs
    exact ⟨slot, hw.congr rfl,
      h.congr rfl⟩
  | peerSendBytes bytes =>
    obtain ⟨hc, rfl⟩ := peerSendBytes_cases hs
    exact ⟨slot, hw.congr rfl, h.sendBytes hc⟩
  | peerSendMessage msg =>
    obtain ⟨hc, rfl⟩ := peerSendMessage_cases hs
    exact ⟨slot, hw.congr rfl, h.sendMessage hc⟩
  | setStopFlag | closeWindow =>
    cases hs
    exact ⟨slot, hw.congr rfl,
      h.congr rfl⟩

theorem reach_framed (h : (system clock).Reach G (.new c) w) :
    ∃ slot, w.Ok slot ∧ w.Framed slot :=
  h.invariant (I := fun w => ∃ slot, w.Ok slot ∧ w.Framed slot) ⟨_, .new c, .new c⟩
    fun _ _ _ _ ⟨_, hw, hf⟩ _ hs => hf.step hw hs

/-- The content of the buffer when a read completes without an error. -/
def completes (w : System) : Event → List (List Byte)
  | .readHandler _ none => [w.app.content]
  | _ => []

theorem completes_of_ne (he : ∀ i, e ≠ .readHandler i none) : w.completes e = [] := by
  unfold completes
  split
  · exact (he _ rfl).elim
  · rfl

theorem Ok.readHandler_queued (h : w.Ok slot)
    (hs : (system clock).step w (.readHandler i ec) = some w') :
    (queued w'.app.history).Sublist (queued w.app.history ++ w.completes (.readHandler i ec)) ∧
      (queued w'.app.history = queued w.app.history ++ w.completes (.readHandler i ec) ↔
        ¬w.ReadsEmpty (.readHandler i ec)) := by
  obtain ⟨_, sock, got, rfl, hr, hc⟩ := readHandler_cases h hs
  obtain ⟨he, rfl⟩ | ⟨rfl, ht, _, rfl⟩ | ⟨rfl, hw, _, _, ⟨rfl, rfl⟩ | ⟨hne, rfl⟩⟩ := hc
  · have hnone : w.completes (.readHandler i ec) = [] :=
      completes_of_ne fun _ hr => by cases hr; exact he rfl
    rw [hnone, List.append_nil]
    exact ⟨List.Sublist.refl _, iff_of_true rfl fun ⟨_, _, hr, _⟩ => by cases hr; exact he rfl⟩
  · simp only [queued_record]
    refine ⟨List.Sublist.refl _, iff_of_true rfl ?_⟩
    rintro ⟨_, op, ⟨⟩, hi, hc, _⟩
    cases hr.symm.trans hi
    cases ht.symm.trans hc
  · refine ⟨List.sublist_append_left _ _, iff_of_false ?_ fun hn => hn ⟨i, _, rfl, hr, hw, rfl⟩⟩
    intro he
    have hlen := congrArg List.length he
    rw [List.length_append] at hlen
    exact absurd hlen (Nat.ne_of_lt (Nat.lt_succ_self _))
  · simp only [queued_record]
    refine ⟨List.Sublist.refl _, iff_of_true rfl ?_⟩
    rintro ⟨_, op, ⟨⟩, hi, _, hg⟩
    cases hr.symm.trans hi
    exact hne hg

theorem Ok.step_queued (h : w.Ok slot) (hs : (system clock).step w e = some w') :
    (queued w'.app.history).Sublist (queued w.app.history ++ w.completes e) ∧
      (queued w'.app.history = queued w.app.history ++ w.completes e ↔ ¬w.ReadsEmpty e) := by
  have hsame (hh : queued w'.app.history = queued w.app.history)
      (he : ∀ i, e ≠ .readHandler i none) :
      (queued w'.app.history).Sublist (queued w.app.history ++ w.completes e) ∧
        (queued w'.app.history = queued w.app.history ++ w.completes e ↔ ¬w.ReadsEmpty e) := by
    rw [hh, completes_of_ne he, List.append_nil]
    exact ⟨List.Sublist.refl _, iff_of_true rfl fun ⟨i, _, hr, _⟩ => he i hr⟩
  cases e with
  | frame clicked =>
    obtain ⟨_, n, ⟨_, rfl⟩ | ⟨_, rfl⟩⟩ := frame_cases h hs
    · exact hsame rfl fun _ he => by cases he
    · exact hsame (queued_ran clock _ _ _) fun _ he => by cases he
  | readHandler i ec => exact h.readHandler_queued hs
  | acceptHandler i ec socket handshake =>
    obtain ⟨_, _, rfl | ⟨_, _, _, rfl⟩⟩ := acceptHandler_cases h hs
    · exact hsame rfl fun _ he => by cases he
    · exact hsame rfl fun _ he => by cases he
  | readSome i n =>
    obtain ⟨_, _, _, _, _, ⟨_, _, _, rfl⟩ | ⟨_, _, _, _, _, rfl⟩⟩ := readSome_cases h hs
    · exact hsame rfl fun _ he => by cases he
    · exact hsame rfl fun _ he => by cases he
  | writeSome i n =>
    obtain ⟨_, _, _, _, _, rfl⟩ := writeSome_cases hs
    exact hsame rfl fun _ he => by cases he
  | writeHandler i ec =>
    obtain ⟨_, _, _, _, rfl⟩ := writeHandler_cases hs
    exact hsame rfl fun _ he => by cases he
  | peerRecv n =>
    obtain ⟨_, rfl⟩ := peerRecv_cases hs
    exact hsame rfl fun _ he => by cases he
  | peerSendBytes bytes =>
    obtain ⟨_, rfl⟩ := peerSendBytes_cases hs
    exact hsame rfl fun _ he => by cases he
  | peerSendMessage msg =>
    obtain ⟨_, rfl⟩ := peerSendMessage_cases hs
    exact hsame rfl fun _ he => by cases he
  | setStopFlag | closeWindow =>
    cases hs
    exact hsame rfl fun _ he => by cases he

/-- In a run every message whose read is complete has been queued exactly if none was empty. -/
theorem run_queued_iff (h : (system clock).run (.new c) es = some w) :
    (queued w.app.history).Sublist ((system clock).gathered completes (.new c) es) ∧
      (queued w.app.history = (system clock).gathered completes (.new c) es ↔
        (system clock).Along (fun w e => ¬w.ReadsEmpty e) (.new c) es) := by
  apply Machine.run_gathers_iff (I := fun w => ∃ slot, w.Ok slot) (s := System.new c)
    (g := fun w => queued w.app.history) _ _ ⟨_, .new c⟩ h
  · rintro w e w' ⟨slot, hok⟩ hs
    obtain ⟨slot', hok', _⟩ := hok.step hs
    exact ⟨slot', hok'⟩
  · rintro w e w' ⟨slot, hok⟩ hs
    exact hok.step_queued hs

theorem Framed.processed_le (h : w.Framed slot) :
    processed w.app.history <+: queued w.app.history := by
  rw [h.queue]
  exact List.prefix_append _ _

theorem Framed.frame_processes (h : w.Framed slot) (hw : w.Ok slot)
    (hn : w.stopping = false) (hs : w.frame clock clicked = some w') :
    processed w'.app.history = queued w.app.history := by
  obtain ⟨_, n, ⟨hstop, _⟩ | ⟨_, rfl⟩⟩ := frame_cases hw hs
  · cases hn.symm.trans hstop
  · have hc : (w.app.withPosted n).waiting slot = w.app.waiting slot := by cases slot <;> rfl
    simp only [processed_ran, hc]
    exact h.queue.symm

end System

section
variable {clock : Nat → Time} {w : System}

/-- The program sees the peer's stream in order and whole, and no part of it twice, and what it
sees does not depend on how the stream arrives. An executed frame has processed every message whose
read was complete before it exactly if none of these messages was empty. -/
theorem messages_once_iff (h : (system clock).run (.new c) es = some w) :
    (c = .customTcp → ∀ (k : Nat) b, (processed w.app.history)[k]? = some b →
        b.length = 8 ∧ b = (w.net.tcpSent.drop (8 * k)).take 8) ∧
      (c = .webSocket → processed w.app.history <+: w.net.wsSent) ∧
      (processed w.app.history).Sublist
        ((system clock).gathered System.completes (.new c) es) ∧
      (∀ clicked w', (system clock).step w (.frame clicked) = some w' → w.stopping = false →
        (processed w'.app.history = (system clock).gathered System.completes (.new c) es ↔
          (system clock).Along (fun w e => ¬w.ReadsEmpty e) (.new c) es)) ∧
      ∀ clock₂ w₂, (system clock₂).Reach Machine.Free (.new c) w₂ →
        w₂.net.tcpSent <+: w.net.tcpSent → w₂.net.wsSent <+: w.net.wsSent →
        ∀ (k : Nat) b b₂, (processed w.app.history)[k]? = some b →
          (processed w₂.app.history)[k]? = some b₂ → b₂ = b := by
  have hreach := Machine.reach_of_run h
  obtain ⟨slot, hw, hf⟩ := System.reach_framed hreach
  have hc := System.reach_connType hreach
  obtain ⟨hsub, hiff⟩ := System.run_queued_iff h
  refine ⟨fun ht k b hk => ?_, fun hws => (hf.ws (hc.trans hws)).flat,
    hf.processed_le.sublist.trans hsub, fun clicked w' hs hn => ?_, ?_⟩
  · have hb := (hf.tcp (hc.trans ht)).blocks
    exact ⟨hb.length b (List.mem_of_getElem? hk), hb.getElem? hk⟩
  · rw [hf.frame_processes hw hn hs]
    exact hiff
  · intro clock₂ w₂ h₂ htcp hws k b b₂ hk hk₂
    obtain ⟨slot₂, hw₂, hf₂⟩ := System.reach_framed h₂
    have hc₂ := System.reach_connType h₂
    cases c with
    | customTcp =>
      rw [(hf.tcp hc).blocks.getElem? hk, ((hf₂.tcp hc₂).blocks.mono htcp).getElem? hk₂]
    | webSocket =>
      have he := getElem?_of_prefix (hf.ws hc).flat hk
      have he₂ := getElem?_of_prefix ((hf₂.ws hc₂).flat.trans hws) hk₂
      exact Option.some.inj (he₂.symm.trans he)

/-- The frame after the completion of the read processes the reply. -/
def SplitReplyProcessed (c : ConnectionType) : Prop :=
  ∃ w w', (system Int.ofNat).run (.new c) (splitReplyRun c) = some w ∧
    (system Int.ofNat).step w (.frame false) = some w' ∧
    (system Int.ofNat).gathered System.completes (.new c) (splitReplyRun c) = [expectedMsg] ∧
    processed w'.app.history = [expectedMsg]

theorem messages_once_iff_splitReplyRun :
    SplitReplyProcessed .customTcp ∧ SplitReplyProcessed .webSocket := by
  have hprocessed (c : ConnectionType) : SplitReplyProcessed c := by
    have hs : ((system Int.ofNat).run (.new c) (splitReplyRun c)).any (fun w =>
        w.stopping = false ∧ ((system Int.ofNat).step w (.frame false)).isSome) = true := by
      cases c <;> decide
    obtain ⟨w, hw, hp⟩ := (Option.any_eq_true _ _).1 hs
    obtain ⟨hn, hp⟩ := of_decide_eq_true hp
    obtain ⟨w', hw'⟩ := Option.isSome_iff_exists.1 hp
    have hg : (system Int.ofNat).gathered System.completes (.new c) (splitReplyRun c) =
        [expectedMsg] := by
      cases c <;> decide
    have hne : (system Int.ofNat).Along (fun w e => ¬w.ReadsEmpty e) (.new c)
        (splitReplyRun c) := by
      cases c <;> decide
    obtain ⟨_, _, _, hframe, _⟩ := messages_once_iff hw
    exact ⟨w, w', hw, hw', hg, ((hframe false w' hw' hn).2 hne).trans hg⟩
  exact ⟨hprocessed .customTcp, hprocessed .webSocket⟩

/-- The read of a message without payload is complete, and the frames after it process
nothing. -/
theorem emptyMessageRun_unprocessed :
    ∃ w, (system Int.ofNat).run (.new .webSocket) emptyMessageRun = some w ∧
      (system Int.ofNat).gathered System.completes (.new .webSocket) emptyMessageRun = [[]] ∧
      emptyMessageRun.getLast? = some (.frame true) ∧ w.stopping = false ∧
      processed w.app.history = [] := by
  have hs : ((system Int.ofNat).run (.new .webSocket) emptyMessageRun).any (fun w =>
      w.stopping = false ∧ processed w.app.history = []) = true := by decide
  obtain ⟨w, hw, hp⟩ := (Option.any_eq_true _ _).1 hs
  obtain ⟨hn, hp⟩ := of_decide_eq_true hp
  exact ⟨w, hw, by decide, rfl, hn, hp⟩

end

end TeleopLedBenchmarks
