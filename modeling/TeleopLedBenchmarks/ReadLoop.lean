import TeleopLedBenchmarks.SingleSlot

namespace TeleopLedBenchmarks
set_option autoImplicit true

/-- No operation completes with an error, and the accepted socket is open. -/
def Event.Healthy : Event → Prop
  | .acceptHandler _ ec socket handshake => ec = none ∧ socket.isOpen = true ∧ handshake = true
  | .readHandler _ ec => ec = none
  | .writeHandler _ ec => ec = none
  | _ => True

namespace System

/-- The event is the completion of a WebSocket read that stored no byte. -/
def ReadsEmpty (w : System) (e : Event) : Prop :=
  ∃ i op, e = .readHandler i none ∧ w.app.ioc.reads[i]? = some op ∧ op.conn = .webSocket ∧
    op.got = 0

/-- The event completes an accept or a read with a failure. -/
def Fails (w : System) : Event → Prop
  | .acceptHandler _ ec socket handshake =>
    ec ≠ none ∨ socket.isOpen = false ∨ w.app.connType = .webSocket ∧ handshake = false
  | .readHandler _ ec => ec ≠ none
  | _ => False

theorem not_fails_of_healthy {w : System} (h : e.Healthy) : ¬w.Fails e := by
  cases e with
  | acceptHandler i ec socket handshake =>
    obtain ⟨he, ho, hh⟩ := h
    simp [Fails, he, ho, hh]
  | readHandler i ec => exact fun hf => hf h
  | _ => exact fun hf => hf

def AcceptPending (w : System) : Prop := w.app.ioc.accepts = [w.app.connType]

/-- A read is pending on the stream the connection type selects. -/
def ReadPending (w : System) : Prop :=
  (∃ got, w.app.ioc.reads = [⟨w.app.connType, got⟩]) ∧
    match w.app.connType with
    | .webSocket => w.app.ws ≠ none
    | .customTcp => w.app.tcpSock ≠ none

def ResultWaits (w : System) : Prop := ∃ res, w.app.ioResults = [res]

/-- Exactly one of the three keeps the read loop going. -/
def LoopAlive (w : System) : Prop :=
  w.AcceptPending ∧ ¬w.ReadPending ∧ ¬w.ResultWaits ∨
    ¬w.AcceptPending ∧ w.ReadPending ∧ ¬w.ResultWaits ∨
    ¬w.AcceptPending ∧ ¬w.ReadPending ∧ w.ResultWaits

/-- The result that would clear the flag. -/
def MessageWaits (w : System) : Prop := w.app.ioResults = [messageResult w.app.connType]

end System

namespace Slot

def live : Slot → Bool
  | .idle _ => false
  | .cancelled => false
  | _ => true

theorem live_frame {slot : Slot} (h : slot.live = true) : slot.frame.live = true := by
  cases slot with
  | cancelled | idle => cases h
  | accepting | connected | reading | message => rfl

end Slot

namespace System
variable {clock : Nat → Time} {w w' : System}

theorem Ok.loopAlive (h : w.Ok slot) (hl : slot.live = true) : w.LoopAlive := by
  have ha := h.atSlot.accepts
  have hr := h.atSlot.reads
  have hi := h.atSlot.ioResults
  have hw := h.atSlot.ws
  have ht := h.atSlot.tcpSock
  cases slot with
  | cancelled | idle => cases hl
  | accepting =>
    refine .inl ⟨ha, fun ⟨⟨_, he⟩, _⟩ => ?_, fun ⟨_, he⟩ => ?_⟩
    · cases hr.symm.trans he
    · cases hi.symm.trans he
  | connected sock | message sock =>
    refine .inr (.inr ⟨fun he => ?_, fun ⟨⟨_, he⟩, _⟩ => ?_, _, hi⟩)
    · cases ha.symm.trans he
    · cases hr.symm.trans he
  | reading sock got =>
    refine .inr (.inl ⟨fun he => ?_, ⟨⟨got, hr⟩, ?_⟩, fun ⟨_, he⟩ => ?_⟩)
    · cases ha.symm.trans he
    · cases hc : w.app.connType with
      | webSocket => simp [hw, hc, Slot.sock]
      | customTcp => simp [ht, hc, Slot.sock]
    · cases hi.symm.trans he

theorem Ok.not_loopAlive (h : w.Ok (.idle sock)) : ¬w.LoopAlive := by
  have ha : ¬w.AcceptPending := fun he => by cases h.atSlot.accepts.symm.trans he
  have hr : ¬w.ReadPending := fun ⟨⟨_, he⟩, _⟩ => by cases h.atSlot.reads.symm.trans he
  have hi : ¬w.ResultWaits := fun ⟨_, he⟩ => by cases h.atSlot.ioResults.symm.trans he
  rintro (⟨he, _⟩ | ⟨_, he, _⟩ | ⟨_, _, he⟩)
  · exact ha he
  · exact hr he
  · exact hi he

theorem Ok.answerable (h : w.Ok slot) (ha : w.LoopAlive)
    (hf : w.app.isSendingBlinkCommand = true) : w.ReadPending ∨ w.MessageWaits := by
  have hs := h.sending hf
  cases slot with
  | accepting | cancelled | connected => cases hs
  | idle => exact (h.not_loopAlive ha).elim
  | message sock => exact .inr h.atSlot.ioResults
  | reading sock got =>
    obtain ⟨ha, _, _⟩ | ⟨_, hr, _⟩ | ⟨_, _, ⟨_, hi⟩⟩ := ha
    · cases h.atSlot.accepts.symm.trans ha
    · exact .inl hr
    · cases h.atSlot.ioResults.symm.trans hi

theorem LoopAlive.nonempty (h : w.LoopAlive) :
    w.app.ioc.accepts ≠ [] ∨ w.app.ioc.reads ≠ [] ∨ w.app.ioResults ≠ [] := by
  obtain ⟨ha, _, _⟩ | ⟨_, ⟨⟨_, hr⟩, _⟩, _⟩ | ⟨_, _, ⟨_, hi⟩⟩ := h
  · exact .inl (by rw [ha]; simp)
  · exact .inr (.inl (by rw [hr]; simp))
  · exact .inr (.inr (by rw [hi]; simp))

theorem Ok.step_live (h : w.Ok slot) (hl : slot.live = true) (he : ¬w.Fails e)
    (hn : ¬w.ReadsEmpty e) (hs : (system clock).step w e = some w') :
    ∃ slot', w'.Ok slot' ∧ slot'.live = true := by
  obtain ⟨slot', h', ht⟩ := h.step hs
  refine ⟨slot', h', ?_⟩
  cases ht with
  | frame => exact Slot.live_frame hl
  | readSome | readDone => rfl
  | readError => exact (he (by simp [Fails])).elim
  | @accept i ec socket handshake =>
    simp only [Fails, not_or, Decidable.not_not, Bool.not_eq_false] at he
    obtain ⟨rfl, ho, _⟩ := he
    simp [Slot.accepted, ho, Slot.live]
  | @readEmpty sk i hc =>
    obtain ⟨_, _, _, hslot, hr, _⟩ := readHandler_cases h hs
    cases hslot
    exact (hn ⟨i, _, rfl, hr, hc, rfl⟩).elim
  | _ => exact hl

/-- The early return of `wsReadHandler` leaves the slot to nobody. -/
theorem Ok.step_readsEmpty (h : w.Ok slot) (hn : w.ReadsEmpty e)
    (hs : (system clock).step w e = some w') : ∃ sock, w'.Ok (.idle (some sock)) := by
  obtain ⟨i, op, rfl, hi, hc, hg⟩ := hn
  obtain ⟨_, sock, got, rfl, hr, hcase⟩ := readHandler_cases h hs
  rw [hr] at hi
  cases hi
  have hidle := h.setSlot (k := .idle (some sock)) rfl
  refine ⟨sock, ?_⟩
  obtain ⟨he, _⟩ | ⟨_, ht, _⟩ | ⟨_, _, _, _, ⟨_, rfl⟩ | ⟨hne, _⟩⟩ := hcase
  · exact (he rfl).elim
  · cases hc.symm.trans ht
  · exact ⟨hidle.atSlot, hidle.click, hidle.sending⟩
  · exact (hne hg).elim

theorem Ok.run_idle (h : w.Ok (.idle sock)) (hr : (system clock).run w es = some w') :
    w'.Ok (.idle sock) := by
  refine Machine.run_invariant (I := fun w => w.Ok (.idle sock)) ?_ h hr
  intro s e s' hs he
  obtain ⟨slot', hs', ht⟩ := hs.step he
  rw [ht.idle] at hs'
  exact hs'

theorem Ok.loopAlive_iff (h : w.Ok slot) (hl : slot.live = true)
    (hr : (system clock).run w es = some w')
    (hh : (system clock).Along (fun _ e => e.Healthy) w es) :
    w'.LoopAlive ↔ (system clock).Along (fun w e => ¬w.ReadsEmpty e) w es := by
  induction es generalizing w slot with
  | nil =>
    cases hr
    exact ⟨fun _ => trivial, fun _ => h.loopAlive hl⟩
  | cons e es ih =>
    obtain ⟨he, hh⟩ := hh
    rw [Machine.run_cons] at hr
    cases hs : (system clock).step w e with
    | none => rw [hs] at hr; cases hr
    | some w₁ =>
      rw [hs] at hr hh
      by_cases hn : w.ReadsEmpty e
      · obtain ⟨sock, h₁⟩ := h.step_readsEmpty hn hs
        have hdead := (h₁.run_idle hr).not_loopAlive
        exact ⟨fun ha => (hdead ha).elim, fun ha => (ha.1 hn).elim⟩
      · obtain ⟨slot', h₁, hl'⟩ := h.step_live hl (not_fails_of_healthy he) hn hs
        rw [ih h₁ hl' hr hh]
        simp only [Machine.Along, hs, hn, not_false_eq_true, true_and]

end System

/-- The promise about a healthy connection: its loop is alive, and a command in flight can
still be answered. -/
def System.ReadLoopSound (w : System) : Prop :=
  w.LoopAlive ∧ (w.app.isSendingBlinkCommand = true → w.ReadPending ∨ w.MessageWaits)

/-- A healthy run keeps the promise exactly if none of its WebSocket reads completes without
a byte. -/
theorem read_loop_sound_iff (hr : (system clock).run (.new c) es = some w)
    (hh : (system clock).Along (fun _ e => e.Healthy) (.new c) es) :
    w.ReadLoopSound ↔ (system clock).Along (fun w e => ¬w.ReadsEmpty e) (.new c) es := by
  have hiff := (System.Ok.new c).loopAlive_iff rfl hr hh
  obtain ⟨slot, h⟩ := System.reach_ok (Machine.reach_of_run hr)
  exact ⟨fun hs => hiff.1 hs.1, fun ha => ⟨hiff.2 ha, h.answerable (hiff.2 ha)⟩⟩

instance : DecidablePred Event.Healthy
  | .acceptHandler _ ec socket handshake =>
    inferInstanceAs (Decidable (ec = none ∧ socket.isOpen = true ∧ handshake = true))
  | .readHandler _ ec => inferInstanceAs (Decidable (ec = none))
  | .writeHandler _ ec => inferInstanceAs (Decidable (ec = none))
  | .frame _ | .readSome _ _ | .writeSome _ _ | .peerRecv _ | .peerSendBytes _
  | .peerSendMessage _ | .setStopFlag | .closeWindow => inferInstanceAs (Decidable True)

/-- A reply that arrives in two segments: on TCP, and on a WebSocket. -/
def splitReplyRun : ConnectionType → List Event
  | .customTcp => connectRun ++ [.peerSendBytes expectedMsg, .readSome 0 3, .readSome 0 5,
      .readHandler 0 none]
  | .webSocket => connectRun ++ [.peerSendMessage expectedMsg, .readSome 0 3, .readSome 0 5,
      .readHandler 0 none]

instance (w : System) (e : Event) : Decidable (w.ReadsEmpty e) :=
  match e with
  | .readHandler i none =>
    decidable_of_iff (∃ op ∈ w.app.ioc.reads[i]?, op.conn = .webSocket ∧ op.got = 0) (by
      constructor
      · rintro ⟨op, hi, hc, hg⟩
        exact ⟨i, op, rfl, hi, hc, hg⟩
      · rintro ⟨_, op, ⟨⟩, hi, hc, hg⟩
        exact ⟨op, hi, hc, hg⟩)
  | .readHandler _ (some _) | .frame _ | .acceptHandler _ _ _ _ | .readSome _ _ | .writeSome _ _
  | .writeHandler _ _ | .peerRecv _ | .peerSendBytes _ | .peerSendMessage _ | .setStopFlag
  | .closeWindow => isFalse (by rintro ⟨_, _, he, _⟩; cases he)

theorem read_loop_sound_splitReplyRun :
    ∃ w, (system Int.ofNat).run (.new .webSocket) (splitReplyRun .webSocket) = some w ∧
      w.MessageWaits ∧ w.ReadLoopSound := by
  have hs : ((system Int.ofNat).run (.new .webSocket) (splitReplyRun .webSocket)).any (fun w =>
      w.app.ioResults = [messageResult w.app.connType]) = true := by decide
  obtain ⟨w, hw, hp⟩ := (Option.any_eq_true _ _).1 hs
  have hne : (system Int.ofNat).Along (fun w e => ¬w.ReadsEmpty e) (.new .webSocket)
      (splitReplyRun .webSocket) := by decide
  have hm : w.app.ioResults = [messageResult w.app.connType] := of_decide_eq_true hp
  exact ⟨w, hw, hm,
    (read_loop_sound_iff hw (.of_forall (by decide))).2 hne⟩

/-- A command is in flight when the peer sends a message without payload. -/
def emptyMessageRun : List Event :=
  [.frame false, .acceptHandler 0 none ⟨true⟩ true, .frame true, .frame false,
    .peerSendMessage [], .readHandler 0 none, .frame true]

/-- After an empty message a healthy, running program keeps the button disabled and neither
reads nor has anything to process. -/
theorem emptyMessageRun_stuck :
    ∃ w, (system Int.ofNat).run (.new .webSocket) emptyMessageRun = some w ∧
      (∀ e ∈ emptyMessageRun, e.Healthy) ∧ w.halted = false ∧
      w.app.isSendingBlinkCommand = true ∧ ¬w.ReadLoopSound := by
  have hs : ((system Int.ofNat).run (.new .webSocket) emptyMessageRun).any (fun w =>
      w.halted = false ∧ w.app.isSendingBlinkCommand = true ∧ w.app.ioc.accepts = [] ∧
        w.app.ioc.reads = [] ∧ w.app.ioResults = []) = true := by decide
  obtain ⟨w, hw, hp⟩ := (Option.any_eq_true _ _).1 hs
  obtain ⟨hh, hf, ha, hr, hi⟩ := of_decide_eq_true hp
  refine ⟨w, hw, by decide, hh, hf, fun hl => ?_⟩
  obtain he | he | he := hl.1.nonempty
  · exact he ha
  · exact he hr
  · exact he hi

end TeleopLedBenchmarks
