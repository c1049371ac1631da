import TeleopLedBenchmarks.RoundTrips
import TeleopLedBenchmarks.FrameChain

namespace TeleopLedBenchmarks
set_option autoImplicit true

theorem Slot.live_iff (c : ConnectionType) (slot : Slot) : slot.live = true ↔
    slot.accepts c ≠ [] ∨ slot.reads c ≠ [] ∨ ∃ res ∈ slot.ioResults c, res.type ≠ .cancelled := by
  cases slot <;> cases c <;>
    simp [Slot.live, Slot.accepts, Slot.reads, Slot.ioResults, connectedResult, messageResult]

namespace System
variable {clock : Nat → Time} {w w' : System}

/-- The peer answers what it has received, and no operation fails. -/
def Smooth (w : System) (e : Event) : Prop := w.Honest e ∧ e.Healthy

theorem reach_honest (h : (system clock).Reach Smooth (.new c) w) :
    (system clock).Reach Honest (.new c) w := h.mono fun _ _ hg => hg.1

theorem reach_processed_le (h : (system clock).Reach Honest (.new c) w) :
    (processed w.app.history).length ≤ w.commandsReceived := by
  obtain ⟨slot, _, hf⟩ := reach_framed h
  have hsolicited := reach_solicited h
  cases hc : w.app.connType with
  | customTcp =>
    have hblocks := (hf.tcp hc).blocks.length_le
    exact Nat.le_of_mul_le_mul_left (hblocks.trans hsolicited.1) (by decide)
  | webSocket => exact (hf.ws hc).flat.length_le.trans hsolicited.2

theorem pipe_ran_eq (s : AppState) (slot : Slot) (clicked : Bool) (hs : w.app = s) :
    let w' := { w with app := s.ran clock slot clicked, started := true }
    w'.pipe = w.pipe ∨ w'.pipe = { w.pipe with
      started := w.pipe.started + 1, writes := w.pipe.writes ++ [blinkCommand] } := by
  intro w'
  have hw := AppState.ran_writes clock s slot clicked
  have hh := sends_ran clock s slot clicked
  rcases s.sendQueued_cases clock with ⟨hu, he⟩ | ⟨hu, he⟩
  · left
    rw [he] at hw
    rw [sends_sentActions_nil hu, List.append_nil] at hh
    simp only [pipe, w', hw, hh, hs]
  · right
    obtain ⟨a, l, hl⟩ := List.exists_cons_of_ne_nil hu
    rw [he] at hw
    rw [AppState.sentActions, hl] at hh
    simp only [pipe, w', hw, hh, hs, List.length_append, AppState.sent,
      IoContext.asyncWrite, List.map_append]
    rfl

/-- A step that no write fails in keeps the bytes in order, if a command is started only when
all earlier ones are handed over. -/
theorem Ok.step_inOrder (h : w.Ok slot) (hi : w.pipe.InOrder blinkCommand) (he : e.Healthy)
    (hn : w'.pipe.started ≠ w.pipe.started → w.pipe.writes.flatten = [])
    (hs : (system clock).step w e = some w') : w'.pipe.InOrder blinkCommand := by
  cases e with
  | frame clicked =>
    obtain ⟨_, n, ⟨_, rfl⟩ | ⟨_, rfl⟩⟩ := frame_cases h hs
    · exact hi
    · rcases pipe_ran_eq (w := { w with app := w.app.withPosted n }) (w.app.withPosted n) slot
        clicked rfl with hp | hp
      · rw [hp]
        exact hi
      · have hstart : w.pipe.writes.flatten = [] := by
          apply hn
          rw [hp]
          exact Nat.succ_ne_self _
        rw [hp]
        exact hi.start hstart
  | writeHandler i ec =>
    obtain ⟨_, op, hop, hleft, rfl⟩ := writeHandler_cases hs
    have hnil : op.left = [] := hleft.resolve_left fun hne => hne he
    have hp : w.pipe.writes[i]? = some [] := by
      simp only [pipe, List.getElem?_map, hop, Option.map_some, hnil]
    have hfin := hi.finish hp
    simp only [pipe, List.eraseIdx_map] at hfin ⊢
    exact hfin
  | writeSome i n =>
    obtain ⟨_, op, hop, hpos, hle, rfl⟩ := writeSome_cases hs
    have hp : w.pipe.writes[i]? = some op.left := by
      simp only [pipe, List.getElem?_map, hop, Option.map_some]
    have hhand := hi.hand hp hpos hle
    simp only [pipe, List.map_set] at hhand ⊢
    exact hhand
  | peerRecv n =>
    obtain ⟨_, rfl⟩ := peerRecv_cases hs
    exact hi.recv n
  | acceptHandler i ec socket handshake =>
    obtain ⟨_, rfl, rfl | ⟨_, rfl, rfl, rfl⟩⟩ := acceptHandler_cases h hs
    · exact hi
    · exact hi
  | readSome i n =>
    obtain ⟨_, _, _, _, _, ⟨_, _, _, rfl⟩ | ⟨_, _, _, _, _, rfl⟩⟩ := readSome_cases h hs
    · exact hi
    · exact hi
  | readHandler i ec =>
    have hq := (h.frame_or_quiet hs).resolve_left (by rintro ⟨_, _, he, _⟩; cases he)
    have hsends := hq.sends
    have hp : w'.pipe = w.pipe := by
      obtain ⟨_, _, _, _, _, hc⟩ := readHandler_cases h hs
      rcases hc with ⟨_, rfl⟩ | ⟨_, _, _, rfl⟩ | ⟨_, _, _, _, ⟨_, rfl⟩ | ⟨_, rfl⟩⟩ <;>
        simp only [pipe, hsends] <;> rfl
    rw [hp]
    exact hi
  | peerSendBytes bytes =>
    obtain ⟨_, rfl⟩ := peerSendBytes_cases hs
    exact hi
  | peerSendMessage msg =>
    obtain ⟨_, rfl⟩ := peerSendMessage_cases hs
    exact hi
  | setStopFlag | closeWindow =>
    cases hs
    exact hi

theorem reach_inOrder (h : (system clock).Reach Smooth (.new c) w) :
    w.pipe.InOrder blinkCommand := by
  apply h.invariant (I := fun w => w.pipe.InOrder blinkCommand)
  · cases c <;> exact ⟨by decide, rfl⟩
  · intro s e s' hr hi hg hs
    obtain ⟨slot, hok⟩ := reach_ok hr
    apply hok.step_inOrder hi hg.2 _ hs
    -- A command is started only when all earlier ones have been answered.
    intro hne
    have hh := reach_honest hr
    have hacts := reach_step_acts hh hs
    have hcount := (reach_accounted hh).count
    have hcount' := (reach_accounted (.step hh hg.1 hs)).count
    have hflag := Bool.toNat_le s'.app.isSendingBlinkCommand
    have hproc := reach_processed_le hh
    have hreceived := Nat.div_mul_le_self s.net.peerReceived.length blinkCommand.length
    have hlength := hi.length
    have hsends : (sends s.app.history).length = (processed s.app.history).length := by
      simp only [pipe] at hne
      omega
    have hzero : Parts.total List.length s.pipe.writes = 0 := by
      have hle := Nat.mul_le_mul_left blinkCommand.length hproc
      simp only [pipe, commandsReceived, ← hsends] at hlength hle ⊢
      rw [Nat.mul_comm] at hreceived
      omega
    rw [Parts.total, ← List.length_flatten] at hzero
    exact List.length_eq_zero_iff.1 hzero

theorem reach_messages_ne_nil (h : (system clock).Reach Honest (.new c) w) :
    ∀ m ∈ w.net.wsSent, m ≠ [] := by
  apply h.invariant (I := fun w => ∀ m ∈ w.net.wsSent, m ≠ [])
  · intro m hm
    cases hm
  · intro s e s' hr hi hg hs
    obtain ⟨slot, hok⟩ := reach_ok hr
    cases hp : e.fromPeer with
    | false =>
      have hn := (hok.step_untouched hs).byPeer hp
      simp only [Network.byPeer, Prod.mk.injEq] at hn
      rw [hn.2.2]
      exact hi
    | true =>
      cases e with
      | peerRecv n =>
        rw [(peerRecv_cases hs).2]
        exact hi
      | peerSendBytes bytes =>
        rw [(peerSendBytes_cases hs).2]
        exact hi
      | peerSendMessage msg =>
        rw [(peerSendMessage_cases hs).2]
        intro m hm
        rcases List.mem_append.1 hm with hm | hm
        · exact hi m hm
        · rw [List.mem_singleton.1 hm]
          exact hg.1
      | _ => cases hp

theorem Framed.read_to_end (h : w.Framed (.reading sock got)) (hc : w.app.connType = .webSocket)
    (hm : w.net.wsIn = [] :: rest) : w.app.wsReadBuffer ∈ w.net.wsSent ∧
      w.app.wsReadBuffer.length = got := by
  obtain ⟨hg, unread, hs, hp⟩ := (h.ws hc).stream
  rw [hm] at hp
  refine ⟨?_, hg⟩
  rw [hs, hp.done]
  exact List.mem_append_right _ List.mem_cons_self

theorem not_readsEmpty (hr : (system clock).Reach Honest (.new c) w) (hok : w.Ok slot)
    (hf : w.Framed slot) (hs : (system clock).step w e = some w') : ¬w.ReadsEmpty e := by
  rintro ⟨i, op, rfl, hi, hconn, hgot⟩
  obtain ⟨_, sock, got, rfl, hread, hcase⟩ := readHandler_cases hok hs
  rw [hread] at hi
  cases hi
  rcases hcase with ⟨he, _⟩ | ⟨_, hc, _⟩ | ⟨_, hc, rest, hm, _⟩
  · exact he rfl
  · cases hconn.symm.trans hc
  · obtain ⟨hmem, hlen⟩ := hf.read_to_end hc hm
    exact reach_messages_ne_nil hr _ hmem (List.length_eq_zero_iff.1 (hlen.trans hgot))

theorem Ok.live_eq (h : w.Ok k) (h' : w.Ok k') : k.live = k'.live := by
  rw [Bool.eq_iff_iff, Slot.live_iff w.app.connType, Slot.live_iff w.app.connType,
    ← h.atSlot.accepts, ← h.atSlot.reads, ← h.atSlot.ioResults, h'.atSlot.accepts,
    h'.atSlot.reads, h'.atSlot.ioResults]

theorem reach_live (h : (system clock).Reach Smooth (.new c) w) :
    ∃ slot, w.Ok slot ∧ w.Framed slot ∧ slot.live = true := by
  apply h.invariant (I := fun w => ∃ slot, w.Ok slot ∧ w.Framed slot ∧ slot.live = true)
  · exact ⟨.accepting, .new c, .new c, rfl⟩
  · rintro s e s' hr ⟨slot, hok, hf, hl⟩ hg hs
    obtain ⟨slot', hok', hf'⟩ := hf.step hok hs
    have hn := not_readsEmpty (reach_honest hr) hok hf hs
    obtain ⟨slot'', hok'', hl''⟩ := hok.step_live hl (not_fails_of_healthy hg.2) hn hs
    exact ⟨slot', hok', hf', (hok'.live_eq hok'').trans hl''⟩

theorem reach_got_le (h : (system clock).Reach G (.new .customTcp) w) :
    ∀ op ∈ w.app.ioc.reads, op.got ≤ expectedMsg.length := by
  apply h.invariant (I := fun w => ∀ op ∈ w.app.ioc.reads, op.got ≤ expectedMsg.length)
  · intro op hop
    cases hop
  · intro s e s' hr hi _ hs
    obtain ⟨slot, hok, hf⟩ := reach_framed hr
    have hc := reach_connType hr
    obtain ⟨slot', hok', ht⟩ := hok.step hs
    have hreads := hok.atSlot.reads
    rw [hreads] at hi
    rw [hok'.atSlot.reads, hok.step_connType hs]
    cases ht with
    | frame =>
      cases slot with
      | connected | message =>
        intro op hop
        rw [List.mem_singleton.1 hop]
        exact Nat.zero_le _
      | reading sk got =>
        intro op hop
        rw [List.mem_singleton.1 hop]
        exact hi _ List.mem_cons_self
      | _ =>
        intro op hop
        cases hop
    | @readSome sk got i n =>
      obtain ⟨_, _, _, _, hslot, hcase⟩ := readSome_cases hok hs
      cases hslot
      rcases hcase with ⟨_, hle, _⟩ | ⟨hws, _⟩
      · intro op hop
        rw [List.mem_singleton.1 hop]
        exact hle.trans (hf.tcp hc).length.le
      · cases hc.symm.trans hws
    | @accept i ec socket handshake =>
      intro op hop
      unfold Slot.accepted at hop
      split at hop
      · cases hop
      · split at hop <;> cases hop
    | abort | readError | readEmpty | readDone =>
      intro op hop
      cases hop
    | _ => exact hi

/-- Nothing a frame looks at has changed, and the loop goes on as before. -/
structure Steady (w w' : System) : Prop where
  running : w'.running = w.running
  stopping : w'.stopping = w.stopping
  posted : w'.app.ioc.posted = w.app.ioc.posted
  sending : w'.app.isSendingBlinkCommand = w.app.isSendingBlinkCommand
  processed : processed w'.app.history = processed w.app.history

theorem Steady.trans (h : w.Steady w') (h' : w'.Steady w'') : w.Steady w'' :=
  ⟨h'.running.trans h.running, h'.stopping.trans h.stopping, h'.posted.trans h.posted,
    h'.sending.trans h.sending, h'.processed.trans h.processed⟩

/-- The reply after the processed ones is in the network or the program. -/
def ReplyArrived (w : System) : Prop :=
  match w.app.connType with
  | .customTcp =>
      expectedMsg.length * ((processed w.app.history).length + 1) ≤ w.net.tcpSent.length
  | .webSocket => (processed w.app.history).length < w.net.wsSent.length

/-- The completion handler of the read may run without an error. -/
def ReadComplete (w : System) (got : Nat) : Prop :=
  w.app.connType = .customTcp ∧ got = w.app.tcpReadBuf.length ∨
    w.app.connType = .webSocket ∧ got ≠ 0 ∧ ∃ rest, w.net.wsIn = [] :: rest

/-- The network has what the read still lacks. -/
def ReadsRest (w : System) (got n : Nat) : Prop :=
  w.app.connType = .customTcp ∧ got + n = w.app.tcpReadBuf.length ∧ n ≤ w.net.tcpIn.length ∨
    w.app.connType = .webSocket ∧ ∃ msg rest, w.net.wsIn = msg :: rest ∧ msg.length = n

theorem read_rest (clock : Nat → Time) (h : w.Ok (.reading sock got)) (hrun : w.running = true)
    (hn : 0 < n) (hd : w.ReadsRest got n) :
    ∃ w', (system clock).step w (.readSome 0 n) = some w' ∧ w'.Ok (.reading sock (got + n)) ∧
      w'.ReadComplete (got + n) ∧ w.Steady w' := by
  have hreads := h.atSlot.reads
  have hsome : (w.readSome 0 n).isSome := by
    rcases hd with ⟨hc, hb, ht⟩ | ⟨hc, msg, rest, hm, hl⟩
    · simp [readSome, hrun, hreads, Slot.reads, hc, hn, hb, ht]
    · simp [readSome, hrun, hreads, Slot.reads, hc, hn, hm, hl]
  obtain ⟨w', hs⟩ := Option.isSome_iff_exists.1 hsome
  have hset := h.setSlot (k := .reading sock (got + n)) rfl
  refine ⟨w', hs, ?_⟩
  obtain ⟨_, _, sk, g, hslot, hcase⟩ := readSome_cases h hs
  cases hslot
  rcases hcase with ⟨hc, hle, hl, rfl⟩ | ⟨hc, msg, rest, hm, _, rfl⟩
  · refine ⟨hset.congr rfl, .inl ⟨hc, ?_⟩, rfl, rfl, rfl, rfl, rfl⟩
    rcases hd with ⟨_, hb, _⟩ | ⟨hws, _⟩
    · exact hb.trans (overwrite_length (List.length_take_of_le hl) hle).symm
    · cases hc.symm.trans hws
  · refine ⟨hset.congr rfl, .inr ⟨hc, (Nat.add_pos_right got hn).ne', rest, ?_⟩, rfl, rfl, rfl,
      rfl, rfl⟩
    rcases hd with ⟨htcp, _⟩ | ⟨_, msg', rest', hm', hl⟩
    · cases hc.symm.trans htcp
    · cases hm.symm.trans hm'
      simp only [List.drop_eq_nil_of_le hl.le]

theorem read_done (clock : Nat → Time) (h : w.Ok (.reading sock got)) (hrun : w.running = true)
    (hd : w.ReadComplete got) :
    ∃ w', (system clock).step w (.readHandler 0 none) = some w' ∧ w'.Ok (.message sock) ∧
      w.Steady w' := by
  have hreads := h.atSlot.reads
  have hsome : (w.readHandler 0 none).isSome := by
    rcases hd with ⟨hc, hg⟩ | ⟨hc, hg, rest, hm⟩
    · simp [readHandler, hrun, hreads, Slot.reads, hc, hg]
    · simp [readHandler, hrun, hreads, Slot.reads, hc, hm]
  obtain ⟨w', hs⟩ := Option.isSome_iff_exists.1 hsome
  have hset := h.setSlot (k := .message sock) rfl
  refine ⟨w', hs, ?_⟩
  obtain ⟨_, sk, g, hslot, _, hcase⟩ := readHandler_cases h hs
  cases hslot
  rcases hcase with ⟨he, _⟩ | ⟨_, _, _, rfl⟩ | ⟨_, hc, _, _, ⟨hz, _⟩ | ⟨_, rfl⟩⟩
  · exact (he rfl).elim
  · exact ⟨hset.congr rfl, rfl, rfl, rfl, rfl, processed_record _ _⟩
  · rcases hd with ⟨ht, _⟩ | ⟨_, hg, _⟩
    · cases ht.symm.trans hc
    · exact (hg hz).elim
  · exact ⟨hset.congr rfl, rfl, rfl, rfl, rfl, processed_record _ _⟩

/-- A pending read either has all of an arrived reply, or can get what it lacks at once. -/
theorem Framed.complete_or_rest (hr : (system clock).Reach Honest (.new c) w)
    (h : w.Ok (.reading sock got)) (hf : w.Framed (.reading sock got)) (ha : w.ReplyArrived) :
    w.ReadComplete got ∨ ∃ n, 0 < n ∧ w.ReadsRest got n := by
  cases hc : w.app.connType with
  | customTcp =>
    have ht := hf.tcp hc
    have hstream := congrArg List.length (ht.stream fun k hk => by cases hk)
    have hblocks := ht.blocks.flatten_length
    have hlen := ht.length
    rw [reach_connType hr] at hc
    subst hc
    have hgot := reach_got_le hr ⟨.customTcp, got⟩ (by
      rw [h.atSlot.reads, reach_connType hr]
      exact List.mem_cons_self)
    simp only [ReplyArrived, reach_connType hr] at ha
    simp only [Slot.part, List.length_append, List.length_take, hblocks, hlen] at hstream
    rw [Nat.mul_succ] at ha
    by_cases he : got = expectedMsg.length
    · exact .inl (.inl ⟨reach_connType hr, he.trans hlen.symm⟩)
    · refine .inr ⟨expectedMsg.length - got, ?_, .inl ⟨reach_connType hr, ?_, ?_⟩⟩ <;>
        simp only at hgot <;> omega
  | webSocket =>
    obtain ⟨hg, unread, hs, hp⟩ := (hf.ws hc).stream
    have hne := reach_messages_ne_nil hr
    simp only [ReplyArrived, hc] at ha
    have hsent := congrArg List.length hs
    rw [List.length_append] at hsent
    rcases hp with ⟨hbuf, hin⟩ | ⟨m, ms, hin, hunread⟩
    · obtain ⟨m, ms, hm⟩ := List.exists_cons_of_length_pos (l := unread) (by omega)
      have hmem : m ∈ w.net.wsSent := by
        rw [hs, hm]
        exact List.mem_append_right _ List.mem_cons_self
      exact .inr ⟨m.length, List.length_pos_iff.2 (hne m hmem),
        .inr ⟨hc, m, ms, hin.trans hm, rfl⟩⟩
    · cases m with
      | nil =>
        have hmem : w.app.wsReadBuffer ∈ w.net.wsSent := by
          rw [hs, hunread, List.append_nil]
          exact List.mem_append_right _ List.mem_cons_self
        refine .inl (.inr ⟨hc, ?_, ms, hin⟩)
        rw [← hg]
        exact (List.length_pos_iff.2 (hne _ hmem)).ne'
      | cons b m =>
        exact .inr ⟨(b :: m).length, Nat.succ_pos _, .inr ⟨hc, b :: m, ms, hin, rfl⟩⟩

theorem running_iff : w.running = true ↔ w.started = true ∧ w.halted = false := by
  rw [running, Bool.and_eq_true, Bool.not_eq_true']

theorem Chained.posted (h : w.Chained) (hrun : w.running = true) : w.app.ioc.posted = 1 := by
  obtain ⟨hstarted, hhalted⟩ := running_iff.1 hrun
  rw [h.1, hstarted, (Bool.or_eq_false_iff.1 hhalted).1]
  rfl

theorem message_processed (clock : Nat → Time) (h : w.Ok (.message sock))
    (hrun : w.running = true) (hstop : w.stopping = false) (hposted : w.app.ioc.posted = 1) :
    ∃ w', (system clock).step w (.frame false) = some w' ∧
      w'.app.isSendingBlinkCommand = false ∧
      (processed w'.app.history).length = (processed w.app.history).length + 1 := by
  obtain ⟨hstarted, hhalted⟩ := running_iff.1 hrun
  have ht : w.takeFrame = some (w.app.withPosted 0) := by
    simp only [takeFrame, hhalted, hstarted, hposted]
    rfl
  refine ⟨_, frame_runs clock h ht hstop false, rfl, ?_⟩
  rw [processed_ran, List.length_append]
  rfl

end System

/-- An event of the program or the network that completes nothing with an error. -/
def Event.Forward : Event → Prop
  | .frame clicked => clicked = false
  | .readSome _ _ | .writeSome _ _ => True
  | .readHandler _ ec => ec = none
  | _ => False

/-- Steps forward that take a machine with the desktop program in it to an enabled button, with
one more reply processed. -/
def EndsRound (M : Machine β ε) (desktop : β → System) (forward : ε → Prop) (b : β)
    (es : List ε) : Prop :=
  (∀ e ∈ es, forward e) ∧ ∃ b', M.run b es = some b' ∧
    (desktop b').app.isSendingBlinkCommand = false ∧
    (processed (desktop b').app.history).length =
      (processed (desktop b).app.history).length + 1

theorem EndsRound.cons {M : Machine β ε} {desktop : β → System} {forward : ε → Prop}
    (he : forward e) (hs : M.step b e = some b') (hst : (desktop b).Steady (desktop b'))
    (h : EndsRound M desktop forward b' es) : EndsRound M desktop forward b (e :: es) := by
  obtain ⟨hes, b'', hrun, hf, hp⟩ := h
  refine ⟨List.forall_mem_cons.2 ⟨he, hes⟩, b'', ?_, hf, hst.processed ▸ hp⟩
  rw [Machine.run_cons, hs]
  exact hrun

theorem EndsRound.lift {M : Machine β ε} {N : Machine γ δ} {inner : δ → Prop} {forward : ε → Prop}
    {desktop : γ → System} {P : β → Prop} (part : β → γ) (f : δ → ε)
    (hf : ∀ b e c, P b → inner e → N.step (part b) e = some c →
      forward (f e) ∧ ∃ b', M.step b (f e) = some b' ∧ part b' = c ∧ P b')
    (hP : P b) (h : EndsRound N desktop inner (part b) es) :
    EndsRound M (fun b => desktop (part b)) forward b (es.map f) := by
  obtain ⟨hes, c', hrun, hdone⟩ := h
  have hlift : ∀ {es b}, P b → (∀ e ∈ es, inner e) → N.run (part b) es = some c' →
      (∀ e ∈ es.map f, forward e) ∧ ∃ b', M.run b (es.map f) = some b' ∧ part b' = c' := by
    intro es
    induction es with
    | nil =>
      intro b _ _ hr
      exact ⟨fun e he => absurd he List.not_mem_nil, b, rfl, Option.some.inj hr⟩
    | cons e es ih =>
      intro b hP hes hr
      obtain ⟨c₁, hs, hr⟩ := Option.bind_eq_some_iff.1 hr
      obtain ⟨he, b₁, hb, rfl, hP₁⟩ := hf b e c₁ hP (hes e List.mem_cons_self) hs
      obtain ⟨hes', b', hb', hc⟩ := ih hP₁ (fun e he => hes e (List.mem_cons_of_mem _ he)) hr
      refine ⟨List.forall_mem_cons.2 ⟨he, hes'⟩, b', ?_, hc⟩
      rw [List.map_cons, Machine.run_cons, hb]
      exact hb'
  obtain ⟨hes', b', hb', rfl⟩ := hlift hP hes hrun
  exact ⟨hes', b', hb', hdone⟩

namespace System
variable {clock : Nat → Time} {w w' : System}

theorem reply_accepted (hr : (system clock).Reach Smooth (.new c) w) (hrun : w.running = true)
    (hstop : w.stopping = false) (hsend : w.app.isSendingBlinkCommand = true)
    (ha : w.ReplyArrived) :
    ∃ es, es.length ≤ 3 ∧ EndsRound (system clock) id Event.Forward w es := by
  obtain ⟨slot, hok, hf, hl⟩ := reach_live hr
  have hposted := (reach_chained hr).posted hrun
  have hframe : ∀ {v sock}, v.Ok (.message sock) → w.Steady v →
      EndsRound (system clock) id Event.Forward v [.frame false] := by
    intro v sock hv hst
    obtain ⟨w', hs, hd⟩ := message_processed clock hv (hst.running.trans hrun)
      (hst.stopping.trans hstop) (hst.posted.trans hposted)
    refine ⟨by simp [Event.Forward], w', ?_, hd⟩
    rw [Machine.run_cons, hs]
    rfl
  have hdone : ∀ {v sock got}, v.Ok (.reading sock got) → w.Steady v → v.ReadComplete got →
      EndsRound (system clock) id Event.Forward v [.readHandler 0 none, .frame false] := by
    intro v sock got hv hst hc
    obtain ⟨v', hs, hv', hst'⟩ := read_done clock hv (hst.running.trans hrun) hc
    exact (hframe hv' (hst.trans hst')).cons rfl hs hst'
  have hself : w.Steady w := ⟨rfl, rfl, rfl, rfl, rfl⟩
  have hsock := hok.sending hsend
  cases slot with
  | message sock => exact ⟨_, by decide, hframe hok hself⟩
  | reading sock got =>
    rcases hf.complete_or_rest (reach_honest hr) hok ha with hc | ⟨n, hn, hrest⟩
    · exact ⟨_, by decide, hdone hok hself hc⟩
    · obtain ⟨v, hs, hv, hc, hst⟩ := read_rest clock hok hrun hn hrest
      have he : Event.Forward (.readSome 0 n) := trivial
      refine ⟨[.readSome 0 n, .readHandler 0 none, .frame false], Nat.le_refl 3, ?_⟩
      exact (hdone hv hst hc).cons he hs hst
  | idle sock => cases hl
  | accepting | connected sock | cancelled => cases hsock

theorem command_handed (clock : Nat → Time) (hrun : w.running = true)
    (hi : w.pipe.InOrder blinkCommand) (hne : w.pipe.writes.flatten ≠ []) :
    ∃ i n w', (system clock).step w (.writeSome i n) = some w' ∧
      w'.pipe.writes.flatten = [] ∧ w.Steady w' ∧ sends w'.app.history = sends w.app.history ∧
      w'.net.byPeer = w.net.byPeer := by
  obtain ⟨left, hmem, hleft⟩ := List.flatten_ne_nil_iff.1 hne
  obtain ⟨op, hop, rfl⟩ := List.mem_map.1 hmem
  obtain ⟨i, hget⟩ := List.mem_iff_getElem?.1 hop
  have hp : w.pipe.writes[i]? = some op.left := by
    simp only [pipe, List.getElem?_map, hget, Option.map_some]
  have hsome : (w.writeSome i op.left.length).isSome := by
    simp [writeSome, hrun, hget, List.length_pos_iff.2 hleft]
  obtain ⟨w', hs⟩ := Option.isSome_iff_exists.1 hsome
  refine ⟨i, op.left.length, w', hs, ?_⟩
  obtain ⟨_, op', hget', _, _, rfl⟩ := writeSome_cases hs
  cases hget.symm.trans hget'
  refine ⟨?_, ⟨rfl, rfl, rfl, rfl, rfl⟩, rfl, rfl⟩
  have hset := (Pipe.flatten_set hi.one hp hleft []).2
  simp only [pipe, List.map_set, List.drop_length] at hset ⊢
  exact hset

end System

section
variable {clock : Nat → Time} {w : System}

/-- While nothing fails, the bytes of the commands are never lost, mixed or repeated: what the
peer has received, what is in the network and what is not handed over yet make whole commands. -/
theorem commands_intact (h : (system clock).Reach System.Smooth (.new c) w) :
    w.net.peerReceived ++ w.net.toPeer ++ (w.app.ioc.writes.map WriteOp.left).flatten =
      (List.replicate (sends w.app.history).length blinkCommand).flatten ∧
    (w.app.ioc.writes.filter fun op => op.left ≠ []).length ≤ 1 := by
  have hi := System.reach_inOrder h
  refine ⟨hi.bytes, ?_⟩
  have hcount : ∀ ops : List WriteOp, (ops.filter fun op => op.left ≠ []).length =
      Parts.total Pipe.unfinished (ops.map WriteOp.left) := by
    intro ops
    induction ops with
    | nil => rfl
    | cons op ops ih =>
      simp only [Parts.total, List.map_cons, List.sum_cons] at ih ⊢
      rw [← ih, List.filter_cons]
      by_cases hnil : op.left = []
      · simp [hnil, Pipe.unfinished]
      · simp [hnil, Pipe.unfinished, Nat.add_comm]
  rw [hcount]
  exact hi.one

instance (w : System) (e : Event) : Decidable (w.Smooth e) :=
  inferInstanceAs (Decidable (w.Honest e ∧ e.Healthy))

theorem commands_intact_clickRun :
    ∃ w, (system Int.ofNat).run (.new .webSocket) (clickRun ++ [.writeSome 0 7, .peerRecv 4]) =
        some w ∧
      w.net.peerReceived ++ w.net.toPeer ++ (w.app.ioc.writes.map WriteOp.left).flatten =
        blinkCommand := by
  have hs : ((system Int.ofNat).run (.new .webSocket)
      (clickRun ++ [.writeSome 0 7, .peerRecv 4])).any
      (fun w => (sends w.app.history).length = 1) = true := by decide
  obtain ⟨w, hw, hp⟩ := (Option.any_eq_true _ _).1 hs
  have hg : (system Int.ofNat).Along System.Smooth (.new .webSocket)
      (clickRun ++ [.writeSome 0 7, .peerRecv 4]) := by decide
  have hi := (commands_intact (.of_run hw hg)).1
  rw [of_decide_eq_true hp] at hi
  exact ⟨w, hw, hi⟩

end

end TeleopLedBenchmarks
