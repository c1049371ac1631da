import TeleopLedBenchmarks.Slot

namespace TeleopLedBenchmarks
set_option autoImplicit true

/-- The state with the operations and results of a slot. -/
def AppState.setSlot (s : AppState) (slot : Slot) : AppState :=
  { s with
    ioc := { s.ioc with accepts := slot.accepts s.connType, reads := slot.reads s.connType }
    ioResults := slot.ioResults s.connType }

def AppState.withPosted (s : AppState) (n : Nat) : AppState :=
  { s with ioc := { s.ioc with posted := n } }

theorem AppState.At.setSlot {s : AppState} (h : s.At slot) (hs : k.sock = slot.sock) :
    (s.setSlot k).At k := by
  refine ⟨rfl, rfl, rfl, ?_, ?_⟩
  · rw [hs]
    exact h.ws
  · rw [hs]
    exact h.tcpSock

theorem AppState.ClickOk.setSlot {s : AppState} (h : s.ClickOk slot)
    (hs : k.sock = slot.sock) : (s.setSlot k).ClickOk k := by
  rcases h with hu | ⟨hu, hf, hk⟩
  · exact .inl hu
  · exact .inr ⟨hu, hf, by rw [hs]; exact hk⟩

/-- The slot after the accept handler ran without aborting. -/
def Slot.accepted (ec : ErrorCode) (socket : TcpSocket) : Slot :=
  if ec.isSome then .idle none
  else if !socket.isOpen then .cancelled
  else .connected socket

theorem Slot.accepted_sock (ec : ErrorCode) (socket : TcpSocket) :
    (Slot.accepted ec socket).sock = none := by
  unfold Slot.accepted
  split
  · rfl
  · split <;> rfl

namespace System

structure Ok (w : System) (slot : Slot) : Prop where
  atSlot : w.app.At slot
  click : w.app.ClickOk slot
  sending : w.app.isSendingBlinkCommand = true → slot.sock.isSome

theorem Ok.new (c : ConnectionType) : (System.new c).Ok .accepting :=
  ⟨.new c, .inl rfl, fun h => by cases h⟩

/-- The fields `Ok` looks at. -/
def held (w : System) :=
  (w.app.io, w.app.uiEventsToProcess, w.app.isSendingBlinkCommand)

theorem Ok.congr {w w' : System} (h : w.Ok slot) (hv : w'.held = w.held) : w'.Ok slot := by
  simp only [held, Prod.mk.injEq] at hv
  obtain ⟨hio, hu, hf⟩ := hv
  constructor
  · exact h.atSlot.congr hio
  · rw [AppState.ClickOk, hu, hf]
    exact h.click
  · rw [hf]
    exact h.sending

theorem Ok.setSlot {w : System} (h : w.Ok slot) (hs : k.sock = slot.sock) :
    System.Ok { w with app := w.app.setSlot k } k :=
  ⟨h.atSlot.setSlot hs, h.click.setSlot hs, fun hf => by rw [hs]; exact h.sending hf⟩

/-- A frame started now stops the loop. -/
def stopping (w : System) : Bool := w.windowShouldClose || w.stopFlag

theorem takeFrame_eq {w : System} (h : w.takeFrame = some s) :
    w.halted = false ∧ ∃ n, s = w.app.withPosted n := by
  unfold takeFrame at h
  cases hh : w.halted with
  | true => simp [hh] at h
  | false =>
    refine ⟨rfl, ?_⟩
    rw [hh] at h
    cases hs : w.started with
    | false =>
      simp only [hs, Bool.false_eq_true, Bool.not_false, ↓reduceIte, Option.some.injEq] at h
      exact ⟨w.app.ioc.posted, h.symm⟩
    | true =>
      simp only [hs, Bool.false_eq_true, Bool.not_true, ↓reduceIte] at h
      split at h
      · cases h
      · exact ⟨_, (Option.some.inj h).symm⟩

theorem frame_runs {w : System} (clock : Nat → Time) (h : w.Ok slot)
    (ht : w.takeFrame = some s) (hn : w.stopping = false) (clicked : Bool) :
    w.frame clock clicked =
      some { w with app := s.ran clock slot clicked, started := true } := by
  obtain ⟨_, n, rfl⟩ := takeFrame_eq ht
  obtain ⟨hw, hf⟩ := Bool.or_eq_false_iff.1 hn
  have ha : (w.app.withPosted n).At slot := h.atSlot.congr rfl
  have hk : (w.app.withPosted n).ClickOk slot := h.click
  simp only [frame, ht, hw, hf, Option.map_some, runAppLoop_eq ha hk, withApp]

/-- Everything a frame can do: stop the loop, or run its three functions. -/
theorem frame_cases {w w' : System} (h : w.Ok slot) (hs : w.frame clock clicked = some w') :
    w.halted = false ∧ ∃ n,
      (w.stopping = true ∧ w' = { w with
        app := { w.app.withPosted n with ioc := (w.app.withPosted n).ioc.stop }
        started := true } ∨
      w.stopping = false ∧ w' = { w with
        app := (w.app.withPosted n).ran clock slot clicked, started := true }) := by
  unfold frame at hs
  cases ht : w.takeFrame with
  | none => rw [ht] at hs; cases hs
  | some s =>
    obtain ⟨hh, n, rfl⟩ := takeFrame_eq ht
    rw [ht] at hs
    cases hs
    refine ⟨hh, n, ?_⟩
    cases hw : w.windowShouldClose with
    | true =>
      left
      simp [stopping, hw, runAppLoop, withApp]
    | false =>
      cases hf : w.stopFlag with
      | true =>
        left
        simp [stopping, hw, hf, runAppLoop, withApp]
      | false =>
        right
        have hn : w.stopping = false := Bool.or_eq_false_iff.2 ⟨hw, hf⟩
        have hr := frame_runs clock h ht hn clicked
        simp only [frame, ht, Option.map_some, hw, hf] at hr
        exact ⟨hn, Option.some.inj hr⟩

theorem acceptHandler_cases {w w' : System} (h : w.Ok slot)
    (hs : w.acceptHandler i ec socket handshake = some w') :
    w.running = true ∧ slot = .accepting ∧
      (w' = { w with app := w.app.setSlot (.accepted ec socket) } ∨
        w.app.connType = .webSocket ∧ ec = none ∧ handshake = false ∧
          w' = { w with fault := some .abort }) := by
  unfold acceptHandler at hs
  have hc := h.atSlot.accepts
  have hr := h.atSlot.reads
  have hi := h.atSlot.ioResults
  cases slot with
  | accepting =>
    simp only [Slot.accepts] at hc
    simp only [Slot.reads] at hr
    simp only [Slot.ioResults] at hi
    cases hw : w.running with
    | false => simp [hw] at hs
    | true =>
      cases i with
      | succ i => simp [hw, hc] at hs
      | zero =>
        refine ⟨rfl, rfl, ?_⟩
        simp only [hw, hc, List.getElem?_cons_zero, List.eraseIdx_zero, List.tail_cons] at hs
        cases hct : w.app.connType with
        | customTcp =>
          left
          simp only [hct, Option.some.injEq] at hs
          rw [← hs]
          cases ec <;> cases hso : socket.isOpen <;>
            simp [tcpAcceptHandler, Slot.accepted, AppState.setSlot, Slot.accepts, Slot.reads,
              Slot.ioResults, connectedResult, hct, hr, hi, hso]
        | webSocket =>
          simp only [hct, Option.some.injEq] at hs
          rw [← hs]
          cases ec <;> cases hso : socket.isOpen <;> cases handshake <;>
            simp [wsAcceptHandler, Slot.accepted, AppState.setSlot, Slot.accepts, Slot.reads,
              Slot.ioResults, connectedResult, withApp, hct, hr, hi, hso]
  | _ => simp [hc, Slot.accepts] at hs

theorem read_pending {w : System} (h : w.Ok slot) (hi : w.app.ioc.reads[i]? = some op) :
    i = 0 ∧ ∃ sock, slot = .reading sock op.got ∧ op.conn = w.app.connType ∧
      w.app.ioc.reads = [op] := by
  have hr := h.atSlot.reads
  cases slot with
  | reading sock got =>
    rw [hr] at hi ⊢
    cases i with
    | succ i => simp [Slot.reads] at hi
    | zero =>
      simp only [Slot.reads, List.getElem?_cons_zero, Option.some.injEq] at hi
      subst hi
      exact ⟨rfl, sock, rfl, rfl, rfl⟩
  | _ =>
    rw [hr] at hi
    simp [Slot.reads] at hi

theorem setSlot_reads {w : System} (h : w.Ok (.reading sock got))
    (hr : k.reads w.app.connType = l) (ha : k.accepts w.app.connType = [])
    (hi : k.ioResults w.app.connType = []) :
    { w.app with ioc := { w.app.ioc with reads := l } } = w.app.setSlot k := by
  have ha' := h.atSlot.accepts
  have hi' := h.atSlot.ioResults
  simp only [Slot.accepts] at ha'
  simp only [Slot.ioResults] at hi'
  simp only [AppState.setSlot, hr, ha, hi, ← ha', ← hi']

theorem readSome_cases {w w' : System} (h : w.Ok slot) (hs : w.readSome i n = some w') :
    w.running = true ∧ 0 < n ∧ ∃ sock got, slot = .reading sock got ∧
      (w.app.connType = .customTcp ∧ got + n ≤ w.app.tcpReadBuf.length ∧
          n ≤ w.net.tcpIn.length ∧
          w' = { w with
            app := { w.app.setSlot (.reading sock (got + n)) with
              tcpReadBuf := overwrite w.app.tcpReadBuf got (w.net.tcpIn.take n) }
            net := { w.net with tcpIn := w.net.tcpIn.drop n } } ∨
        w.app.connType = .webSocket ∧ ∃ msg rest, w.net.wsIn = msg :: rest ∧ n ≤ msg.length ∧
          w' = { w with
            app := { w.app.setSlot (.reading sock (got + n)) with
              wsReadBuffer := w.app.wsReadBuffer ++ msg.take n }
            net := { w.net with wsIn := msg.drop n :: rest } }) := by
  unfold readSome at hs
  split at hs
  · next op hw hi =>
    obtain ⟨rfl, sock, rfl, hc, hr⟩ := read_pending h hi
    have hset := setSlot_reads h (k := .reading sock (op.got + n))
      (l := [{ op with got := op.got + n }]) (by rw [← hc]; rfl) rfl rfl
    simp only [hr, List.set_cons_zero] at hs
    split at hs
    · next ht =>
      split at hs
      · next hn =>
        refine ⟨hw, hn.1, sock, op.got, rfl, .inl ⟨hc.symm.trans ht, hn.2.1, hn.2.2, ?_⟩⟩
        rw [← hset, ← Option.some.inj hs]
      · cases hs
    · next hws =>
      split at hs
      · cases hs
      · next msg rest hm =>
        split at hs
        · next hn =>
          refine ⟨hw, hn.1, sock, op.got, rfl,
            .inr ⟨hc.symm.trans hws, msg, rest, hm, hn.2, ?_⟩⟩
          rw [← hset, ← Option.some.inj hs]
        · cases hs
  · cases hs

theorem readHandler_cases {w w' : System} (h : w.Ok slot)
    (hs : w.readHandler i ec = some w') :
    w.running = true ∧ ∃ sock got, slot = .reading sock got ∧
      w.app.ioc.reads[i]? = some ⟨w.app.connType, got⟩ ∧
      (ec ≠ none ∧ w' = { w with app := w.app.setSlot (.idle (some sock)) } ∨
        ec = none ∧ w.app.connType = .customTcp ∧ got = w.app.tcpReadBuf.length ∧
          w' = { w with
            app := (w.app.setSlot (.message sock)).record (.queueMessage w.app.content) } ∨
        ec = none ∧ w.app.connType = .webSocket ∧ ∃ rest, w.net.wsIn = [] :: rest ∧
          (got = 0 ∧ w' = { w with
            app := w.app.setSlot (.idle (some sock)), net := { w.net with wsIn := rest } } ∨
          got ≠ 0 ∧ w' = { w with
            app := (w.app.setSlot (.message sock)).record (.queueMessage w.app.content)
            net := { w.net with wsIn := rest } })) := by
  unfold readHandler at hs
  split at hs
  · next op hw hi =>
    obtain ⟨rfl, sock, rfl, hc, hr⟩ := read_pending h hi
    have hidle := setSlot_reads h (k := .idle (some sock)) (l := [])
      rfl rfl rfl
    have hres := h.atSlot.ioResults
    have hacc := h.atSlot.accepts
    simp only [Slot.ioResults] at hres
    simp only [Slot.accepts] at hacc
    simp only [hr, List.eraseIdx_zero, List.tail_cons] at hs
    refine ⟨hw, sock, op.got, rfl, by rw [hi, ← hc], ?_⟩
    split at hs
    · next e _ =>
      left
      refine ⟨by simp, ?_⟩
      rw [← hidle, ← Option.some.inj hs]
      simp [wsReadHandler]
    · next e _ =>
      left
      refine ⟨by simp, ?_⟩
      rw [← hidle, ← Option.some.inj hs]
      simp [tcpReadHandler]
    · next hws =>
      right; right
      split at hs
      · next rest hm =>
        refine ⟨rfl, hc.symm.trans hws, rest, hm, ?_⟩
        by_cases hg : op.got = 0
        · left
          refine ⟨hg, ?_⟩
          rw [← hidle, ← Option.some.inj hs]
          simp [wsReadHandler, hg]
        · right
          refine ⟨hg, ?_⟩
          rw [← Option.some.inj hs]
          simp [wsReadHandler, hg, AppState.setSlot, Slot.accepts, Slot.reads, Slot.ioResults,
            messageResult, AppState.record, AppState.content, ← hc, hws, hres, hacc]
      · cases hs
    · next ht =>
      right; left
      split at hs
      · next hg =>
        refine ⟨rfl, hc.symm.trans ht, hg, ?_⟩
        rw [← Option.some.inj hs]
        simp [tcpReadHandler, AppState.setSlot, Slot.accepts, Slot.reads, Slot.ioResults,
          messageResult, AppState.record, AppState.content, ← hc, ht, hres, hacc]
      · cases hs
  · cases hs

theorem writeSome_cases {w w' : System} (hs : w.writeSome i n = some w') :
    w.running = true ∧ ∃ op, w.app.ioc.writes[i]? = some op ∧ 0 < n ∧ n ≤ op.left.length ∧
      w' = { w with
        app := { w.app with ioc := { w.app.ioc with
          writes := w.app.ioc.writes.set i { op with left := op.left.drop n } } }
        net := { w.net with
          toPeer := w.net.toPeer ++ op.left.take n
          written := if op.left.drop n = [] then w.net.written + 1 else w.net.written } } := by
  unfold writeSome at hs
  split at hs
  · next op hw hi =>
    split at hs
    · next hn => exact ⟨hw, op, hi, hn.1, hn.2, (Option.some.inj hs).symm⟩
    · cases hs
  · cases hs

theorem writeHandler_cases {w w' : System} (hs : w.writeHandler i ec = some w') :
    w.running = true ∧ ∃ op, w.app.ioc.writes[i]? = some op ∧ (ec ≠ none ∨ op.left = []) ∧
      w' = { w with app := { w.app with
        ioc := { w.app.ioc with writes := w.app.ioc.writes.eraseIdx i } } } := by
  unfold writeHandler at hs
  split at hs
  · next op hw hi =>
    split at hs
    · next hn =>
      rw [Option.isSome_iff_ne_none] at hn
      exact ⟨hw, op, hi, hn, (Option.some.inj hs).symm⟩
    · cases hs
  · cases hs

theorem peerRecv_cases {w w' : System} (hs : w.peerRecv n = some w') :
    (0 < n ∧ n ≤ w.net.toPeer.length) ∧ w' = { w with net := { w.net with
      toPeer := w.net.toPeer.drop n
      peerReceived := w.net.peerReceived ++ w.net.toPeer.take n } } := by
  obtain ⟨hn, he⟩ := Option.ite_none_right_eq_some.1 hs
  exact ⟨hn, (Option.some.inj he).symm⟩

theorem peerSendBytes_cases {w w' : System} (hs : w.peerSendBytes bytes = some w') :
    w.app.connType = .customTcp ∧ w' = { w with net := { w.net with
      tcpSent := w.net.tcpSent ++ bytes, tcpIn := w.net.tcpIn ++ bytes } } := by
  obtain ⟨hc, he⟩ := Option.ite_none_right_eq_some.1 hs
  exact ⟨hc, (Option.some.inj he).symm⟩

theorem peerSendMessage_cases {w w' : System} (hs : w.peerSendMessage msg = some w') :
    w.app.connType = .webSocket ∧ w' = { w with net := { w.net with
      wsSent := w.net.wsSent ++ [msg], wsIn := w.net.wsIn ++ [msg] } } := by
  obtain ⟨hc, he⟩ := Option.ite_none_right_eq_some.1 hs
  exact ⟨hc, (Option.some.inj he).symm⟩

end System

end TeleopLedBenchmarks
