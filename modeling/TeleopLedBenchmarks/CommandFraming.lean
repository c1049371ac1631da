import TeleopLedBenchmarks.TcpApp
import TeleopLedBenchmarks.Accounting

namespace TeleopLedBenchmarks
set_option autoImplicit true

theorem TcpApp.receive_eq {a : TcpApp} (h : 0 ≤ a.client.sock) (bytes : List Byte) :
    a.receive (some bytes) = { a with
      buffer := overwrite a.buffer 0 bytes
      log := a.log ++ [(overwrite a.buffer 0 bytes).takeWhile (· ≠ 0)]
      point := .sending } := by
  simp [receive, TcpClient.receiveData, Int.not_lt.2 h]

theorem TcpApp.send_eq {a : TcpApp} (h : 0 ≤ a.client.sock) (n : Nat) :
    a.send (some n) = { a with replies := a.replies + 1, point := .receiving } := by
  simp [send, TcpClient.sendData, Int.not_lt.2 h]

namespace TcpBench
variable {clock : Nat → Time} {b b' : TcpBench}

/-- The calls of `recv` that have returned. -/
def recvs (b : TcpBench) : Nat := b.esp.replies + if b.esp.point = .sending then 1 else 0

/-- The `recv` takes one whole command. -/
def WholeRecv (_ : TcpBench) : TcpEvent → Prop
  | .recv n => n = blinkCommand.length
  | _ => True

/-- The ESP32 waits in `recv` and nothing is on its way to it. -/
def Drained (b : TcpBench) : Prop :=
  b.esp.point = .receiving ∧ b.desktop.net.toPeer = []

/-- The ESP32 side of a run without failures. -/
structure Connected (b : TcpBench) : Prop where
  sock : 0 ≤ b.esp.client.sock
  length : b.esp.buffer.length = blinkCommand.length
  reach : ∃ slot, b.desktop.Ok slot
  connType : b.desktop.app.connType = .customTcp

theorem step_cases (h : b.Connected) (hs : (tcpBench clock).step b ev = some b') :
    (∃ e w, ev = .desktop e ∧ e.fromPeer = false ∧
      (system clock).step b.desktop e = some w ∧ b' = { b with desktop := w }) ∨
    (∃ n w, ev = .recv n ∧ b.esp.point = .receiving ∧ n ≤ blinkCommand.length ∧
      (system clock).step b.desktop (.peerRecv n) = some w ∧
      b'.desktop = w ∧ b'.esp.client = b.esp.client ∧
      b'.esp.buffer.length = b.esp.buffer.length ∧ b'.esp.point = .sending ∧
      b'.esp.replies = b.esp.replies) ∨
    (∃ w, ev = .send ∧ b.esp.point = .sending ∧
      (system clock).step b.desktop (.peerSendBytes receivedMsg) = some w ∧
      b' = ⟨w, { b.esp with replies := b.esp.replies + 1, point := .receiving }⟩) := by
  cases ev with
  | desktop e =>
    left
    obtain ⟨hp, he⟩ := Option.ite_none_left_eq_some.1 hs
    obtain ⟨w, hw, rfl⟩ := Option.map_eq_some_iff.1 he
    exact ⟨e, w, rfl, Bool.eq_false_of_not_eq_true hp, hw, rfl⟩
  | recv n =>
    right; left
    obtain ⟨⟨hp, hn⟩, he⟩ := Option.ite_none_right_eq_some.1 hs
    obtain ⟨w, hw, rfl⟩ := Option.map_eq_some_iff.1 he
    rw [h.length] at hn
    refine ⟨n, w, rfl, hp, hn, hw, rfl, ?_⟩
    simp only [TcpApp.receive_eq h.sock, overwrite, List.take_zero, List.nil_append,
      Nat.zero_add, List.length_append, List.length_take, List.length_drop, and_true, true_and]
    rw [h.length]
    omega
  | send =>
    right; right
    obtain ⟨hp, he⟩ := Option.ite_none_right_eq_some.1 hs
    obtain ⟨w, hw, rfl⟩ := Option.map_eq_some_iff.1 he
    exact ⟨w, rfl, hp, hw, by rw [TcpApp.send_eq h.sock]⟩

theorem Connected.new (fd : Nat) : (TcpBench.new fd).Connected :=
  ⟨Int.natCast_nonneg fd, by rfl, ⟨_, .new _⟩, rfl⟩

theorem Connected.step (h : b.Connected) (hs : (tcpBench clock).step b ev = some b') :
    b'.Connected := by
  obtain ⟨slot, hok⟩ := h.reach
  obtain ⟨e, w, _, _, hw, rfl⟩ | ⟨n, w, _, _, _, hw, rfl, hc, hl, _⟩ | ⟨w, _, _, hw, rfl⟩ :=
    step_cases h hs
  · obtain ⟨slot', hok', _⟩ := hok.step hw
    exact ⟨h.sock, h.length, ⟨slot', hok'⟩, (hok.step_connType hw).trans h.connType⟩
  · obtain ⟨slot', hok', _⟩ := hok.step hw
    exact ⟨hc ▸ h.sock, hl.trans h.length, ⟨slot', hok'⟩,
      (hok.step_connType hw).trans h.connType⟩
  · obtain ⟨slot', hok', _⟩ := hok.step hw
    exact ⟨h.sock, h.length, ⟨slot', hok'⟩, (hok.step_connType hw).trans h.connType⟩

/-- The bytes by which the calls of `recv` fell short of whole commands. -/
def shortfall (b : TcpBench) : Int :=
  ((blinkCommand.length * b.recvs : Nat) : Int) - b.desktop.net.peerReceived.length

theorem shortfall_step (h : b.Connected) (hs : (tcpBench clock).step b ev = some b') :
    b.shortfall ≤ b'.shortfall ∧ (b'.shortfall = b.shortfall ↔ b.WholeRecv ev) := by
  obtain ⟨slot, hok⟩ := h.reach
  obtain ⟨e, w, rfl, hp, hw, rfl⟩ | ⟨n, w, rfl, hpt, hn, hw, rfl, _, _, hpt', hrep⟩ |
    ⟨w, rfl, hpt, hw, rfl⟩ := step_cases h hs
  · have hr := congrArg Prod.fst ((hok.step_untouched hw).byPeer hp)
    simp only [Network.byPeer] at hr
    have he : TcpBench.shortfall { b with desktop := w } = b.shortfall := by
      simp only [shortfall, recvs, hr]
    rw [he]
    exact ⟨le_rfl, iff_of_true rfl trivial⟩
  · obtain ⟨⟨_, hle⟩, he⟩ := System.peerRecv_cases hw
    have hlen : b'.desktop.net.peerReceived.length =
        b.desktop.net.peerReceived.length + n := by
      rw [he, List.length_append, List.length_take_of_le hle]
    have hafter : b'.recvs = b.recvs + 1 := by simp [recvs, hpt, hpt', hrep]
    simp only [shortfall, hafter, hlen, Nat.mul_succ, WholeRecv]
    omega
  · have hr : w.net.peerReceived = b.desktop.net.peerReceived := by
      rw [(System.peerSendBytes_cases hw).2]
    have he : TcpBench.shortfall ⟨w, { b.esp with
        replies := b.esp.replies + 1, point := .receiving }⟩ = b.shortfall := by
      simp only [shortfall, recvs, hpt, hr, reduceCtorEq, ↓reduceIte, Nat.add_zero]
    rw [he]
    exact ⟨le_rfl, iff_of_true rfl trivial⟩

/-- Over a whole run the shortfall stays the same exactly if no `recv` was short. -/
theorem shortfall_run (h : b.Connected) (hr : (tcpBench clock).run b es = some b') :
    b.shortfall ≤ b'.shortfall ∧
      (b'.shortfall = b.shortfall ↔ (tcpBench clock).Along WholeRecv b es) := by
  apply Machine.run_keeps_iff _ _ h hr
  · intro b ev b' h hs
    exact h.step hs
  · intro b ev b' h hs
    exact shortfall_step h hs

/-- The ESP32 has received whole commands only, and has replied to those it is done with. -/
structure InStep (b : TcpBench) : Prop where
  received : b.desktop.net.peerReceived.length = blinkCommand.length * b.recvs
  sent : b.desktop.net.tcpSent.length = expectedMsg.length * b.esp.replies
  written : b.recvs ≤ b.desktop.net.written

theorem InStep.new (fd : Nat) : (TcpBench.new fd).InStep := ⟨rfl, rfl, Nat.le_refl 0⟩

theorem written_le {w w' : System} (h : w.Ok slot) (hs : (system clock).step w e = some w') :
    w.net.written ≤ w'.net.written := by
  obtain he | hp := h.step_pipe hs
  · exact (congrArg Pipe.written he).ge
  · exact hp.written_le

theorem InStep.written_of_received {w : System}
    (hw : (system clock).Reach System.Honest (.new .customTcp) w)
    (hr : w.net.peerReceived.length = blinkCommand.length * (n + 1))
    (ht : w.net.tcpSent.length = expectedMsg.length * n) : n + 1 ≤ w.net.written := by
  have hp := System.reach_conserved hw
  have hcount := (System.reach_accounted hw).count
  obtain ⟨slot, _, hf⟩ := System.reach_framed hw
  have hblocks := (hf.tcp (System.reach_connType hw)).blocks.length_le
  rw [ht] at hblocks
  have hle : (processed w.app.history).length ≤ n :=
    Nat.le_of_mul_le_mul_left hblocks (by decide)
  have hflag := Bool.toNat_le w.app.isSendingBlinkCommand
  have hstarted : n + 1 ≤ w.pipe.started := by
    have hreceived := hp.received_le
    simp only [System.pipe, hr] at hreceived
    exact Nat.le_of_mul_le_mul_left hreceived (by decide)
  have heq : w.pipe.started = n + 1 := by
    simp only [System.pipe] at hstarted ⊢
    omega
  have hall := hp.all_written (by rw [heq]; exact hr)
  rw [heq] at hall
  exact hall

theorem InStep.step (hi : b.InStep) (h : b.Connected)
    (hd : (system clock).Reach System.Honest (.new .customTcp) b.desktop)
    (hg : b.WholeRecv ev) (hs : (tcpBench clock).step b ev = some b') :
    (system clock).Reach System.Honest (.new .customTcp) b'.desktop ∧ b'.InStep := by
  obtain ⟨slot, hok⟩ := h.reach
  have hreceived := hi.received
  have hsent := hi.sent
  have hwritten := hi.written
  obtain ⟨e, w, rfl, hp, hw, rfl⟩ | ⟨n, w, rfl, hpt, hn, hw, rfl, _, _, hpt', hrep⟩ |
    ⟨w, rfl, hpt, hw, rfl⟩ := step_cases h hs
  · have hhonest : b.desktop.Honest e := by
      cases e with
      | peerRecv | peerSendBytes | peerSendMessage => cases hp
      | _ => trivial
    have hn := (hok.step_untouched hw).byPeer hp
    simp only [Network.byPeer, Prod.mk.injEq] at hn
    obtain ⟨hr, ht, _⟩ := hn
    refine ⟨.step hd hhonest hw, ?_, ?_, ?_⟩
    · exact (congrArg List.length hr).trans hreceived
    · exact (congrArg List.length ht).trans hsent
    · exact hwritten.trans (written_le hok hw)
  · have hhonest : b.desktop.Honest (.peerRecv n) := trivial
    have hd' := Machine.Reach.step hd hhonest hw
    obtain ⟨⟨_, hle⟩, he⟩ := System.peerRecv_cases hw
    have hbefore : b.recvs = b.esp.replies := by simp [recvs, hpt]
    have hafter : b'.recvs = b.esp.replies + 1 := by simp [recvs, hpt', hrep]
    have hr : b'.desktop.net.peerReceived.length =
        blinkCommand.length * (b.esp.replies + 1) := by
      rw [he, List.length_append, List.length_take_of_le hle, hreceived, hbefore, hg,
        Nat.mul_succ]
    have ht : b'.desktop.net.tcpSent.length = expectedMsg.length * b.esp.replies := by
      rw [he]
      exact hsent
    refine ⟨hd', ?_, ?_, ?_⟩
    · rw [hafter]
      exact hr
    · rw [hrep]
      exact ht
    · rw [hafter]
      exact written_of_received hd' hr ht
  · have hbefore : b.recvs = b.esp.replies + 1 := by simp [recvs, hpt]
    rw [hbefore] at hreceived hwritten
    have hhonest : b.desktop.Honest (.peerSendBytes receivedMsg) := by
      have hcommands : b.desktop.commandsReceived = b.esp.replies + 1 := by
        rw [System.commandsReceived, hreceived]
        exact Nat.mul_div_cancel_left _ (by decide)
      simp only [System.Honest, hcommands, hsent, Nat.mul_succ]
      exact le_rfl
    have hd' := Machine.Reach.step hd hhonest hw
    obtain ⟨_, rfl⟩ := System.peerSendBytes_cases hw
    refine ⟨hd', ?_, ?_, ?_⟩
    · exact hreceived
    · simp only [List.length_append, hsent, Nat.mul_succ]
      rfl
    · exact hwritten

theorem reach_inStep (h : (tcpBench clock).Reach WholeRecv (.new fd) b) :
    b.Connected ∧ (system clock).Reach System.Honest (.new .customTcp) b.desktop ∧
      b.InStep := by
  apply h.invariant (I := fun b => b.Connected ∧
    (system clock).Reach System.Honest (.new .customTcp) b.desktop ∧ b.InStep)
  · exact ⟨.new fd, .refl, .new fd⟩
  · rintro s e s' _ ⟨hc, hd, hi⟩ hg hs
    exact ⟨hc.step hs, hi.step hc hd hg hs⟩

theorem reach_desktop (h : (tcpBench clock).Reach G (.new fd) b) :
    b.desktop.pipe.Conserved blinkCommand.length ∧ b.Connected := by
  apply h.invariant
    (I := fun b => b.desktop.pipe.Conserved blinkCommand.length ∧ b.Connected)
  · exact ⟨System.pipe_new _, .new fd⟩
  · rintro s e s' _ ⟨hp, hc⟩ _ hs
    refine ⟨?_, hc.step hs⟩
    obtain ⟨slot, hok⟩ := hc.reach
    have hkeep : ∀ e w, (system clock).step s.desktop e = some w →
        w.pipe.Conserved blinkCommand.length := by
      intro e w hw
      obtain he | hstep := hok.step_pipe hw
      · rw [he]
        exact hp
      · exact hstep.conserved System.blinkCommand_ne_nil hp
    obtain ⟨e, w, _, _, hw, rfl⟩ | ⟨n, w, _, _, _, hw, rfl, _⟩ | ⟨w, _, _, hw, rfl⟩ :=
      step_cases hc hs
    · exact hkeep _ _ hw
    · exact hkeep _ _ hw
    · exact hkeep _ _ hw

theorem Drained.received (h : b.Drained) (hp : b.desktop.pipe.Conserved blinkCommand.length) :
    blinkCommand.length * b.desktop.net.written ≤ b.desktop.net.peerReceived.length := by
  have hw := hp.written_le
  simp only [System.pipe, h.2, List.length_nil, Nat.add_zero] at hw
  exact hw

end TcpBench

section
variable {clock : Nat → Time} {b : TcpBench}

/-- If every `recv` takes one whole command, the ESP32 never replies more often than the
desktop has written commands. Whenever the stream is drained, the two numbers agree exactly
if every `recv` so far did. -/
theorem replies_le_written_of_whole
    (h : (tcpBench clock).run (.new fd) es = some b) :
    ((tcpBench clock).Along TcpBench.WholeRecv (.new fd) es →
      b.esp.replies ≤ b.desktop.net.written) ∧
    (b.Drained → (b.esp.replies = b.desktop.net.written ↔
      (tcpBench clock).Along TcpBench.WholeRecv (.new fd) es)) := by
  have hwhole : (tcpBench clock).Along TcpBench.WholeRecv (.new fd) es →
      b.esp.replies ≤ b.desktop.net.written := by
    intro hg
    obtain ⟨_, _, hi⟩ := TcpBench.reach_inStep (.of_run h hg)
    exact (Nat.le_add_right _ _).trans hi.written
  refine ⟨hwhole, ?_⟩
  intro hd
  obtain ⟨hp, _⟩ := TcpBench.reach_desktop (Machine.reach_of_run h)
  have hreceived := hd.received hp
  obtain ⟨hle, hiff⟩ := TcpBench.shortfall_run (.new fd) h
  have hrecvs : b.recvs = b.esp.replies := by simp [TcpBench.recvs, hd.1]
  have hzero : (TcpBench.new fd).shortfall = 0 := rfl
  rw [hzero] at hle hiff
  constructor
  · intro he
    rw [← hiff]
    simp only [TcpBench.shortfall, hrecvs, he] at hle ⊢
    omega
  · intro hg
    apply Nat.le_antisymm (hwhole hg)
    have hz := hiff.2 hg
    simp only [TcpBench.shortfall, hrecvs] at hz
    have hm : blinkCommand.length * b.desktop.net.written ≤
        blinkCommand.length * b.esp.replies := by omega
    exact Nat.le_of_mul_le_mul_left hm (by decide)

instance (b : TcpBench) : (ev : TcpEvent) → Decidable (b.WholeRecv ev)
  | .recv n => inferInstanceAs (Decidable (n = blinkCommand.length))
  | .desktop _ | .send => inferInstanceAs (Decidable True)

/-- The desktop has written one command to the connected ESP32. -/
def writtenRun : List TcpEvent :=
  connectRun.map .desktop ++
    [.desktop (.frame true), .desktop (.frame false), .desktop (.writeSome 0 16)]

theorem replies_le_written_of_whole_run :
    ∃ b, (tcpBench Int.ofNat).run (.new 3) (writtenRun ++ [.recv 16, .send]) = some b ∧
      b.esp.replies ≤ b.desktop.net.written ∧ b.esp.replies = b.desktop.net.written := by
  have hs : ((tcpBench Int.ofNat).run (.new 3) (writtenRun ++ [.recv 16, .send])).any
      (fun b => b.esp.point = .receiving ∧ b.desktop.net.toPeer = []) = true := by decide
  obtain ⟨b, hb, hp⟩ := (Option.any_eq_true _ _).1 hs
  have hd := of_decide_eq_true hp
  have hg : (tcpBench Int.ofNat).Along TcpBench.WholeRecv (.new 3)
      (writtenRun ++ [.recv 16, .send]) := by decide
  obtain ⟨hle, hiff⟩ := replies_le_written_of_whole hb
  exact ⟨b, hb, hle hg, (hiff hd).2 hg⟩

/-- One command that arrives in two segments is answered twice. -/
theorem splitCommand_answered_twice :
    ∃ b, (tcpBench Int.ofNat).run (.new 3)
        (writtenRun ++ [.recv 10, .send, .recv 6, .send]) = some b ∧
      b.Drained ∧ b.esp.replies = 2 ∧ b.desktop.net.written = 1 := by
  have hs : ((tcpBench Int.ofNat).run (.new 3)
      (writtenRun ++ [.recv 10, .send, .recv 6, .send])).any (fun b =>
        (b.esp.point = .receiving ∧ b.desktop.net.toPeer = []) ∧ b.esp.replies = 2 ∧
          b.desktop.net.written = 1) = true := by decide
  obtain ⟨b, hb, hp⟩ := (Option.any_eq_true _ _).1 hs
  obtain ⟨hd, hr, hw⟩ := of_decide_eq_true hp
  exact ⟨b, hb, hd, hr, hw⟩

end

end TeleopLedBenchmarks
