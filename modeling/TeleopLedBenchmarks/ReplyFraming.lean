import TeleopLedBenchmarks.CommandFraming

namespace TeleopLedBenchmarks
set_option autoImplicit true

namespace TcpBench
variable {clock : Nat → Time} {b b' : TcpBench}

/-- Every `send` that does not fail accepts the whole reply. -/
def WholeSend (_ : TcpBench) : LinkEvent → Prop
  | .send (some n) => n = receivedMsg.length
  | _ => True

/-- What the desktop counts are replies, and none that the ESP32 has not sent. -/
structure RepliesFramed (b : TcpBench) : Prop where
  content : ∀ m ∈ processed b.desktop.app.history, m = expectedMsg
  count : (processed b.desktop.app.history).length ≤ b.esp.replies

/-- The desktop waits for more of a reply, and nothing is on its way. -/
def RepliesDrained (b : TcpBench) : Prop :=
  b.desktop.net.tcpIn = [] ∧
    ∃ got, b.desktop.app.ioc.reads = [⟨.customTcp, got⟩] ∧ got < b.desktop.app.tcpReadBuf.length

/-- The client has a socket, and the desktop reads the stream it sends on. -/
structure Linked (b : TcpBench) : Prop where
  sock : 0 ≤ b.esp.client.sock
  framed : ∃ slot, b.desktop.Ok slot ∧ b.desktop.Framed slot
  connType : b.desktop.app.connType = .customTcp

theorem Linked.new (fd : Nat) : (TcpBench.new fd).Linked :=
  ⟨Int.natCast_nonneg fd, ⟨_, .new _, .new _⟩, rfl⟩

theorem link_cases (h : b.Linked) (hs : (tcpLink clock).step b ev = some b') :
    b'.Linked ∧
      ((∀ n, ev ≠ .send (some n)) ∧ b'.esp.replies = b.esp.replies ∧
          b'.desktop.net.tcpSent = b.desktop.net.tcpSent ∨
        ∃ n, ev = .send (some n) ∧ n ≤ receivedMsg.length ∧
          b'.esp.replies = b.esp.replies + 1 ∧
          b'.desktop.net.tcpSent = b.desktop.net.tcpSent ++ receivedMsg.take n) := by
  obtain ⟨hsock, ⟨slot, hok, hf⟩, hc⟩ := h
  have hreceive : ∀ r, (b.esp.receive r).client = b.esp.client ∧
      (b.esp.receive r).replies = b.esp.replies := by
    intro r
    unfold TcpApp.receive
    split
    split <;> exact ⟨rfl, rfl⟩
  have hlinked : ∀ e w (a : TcpApp), (system clock).step b.desktop e = some w →
      a.client = b.esp.client → TcpBench.Linked ⟨w, a⟩ := by
    intro e w a hw ha
    obtain ⟨slot', hok', hf'⟩ := hf.step hok hw
    exact ⟨by rw [ha]; exact hsock, ⟨slot', hok', hf'⟩, (hok.step_connType hw).trans hc⟩
  have hsame : ∀ a : TcpApp, a.client = b.esp.client →
      TcpBench.Linked { b with esp := a } := by
    intro a ha
    exact ⟨by rw [ha]; exact hsock, ⟨slot, hok, hf⟩, hc⟩
  cases ev with
  | desktop e =>
    obtain ⟨hp, he⟩ := Option.ite_none_left_eq_some.1 hs
    obtain ⟨w, hw, rfl⟩ := Option.map_eq_some_iff.1 he
    have hn := (hok.step_untouched hw).byPeer (Bool.eq_false_of_not_eq_true hp)
    simp only [Network.byPeer, Prod.mk.injEq] at hn
    exact ⟨hlinked e w b.esp hw rfl, .inl ⟨(by intro _ he; cases he), rfl, hn.2.1⟩⟩
  | recv r =>
    obtain ⟨hclient, hreplies⟩ : (∀ r, (b.esp.receive r).client = b.esp.client) ∧
        ∀ r, (b.esp.receive r).replies = b.esp.replies :=
      ⟨fun r => (hreceive r).1, fun r => (hreceive r).2⟩
    cases r with
    | none =>
      obtain ⟨_, he⟩ := Option.ite_none_right_eq_some.1 hs
      cases he
      exact ⟨hsame _ (hclient _), .inl ⟨(by intro _ he; cases he), hreplies _, rfl⟩⟩
    | some n =>
      cases n with
      | zero =>
        obtain ⟨_, he⟩ := Option.ite_none_right_eq_some.1 hs
        cases he
        exact ⟨hsame _ (hclient _), .inl ⟨(by intro _ he; cases he), hreplies _, rfl⟩⟩
      | succ n =>
        obtain ⟨_, he⟩ := Option.ite_none_right_eq_some.1 hs
        obtain ⟨w, hw, rfl⟩ := Option.map_eq_some_iff.1 he
        obtain ⟨_, hnet⟩ := System.peerRecv_cases hw
        refine ⟨hlinked (.peerRecv (n + 1)) w _ hw (hclient _), .inl ⟨?_, hreplies _, ?_⟩⟩
        · intro _ he
          cases he
        · rw [hnet]
  | send r =>
    cases r with
    | none =>
      obtain ⟨_, he⟩ := Option.ite_none_right_eq_some.1 hs
      cases he
      have hsend : (b.esp.send none).client = b.esp.client ∧
          (b.esp.send none).replies = b.esp.replies := by
        simp [TcpApp.send, TcpClient.sendData]
      exact ⟨hsame _ hsend.1, .inl ⟨(by intro _ he; cases he), hsend.2, rfl⟩⟩
    | some n =>
      obtain ⟨⟨_, hpos, hn⟩, he⟩ := Option.ite_none_right_eq_some.1 hs
      obtain ⟨w, hw, rfl⟩ := Option.map_eq_some_iff.1 he
      obtain ⟨_, hnet⟩ := System.peerSendBytes_cases hw
      have hsend := TcpApp.send_eq hsock n
      have hl := hlinked (.peerSendBytes (receivedMsg.take n)) w (b.esp.send (some n)) hw
        (by rw [hsend])
      refine ⟨hl, .inr ⟨n, rfl, hn, by rw [hsend], ?_⟩⟩
      rw [hnet]

/-- The bytes that the replies counted as sent fell short of. -/
def withheld (b : TcpBench) : Int :=
  ((receivedMsg.length * b.esp.replies : Nat) : Int) - b.desktop.net.tcpSent.length

theorem withheld_step (h : b.Linked) (hs : (tcpLink clock).step b ev = some b') :
    b.withheld ≤ b'.withheld ∧ (b'.withheld = b.withheld ↔ b.WholeSend ev) := by
  obtain ⟨_, ⟨hne, hr, ht⟩ | ⟨n, rfl, hn, hr, ht⟩⟩ := link_cases h hs
  · have hw : b'.withheld = b.withheld := by simp only [withheld, hr, ht]
    have hg : b.WholeSend ev := by
      cases ev with
      | desktop | recv => trivial
      | send r =>
        cases r with
        | none => trivial
        | some n => exact (hne n rfl).elim
    exact ⟨hw.ge, iff_of_true hw hg⟩
  · have hlen : b'.desktop.net.tcpSent.length = b.desktop.net.tcpSent.length + n := by
      rw [ht, List.length_append, List.length_take_of_le hn]
    simp only [withheld, hr, hlen, Nat.mul_succ, WholeSend]
    omega

theorem withheld_run (h : b.Linked) (hr : (tcpLink clock).run b es = some b') :
    b.withheld ≤ b'.withheld ∧
      (b'.withheld = b.withheld ↔ (tcpLink clock).Along WholeSend b es) := by
  apply Machine.run_keeps_iff _ _ h hr
  · intro b ev b' h hs
    exact (link_cases h hs).1
  · intro b ev b' h hs
    exact withheld_step h hs

theorem reach_linked (h : (tcpLink clock).Reach G (.new fd) b) : b.Linked := by
  apply h.invariant (.new fd)
  intro s e s' _ hl _ hs
  exact (link_cases hl hs).1

/-- While every `send` is whole, the stream is one reply after the other. -/
theorem reach_sent (h : (tcpLink clock).Reach WholeSend (.new fd) b) :
    b.desktop.net.tcpSent = (List.replicate b.esp.replies receivedMsg).flatten := by
  apply h.invariant (I := fun b =>
    b.desktop.net.tcpSent = (List.replicate b.esp.replies receivedMsg).flatten) rfl
  intro s e s' hr ht hg hs
  obtain ⟨_, ⟨_, hr, hsent⟩ | ⟨n, rfl, _, hr, hsent⟩⟩ := link_cases (reach_linked hr) hs
  · rw [hsent, hr]
    exact ht
  · cases hg
    rw [hsent, hr, List.take_length, List.replicate_succ', List.flatten_append,
      List.flatten_singleton, ht]

theorem Linked.blocks (h : b.Linked) :
    Blocks receivedMsg.length (processed b.desktop.app.history) b.desktop.net.tcpSent := by
  obtain ⟨slot, _, hf⟩ := h.framed
  exact (hf.tcp h.connType).blocks

theorem Linked.drained_length (h : b.Linked) (hd : b.RepliesDrained) :
    ∃ got, got < receivedMsg.length ∧ b.desktop.net.tcpSent.length =
      receivedMsg.length * (processed b.desktop.app.history).length + got := by
  obtain ⟨hin, got, hr, hgot⟩ := hd
  obtain ⟨slot, hok, hf⟩ := h.framed
  have htcp := hf.tcp h.connType
  have hreads := hok.atSlot.reads.symm.trans hr
  rw [h.connType] at hreads
  cases slot with
  | accepting | connected | cancelled | message | idle => cases hreads
  | reading sock got' =>
    cases hreads
    have hs := congrArg List.length (htcp.stream nofun)
    rw [hin, List.append_nil, List.length_append, h.blocks.flatten_length, Slot.part,
      List.length_take_of_le hgot.le] at hs
    rw [htcp.length] at hgot
    exact ⟨got, hgot, hs⟩

end TcpBench

section
variable {clock : Nat → Time} {b : TcpBench}

/-- If every `send` that succeeds accepts the whole reply, the desktop counts replies only, and
no more than were sent. Whenever the stream is drained, it has counted all of them, and nothing
else, exactly if every `send` so far did. -/
theorem replies_framed_iff_whole (h : (tcpLink clock).run (.new fd) es = some b) :
    ((tcpLink clock).Along TcpBench.WholeSend (.new fd) es → b.RepliesFramed) ∧
    (b.RepliesDrained →
      (b.RepliesFramed ∧ (processed b.desktop.app.history).length = b.esp.replies ↔
        (tcpLink clock).Along TcpBench.WholeSend (.new fd) es)) := by
  have hl := TcpBench.reach_linked (Machine.reach_of_run h)
  obtain ⟨hle, hiff⟩ := TcpBench.withheld_run (.new fd) h
  have hzero : (TcpBench.new fd).withheld = 0 := rfl
  rw [hzero] at hle hiff
  have hcount : (processed b.desktop.app.history).length ≤ b.esp.replies := by
    have hb := hl.blocks.length_le
    simp only [TcpBench.withheld] at hle
    have hm : receivedMsg.length * (processed b.desktop.app.history).length ≤
        receivedMsg.length * b.esp.replies := by omega
    exact Nat.le_of_mul_le_mul_left hm (by decide)
  have hframed : (tcpLink clock).Along TcpBench.WholeSend (.new fd) es → b.RepliesFramed := by
    intro hg
    have hb := hl.blocks
    rw [TcpBench.reach_sent (.of_run h hg)] at hb
    exact ⟨hb.eq_of_replicate, hcount⟩
  refine ⟨hframed, fun hd => ?_⟩
  obtain ⟨got, hgot, hlen⟩ := hl.drained_length hd
  constructor
  · rintro ⟨_, he⟩
    rw [← hiff]
    rw [he] at hlen
    simp only [TcpBench.withheld] at hle ⊢
    omega
  · intro hg
    have hz := hiff.2 hg
    refine ⟨hframed hg, ?_⟩
    simp only [TcpBench.withheld, hlen] at hz
    have hr : receivedMsg.length = 8 := by decide
    rw [hr] at hgot hz
    omega

instance (b : TcpBench) : (ev : LinkEvent) → Decidable (b.WholeSend ev)
  | .send (some n) => inferInstanceAs (Decidable (n = receivedMsg.length))
  | .send none | .desktop _ | .recv _ => inferInstanceAs (Decidable True)

/-- The desktop has written one command to the ESP32. -/
def commandRun : List LinkEvent :=
  connectRun.map .desktop ++
    [.desktop (.frame true), .desktop (.frame false), .desktop (.writeSome 0 16)]

/-- The reply is sent whole, and the desktop processes it. -/
def wholeReplyRun : List LinkEvent :=
  commandRun ++ [.recv (some 16), .send (some 8), .desktop (.readSome 0 8),
    .desktop (.readHandler 0 none), .desktop (.frame false)]

theorem replies_framed_iff_whole_wholeReplyRun :
    ∃ b, (tcpLink Int.ofNat).run (.new 3) wholeReplyRun = some b ∧ b.RepliesFramed ∧
      (processed b.desktop.app.history).length = b.esp.replies := by
  have hs : ((tcpLink Int.ofNat).run (.new 3) wholeReplyRun).any (fun b =>
      b.desktop.net.tcpIn = [] ∧ b.desktop.app.ioc.reads = [⟨.customTcp, 0⟩] ∧
        0 < b.desktop.app.tcpReadBuf.length) = true := by decide
  obtain ⟨b, hb, hp⟩ := (Option.any_eq_true _ _).1 hs
  obtain ⟨hin, hr, hpos⟩ := of_decide_eq_true hp
  have hg : (tcpLink Int.ofNat).Along TcpBench.WholeSend (.new 3) wholeReplyRun := by decide
  obtain ⟨hframed, hiff⟩ := replies_framed_iff_whole hb
  exact ⟨b, hb, hframed hg, ((hiff ⟨hin, 0, hr, hpos⟩).2 hg).2⟩

/-- Two replies of which the network accepts four bytes each: the desktop counts one message
that is no reply. -/
theorem shortSends_misframed :
    ∃ b, (tcpLink Int.ofNat).run (.new 3)
        (commandRun ++ [.recv (some 8), .send (some 4), .recv (some 8), .send (some 4),
          .desktop (.readSome 0 8), .desktop (.readHandler 0 none), .desktop (.frame false)]) =
        some b ∧
      b.RepliesDrained ∧ b.esp.replies = 2 ∧
      processed b.desktop.app.history = [chars "recerece"] ∧ ¬b.RepliesFramed := by
  have hs : ((tcpLink Int.ofNat).run (.new 3)
      (commandRun ++ [.recv (some 8), .send (some 4), .recv (some 8), .send (some 4),
        .desktop (.readSome 0 8), .desktop (.readHandler 0 none),
        .desktop (.frame false)])).any (fun b =>
          (b.desktop.net.tcpIn = [] ∧ b.desktop.app.ioc.reads = [⟨.customTcp, 0⟩] ∧
            0 < b.desktop.app.tcpReadBuf.length) ∧ b.esp.replies = 2 ∧
          processed b.desktop.app.history = [chars "recerece"]) = true := by decide
  obtain ⟨b, hb, hp⟩ := (Option.any_eq_true _ _).1 hs
  obtain ⟨⟨hin, hr, hpos⟩, hn, hm⟩ := of_decide_eq_true hp
  refine ⟨b, hb, ⟨hin, 0, hr, hpos⟩, hn, hm, fun hf => ?_⟩
  have he := hf.content (chars "recerece") (by rw [hm]; exact List.mem_singleton_self _)
  exact absurd he (by decide)

end

end TeleopLedBenchmarks
