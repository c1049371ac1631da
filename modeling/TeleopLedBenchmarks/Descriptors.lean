import Mathlib.Order.Nat
import TeleopLedBenchmarks.Handles
import TeleopLedBenchmarks.TcpApp

namespace TeleopLedBenchmarks
set_option autoImplicit true

/-- The system calls of `TcpClient`: what `socket` returns, and what the others are passed. -/
inductive SocketCall
  | socket (fd : Int)
  | connect (fd : Int)
  | setsockopt (fd : Int)
  | send (fd : Int)
  | recv (fd : Int)
  | shutdown (fd : Int)
  | close (fd : Int)
  deriving DecidableEq, Repr

/-- The call as one on a handle. A `socket` that returns -1 opens nothing. -/
def SocketCall.handle : SocketCall → Option (HandleCall Int)
  | .socket fd => if fd = -1 then none else some (.opened fd)
  | .connect fd | .setsockopt fd | .send fd | .recv fd | .shutdown fd => some (.used fd)
  | .close fd => some (.closed fd)

def handles (calls : List SocketCall) : List (HandleCall Int) := calls.filterMap SocketCall.handle

/-- The descriptors that are open after these calls. -/
def openAfter (calls : List SocketCall) : List Int := HandleCall.heldAfter [] (handles calls)

namespace TcpClient

/-- `connectToServer`, where `socket` and `connect` give these results. It overwrites `sock_`
whatever it is, and only logs how `setsockopt` ended. -/
def connectToServer (socket connect : Int) : Int × TcpClient × List SocketCall :=
  let c : TcpClient := ⟨socket⟩
  if c.sock < 0 then (-1, c, [.socket socket])
  else if connect ≠ 0 then (-1, ⟨-1⟩, [.socket socket, .connect c.sock, .close c.sock])
  else (0, c, [.socket socket, .connect c.sock, .setsockopt c.sock])

/-- The system calls of `sendData` and `receiveData`: none on a client that is not connected. -/
def ifConnected (call : Int → SocketCall) (c : TcpClient) : List SocketCall :=
  if c.sock < 0 then [] else [call c.sock]

def sendCalls (c : TcpClient) : List SocketCall := c.ifConnected .send

def recvCalls (c : TcpClient) : List SocketCall := c.ifConnected .recv

def disconnect (c : TcpClient) : TcpClient × List SocketCall :=
  if c.sock ≠ -1 then (⟨-1⟩, [.shutdown c.sock, .close c.sock]) else (c, [])

end TcpClient

/-- A client and the system calls it has made. -/
structure ClientRun where
  client : TcpClient
  calls : List SocketCall
  deriving DecidableEq, Repr

/-- A call of a member function, and what its system calls give. -/
inductive ClientEvent
  | connectToServer (socket connect : Int)
  | sendData (send : Option Nat)
  | receiveData (recv : Option (List Byte))
  | disconnect
  deriving DecidableEq, Repr

namespace ClientRun

def new : ClientRun := ⟨⟨-1⟩, []⟩

/-- The descriptors that this client has opened and that are still open. -/
def fds (s : ClientRun) : List Int := openAfter s.calls

/-- The run goes on with what a member function leaves and the system calls it makes. -/
def goOn (s : ClientRun) (r : TcpClient × List SocketCall) : ClientRun := ⟨r.1, s.calls ++ r.2⟩

/-- The run with `~TcpClient` at its end. -/
def destroy (s : ClientRun) : ClientRun := s.goOn s.client.disconnect

end ClientRun

/-- Any sequence of calls. `socket` gives -1 or a descriptor that is not open. -/
def tcpClient : Machine ClientRun ClientEvent where
  step s
    | .connectToServer socket connect =>
      if socket = -1 ∨ 0 ≤ socket ∧ socket ∉ s.fds then
        some (s.goOn (TcpClient.connectToServer socket connect).2)
      else none
    | .sendData _ => some (s.goOn (s.client, s.client.sendCalls))
    | .receiveData _ => some (s.goOn (s.client, s.client.recvCalls))
    | .disconnect => some (s.goOn s.client.disconnect)

/-- The client has no descriptor, or one of those that are open. -/
def TcpClient.Holds (c : TcpClient) (held : List Int) : Prop :=
  c.sock = -1 ∨ 0 ≤ c.sock ∧ c.sock ∈ held

/-- The open descriptors besides the one the client has. -/
def TcpClient.leaked (c : TcpClient) (held : List Int) : Nat :=
  held.length - if c.sock = -1 then 0 else 1

/-- The descriptors that are open after a member function, when `held` were before it. -/
def heldBy (held : List Int) (r : TcpClient × List SocketCall) : List Int :=
  HandleCall.heldAfter held (handles r.2)

/-- The member function uses open descriptors only and leaves the client with an open one, if it
has one. -/
structure SafeCall (held : List Int) (r : TcpClient × List SocketCall) : Prop where
  proper : HandleCall.Proper held (handles r.2)
  holds : r.1.Holds (heldBy held r)

section
variable {c : TcpClient} {held : List Int}

theorem TcpClient.Holds.length_eq (h : c.Holds held) :
    held.length = c.leaked held + if c.sock = -1 then 0 else 1 := by
  rw [TcpClient.leaked]
  obtain he | ⟨hpos, hm⟩ := h
  · rw [if_pos he]
    rfl
  · have hne : c.sock ≠ -1 := by omega
    rw [if_neg hne, Nat.sub_add_cancel (List.length_pos_of_mem hm)]

theorem TcpClient.connectToServer_spec (connect : Int)
    (hg : socket = -1 ∨ 0 ≤ socket ∧ socket ∉ held) :
    let r := TcpClient.connectToServer socket connect
    SafeCall held r.2 ∧ r.2.1.leaked (heldBy held r.2) = held.length ∧
      (r.1 = -1 → r.2.1.sock = -1 ∧ heldBy held r.2 = held) := by
  obtain rfl | ⟨hpos, hfresh⟩ := hg
  · exact ⟨⟨trivial, .inl rfl⟩, rfl, fun _ => ⟨rfl, rfl⟩⟩
  · have hne : socket ≠ -1 := by omega
    rw [TcpClient.connectToServer, if_neg (Int.not_lt.2 hpos)]
    split
    · have hh : handles [.socket socket, .connect socket, .close socket] =
          [.opened socket, .used socket, .closed socket] := by
        simp [handles, SocketCall.handle, hne]
      have hafter : heldBy held (⟨-1⟩, [.socket socket, .connect socket, .close socket]) =
          held := by
        rw [heldBy, hh]
        exact List.erase_cons_head _ _
      refine ⟨⟨?_, .inl rfl⟩, congrArg List.length hafter, fun _ => ⟨rfl, hafter⟩⟩
      exact hh ▸ ⟨hfresh, List.mem_cons_self, List.mem_cons_self, trivial⟩
    · have hh : handles [.socket socket, .connect socket, .setsockopt socket] =
          [.opened socket, .used socket, .used socket] := by
        simp [handles, SocketCall.handle, hne]
      have hafter : heldBy held (⟨socket⟩, [.socket socket, .connect socket,
          .setsockopt socket]) = socket :: held := by
        rw [heldBy, hh]
        rfl
      refine ⟨⟨?_, ?_⟩, ?_, nofun⟩
      · exact hh ▸ ⟨hfresh, List.mem_cons_self, List.mem_cons_self, trivial⟩
      · rw [hafter]
        exact .inr ⟨hpos, List.mem_cons_self⟩
      · rw [hafter, TcpClient.leaked, if_neg hne]
        rfl

theorem TcpClient.ifConnected_spec (call : Int → SocketCall)
    (hcall : ∀ fd, (call fd).handle = some (.used fd)) (h : c.Holds held) :
    SafeCall held (c, c.ifConnected call) ∧ heldBy held (c, c.ifConnected call) = held := by
  obtain he | ⟨hpos, hm⟩ := h
  · have hh : c.ifConnected call = [] := by
      rw [TcpClient.ifConnected, he]
      rfl
    rw [hh]
    exact ⟨⟨trivial, .inl he⟩, rfl⟩
  · have hh : handles (c.ifConnected call) = [.used c.sock] := by
      rw [TcpClient.ifConnected, if_neg (Int.not_lt.2 hpos)]
      simp [handles, hcall]
    have hafter : heldBy held (c, c.ifConnected call) = held := by
      rw [heldBy, hh]
      rfl
    refine ⟨⟨hh ▸ ⟨hm, trivial⟩, ?_⟩, hafter⟩
    rw [hafter]
    exact .inr ⟨hpos, hm⟩

theorem TcpClient.disconnect_spec (h : c.Holds held) :
    SafeCall held c.disconnect ∧ c.disconnect.1.sock = -1 ∧
      (heldBy held c.disconnect).length = c.leaked held := by
  obtain he | ⟨hpos, hm⟩ := h
  · rw [TcpClient.disconnect, if_neg (not_not.2 he), TcpClient.leaked, if_pos he]
    exact ⟨⟨trivial, .inl he⟩, he, rfl⟩
  · have hne : c.sock ≠ -1 := by omega
    rw [TcpClient.disconnect, if_pos hne, TcpClient.leaked, if_neg hne]
    exact ⟨⟨⟨hm, hm, trivial⟩, .inl rfl⟩, rfl, List.length_erase_of_mem hm⟩

end

namespace ClientRun
variable {s s' : ClientRun}

structure Sound (s : ClientRun) : Prop where
  proper : HandleCall.Proper [] (handles s.calls)
  holds : s.client.Holds s.fds

/-- The open descriptors besides `sock_`. -/
def leaked (s : ClientRun) : Nat := s.client.leaked s.fds

/-- `connectToServer` is called on a client without a descriptor only. -/
def Disconnected (s : ClientRun) : ClientEvent → Prop
  | .connectToServer _ _ => s.client.sock = -1
  | _ => True

theorem goOn_fds (s : ClientRun) (r : TcpClient × List SocketCall) :
    (s.goOn r).fds = heldBy s.fds r := by
  rw [fds, goOn, openAfter, handles, List.filterMap_append, HandleCall.heldAfter_append]
  rfl

theorem Sound.new : new.Sound := ⟨trivial, .inl rfl⟩

theorem Sound.goOn (h : s.Sound) (hr : SafeCall s.fds r) : (s.goOn r).Sound := by
  constructor
  · rw [ClientRun.goOn, handles, List.filterMap_append]
    exact (HandleCall.proper_append _ _ _).2 ⟨h.proper, hr.proper⟩
  · rw [goOn_fds]
    exact hr.holds

/-- A call keeps the client sound. Only a `connectToServer` that overwrites a descriptor leaks. -/
theorem Sound.step (h : s.Sound) (hs : tcpClient.step s e = some s') :
    s'.Sound ∧ s.leaked ≤ s'.leaked ∧ (s'.leaked = s.leaked ↔ s.Disconnected e) := by
  have hsame : ∀ r, SafeCall s.fds r → r.1.leaked (heldBy s.fds r) = s.leaked → s.goOn r = s' →
      s'.Sound ∧ s.leaked ≤ s'.leaked ∧ (s'.leaked = s.leaked ↔ True) := by
    rintro r hr hl rfl
    have hl : (s.goOn r).leaked = s.leaked := by
      rw [leaked, goOn_fds]
      exact hl
    exact ⟨h.goOn hr, hl.ge, iff_of_true hl trivial⟩
  cases e with
  | connectToServer socket connect =>
    obtain ⟨hg, hs⟩ := Option.ite_none_right_eq_some.1 hs
    cases hs
    obtain ⟨hsafe, hleaked, _⟩ := TcpClient.connectToServer_spec connect hg
    have hl : (s.goOn (TcpClient.connectToServer socket connect).2).leaked = s.fds.length := by
      rw [leaked, goOn_fds]
      exact hleaked
    refine ⟨h.goOn hsafe, ?_⟩
    rw [hl, h.holds.length_eq, Disconnected]
    split
    · next he => exact ⟨le_rfl, iff_of_true rfl he⟩
    · next he => exact ⟨Nat.le_succ _, iff_of_false (Nat.succ_ne_self _) he⟩
  | sendData =>
    obtain ⟨hsafe, hafter⟩ := TcpClient.ifConnected_spec SocketCall.send (fun _ => rfl) h.holds
    exact hsame _ hsafe (congrArg s.client.leaked hafter) (Option.some.inj hs)
  | receiveData =>
    obtain ⟨hsafe, hafter⟩ := TcpClient.ifConnected_spec SocketCall.recv (fun _ => rfl) h.holds
    exact hsame _ hsafe (congrArg s.client.leaked hafter) (Option.some.inj hs)
  | disconnect =>
    obtain ⟨hsafe, hsock, hcount⟩ := TcpClient.disconnect_spec h.holds
    refine hsame _ hsafe ?_ (Option.some.inj hs)
    rw [TcpClient.leaked, if_pos hsock]
    exact hcount

theorem Sound.run (h : s.Sound) (hr : tcpClient.run s es = some s') : s'.Sound := by
  apply Machine.run_invariant _ h hr
  intro s e s' h hs
  exact (h.step hs).1

theorem Sound.leaked_run (h : s.Sound) (hr : tcpClient.run s es = some s') :
    s.leaked ≤ s'.leaked ∧ (s'.leaked = s.leaked ↔ tcpClient.Along Disconnected s es) := by
  apply Machine.run_keeps_iff _ _ h hr
  · intro s e s' h hs
    exact (h.step hs).1
  · intro s e s' h hs
    exact (h.step hs).2

theorem Sound.destroy (h : s.Sound) : s.destroy.Sound ∧ s.destroy.fds.length = s.leaked := by
  obtain ⟨hsafe, _, hcount⟩ := TcpClient.disconnect_spec h.holds
  refine ⟨h.goOn hsafe, ?_⟩
  rw [ClientRun.destroy, goOn_fds]
  exact hcount

end ClientRun

/-- What the system calls of a whole life of the client are, and where `sock_` stands between
the calls. -/
theorem descriptors_held (h : tcpClient.run .new es = some s) :
    HandleCall.Proper [] (handles s.destroy.calls) ∧
    (∀ fd tr tr' tr'', handles s.destroy.calls =
      tr ++ .closed fd :: (tr' ++ .closed fd :: tr'') → .opened fd ∈ tr') ∧
    (s.client.sock = -1 ∨ 0 ≤ s.client.sock ∧ s.client.sock ∈ s.fds) ∧
    ∀ socket connect s', tcpClient.step s (.connectToServer socket connect) = some s' →
      (TcpClient.connectToServer socket connect).1 = -1 →
        s'.client.sock = -1 ∧ s'.fds = s.fds ∧ (socket ≠ -1 → socket ∉ s'.fds) := by
  have hs := ClientRun.Sound.new.run h
  have hp := hs.destroy.1.proper
  refine ⟨hp, fun fd tr tr' tr'' he => ?_, hs.holds, fun socket connect s' hstep herr => ?_⟩
  · rw [he] at hp
    exact hp.opened_between List.nodup_nil
  · obtain ⟨hg, hstep⟩ := Option.ite_none_right_eq_some.1 hstep
    cases hstep
    obtain ⟨_, _, hfail⟩ := TcpClient.connectToServer_spec connect hg
    obtain ⟨hsock, hafter⟩ := hfail herr
    refine ⟨hsock, (s.goOn_fds _).trans hafter, fun hne => ?_⟩
    rw [s.goOn_fds, hafter]
    obtain he | ⟨_, hfresh⟩ := hg
    · exact (hne he).elim
    · exact hfresh

/-- A connection, a second one after a disconnect that fails, and a read without a connection. -/
def reconnectRun : List ClientEvent :=
  [.connectToServer 3 0, .sendData (some 8), .disconnect, .connectToServer 3 (-1),
    .receiveData none]

theorem descriptors_held_reconnectRun :
    ∃ s, tcpClient.run .new reconnectRun = some s ∧
      HandleCall.Proper [] (handles s.destroy.calls) ∧ s.client.sock = -1 := by
  obtain ⟨s, hs⟩ : ∃ s, tcpClient.run .new reconnectRun = some s := ⟨_, rfl⟩
  refine ⟨s, hs, (descriptors_held hs).1, ?_⟩
  cases hs
  rfl

/-- Nothing leaks over a whole life of the client exactly if every `connectToServer` was called
on a client without a descriptor. -/
theorem nothing_leaks_iff (h : tcpClient.run .new es = some s) :
    s.destroy.fds = [] ∧
        (∀ es' s', es' <+: es → tcpClient.run .new es' = some s' → s'.fds.length ≤ 1) ↔
      tcpClient.Along ClientRun.Disconnected .new es := by
  have hs := ClientRun.Sound.new.run h
  obtain ⟨_, hiff⟩ := ClientRun.Sound.new.leaked_run h
  rw [← hiff, show ClientRun.new.leaked = 0 from rfl, ← hs.destroy.2, List.length_eq_zero_iff]
  constructor
  · exact And.left
  · intro hnil
    refine ⟨hnil, ?_⟩
    rintro es' s' ⟨rest, rfl⟩ hr
    have hs' := ClientRun.Sound.new.run hr
    rw [Machine.run_append, hr] at h
    have hle := (hs'.leaked_run h).1
    rw [← hs.destroy.2, hnil] at hle
    rw [hs'.holds.length_eq]
    have hzero : s'.client.leaked s'.fds = 0 := Nat.le_zero.1 hle
    rw [hzero]
    split
    · exact Nat.zero_le 1
    · exact Nat.le_refl 1

theorem nothing_leaks_reconnectRun :
    ∃ s, tcpClient.run .new reconnectRun = some s ∧ s.destroy.fds = [] := by
  obtain ⟨s, hs⟩ : ∃ s, tcpClient.run .new reconnectRun = some s := ⟨_, rfl⟩
  exact ⟨s, hs, ((nothing_leaks_iff hs).2 ⟨rfl, trivial, trivial, rfl, trivial, trivial⟩).1⟩

/-- A second `connectToServer` without a disconnect loses the first descriptor. -/
theorem secondConnect_leaks :
    ∃ s, tcpClient.run .new [.connectToServer 3 0, .connectToServer 4 0] = some s ∧
      s.fds.length = 2 ∧ s.destroy.fds = [3] :=
  ⟨_, rfl, rfl, rfl⟩

end TeleopLedBenchmarks
