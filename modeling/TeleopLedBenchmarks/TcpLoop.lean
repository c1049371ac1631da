import TeleopLedBenchmarks.CommandFraming

namespace TeleopLedBenchmarks
set_option autoImplicit true

/-- What `recv` gives, call by call: an error, or at most the bytes `receiveData` asks for. -/
structure RecvCalls where
  result : Nat → Option (List Byte)
  fits : ∀ i bytes, result i = some bytes → bytes.length ≤ (TcpApp.new 0).buffer.length

/-- The bytes the first `i` calls gave. -/
def RecvCalls.received (r : RecvCalls) : Nat → List Byte
  | 0 => []
  | i + 1 => r.received i ++ (r.result i).getD []

/-- `recv` on a finite stream that the peer has closed: the next bytes while there are any, and
0 from then on. -/
structure ClosedStream extends RecvCalls where
  stream : List Byte
  next : ∀ i bytes, result i = some bytes → toRecvCalls.received i ++ bytes <+: stream
  drained : ∀ i bytes, result i = some bytes → (bytes = [] ↔ toRecvCalls.received i = stream)

namespace TcpApp

/-- One turn of the loop of `tcpAppStart`. A loop that was left stays as it is. -/
def turn (recv : Option (List Byte)) (send : Option Nat) (a : TcpApp) : TcpApp :=
  match a.point with
  | .receiving =>
    let a := a.receive recv
    match a.point with
    | .sending => a.send send
    | _ => a
  | _ => a

/-- `tcpAppStart` after so many turns. -/
def turns (r : RecvCalls) (send : Nat → Option Nat) (fd : Nat) : Nat → TcpApp
  | 0 => .new fd
  | i + 1 => (turns r send fd i).turn (r.result i) (send i)

end TcpApp

section
variable (r : RecvCalls) (send : Nat → Option Nat) (fd : Nat)

/-- No call of the first `i` turns failed. -/
def Unbroken (i : Nat) : Prop := ∀ j < i, r.result j ≠ none ∧ send j ≠ none

def LoopTerminates : Prop := ∃ n, (TcpApp.turns r send fd n).point = .stopped

/-- After a `recv` that returns 0 no reply is sent. -/
def SilentAfterClose : Prop :=
  ∀ i, (TcpApp.turns r send fd i).point = .receiving → r.result i = some [] →
    ∀ j, i ≤ j → (TcpApp.turns r send fd j).replies = (TcpApp.turns r send fd i).replies

end

section
variable {r : RecvCalls} {send : Nat → Option Nat} {fd : Nat} {a : TcpApp}

theorem TcpApp.receive_none (a : TcpApp) : a.receive none = { a with point := .stopped } := by
  simp [TcpApp.receive, TcpClient.receiveData]

theorem TcpApp.send_none (a : TcpApp) : a.send none = { a with point := .stopped } := by
  simp [TcpApp.send, TcpClient.sendData]

theorem TcpApp.turn_recv_none (hp : a.point = .receiving) (s : Option Nat) :
    a.turn none s = { a with point := .stopped } := by
  simp only [TcpApp.turn, hp, TcpApp.receive_none]

theorem TcpApp.turn_recv (h : 0 ≤ a.client.sock) (hp : a.point = .receiving)
    (bytes : List Byte) (s : Option Nat) : a.turn (some bytes) s = { a with
      buffer := overwrite a.buffer 0 bytes
      log := a.log ++ [(overwrite a.buffer 0 bytes).takeWhile (· ≠ 0)]
      replies := a.replies + s.isSome.toNat
      point := if s.isSome then .receiving else .stopped } := by
  simp only [TcpApp.turn, hp, TcpApp.receive_eq h]
  cases s with
  | none => simp [TcpApp.send_none]
  | some n =>
    rw [TcpApp.send_eq (by exact h)]
    rfl

theorem TcpApp.turn_stopped (hp : a.point = .stopped) (b : Option (List Byte)) (s : Option Nat) :
    a.turn b s = a := by
  simp only [TcpApp.turn, hp]

theorem turns_sock (i : Nat) : (TcpApp.turns r send fd i).client.sock = fd := by
  induction i with
  | zero => rfl
  | succ i ih =>
    have h : 0 ≤ (TcpApp.turns r send fd i).client.sock := by
      rw [ih]
      exact Int.natCast_nonneg fd
    rw [TcpApp.turns]
    cases hp : (TcpApp.turns r send fd i).point with
    | stopped => rw [TcpApp.turn_stopped hp, ih]
    | sending => simp only [TcpApp.turn, hp, ih]
    | receiving =>
      cases r.result i with
      | none => rw [TcpApp.turn_recv_none hp, ih]
      | some bytes => rw [TcpApp.turn_recv h hp, ih]

theorem turns_sock_nonneg (i : Nat) : 0 ≤ (TcpApp.turns r send fd i).client.sock := by
  rw [turns_sock]
  exact Int.natCast_nonneg fd

/-- The loop goes on exactly while no call has failed. -/
theorem turns_point (r : RecvCalls) (send : Nat → Option Nat) (fd i : Nat) :
    (TcpApp.turns r send fd i).point = .receiving ∧ Unbroken r send i ∨
      (TcpApp.turns r send fd i).point = .stopped ∧ ¬Unbroken r send i := by
  induction i with
  | zero => exact .inl ⟨rfl, fun j hj => absurd hj (Nat.not_lt_zero j)⟩
  | succ i ih =>
    rw [TcpApp.turns]
    obtain ⟨hp, hu⟩ | ⟨hp, hu⟩ := ih
    · have hsucc : Unbroken r send (i + 1) ↔ r.result i ≠ none ∧ send i ≠ none := by
        constructor
        · intro h
          exact h i (Nat.lt_succ_self i)
        · intro h j hj
          obtain hlt | rfl := Nat.lt_succ_iff_lt_or_eq.1 hj
          · exact hu j hlt
          · exact h
      rw [hsucc]
      cases hr : r.result i with
      | none =>
        rw [TcpApp.turn_recv_none hp]
        exact .inr ⟨rfl, fun h => h.1 rfl⟩
      | some bytes =>
        rw [TcpApp.turn_recv (turns_sock_nonneg i) hp]
        cases hs : send i with
        | none => exact .inr ⟨rfl, fun h => h.2 rfl⟩
        | some n => exact .inl ⟨rfl, nofun, nofun⟩
    · rw [TcpApp.turn_stopped hp]
      exact .inr ⟨hp, fun h => hu fun j hj => h j (Nat.lt_succ_of_lt hj)⟩

theorem receiving_iff (i : Nat) :
    (TcpApp.turns r send fd i).point = .receiving ↔ Unbroken r send i := by
  obtain ⟨hp, hu⟩ | ⟨hp, hu⟩ := turns_point r send fd i
  · exact iff_of_true hp hu
  · exact iff_of_false (by rw [hp]; nofun) hu

theorem turns_stopped (hp : (TcpApp.turns r send fd i).point = .stopped) (h : i ≤ j) :
    TcpApp.turns r send fd j = TcpApp.turns r send fd i := by
  induction h with
  | refl => rfl
  | step _ ih => rw [TcpApp.turns, ih, TcpApp.turn_stopped hp]

theorem first_broken (h : ¬Unbroken r send n) :
    ∃ i < n, Unbroken r send i ∧ (r.result i = none ∨ send i = none) := by
  induction n with
  | zero => exact (h fun j hj => absurd hj (Nat.not_lt_zero j)).elim
  | succ n ih =>
    by_cases hu : Unbroken r send n
    · refine ⟨n, Nat.lt_succ_self n, hu, ?_⟩
      by_contra hn
      obtain ⟨hr, hs⟩ := not_or.1 hn
      apply h
      intro j hj
      obtain hlt | rfl := Nat.lt_succ_iff_lt_or_eq.1 hj
      · exact hu j hlt
      · exact ⟨hr, hs⟩
    · obtain ⟨i, hi, hrest⟩ := ih hu
      exact ⟨i, Nat.lt_succ_of_lt hi, hrest⟩

end

/-- On a stream the peer has closed the loop ends without a reply after the first `recv` that
returns 0 exactly if some call fails no later than the `send` that follows that `recv`. -/
theorem loop_ends_iff (s : ClosedStream) (send : Nat → Option Nat) (fd : Nat) :
    LoopTerminates s.toRecvCalls send fd ∧ SilentAfterClose s.toRecvCalls send fd ↔
      ∃ i, (∀ j < i, s.result j ≠ some []) ∧ (s.result i = none ∨ send i = none) := by
  constructor
  · rintro ⟨⟨n, hn⟩, hsilent⟩
    have hbroken : ¬Unbroken s.toRecvCalls send n := by
      intro hu
      cases hn.symm.trans ((receiving_iff n).2 hu)
    obtain ⟨i, _, hu, hfail⟩ := first_broken hbroken
    refine ⟨i, ?_, hfail⟩
    intro j hj hz
    -- The loop has gone past the end of the stream, with one more reply.
    have hp : (TcpApp.turns s.toRecvCalls send fd j).point = .receiving :=
      (receiving_iff j).2 fun k hk => hu k (hk.trans hj)
    have hsend := Option.isSome_iff_ne_none.2 (hu j hj).2
    have hsame := hsilent j hp hz (j + 1) (Nat.le_succ j)
    rw [TcpApp.turns, hz, TcpApp.turn_recv (turns_sock_nonneg j) hp, hsend] at hsame
    exact absurd hsame (Nat.succ_ne_self _)
  · rintro ⟨i, hz, hfail⟩
    have hbroken : ¬Unbroken s.toRecvCalls send (i + 1) := by
      intro hu
      obtain ⟨hr, hs⟩ := hu i (Nat.lt_succ_self i)
      obtain h | h := hfail
      · exact hr h
      · exact hs h
    have hstop : ∀ k, i < k → (TcpApp.turns s.toRecvCalls send fd k).point = .stopped := by
      intro k hk
      obtain ⟨_, hu⟩ | ⟨hp, _⟩ := turns_point s.toRecvCalls send fd k
      · exact (hbroken fun j hj => hu j (hj.trans_le hk)).elim
      · exact hp
    refine ⟨⟨i + 1, hstop (i + 1) (Nat.lt_succ_self i)⟩, ?_⟩
    intro j hp hj k hk
    have hle : i ≤ j := by
      by_contra hlt
      exact hz j (Nat.lt_of_not_le hlt) hj
    have hij : j = i := by
      obtain hlt | he := Nat.lt_or_eq_of_le hle
      · cases hp.symm.trans (hstop j hlt)
      · exact he.symm
    subst hij
    have hsend : send j = none := by
      obtain h | h := hfail
      · cases hj.symm.trans h
      · exact h
    obtain hlt | rfl := Nat.lt_or_eq_of_le hk
    · rw [turns_stopped (hstop (j + 1) (Nat.lt_succ_self j)) hlt, TcpApp.turns, hj, hsend,
        TcpApp.turn_recv (turns_sock_nonneg j) hp]
      rfl
    · rfl

/-- One command, and then the peer closes its side. -/
def oneCommand : RecvCalls where
  result i := if i = 0 then some blinkCommand else some []
  fits := by
    intro i bytes h
    split at h
    · cases h
      decide
    · cases h
      exact Nat.zero_le _

theorem oneCommand_result_succ (i : Nat) : oneCommand.result (i + 1) = some [] := rfl

theorem oneCommand_received_succ (i : Nat) : oneCommand.received (i + 1) = blinkCommand := by
  induction i with
  | zero => rfl
  | succ i ih =>
    rw [RecvCalls.received, ih, oneCommand_result_succ]
    rfl

def closedAfterCommand : ClosedStream where
  toRecvCalls := oneCommand
  stream := blinkCommand
  next := by
    intro i bytes h
    cases i with
    | zero =>
      cases h
      exact List.prefix_rfl
    | succ i =>
      rw [oneCommand_result_succ] at h
      cases h
      rw [oneCommand_received_succ]
      exact List.prefix_rfl
  drained := by
    intro i bytes h
    cases i with
    | zero =>
      cases h
      decide
    | succ i =>
      rw [oneCommand_result_succ] at h
      cases h
      exact iff_of_true rfl (oneCommand_received_succ i)

/-- While its sends succeed the loop goes on, and replies to nothing, again and again. -/
theorem closedAfterCommand_spins :
    ¬LoopTerminates closedAfterCommand.toRecvCalls (fun _ => some 8) 3 ∧
      ¬SilentAfterClose closedAfterCommand.toRecvCalls (fun _ => some 8) 3 ∧
      ∀ n, (TcpApp.turns closedAfterCommand.toRecvCalls (fun _ => some 8) 3 n).replies = n := by
  have hp : ∀ n, (TcpApp.turns closedAfterCommand.toRecvCalls (fun _ => some 8) 3 n).point =
      .receiving := by
    intro n
    apply (receiving_iff n).2
    intro j _
    refine ⟨?_, nofun⟩
    cases j with
    | zero => nofun
    | succ j => exact (oneCommand_result_succ j).trans_ne nofun
  have hr : ∀ n, (TcpApp.turns closedAfterCommand.toRecvCalls (fun _ => some 8) 3 n).replies =
      n := by
    intro n
    induction n with
    | zero => rfl
    | succ n ih =>
      obtain ⟨bytes, hb⟩ : ∃ bytes, closedAfterCommand.result n = some bytes := by
        cases n with
        | zero => exact ⟨_, rfl⟩
        | succ n => exact ⟨_, oneCommand_result_succ n⟩
      rw [TcpApp.turns, hb, TcpApp.turn_recv (turns_sock_nonneg n) (hp n), ih]
      rfl
  refine ⟨?_, ?_, hr⟩
  · rintro ⟨n, hn⟩
    cases hn.symm.trans (hp n)
  · intro hs
    have h := hs 1 (hp 1) rfl 2 (Nat.le_succ 1)
    rw [hr, hr] at h
    cases h

end TeleopLedBenchmarks
