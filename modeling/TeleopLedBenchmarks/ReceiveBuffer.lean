import TeleopLedBenchmarks.TcpLoop

namespace TeleopLedBenchmarks
set_option autoImplicit true

/-- `size()` of the string `receiveData` stores into. -/
def visibleSize : Nat := (chars "button clicked\n").length

/-- A turn keeps the terminator, and a turn whose `receiveData` succeeds shows bytes of its own
`recv` only. -/
structure TurnSound (r : RecvCalls) (send : Nat → Option Nat) (fd i : Nat) : Prop where
  terminated : (TcpApp.turns r send fd (i + 1)).buffer.getLast? = some 0
  own :
    let a := TcpApp.turns r send fd i
    (a.client.receiveData (r.result i) a.buffer).1 = 0 →
      (TcpApp.turns r send fd (i + 1)).buffer.take visibleSize =
        ((r.result i).getD []).take visibleSize

/-- Bytes that fill the visible cells and leave a NUL in the last one. -/
def FillsBuffer (bytes : List Byte) : Prop :=
  bytes.length = visibleSize ∨ bytes.length = visibleSize + 1 ∧ bytes.getLast? = some 0

section
variable {buffer bytes : List Byte}

theorem overwrite_zero (buffer bytes : List Byte) :
    overwrite buffer 0 bytes = bytes ++ buffer.drop bytes.length := by
  rw [overwrite, List.take_zero, List.nil_append, Nat.zero_add]

theorem getLast?_drop (h : n < buffer.length) :
    (buffer.drop n).getLast? = buffer.getLast? := by
  rw [List.getLast?_drop, if_neg (Nat.not_le.2 h)]

theorem overwrite_sound_iff (hl : buffer.length = visibleSize + 1)
    (hz : buffer.getLast? = some 0) (hb : bytes.length ≤ buffer.length) :
    (overwrite buffer 0 bytes).getLast? = some 0 ∧
      (overwrite buffer 0 bytes).take visibleSize = bytes.take visibleSize ↔
      FillsBuffer bytes := by
  rw [overwrite_zero, FillsBuffer]
  constructor
  · rintro ⟨hlast, htake⟩
    have hlen := congrArg List.length htake
    simp only [List.length_take, List.length_append, List.length_drop] at hlen
    obtain he | he : bytes.length = visibleSize ∨ bytes.length = visibleSize + 1 := by omega
    · exact .inl he
    · rw [he, ← hl, List.drop_length, List.append_nil] at hlast
      exact .inr ⟨he, hlast⟩
  · rintro (he | ⟨he, hlast⟩)
    · have hd : (buffer.drop bytes.length).getLast? = some 0 := by
        rw [getLast?_drop (by omega), hz]
      rw [List.getLast?_append, hd]
      refine ⟨rfl, ?_⟩
      rw [← he, List.take_left, List.take_length]
    · rw [he, ← hl, List.drop_length, List.append_nil]
      exact ⟨hlast, rfl⟩

end

section
variable {r : RecvCalls} {send : Nat → Option Nat} {fd : Nat}

theorem turns_length (i : Nat) :
    (TcpApp.turns r send fd i).buffer.length = visibleSize + 1 := by
  induction i with
  | zero => rfl
  | succ i ih =>
    rw [TcpApp.turns]
    obtain ⟨hp, _⟩ | ⟨hp, _⟩ := turns_point r send fd i
    · cases hr : r.result i with
      | none => rw [TcpApp.turn_recv_none hp, ih]
      | some bytes =>
        have hfits : bytes.length ≤ visibleSize + 1 := r.fits i bytes hr
        rw [TcpApp.turn_recv (turns_sock_nonneg i) hp]
        simp only [overwrite_zero, List.length_append, List.length_drop, ih]
        exact Nat.add_sub_of_le hfits
    · rw [TcpApp.turn_stopped hp, ih]

theorem turnSound_iff (hp : (TcpApp.turns r send fd i).point = .receiving)
    (hz : (TcpApp.turns r send fd i).buffer.getLast? = some 0) :
    TurnSound r send fd i ↔ ∀ bytes, r.result i = some bytes → FillsBuffer bytes := by
  have hs : 0 ≤ (TcpApp.turns r send fd i).client.sock := turns_sock_nonneg i
  cases hr : r.result i with
  | none =>
    refine iff_of_true ⟨?_, ?_⟩ nofun
    · rw [TcpApp.turns, hr, TcpApp.turn_recv_none hp]
      exact hz
    · rw [hr]
      simp [TcpClient.receiveData]
  | some bytes =>
    have hbuffer : (TcpApp.turns r send fd (i + 1)).buffer =
        overwrite (TcpApp.turns r send fd i).buffer 0 bytes := by
      rw [TcpApp.turns, hr, TcpApp.turn_recv hs hp]
    have hfits : bytes.length ≤ (TcpApp.turns r send fd i).buffer.length := by
      rw [turns_length]
      exact r.fits i bytes hr
    have hiff := overwrite_sound_iff (turns_length i) hz hfits
    constructor
    · rintro ⟨hlast, hown⟩ _ ⟨⟩
      rw [hr] at hown
      have herr : ((TcpApp.turns r send fd i).client.receiveData (some bytes)
          (TcpApp.turns r send fd i).buffer).1 = 0 := by
        rw [TcpClient.receiveData, if_neg (Int.not_lt.2 hs)]
      have htake := hown herr
      rw [hbuffer] at hlast htake
      exact hiff.1 ⟨hlast, htake⟩
    · intro h
      obtain ⟨hlast, htake⟩ := hiff.2 (h bytes rfl)
      rw [← hbuffer] at hlast htake
      refine ⟨hlast, ?_⟩
      rw [hr]
      exact fun _ => htake

end

/-- Every turn of the loop is sound exactly if every `recv` fills the visible cells and puts
nothing but a NUL behind them. -/
theorem buffer_sound_iff (r : RecvCalls) (send : Nat → Option Nat) (fd : Nat) :
    (∀ i, (TcpApp.turns r send fd i).point = .receiving → TurnSound r send fd i) ↔
      ∀ i, Unbroken r send i → ∀ bytes, r.result i = some bytes → FillsBuffer bytes := by
  constructor
  · intro h i hu
    have hz : (TcpApp.turns r send fd i).buffer.getLast? = some 0 := by
      cases i with
      | zero => rfl
      | succ i =>
        have hp : (TcpApp.turns r send fd i).point = .receiving :=
          (receiving_iff i).2 fun j hj => hu j (Nat.lt_succ_of_lt hj)
        exact (h i hp).terminated
    have hp : (TcpApp.turns r send fd i).point = .receiving := (receiving_iff i).2 hu
    exact (turnSound_iff hp hz).1 (h i hp)
  · intro h i hp
    have hu := (receiving_iff i).1 hp
    have hz : (TcpApp.turns r send fd i).buffer.getLast? = some 0 := by
      clear hp
      induction i with
      | zero => rfl
      | succ i ih =>
        have hi : Unbroken r send i := fun j hj => hu j (Nat.lt_succ_of_lt hj)
        exact ((turnSound_iff ((receiving_iff i).2 hi) (ih hi)).2 (h i hi)).terminated
    exact (turnSound_iff hp hz).2 (h i hu)

/-- Two commands of the desktop program, cut in front of the NUL of the first. -/
def cutCommands : RecvCalls where
  result
    | 0 => some (blinkCommand.take 15)
    | 1 => some (((blinkCommand ++ blinkCommand).drop 15).take 16)
    | _ => none
  fits := by
    intro i bytes h
    match i with
    | 0 | 1 =>
      cases h
      decide
    | _ + 2 => cases h

theorem cutCommands_unterminated :
    cutCommands.received 2 <+: (List.replicate 2 blinkCommand).flatten ∧
      (TcpApp.turns cutCommands (fun _ => some 8) 3 2).buffer.getLast? = some 10 ∧
      ¬TurnSound cutCommands (fun _ => some 8) 3 1 := by
  refine ⟨by decide, by decide, fun h => ?_⟩
  exact absurd h.terminated (by decide)

end TeleopLedBenchmarks
