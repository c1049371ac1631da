import TeleopLedBenchmarks.Asio
import TeleopLedBenchmarks.Transducer

namespace TeleopLedBenchmarks
set_option autoImplicit true

def ngxUnescapeUriFlag : UInt32 := 1  -- NGX_UNESCAPE_URI
def ngxUnescapeRedirectFlag : UInt32 := 2  -- NGX_UNESCAPE_REDIRECT

/-- `state` of `ngx_unescape_uri`. -/
inductive Sw
  | usual
  | quoted
  | quotedSecond
  deriving DecidableEq, Repr

/-- The memory and the local variables of `ngx_unescape_uri` that outlive a turn of its loop. -/
structure Unescape where
  mem : Nat → Byte
  d : Nat
  s : Nat
  state : Sw
  decoded : Byte

namespace Unescape

/-- `*d++ = b` -/
def put (u : Unescape) (b : Byte) : Unescape :=
  { u with mem := Function.update u.mem u.d b, d := u.d + 1 }

/-- `*d++ = '%'; *d++ = *(s - 2); *d++ = *(s - 1);` -/
def putQuoted (u : Unescape) : Unescape :=
  let u := u.put '%'.toUInt8
  let u := u.put (u.mem (u.s - 2))
  u.put (u.mem (u.s - 1))

/-- The body of the loop. The flag is set when it ends with `goto done`. -/
def turn (type : UInt32) (u : Unescape) : Unescape × Bool :=
  let ch := u.mem u.s
  let u := { u with s := u.s + 1 }
  match u.state with
  | .usual =>
    if ch = '?'.toUInt8 ∧ type &&& (ngxUnescapeUriFlag ||| ngxUnescapeRedirectFlag) ≠ 0 then
      (u.put ch, true)
    else if ch = '%'.toUInt8 then ({ u with state := .quoted }, false)
    else (u.put ch, false)
  | .quoted =>
    if '0'.toUInt8 ≤ ch ∧ ch ≤ '9'.toUInt8 then
      ({ u with decoded := ch - '0'.toUInt8, state := .quotedSecond }, false)
    else
      let c := ch ||| 0x20
      if 'a'.toUInt8 ≤ c ∧ c ≤ 'f'.toUInt8 then
        ({ u with decoded := c - 'a'.toUInt8 + 10, state := .quotedSecond }, false)
      else (put { u with state := .usual } ch, false)  -- the invalid quoted character
  | .quotedSecond =>
    let u := { u with state := .usual }
    if '0'.toUInt8 ≤ ch ∧ ch ≤ '9'.toUInt8 then
      let ch := (u.decoded <<< 4) + (ch - '0'.toUInt8)
      if type &&& ngxUnescapeRedirectFlag ≠ 0 then
        if '%'.toUInt8 < ch ∧ ch < 0x7f then (u.put ch, false) else (u.putQuoted, false)
      else (u.put ch, false)
    else
      let c := ch ||| 0x20
      if 'a'.toUInt8 ≤ c ∧ c ≤ 'f'.toUInt8 then
        let ch := (u.decoded <<< 4) + (c - 'a'.toUInt8) + 10
        if type &&& ngxUnescapeUriFlag ≠ 0 then
          if ch = '?'.toUInt8 then (u.put ch, true) else (u.put ch, false)
        else if type &&& ngxUnescapeRedirectFlag ≠ 0 then
          if ch = '?'.toUInt8 then (u.put ch, true)
          else if '%'.toUInt8 < ch ∧ ch < 0x7f then (u.put ch, false)
          else (u.putQuoted, false)
        else (u.put ch, false)
      else (u, false)  -- the invalid quoted character

def loop (type : UInt32) : Nat → Unescape → Unescape
  | 0, u => u
  | size + 1, u => match u.turn type with
    | (u, true) => u
    | (u, false) => loop type size u

end Unescape

/-- The result is the memory, `*dst` and `*src`. -/
def ngxUnescapeUri (m : Nat → Byte) (dst src size : Nat) (type : UInt32) :
    (Nat → Byte) × Nat × Nat :=
  let u := Unescape.loop type size ⟨m, dst, src, .usual, 0⟩
  (u.mem, u.d, u.s)

def exampleUriDecode (m : Nat → Byte) (dest src : Option Nat) (len : Nat) : Nat → Byte :=
  match dest, src with
  | some dest, some src => (ngxUnescapeUri m dest src len ngxUnescapeUriFlag).1
  | _, _ => m

/-- Of a hexadecimal digit. -/
def hexValue (c : Byte) : Option Byte :=
  if '0'.toUInt8 ≤ c ∧ c ≤ '9'.toUInt8 then some (c - '0'.toUInt8)
  else if 'a'.toUInt8 ≤ c ||| 0x20 ∧ c ||| 0x20 ≤ 'f'.toUInt8 then
    some ((c ||| 0x20) - 'a'.toUInt8 + 10)
  else none

/-- Whether the text ends after a `?`. -/
def endsAtQuery (type : UInt32) : Bool :=
  type &&& (ngxUnescapeUriFlag ||| ngxUnescapeRedirectFlag) != 0

/-- Whether an escape sequence with the second digit `lo` that does not stand for one of the
characters between `%` and DEL is left as it is. -/
def keepsQuoted (type : UInt32) (lo : Byte) : Bool :=
  type &&& ngxUnescapeRedirectFlag != 0 &&
    (('0'.toUInt8 ≤ lo && lo ≤ '9'.toUInt8) || type &&& ngxUnescapeUriFlag == 0)

/-- How far into an escape sequence the text is. -/
inductive Quoting
  | usual
  | quoted
  | second (hi : Byte)
  deriving DecidableEq, Repr

/-- What an escape sequence that stands for `ch` becomes. -/
def unquoted (type : UInt32) (hi lo ch : Byte) : List Byte × Option Quoting :=
  if ch = '?'.toUInt8 ∧ endsAtQuery type then ([ch], none)
  else if keepsQuoted type lo ∧ ¬('%'.toUInt8 < ch ∧ ch < 0x7f) then
    (['%'.toUInt8, hi, lo], some .usual)
  else ([ch], some .usual)

def unescaper (type : UInt32) : Transducer Quoting Byte Byte where
  step
    | .usual, ch =>
      if ch = '?'.toUInt8 ∧ endsAtQuery type then ([ch], none)
      else if ch = '%'.toUInt8 then ([], some .quoted)
      else ([ch], some .usual)
    | .quoted, ch => match hexValue ch with
      | some _ => ([], some (.second ch))
      | none => ([ch], some .usual)
    | .second hi, ch => match hexValue hi, hexValue ch with
      | some x, some y => unquoted type hi ch ((x <<< 4) + y)
      | _, _ => ([], some .usual)

/-- What is written for an escaped text. -/
def unescaped (type : UInt32) (bytes : List Byte) : List Byte := (unescaper type).run .usual bytes

/-- How many bytes of an unfinished escape sequence have been read. -/
def Quoting.credit : Quoting → Nat
  | .usual => 0
  | .quoted => 1
  | .second _ => 2

/-- The loop is where the decoder is. -/
def Unescape.At (u : Unescape) : Quoting → Prop
  | .usual => u.state = .usual
  | .quoted => u.state = .quoted
  | .second hi => u.state = .quotedSecond ∧ hexValue hi = some u.decoded ∧ u.mem (u.s - 1) = hi

/-- A turn of the loop does what a step of the decoder does. -/
structure Unescape.Does (u : Unescape) (q : List Byte × Option Quoting)
    (r : Unescape × Bool) : Prop where
  mem : r.1.mem = Cells.write u.mem u.d q.1
  d : r.1.d = u.d + q.1.length
  s : r.1.s = u.s + 1
  done : r.2 = q.2.isNone
  next : ∀ q', q.2 = some q' → r.1.At q'

section
variable {u : Unescape} {type : UInt32} {hi lo ch : Byte}

theorem endsAtQuery_eq (type : UInt32) :
    endsAtQuery type =
      (type &&& ngxUnescapeUriFlag != 0 || type &&& ngxUnescapeRedirectFlag != 0) := by
  have hand : type &&& (ngxUnescapeUriFlag ||| ngxUnescapeRedirectFlag) =
      (type &&& ngxUnescapeUriFlag) ||| (type &&& ngxUnescapeRedirectFlag) := by
    apply UInt32.eq_of_toBitVec_eq
    ext i
    simp [Bool.and_or_distrib_left]
  rw [Bool.eq_iff_iff]
  simp only [endsAtQuery, hand, bne_iff_ne, ne_eq, Bool.or_eq_true, UInt32.or_eq_zero_iff,
    not_and_or]

theorem ne_query_of_digit (x : Byte) (h : '0'.toUInt8 ≤ lo ∧ lo ≤ '9'.toUInt8) :
    (x <<< 4) + (lo - '0'.toUInt8) ≠ '?'.toUInt8 := by
  intro he
  have hlo : (lo - '0'.toUInt8).toNat ≤ 9 := by
    have h₉ : lo.toNat ≤ 57 := h.2
    rw [UInt8.toNat_sub_of_le _ _ h.1]
    exact Nat.sub_le_sub_right h₉ 48
  have h' := congrArg UInt8.toNat he
  have hq : ('?'.toUInt8).toNat = 63 := rfl
  rw [UInt8.toNat_add, UInt8.toNat_shiftLeft, hq, Nat.shiftLeft_eq] at h'
  change ((x.toNat * 2 ^ 4) % 2 ^ 8 + (lo - '0'.toUInt8).toNat) % 2 ^ 8 = 63 at h'
  omega

theorem unquoted_digit (hi : Byte) (hlo : '0'.toUInt8 ≤ lo ∧ lo ≤ '9'.toUInt8)
    (hch : ch ≠ '?'.toUInt8) :
    unquoted type hi lo ch =
      if type &&& ngxUnescapeRedirectFlag ≠ 0 then
        if '%'.toUInt8 < ch ∧ ch < 0x7f then ([ch], some .usual)
        else (['%'.toUInt8, hi, lo], some .usual)
      else ([ch], some .usual) := by
  have hkeep : keepsQuoted type lo = (type &&& ngxUnescapeRedirectFlag != 0) := by
    simp [keepsQuoted, hlo]
  rw [unquoted, if_neg fun h => hch h.1, hkeep]
  by_cases hr : type &&& ngxUnescapeRedirectFlag = 0
  · simp [hr]
  · by_cases hp : '%'.toUInt8 < ch ∧ ch < 0x7f
    · simp [hp]
    · simp only [bne_iff_ne, ne_eq, hr, hp, not_false_eq_true, and_self, if_true, if_false]

theorem unquoted_letter (hi ch : Byte) (hlo : ¬('0'.toUInt8 ≤ lo ∧ lo ≤ '9'.toUInt8)) :
    unquoted type hi lo ch =
      if type &&& ngxUnescapeUriFlag ≠ 0 then
        if ch = '?'.toUInt8 then ([ch], none) else ([ch], some .usual)
      else if type &&& ngxUnescapeRedirectFlag ≠ 0 then
        if ch = '?'.toUInt8 then ([ch], none)
        else if '%'.toUInt8 < ch ∧ ch < 0x7f then ([ch], some .usual)
        else (['%'.toUInt8, hi, lo], some .usual)
      else ([ch], some .usual) := by
  have hkeep : keepsQuoted type lo =
      (type &&& ngxUnescapeRedirectFlag != 0 && type &&& ngxUnescapeUriFlag == 0) := by
    rw [keepsQuoted, ← Bool.decide_and, decide_eq_false hlo, Bool.false_or]
  rw [unquoted, endsAtQuery_eq, hkeep]
  by_cases hu : type &&& ngxUnescapeUriFlag = 0
  · by_cases hr : type &&& ngxUnescapeRedirectFlag = 0
    · simp [hu, hr]
    · by_cases hq : ch = '?'.toUInt8
      · simp [hu, hr, hq]
      · by_cases hp : '%'.toUInt8 < ch ∧ ch < 0x7f
        · simp [hu, hr, hq, hp]
        · simp only [hu, hr, hq, hp, ne_eq, not_true_eq_false, not_false_eq_true, false_and,
            bne_iff_ne, beq_self_eq_true, and_self, if_true, if_false,
            Bool.and_true]
  · simp [hu]

theorem Unescape.Does.put (u : Unescape) (ch : Byte) (rest : Option Quoting)
    (hrest : ∀ q, rest = some q → q = .usual) :
    u.Does ([ch], rest)
      (Unescape.put { u with s := u.s + 1, state := .usual } ch, rest.isNone) where
  mem := rfl
  d := rfl
  s := rfl
  done := rfl
  next q hq := by
    rw [hrest q hq]
    rfl

/-- The cells `*(s - 2)` and `*(s - 1)` are the digits, for nothing was stored there. -/
theorem Unescape.Does.putQuoted (hroom : u.d + 2 ≤ u.s ∨ u.s < u.d)
    (hhi : u.mem (u.s - 1) = hi) :
    u.Does (['%'.toUInt8, hi, u.mem u.s], some .usual)
      (Unescape.putQuoted { u with s := u.s + 1, state := .usual }, false) := by
  have h₁ : u.s + 1 - 2 = u.s - 1 := by omega
  have h₂ : u.s + 1 - 1 = u.s := by omega
  have hne₁ : u.s - 1 ≠ u.d := by omega
  have hne₂ : u.s ≠ u.d := by omega
  have hne₃ : u.s ≠ u.d + 1 := by omega
  have hmem : (Unescape.putQuoted { u with s := u.s + 1, state := .usual }).mem =
      Cells.write u.mem u.d ['%'.toUInt8, hi, u.mem u.s] := by
    simp only [Unescape.putQuoted, Unescape.put, h₁, h₂, Function.update_of_ne hne₁,
      Function.update_of_ne hne₂, Function.update_of_ne hne₃, hhi]
    rfl
  exact ⟨hmem, rfl, rfl, rfl, by rintro q ⟨⟩; rfl⟩

theorem hexValue_of_digit (h : '0'.toUInt8 ≤ ch ∧ ch ≤ '9'.toUInt8) :
    hexValue ch = some (ch - '0'.toUInt8) := if_pos h

theorem hexValue_of_letter (h : ¬('0'.toUInt8 ≤ ch ∧ ch ≤ '9'.toUInt8))
    (hl : 'a'.toUInt8 ≤ ch ||| 0x20 ∧ ch ||| 0x20 ≤ 'f'.toUInt8) :
    hexValue ch = some ((ch ||| 0x20) - 'a'.toUInt8 + 10) := (if_neg h).trans (if_pos hl)

theorem hexValue_of_neither (h : ¬('0'.toUInt8 ≤ ch ∧ ch ≤ '9'.toUInt8))
    (hl : ¬('a'.toUInt8 ≤ ch ||| 0x20 ∧ ch ||| 0x20 ≤ 'f'.toUInt8)) :
    hexValue ch = none := (if_neg h).trans (if_neg hl)

theorem Unescape.turn_usual (hst : u.state = .usual) :
    u.Does ((unescaper type).step .usual (u.mem u.s)) (u.turn type) := by
  have hends : type &&& (ngxUnescapeUriFlag ||| ngxUnescapeRedirectFlag) ≠ 0 ↔
      endsAtQuery type = true := bne_iff_ne.symm
  simp only [Unescape.turn, hst, unescaper, hends]
  by_cases hq : u.mem u.s = '?'.toUInt8 ∧ endsAtQuery type = true
  · rw [if_pos hq, if_pos hq]
    exact .put u _ _ (by rintro q ⟨⟩)
  · rw [if_neg hq, if_neg hq]
    by_cases hp : u.mem u.s = '%'.toUInt8
    · rw [if_pos hp, if_pos hp]
      exact ⟨rfl, rfl, rfl, rfl, by rintro q ⟨⟩; rfl⟩
    · rw [if_neg hp, if_neg hp]
      exact .put u _ _ (by rintro q ⟨⟩; rfl)

theorem Unescape.turn_quoted (hst : u.state = .quoted) :
    u.Does ((unescaper type).step .quoted (u.mem u.s)) (u.turn type) := by
  have hback : u.s + 1 - 1 = u.s := by omega
  simp only [Unescape.turn, hst, unescaper]
  by_cases hd : '0'.toUInt8 ≤ u.mem u.s ∧ u.mem u.s ≤ '9'.toUInt8
  · have hv := hexValue_of_digit hd
    rw [if_pos hd]
    simp only [hv]
    exact ⟨rfl, rfl, rfl, rfl, by rintro q ⟨⟩; exact ⟨rfl, hv, congrArg u.mem hback⟩⟩
  · rw [if_neg hd]
    by_cases hl : 'a'.toUInt8 ≤ u.mem u.s ||| 0x20 ∧ u.mem u.s ||| 0x20 ≤ 'f'.toUInt8
    · have hv := hexValue_of_letter hd hl
      rw [if_pos hl]
      simp only [hv]
      exact ⟨rfl, rfl, rfl, rfl, by rintro q ⟨⟩; exact ⟨rfl, hv, congrArg u.mem hback⟩⟩
    · have hv := hexValue_of_neither hd hl
      rw [if_neg hl]
      simp only [hv]
      exact .put u _ _ (by rintro q ⟨⟩; rfl)

theorem Unescape.turn_second (hat : u.At (.second hi)) (hroom : u.d + 2 ≤ u.s ∨ u.s < u.d) :
    u.Does ((unescaper type).step (.second hi) (u.mem u.s)) (u.turn type) := by
  obtain ⟨hst, hx, hhi⟩ := hat
  have hput (ch : Byte) := Does.put u ch (some .usual) (by rintro q ⟨⟩; rfl)
  have hstop (ch : Byte) := Does.put u ch none (by rintro q ⟨⟩)
  have hkeep := Does.putQuoted hroom hhi
  simp only [Unescape.turn, hst, unescaper, hx]
  by_cases hd : '0'.toUInt8 ≤ u.mem u.s ∧ u.mem u.s ≤ '9'.toUInt8
  · rw [if_pos hd]
    simp only [hexValue_of_digit hd, unquoted_digit hi hd (ne_query_of_digit u.decoded hd)]
    split
    · split
      · exact hput _
      · exact hkeep
    · exact hput _
  · rw [if_neg hd]
    by_cases hl : 'a'.toUInt8 ≤ u.mem u.s ||| 0x20 ∧ u.mem u.s ||| 0x20 ≤ 'f'.toUInt8
    · rw [if_pos hl]
      simp only [hexValue_of_letter hd hl, unquoted_letter hi _ hd, ← UInt8.add_assoc]
      split
      · split
        · exact hstop _
        · exact hput _
      · split
        · split
          · exact hstop _
          · split
            · exact hput _
            · exact hkeep
        · exact hput _
    · rw [if_neg hl]
      simp only [hexValue_of_neither hd hl]
      exact ⟨rfl, rfl, rfl, rfl, by rintro q ⟨⟩; rfl⟩

theorem Unescape.turn_does (type : UInt32) (hat : u.At q)
    (hroom : u.d + q.credit ≤ u.s ∨ u.s < u.d) :
    u.Does ((unescaper type).step q (u.mem u.s)) (u.turn type) := by
  cases q with
  | usual => exact turn_usual hat
  | quoted => exact turn_quoted hat
  | second hi => exact turn_second hat hroom

theorem length_unquoted (type : UInt32) (hi lo ch : Byte) :
    let r := unquoted type hi lo ch
    r.1.length + (r.2.map Quoting.credit).getD 0 ≤ 3 := by
  simp only [unquoted]
  split
  · exact Nat.succ_le_succ (Nat.zero_le 2)
  · split
    · exact Nat.le_refl 3
    · exact Nat.succ_le_succ (Nat.zero_le 2)

theorem unescaper_step_length (type : UInt32) (q : Quoting) (ch : Byte) :
    let r := (unescaper type).step q ch
    r.1.length + (r.2.map Quoting.credit).getD 0 ≤ q.credit + 1 := by
  cases q with
  | usual =>
    simp only [unescaper]
    split
    · exact Nat.le_refl 1
    · split
      · exact Nat.le_refl 1
      · exact Nat.le_refl 1
  | quoted =>
    simp only [unescaper]
    split
    · exact Nat.le_refl 2
    · exact Nat.le_succ 1
  | second hi =>
    simp only [unescaper]
    split
    · exact length_unquoted type hi ch _
    · exact Nat.zero_le 3

theorem unescaper_grows (type : UInt32) : (unescaper type).Grows 1 Quoting.credit := by
  constructor
  · intro q ch out h
    have hl := unescaper_step_length type q ch
    rw [h] at hl
    exact hl
  · intro q ch out q' h
    have hl := unescaper_step_length type q ch
    rw [h] at hl
    exact hl

theorem Unescape.loop_eq (type : UInt32) (hat : u.At q)
    (hc : Transducer.Clear 1 q.credit size u.d u.s) :
    let v := loop type size u
    (v.mem, v.d, v.s) = (unescaper type).overCells q u.mem u.d u.s size := by
  induction size generalizing u q with
  | zero => rfl
  | succ size ih =>
    have hroom : u.d + q.credit ≤ u.s ∨ u.s < u.d := by
      rcases hc with hc | hc
      · left
        omega
      · right
        omega
    have hdoes := turn_does type hat hroom
    simp only [loop, Transducer.overCells]
    cases hq : (unescaper type).step q (u.mem u.s) with
    | mk out rest =>
      cases ht : u.turn type with
      | mk v done =>
        rw [hq, ht] at hdoes
        obtain ⟨hmem, hd, hs, hdone, hnext⟩ := hdoes
        cases rest with
        | none =>
          cases hdone
          simp only at hmem hd hs
          simp only [hmem, hd, hs]
        | some q' =>
          cases hdone
          have hg := (unescaper_grows type).next hq
          have hc' : Transducer.Clear 1 q'.credit size v.d v.s := by
            simp only at hd hs
            rw [hd, hs]
            rcases hc with hc | hc
            · left
              omega
            · right
              omega
          have hrest := ih (hnext q' rfl) hc'
          simp only at hmem hd hs
          simp only at hrest
          simp only [hrest, hmem, hd, hs]

/-- `ngx_unescape_uri` writes the unescaped text, in place too. -/
theorem ngxUnescapeUri_eq (m : Nat → Byte) (type : UInt32) (h : dst ≤ src ∨ src + size ≤ dst) :
    let bytes := Cells.read m src size
    let out := unescaped type bytes
    ngxUnescapeUri m dst src size type =
      (Cells.write m dst out, dst + out.length,
        src + (unescaper type).taken .usual bytes) := by
  have hc : Transducer.Clear 1 (Quoting.credit .usual) size dst src := by
    rcases h with h | h
    · left
      simp only [Quoting.credit]
      omega
    · exact .inr h
  have hloop := Unescape.loop_eq (u := ⟨m, dst, src, .usual, 0⟩) (q := .usual) type rfl hc
  exact hloop.trans (Transducer.overCells_eq (unescaper_grows type) Nat.one_pos m hc)

end

end TeleopLedBenchmarks
