import TeleopLedBenchmarks.Asio
import TeleopLedBenchmarks.Transducer

namespace TeleopLedBenchmarks
set_option autoImplicit true

/-- The `NGX_ESCAPE_*` constants. -/
inductive EscapeType
  | uri
  | args
  | uriComponent
  | html
  | refresh
  | memcached
  | mailAuth
  deriving DecidableEq, Repr

/-- The bitmaps of `ngx_escape_uri`, one bit for each byte. -/
def EscapeType.map : EscapeType → List UInt32
  | .uri => [0xffffffff, 0xd000002d, 0x50000000, 0xb8000001,
      0xffffffff, 0xffffffff, 0xffffffff, 0xffffffff]
  | .args => [0xffffffff, 0xd800086d, 0x50000000, 0xb8000001,
      0xffffffff, 0xffffffff, 0xffffffff, 0xffffffff]
  | .uriComponent => [0xffffffff, 0xfc009fff, 0x78000001, 0xb8000001,
      0xffffffff, 0xffffffff, 0xffffffff, 0xffffffff]
  | .html => [0xffffffff, 0x500000ad, 0x50000000, 0xb8000001,
      0xffffffff, 0xffffffff, 0xffffffff, 0xffffffff]
  | .refresh => [0xffffffff, 0x50000085, 0x50000000, 0xd8000001,
      0xffffffff, 0xffffffff, 0xffffffff, 0xffffffff]
  | .memcached | .mailAuth => [0xffffffff, 0x00000021, 0x00000000, 0x00000000,
      0x00000000, 0x00000000, 0x00000000, 0x00000000]

/-- `escape[*src >> 5] & (1U << (*src & 0x1f))` -/
def EscapeType.escapes (type : EscapeType) (b : Byte) : Bool :=
  type.map.getD (b >>> 5).toNat 0 &&& (1 <<< (b &&& 0x1f).toUInt32) != 0

def hex : List Byte := chars "0123456789ABCDEF"

def hexDigit (n : Byte) : Byte := hex.getD n.toNat 0

/-- The loop of `ngx_escape_uri` when `dst` is NULL. -/
def escapeCount (type : EscapeType) (m : Nat → Byte) (src : Nat) (n : UInt32) : Nat → UInt32
  | 0 => n
  | size + 1 =>
    escapeCount type m (src + 1) (if type.escapes (m src) then n + 1 else n) size

/-- The loop of `ngx_escape_uri` when `dst` is not NULL. It reads `*src` again after each store. -/
def escapeLoop (type : EscapeType) (m : Nat → Byte) (dst src : Nat) : Nat → (Nat → Byte) × Nat
  | 0 => (m, dst)
  | size + 1 =>
    if type.escapes (m src) then
      let m := Function.update m dst '%'.toUInt8
      let m := Function.update m (dst + 1) (hexDigit (m src >>> 4))
      let m := Function.update m (dst + 2) (hexDigit (m src &&& 0xf))
      escapeLoop type m (dst + 3) (src + 1) size
    else
      escapeLoop type (Function.update m dst (m src)) (dst + 1) (src + 1) size

/-- `none` is NULL. The result is the memory and the value returned. -/
def ngxEscapeUri (m : Nat → Byte) (dst : Option Nat) (src size : Nat) (type : EscapeType) :
    (Nat → Byte) × Nat :=
  match dst with
  | none => (m, (escapeCount type m src 0 size).toNat)
  | some dst => escapeLoop type m dst src size

def exampleUriEncode (m : Nat → Byte) (dest src : Option Nat) (len : Nat) :
    (Nat → Byte) × UInt32 :=
  match dest, src with
  | some dest, some src =>
    let (m, ret) := ngxEscapeUri m (some dest) src len .uriComponent
    (m, UInt32.ofNat (ret - dest))
  | _, _ => (m, 0)

/-- A byte as it stands in an escaped text. -/
def escapedByte (type : EscapeType) (b : Byte) : List Byte :=
  if type.escapes b then ['%'.toUInt8, hexDigit (b >>> 4), hexDigit (b &&& 0xf)] else [b]

def escaped (type : EscapeType) (bytes : List Byte) : List Byte :=
  bytes.flatMap (escapedByte type)

def escaper (type : EscapeType) : Transducer Unit Byte Byte where
  step _ b := (escapedByte type b, some ())

section
variable {type : EscapeType} {m : Nat → Byte}

@[simp] theorem escaped_nil (type : EscapeType) : escaped type [] = [] := rfl

@[simp] theorem escaped_cons (type : EscapeType) (b : Byte) (bs : List Byte) :
    escaped type (b :: bs) = escapedByte type b ++ escaped type bs := rfl

theorem length_escapedByte (type : EscapeType) (b : Byte) :
    (escapedByte type b).length = 1 + 2 * if type.escapes b then 1 else 0 := by
  rw [escapedByte]
  split
  · rfl
  · rfl

theorem length_escaped (type : EscapeType) (bs : List Byte) :
    (escaped type bs).length = bs.length + 2 * bs.countP type.escapes := by
  induction bs with
  | nil => rfl
  | cons b bs ih =>
    rw [escaped_cons, List.length_append, length_escapedByte, ih, List.countP_cons,
      List.length_cons]
    omega

theorem run_escaper (type : EscapeType) (bs : List Byte) :
    (escaper type).run () bs = escaped type bs := by
  induction bs with
  | nil => rfl
  | cons b bs ih => exact congrArg (escapedByte type b ++ ·) ih

theorem escaper_grows (type : EscapeType) : (escaper type).Grows 3 fun _ => 0 := by
  have hl (b : Byte) : (escapedByte type b).length ≤ 3 := by
    rw [length_escapedByte]
    split <;> omega
  constructor
  · intro s b out h
    cases h
  · intro s b out s' h
    cases h
    exact Nat.le_trans (hl b) (by omega)

theorem escapeLoop_succ (h : dst + 2 ≤ src ∨ src < dst) (size : Nat) :
    let out := escapedByte type (m src)
    escapeLoop type m dst src (size + 1) =
      escapeLoop type (Cells.write m dst out) (dst + out.length) (src + 1) size := by
  have h₀ : src ≠ dst := by omega
  have h₁ : src ≠ dst + 1 := by omega
  rw [escapeLoop, escapedByte]
  split
  · simp only [Function.update_of_ne h₀, Function.update_of_ne h₁]
    rfl
  · rfl

theorem escapeLoop_eq (type : EscapeType) (m : Nat → Byte)
    (h : Transducer.Clear 3 0 size dst src) :
    let r := (escaper type).overCells () m dst src size
    escapeLoop type m dst src size = (r.1, r.2.1) := by
  induction size generalizing m dst src with
  | zero => rfl
  | succ size ih =>
    have hl := (escaper_grows type).next (s := ()) (a := m src) rfl
    have hroom : dst + 2 ≤ src ∨ src < dst := by
      rcases h with h | h
      · left
        omega
      · right
        omega
    have hc : Transducer.Clear 3 0 size (dst + (escapedByte type (m src)).length) (src + 1) := by
      rcases h with h | h
      · left
        omega
      · right
        omega
    exact (escapeLoop_succ hroom size).trans (ih _ hc)

/-- `ngx_escape_uri` writes the escaped text, also in a buffer that overlaps the source, as long
as the source ends where three bytes for each of its own would end, or later. -/
theorem ngxEscapeUri_some (type : EscapeType) (m : Nat → Byte)
    (h : Transducer.Clear 3 0 size dst src) :
    let out := escaped type (Cells.read m src size)
    ngxEscapeUri m (some dst) src size type = (Cells.write m dst out, dst + out.length) := by
  have he := Transducer.overCells_eq (s := ()) (escaper_grows type) (by omega) m h
  rw [run_escaper] at he
  have hl := escapeLoop_eq type m h
  rw [he] at hl
  exact hl

theorem escapeCount_eq (type : EscapeType) (m : Nat → Byte) (src size : Nat) (n : UInt32) :
    escapeCount type m src n size =
      n + UInt32.ofNat ((Cells.read m src size).countP type.escapes) := by
  induction size generalizing src n with
  | zero => exact (UInt32.add_zero n).symm
  | succ size ih =>
    rw [escapeCount, ih, Cells.read, List.countP_cons]
    split
    · rw [UInt32.ofNat_add, UInt32.add_assoc, UInt32.add_comm 1]
      rfl
    · rfl

end

end TeleopLedBenchmarks
