import Mathlib.Data.List.Basic
import Mathlib.Tactic.Ring
import TeleopLedBenchmarks.Rounding

namespace TeleopLedBenchmarks
set_option autoImplicit true

inductive ConnectionType
  | webSocket
  | customTcp
  deriving DecidableEq, Repr

/-- Ticks of `std::chrono::steady_clock`, which are nanoseconds, since its epoch. -/
abbrev Time := Int

/-- The number that a `std::chrono::duration<double, std::milli>` holds. -/
abbrev Duration := ℚ

/-- A difference of two readings, converted to such a duration: the count becomes a `double`, and
the quotient is one. -/
def Duration.ofTicks (ticks : Int) : Duration := roundTo 53 (roundTo 53 ticks / 1000000)

namespace Duration

/-- The exact value. -/
def milliseconds (ticks : Int) : ℚ := ticks / 1000000

variable {ticks : Int}

theorem milliseconds_add (ticks ticks' : Int) :
    milliseconds (ticks + ticks') = milliseconds ticks + milliseconds ticks' := by
  rw [milliseconds, Int.cast_add, add_div, milliseconds, milliseconds]

theorem milliseconds_le {ticks' : Int} (h : ticks ≤ ticks') :
    milliseconds ticks ≤ milliseconds ticks' :=
  div_le_div_of_nonneg_right (Int.cast_le.2 h) (by norm_num)

theorem ofTicks_nonneg (h : 0 ≤ ticks) : 0 ≤ ofTicks ticks :=
  roundTo_nonneg 53 (div_nonneg (roundTo_nonneg 53 (Int.cast_nonneg h)) (by norm_num))

/-- The two roundings change the milliseconds by the factor `1 ± 2⁻⁵³` each. -/
theorem ofTicks_le (h : 0 ≤ ticks) :
    ofTicks ticks ≤ milliseconds ticks * (1 + 1 / 2 ^ 53) ^ 2 := by
  have ht : (0 : ℚ) ≤ ticks := Int.cast_nonneg h
  calc ofTicks ticks
      ≤ roundTo 53 ticks / 1000000 * (1 + 1 / 2 ^ 53) :=
        roundTo_le 53 (div_nonneg (roundTo_nonneg 53 ht) (by norm_num))
    _ ≤ (ticks : ℚ) * (1 + 1 / 2 ^ 53) / 1000000 * (1 + 1 / 2 ^ 53) := by
        gcongr
        exact roundTo_le 53 ht
    _ = milliseconds ticks * (1 + 1 / 2 ^ 53) ^ 2 := by
        rw [milliseconds]
        ring

theorem le_ofTicks (h : 0 ≤ ticks) :
    milliseconds ticks * (1 - 1 / 2 ^ 53) ^ 2 ≤ ofTicks ticks := by
  have ht : (0 : ℚ) ≤ ticks := Int.cast_nonneg h
  calc milliseconds ticks * (1 - 1 / 2 ^ 53) ^ 2
      = (ticks : ℚ) * (1 - 1 / 2 ^ 53) / 1000000 * (1 - 1 / 2 ^ 53) := by
        rw [milliseconds]
        ring
    _ ≤ roundTo 53 ticks / 1000000 * (1 - 1 / 2 ^ 53) := by
        have hp : (0 : ℚ) ≤ 1 - 1 / 2 ^ 53 := by norm_num
        gcongr
        exact le_roundTo 53 ht
    _ ≤ ofTicks ticks := le_roundTo 53 (div_nonneg (roundTo_nonneg 53 ht) (by norm_num))

end Duration

abbrev Byte := UInt8

/-- The bytes of an ASCII string literal without its terminating NUL. -/
def chars (s : String) : List Byte := s.toList.map fun c => UInt8.ofNat c.toNat

/-- `asio::buffer` of a string literal: the array, so the NUL is part of it. -/
def asioBuffer (s : String) : List Byte := chars s ++ [0]

/-- What ends the process or its defined behaviour. -/
inductive Fault
  | nullDereference
  | abort
  deriving DecidableEq, Repr

inductive IoError
  | websocketClosed
  | other
  deriving DecidableEq, Repr

/-- `boost::system::error_code`: `none` converts to `false`. -/
abbrev ErrorCode := Option IoError

structure TcpSocket where
  isOpen : Bool
  deriving DecidableEq, Repr

/-- `websocket::stream<tcp::socket>`. -/
structure WsStream where
  nextLayer : TcpSocket
  deriving DecidableEq, Repr

/-- An outstanding `async_read` and the bytes it has stored so far. -/
structure ReadOp where
  conn : ConnectionType
  got : Nat
  deriving DecidableEq, Repr

/-- An outstanding `async_write` and the bytes it has not handed to the network yet. -/
structure WriteOp where
  conn : ConnectionType
  left : List Byte
  deriving DecidableEq, Repr

/-- The part of `asio::io_context` the program sees: its stop flag, the posted
`runAppLoop` handlers and the operations whose completion handler has not run. -/
structure IoContext where
  stopped : Bool
  posted : Nat
  accepts : List ConnectionType
  reads : List ReadOp
  writes : List WriteOp
  deriving DecidableEq, Repr

namespace IoContext

def new : IoContext := ⟨false, 0, [], [], []⟩

def asyncAccept (ioc : IoContext) (c : ConnectionType) : IoContext :=
  { ioc with accepts := ioc.accepts ++ [c] }

def asyncRead (ioc : IoContext) (c : ConnectionType) : IoContext :=
  { ioc with reads := ioc.reads ++ [⟨c, 0⟩] }

def asyncWrite (ioc : IoContext) (c : ConnectionType) (buffer : List Byte) : IoContext :=
  { ioc with writes := ioc.writes ++ [⟨c, buffer⟩] }

def post (ioc : IoContext) : IoContext := { ioc with posted := ioc.posted + 1 }

def stop (ioc : IoContext) : IoContext := { ioc with stopped := true }

end IoContext

/-- The pointee of a `std::unique_ptr`. -/
def deref : Option α → Except Fault α
  | some x => .ok x
  | none => .error .nullDereference

@[simp] theorem deref_some (x : α) : deref (some x) = .ok x := rfl

end TeleopLedBenchmarks
