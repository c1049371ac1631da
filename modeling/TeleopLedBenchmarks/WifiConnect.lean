import TeleopLedBenchmarks.Asio
import TeleopLedBenchmarks.Handles
import TeleopLedBenchmarks.Machine

namespace TeleopLedBenchmarks
set_option autoImplicit true

/-- `CONFIG_EXAMPLE_WIFI_CONN_MAX_RETRY`, which may be negative, `CONFIG_EXAMPLE_CONNECT_IPV4` and
`CONFIG_EXAMPLE_CONNECT_IPV6`. -/
structure WifiConfig where
  maxRetry : Int
  ipv4 : Bool
  ipv6 : Bool
  deriving DecidableEq, Repr

inductive EspErr
  | ok
  | fail
  | noMem
  | wifiNotStarted
  | other
  deriving DecidableEq, Repr

/-- `s_semph_get_ip_addrs` and `s_semph_get_ip6_addrs`. -/
inductive Semph
  | ipAddrs
  | ip6Addrs
  deriving DecidableEq, Repr

/-- The `example_handler_on_*` functions. -/
inductive WifiHandler
  | wifiDisconnect
  | staGotIp
  | wifiConnect
  | staGotIpv6
  deriving DecidableEq, Repr

/-- What the handlers are called for. `desc` is the description of the interface, and `preferred`
says that the address has the type `EXAMPLE_CONNECT_PREFERRED_IPV6_TYPE`. -/
inductive WifiEvent
  | staDisconnected (roaming : Bool)
  | staGotIp (desc : List Byte)
  | staConnected
  | gotIp6 (desc : List Byte) (preferred : Bool)
  deriving DecidableEq, Repr

/-- The statements that the main task and the event task interleave at. -/
inductive WifiOp
  | take (x : Semph)
  | checkRetryNum
  | countRetry (roaming : Bool)
  | reconnect
  | resetRetryNum
  | give (x : Semph)
  | unregister (h : WifiHandler)
  | delete (x : Semph)
  | wifiDisconnect
  deriving DecidableEq, Repr

/-- `strncmp(prefix, desc, strlen(prefix) - 1) == 0` -/
def exampleIsOurNetif (start desc : List Byte) : Bool :=
  start.take (start.length - 1) == desc.take (start.length - 1)

def exampleNetifDescSta : List Byte := chars "example_netif_sta"

/-- The last character is not compared. -/
example : exampleIsOurNetif exampleNetifDescSta (chars "example_netif_stX") = true := by decide

def WifiEvent.handler : WifiEvent → WifiHandler
  | .staDisconnected _ => .wifiDisconnect
  | .staGotIp _ => .staGotIp
  | .staConnected => .wifiConnect
  | .gotIp6 _ _ => .staGotIpv6

namespace WifiConfig

/-- The handlers in the order in which they are registered. -/
def handlers (c : WifiConfig) : List WifiHandler :=
  [.wifiDisconnect, .staGotIp, .wifiConnect] ++ if c.ipv6 then [.staGotIpv6] else []

def semphs (c : WifiConfig) : List Semph := .ipAddrs :: if c.ipv6 then [.ip6Addrs] else []

/-- The semaphores that `example_wifi_sta_do_connect` waits for. -/
def waited (c : WifiConfig) : List Semph :=
  (if c.ipv4 then [.ipAddrs] else []) ++ if c.ipv6 then [.ip6Addrs] else []

/-- `example_wifi_sta_do_connect` from `if (wait)` on. -/
def waits (c : WifiConfig) : List WifiOp := c.waited.map .take ++ [.checkRetryNum]

/-- `example_wifi_sta_do_disconnect` -/
def doDisconnect (c : WifiConfig) : List WifiOp :=
  c.handlers.map .unregister ++ c.semphs.map .delete ++ [.wifiDisconnect]

/-- `example_handler_on_wifi_disconnect` once it has failed too often. -/
def giveUp (c : WifiConfig) : List WifiOp := c.semphs.map .give ++ c.doDisconnect

end WifiConfig

def WifiEvent.ops : WifiEvent → List WifiOp
  | .staDisconnected roaming => [.countRetry roaming]
  | .staGotIp desc =>
    .resetRetryNum :: if exampleIsOurNetif exampleNetifDescSta desc then [.give .ipAddrs] else []
  | .staConnected => []
  | .gotIp6 desc preferred =>
    if exampleIsOurNetif exampleNetifDescSta desc && preferred then [.give .ip6Addrs] else []

/-- What the two tasks share. A pointer is not NULL if it is in `created`, and a semaphore is
available if it is in `given`. -/
structure WifiState where
  retryNum : Nat
  created : List Semph
  given : List Semph
  registered : List WifiHandler
  attempts : Nat  -- calls of `esp_wifi_connect`
  calls : List (HandleCall Semph)
  aborted : Bool
  deriving DecidableEq, Repr

/-- What comes after a statement. -/
inductive WifiNext
  | goOn
  | jump (ops : List WifiOp)
  | ret (err : EspErr)
  deriving DecidableEq, Repr

namespace WifiState

def new : WifiState := ⟨0, [], [], [], 0, [], false⟩

def create (s : WifiState) (x : Semph) : WifiState :=
  { s with created := x :: s.created, calls := s.calls ++ [.opened x] }

/-- `if (x) vSemaphoreDelete(x);`, which leaves the pointer as it is. What a later use of the
semaphore does is undefined: here it finds what was given, and `calls` shows it. -/
def delete (s : WifiState) (x : Semph) : WifiState :=
  if x ∈ s.created then { s with calls := s.calls ++ [.closed x] } else s

/-- `if (x) xSemaphoreGive(x);` -/
def give (s : WifiState) (x : Semph) : WifiState :=
  if x ∈ s.created then
    { s with given := s.given.insert x, calls := s.calls ++ [.used x] }
  else s

/-- `ESP_ERROR_CHECK` of a call that returns `r`. -/
def errorCheck (s : WifiState) (r : EspErr) : WifiState := { s with aborted := r ≠ .ok }

section
variable (s : WifiState) (x : Semph)

theorem give_eq : s.give x = { s with
    given := if x ∈ s.created then s.given.insert x else s.given
    calls := if x ∈ s.created then s.calls ++ [.used x] else s.calls } := by
  unfold give
  split
  · rfl
  · rfl

theorem delete_eq : s.delete x = { s with
    calls := if x ∈ s.created then s.calls ++ [.closed x] else s.calls } := by
  unfold delete
  split
  · rfl
  · rfl

end

end WifiState

/-- One statement, where the call it makes returns `r`. A semaphore that is not available blocks. -/
def WifiOp.exec (c : WifiConfig) (r : EspErr) (s : WifiState) :
    WifiOp → Option (WifiState × WifiNext)
  | .take x =>
    if x ∈ s.given then
      some ({ s with given := s.given.erase x, calls := s.calls ++ [.used x] }, .goOn)
    else none
  | .checkRetryNum => some (s, .ret (if c.maxRetry < s.retryNum then .fail else .ok))
  | .countRetry roaming =>
    let s := { s with retryNum := s.retryNum + 1 }
    some (s, .jump (if c.maxRetry < s.retryNum then c.giveUp
      else if roaming then [] else [.reconnect]))
  | .reconnect =>
    let s := { s with attempts := s.attempts + 1 }
    some (if r = .wifiNotStarted then s else s.errorCheck r, .goOn)
  | .resetRetryNum => some ({ s with retryNum := 0 }, .goOn)
  | .give x => some (s.give x, .goOn)
  | .unregister h =>
    some ({ s with registered := s.registered.filter (· ≠ h) }.errorCheck r, .goOn)
  | .delete x => some (s.delete x, .goOn)
  | .wifiDisconnect => some (s, .goOn)

/-- The main task, with what `example_wifi_sta_do_connect` has returned, and the event task, with
the events it has handled, the latest one first. -/
structure Wifi where
  state : WifiState
  main : List WifiOp
  result : Option EspErr
  event : List WifiOp
  handled : List WifiEvent
  deriving DecidableEq, Repr

/-- How the calls of `example_wifi_sta_do_connect` end before it waits: both
`xSemaphoreCreateBinary`, the first of the checked calls that fails, `esp_wifi_connect`. -/
structure WifiOutcome where
  ipAddrs : Bool
  ip6Addrs : Bool
  checked : EspErr
  connect : EspErr
  deriving DecidableEq, Repr

/-- `example_wifi_sta_do_connect` up to its waits. No event comes before `esp_wifi_connect`. -/
def exampleWifiStaDoConnect (c : WifiConfig) (wait : Bool) (o : WifiOutcome) (s : WifiState) :
    Wifi :=
  if wait ∧ ¬o.ipAddrs then ⟨s, [], some .noMem, [], []⟩
  else
    let s := if wait then s.create .ipAddrs else s
    if wait ∧ c.ipv6 ∧ ¬o.ip6Addrs then ⟨s.delete .ipAddrs, [], some .noMem, [], []⟩
    else
      let s := if wait ∧ c.ipv6 then s.create .ip6Addrs else s
      let s := { s with retryNum := 0 }
      if o.checked ≠ .ok then ⟨s.errorCheck o.checked, [], none, [], []⟩
      else
        let s := { s with registered := c.handlers, attempts := s.attempts + 1 }
        if o.connect ≠ .ok then ⟨s, [], some o.connect, [], []⟩
        else if wait then ⟨s, c.waits, none, [], []⟩
        else ⟨s, [], some .ok, [], []⟩

/-- What `example_wifi_connect` starts with. -/
def exampleWifiConnect (c : WifiConfig) (o : WifiOutcome) : Wifi :=
  exampleWifiStaDoConnect c true o .new

/-- A task takes a statement, the event task is handed an event, or the main task shuts down. -/
inductive WifiStep
  | main (r : EspErr)
  | event (r : EspErr)
  | dispatch (e : WifiEvent)
  | shutdown
  deriving DecidableEq, Repr

namespace Wifi

def afterMain (s : Wifi) (ops : List WifiOp) : WifiState × WifiNext → Wifi
  | (t, .goOn) => { s with state := t, main := ops }
  | (t, .jump ops) => { s with state := t, main := ops }
  | (t, .ret err) => { s with state := t, main := [], result := some err }

def afterEvent (s : Wifi) (ops : List WifiOp) : WifiState × WifiNext → Wifi
  | (t, .goOn) => { s with state := t, event := ops }
  | (t, .jump ops) => { s with state := t, event := ops }
  | (t, .ret _) => { s with state := t, event := [] }

section
variable (s : Wifi) (ops : List WifiOp) (q : WifiState × WifiNext)

@[simp] theorem afterMain_state : (s.afterMain ops q).state = q.1 := by
  unfold afterMain
  split <;> rfl

@[simp] theorem afterMain_event : (s.afterMain ops q).event = s.event := by
  unfold afterMain
  split <;> rfl

@[simp] theorem afterMain_handled : (s.afterMain ops q).handled = s.handled := by
  unfold afterMain
  split <;> rfl

@[simp] theorem afterEvent_state : (s.afterEvent ops q).state = q.1 := by
  unfold afterEvent
  split <;> rfl

@[simp] theorem afterEvent_main : (s.afterEvent ops q).main = s.main := by
  unfold afterEvent
  split <;> rfl

@[simp] theorem afterEvent_result : (s.afterEvent ops q).result = s.result := by
  unfold afterEvent
  split <;> rfl

@[simp] theorem afterEvent_handled : (s.afterEvent ops q).handled = s.handled := by
  unfold afterEvent
  split <;> rfl

end

end Wifi

/-- The two tasks in any interleaving. Once `example_wifi_sta_do_connect` has returned, the main
task may call `example_wifi_sta_do_disconnect`, and do so again. -/
def wifi (c : WifiConfig) : Machine Wifi WifiStep where
  step s e :=
    if s.state.aborted then none
    else match e with
      | .main r => match s.main with
        | [] => none
        | op :: ops => (op.exec c r s.state).map (s.afterMain ops)
      | .event r => match s.event with
        | [] => none
        | op :: ops => (op.exec c r s.state).map (s.afterEvent ops)
      | .dispatch e =>
        if s.event = [] ∧ e.handler ∈ s.state.registered then
          some { s with event := e.ops, handled := e :: s.handled }
        else none
      | .shutdown =>
        if s.main = [] ∧ s.result ≠ none then some { s with main := c.doDisconnect } else none

end TeleopLedBenchmarks
