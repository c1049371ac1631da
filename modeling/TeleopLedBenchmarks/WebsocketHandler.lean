import TeleopLedBenchmarks.Machine
import TeleopLedBenchmarks.Asio

namespace TeleopLedBenchmarks
set_option autoImplicit true

/-- A parsed JSON value, with what the ESP32 program looks at. -/
inductive CJson
  | null
  | bool
  | number
  | string (valuestring : List Byte)
  | array (items : List CJson)
  | object (members : List (List Byte × CJson))

namespace CJson

def children : CJson → List CJson
  | .array items => items
  | .object members => members.map Prod.snd
  | _ => []

def toLower (b : Byte) : Byte := if 65 ≤ b ∧ b ≤ 90 then b + 32 else b

/-- `cJSON_GetObjectItem`: the first member of that name, its case ignored. -/
def getObjectItem (elem : CJson) (name : List Byte) : Option CJson :=
  match elem with
  | .object members =>
    (members.find? fun m => m.1.map toLower == name.map toLower).map Prod.snd
  | _ => none

/-- The `valuestring` member, null on every node that is not a string. -/
def valuestring : CJson → Option (List Byte)
  | .string s => some s
  | _ => none

end CJson

inductive WebsocketEventId
  | begin
  | connected
  | disconnected
  | data
  | error
  | finish
  | other
  deriving DecidableEq, Repr

structure ErrorHandle where
  tcpTransport : Bool  -- `error_type == WEBSOCKET_ERROR_TYPE_TCP_TRANSPORT`
  espWsHandshakeStatusCode : Int
  espTlsLastEspErr : Int
  espTlsStackErr : Int
  espTransportSockErrno : Int
  deriving DecidableEq, Repr

/-- `esp_websocket_event_data_t`. `dataPtr` is the memory from the pointer on: only its first
`dataLen` bytes belong to the event. -/
structure WebsocketEventData where
  opCode : Byte
  dataPtr : List Byte
  dataLen : Nat
  payloadLen : Nat
  payloadOffset : Nat
  errorHandle : ErrorHandle
  deriving DecidableEq, Repr

/-- What the program does to the outside. A null `valuestring` is printed as such. -/
inductive Output
  | logInfo (text : String)
  | logErrorCode (message : String) (errorCode : Int)
  | logHex (bytes : List Byte)
  | logClosed (code : Nat)
  | logJson (id name : Option (List Byte))
  | logLengths (payloadLen dataLen payloadOffset : Nat)
  | sendText (bytes : List Byte)
  | resetTimer
  deriving DecidableEq, Repr

/-- `RECEIVED_MSG`. -/
def receivedMsg : List Byte := chars "received"

/-- The ESP32 program as its event handler sees it. -/
structure Device where
  outputs : List Output
  fault : Option Fault
  deriving DecidableEq, Repr

namespace Device

def new : Device := ⟨[], none⟩

def emit (d : Device) (o : Output) : Device := { d with outputs := d.outputs ++ [o] }

end Device

def logErrorIfNonzero (message : String) (errorCode : Int) (d : Device) : Device :=
  if errorCode ≠ 0 then d.emit (.logErrorCode message errorCode) else d

/-- The lines the disconnect and error cases share. -/
def logErrorHandle (h : ErrorHandle) (d : Device) : Device :=
  let d := logErrorIfNonzero "HTTP status code" h.espWsHandshakeStatusCode d
  if h.tcpTransport then
    let d := logErrorIfNonzero "reported from esp-tls" h.espTlsLastEspErr d
    let d := logErrorIfNonzero "reported from tls stack" h.espTlsStackErr d
    logErrorIfNonzero "captured as transport's socket errno" h.espTransportSockErrno d
  else d

/-- The loop over the children of a parsed payload. It dereferences both members. -/
def logUsers : List CJson → Device → Device
  | [], d => d
  | elem :: rest, d =>
    match elem.getObjectItem (chars "id"), elem.getObjectItem (chars "name") with
    | some id, some name => logUsers rest (d.emit (.logJson id.valuestring name.valuestring))
    | _, _ => { d with fault := some .nullDereference }

/-- The cascade over `op_code` and `data_len`. -/
def replyToData (data : WebsocketEventData) (d : Device) : Device :=
  if data.opCode = 0x2 then d.emit (.logHex (data.dataPtr.take data.dataLen))
  else if data.opCode = 0x08 ∧ data.dataLen = 2 then
    d.emit (.logClosed (256 * (data.dataPtr.getD 0 0).toNat + (data.dataPtr.getD 1 0).toNat))
  else d.emit (.sendText receivedMsg)

section
-- `cJSON_Parse` on the memory a pointer leads to.
variable (cJsonParse : List Byte → Option CJson)

def handleJson (data : WebsocketEventData) (d : Device) : Device :=
  match cJsonParse data.dataPtr with
  | some root => logUsers root.children d
  | none => d

def handleData (data : WebsocketEventData) (d : Device) : Device :=
  let d := handleJson cJsonParse data (replyToData data d)
  if d.fault.isSome then d
  else
    (d.emit (.logLengths data.payloadLen data.dataLen data.payloadOffset)).emit .resetTimer

def websocketEventHandler (eventId : WebsocketEventId) (data : WebsocketEventData)
    (d : Device) : Device :=
  match eventId with
  | .begin => d.emit (.logInfo "WEBSOCKET_EVENT_BEGIN")
  | .connected => d.emit (.logInfo "WEBSOCKET_EVENT_CONNECTED")
  | .disconnected =>
    logErrorHandle data.errorHandle (d.emit (.logInfo "WEBSOCKET_EVENT_DISCONNECTED"))
  | .data => handleData cJsonParse data d
  | .error => logErrorHandle data.errorHandle (d.emit (.logInfo "WEBSOCKET_EVENT_ERROR"))
  | .finish => d.emit (.logInfo "WEBSOCKET_EVENT_FINISH")
  | .other => d

/-- The device takes one event after another until it faults. -/
def websocketApp : Machine Device (WebsocketEventId × WebsocketEventData) where
  step d e :=
    if d.fault.isSome then none else some (websocketEventHandler cJsonParse e.1 e.2 d)

end

end TeleopLedBenchmarks
