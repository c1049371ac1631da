import TeleopLedBenchmarks.System
import TeleopLedBenchmarks.WebsocketHandler

namespace TeleopLedBenchmarks
set_option autoImplicit true

/-- The messages `esp_websocket_client_send_text` is asked to send. -/
def texts (outputs : List Output) : List (List Byte) :=
  outputs.filterMap fun
    | .sendText bytes => some bytes
    | _ => none

/-- The desktop program in `WEB_SOCKET` mode and the ESP32's WebSocket client at the other
end. -/
structure WsBench where
  desktop : System
  esp : Device
  lost : Nat  -- replies that `esp_websocket_client_send_text` did not get out
  deriving DecidableEq, Repr

/-- What the client library delivers: bytes of the desktop's commands, control frames, events
without data. `sent` says whether a text sent by the handler gets out. -/
inductive WsEvent
  | desktop (e : Event)
  | data (n : Nat) (beyond : List Byte) (sent : Bool)
  | control (opCode : Byte) (payload beyond : List Byte) (sent : Bool)
  | event (id : WebsocketEventId) (data : WebsocketEventData)
  deriving DecidableEq, Repr

namespace WsBench

def new : WsBench := ⟨.new .webSocket, .new, 0⟩

/-- The next `n` bytes of the frame that carries the current command. -/
def dataEvent (b : WsBench) (n : Nat) (beyond : List Byte) :
    WebsocketEventId × WebsocketEventData :=
  (.data, { opCode := 0x1, dataPtr := b.desktop.net.toPeer.take n ++ beyond, dataLen := n,
            payloadLen := blinkCommand.length,
            payloadOffset := b.desktop.net.peerReceived.length % blinkCommand.length,
            errorHandle := ⟨false, 0, 0, 0, 0⟩ })

def controlEvent (opCode : Byte) (payload beyond : List Byte) :
    WebsocketEventId × WebsocketEventData :=
  (.data, { opCode, dataPtr := payload ++ beyond, dataLen := payload.length,
            payloadLen := payload.length, payloadOffset := 0,
            errorHandle := ⟨false, 0, 0, 0, 0⟩ })

section
variable (cJsonParse : List Byte → Option CJson) (clock : Nat → Time)

/-- The handler runs on one event while the desktop is in state `w`. What it sends arrives as
messages, or is lost. -/
def handle (b : WsBench) (w : System) (e : WebsocketEventId × WebsocketEventData)
    (sent : Bool) : Option WsBench :=
  ((websocketApp cJsonParse).step b.esp e).bind fun d =>
    let msgs := texts (d.outputs.drop b.esp.outputs.length)
    if sent then
      ((system clock).run w (msgs.map .peerSendMessage)).map fun w => ⟨w, d, b.lost⟩
    else some ⟨w, d, b.lost + msgs.length⟩

end

end WsBench

/-- Both parties, any interleaving. A data event stays within one frame. -/
def wsBench (cJsonParse : List Byte → Option CJson) (clock : Nat → Time) :
    Machine WsBench WsEvent where
  step b
    | .desktop e =>
      if e.fromPeer then none
      else ((system clock).step b.desktop e).map fun w => { b with desktop := w }
    | .data n beyond sent =>
      if n ≤ blinkCommand.length - b.desktop.net.peerReceived.length % blinkCommand.length then
        ((system clock).step b.desktop (.peerRecv n)).bind fun w =>
          b.handle cJsonParse clock w (b.dataEvent n beyond) sent
      else none
    | .control opCode payload beyond sent =>
      if opCode = 0x8 ∨ opCode = 0x9 ∨ opCode = 0xA then
        b.handle cJsonParse clock b.desktop (WsBench.controlEvent opCode payload beyond) sent
      else none
    | .event id data =>
      if id = .data then none else b.handle cJsonParse clock b.desktop (id, data) true

end TeleopLedBenchmarks
