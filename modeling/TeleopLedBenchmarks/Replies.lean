import TeleopLedBenchmarks.HandlerEffect

namespace TeleopLedBenchmarks
set_option autoImplicit true

/-- The bytes of one event, and what the receive buffer holds after them. -/
structure Chunk where
  data : List Byte
  beyond : List Byte
  deriving DecidableEq, Repr

/-- A WebSocket frame cut into events by a receive buffer of `size` bytes. Only a frame
without payload has an event without bytes. -/
structure Delivery (size : Nat) where
  fin : Bool
  opCode : Byte
  chunks : List Chunk
  chunks_ne_nil : chunks ≠ []
  fits : ∀ c ∈ chunks, c.data.length ≤ size
  split : chunks.length = 1 ∨ ∀ c ∈ chunks, c.data ≠ []

/-- What the client library delivers next: a frame, or an event that carries no data. -/
inductive Arrival (size : Nat)
  | frame (f : Delivery size)
  | event (id : WebsocketEventId) (data : WebsocketEventData) (noData : id ≠ .data)

def chunkEvents (opCode : Byte) (payloadLen : Nat) :
    Nat → List Chunk → List (WebsocketEventId × WebsocketEventData)
  | _, [] => []
  | offset, c :: cs =>
    (.data, { opCode, dataPtr := c.data ++ c.beyond, dataLen := c.data.length, payloadLen,
              payloadOffset := offset, errorHandle := ⟨false, 0, 0, 0, 0⟩ }) ::
      chunkEvents opCode payloadLen (offset + c.data.length) cs

def Delivery.payload (f : Delivery size) : List Byte := (f.chunks.map Chunk.data).flatten

def Arrival.events : Arrival size → List (WebsocketEventId × WebsocketEventData)
  | .frame f => chunkEvents f.opCode f.payload.length 0 f.chunks
  | .event id data _ => [(id, data)]

/-- The message that is open between two of its fragments. -/
inductive Assembly
  | closed
  | text
  | binary
  deriving DecidableEq, Repr

namespace Assembly

/-- The frame ends a text message. -/
def completes (m : Assembly) (f : Delivery size) : Prop :=
  f.fin = true ∧ (f.opCode = 0x1 ∨ f.opCode = 0x0 ∧ m = .text)

instance (m : Assembly) (f : Delivery size) : Decidable (m.completes f) :=
  inferInstanceAs (Decidable (_ ∧ _))

/-- Control frames may stand between the fragments of a message. -/
def next (m : Assembly) (f : Delivery size) : Assembly :=
  if f.opCode = 0x0 then if f.fin then .closed else m
  else if f.opCode = 0x1 then if f.fin then .closed else .text
  else if f.opCode = 0x2 then if f.fin then .closed else .binary
  else m

end Assembly

/-- The number of complete text messages. -/
def completeTexts : Assembly → List (Arrival size) → Nat
  | _, [] => 0
  | m, .frame f :: as => (if m.completes f then 1 else 0) + completeTexts (m.next f) as
  | m, .event _ _ _ :: as => completeTexts m as

def Device.replies (d : Device) : Nat := d.outputs.count (.sendText receivedMsg)

/-- The handler replies to a data event with this opcode and length. -/
def repliesTo (opCode : Byte) (dataLen : Nat) : Bool :=
  opCode ≠ 0x2 ∧ ¬(opCode = 0x8 ∧ dataLen = 2)

def Delivery.replies (f : Delivery size) : Nat :=
  f.chunks.countP fun c => repliesTo f.opCode c.data.length

def totalReplies : List (Arrival size) → Nat
  | [] => 0
  | .frame f :: as => f.replies + totalReplies as
  | .event _ _ _ :: as => totalReplies as

/-- The frame gets as many replies as it completes text messages. -/
def Delivery.RightlyAnswered (m : Assembly) (f : Delivery size) : Prop :=
  f.opCode = 0x2 ∨ f.opCode = 0x8 ∧ (∀ c ∈ f.chunks, c.data.length = 2) ∨
    m.completes f ∧ f.chunks.length = 1

def RightlyAnswered : Assembly → List (Arrival size) → Prop
  | _, [] => True
  | m, .frame f :: as => f.RightlyAnswered m ∧ RightlyAnswered (m.next f) as
  | m, .event _ _ _ :: as => RightlyAnswered m as

section
variable (cJsonParse : List Byte → Option CJson)

theorem count_replyToData (data : WebsocketEventData) :
    (replyToData data .new).outputs.count (.sendText receivedMsg) =
      (repliesTo data.opCode data.dataLen).toNat := by
  unfold replyToData repliesTo
  split
  · next h =>
    rw [h]
    rfl
  · next h =>
    split
    · next hc => simp [hc, Device.emit, Device.new]
    · next hc => simp [h, hc, Device.emit, Device.new]

theorem count_eventEffect (e : WebsocketEventId × WebsocketEventData) :
    (eventEffect cJsonParse e).outputs.count (.sendText receivedMsg) =
      if e.1 = .data then (repliesTo e.2.opCode e.2.dataLen).toNat else 0 := by
  obtain ⟨eventId, data⟩ := e
  by_cases hid : eventId = .data
  · subst hid
    have hlines : (userLines (cJsonParse data.dataPtr)).count (.sendText receivedMsg) = 0 :=
      List.count_eq_zero.2 (not_userLine nofun)
    rw [eventEffect_data, if_pos rfl, ← count_replyToData]
    split
    · simp [hlines]
    · simp [hlines]
  · rw [if_neg hid]
    exact List.count_eq_zero.2 (eventEffect_noData cJsonParse _ hid rfl)

theorem count_chunkEvents (opCode : Byte) (payloadLen offset : Nat) (chunks : List Chunk) :
    ((chunkEvents opCode payloadLen offset chunks).flatMap fun e =>
        (eventEffect cJsonParse e).outputs).count (.sendText receivedMsg) =
      chunks.countP fun c => repliesTo opCode c.data.length := by
  induction chunks generalizing offset with
  | nil => rfl
  | cons c cs ih =>
    rw [chunkEvents, List.flatMap_cons, List.count_append, ih, count_eventEffect, if_pos rfl,
      List.countP_cons, Nat.add_comm]
    cases repliesTo opCode c.data.length with
    | true => rfl
    | false => rfl

theorem count_arrivals (as : List (Arrival size)) :
    ((as.flatMap Arrival.events).flatMap fun e =>
        (eventEffect cJsonParse e).outputs).count (.sendText receivedMsg) = totalReplies as := by
  induction as with
  | nil => rfl
  | cons a as ih =>
    rw [List.flatMap_cons, List.flatMap_append, List.count_append, ih]
    cases a with
    | frame f =>
      rw [Arrival.events, count_chunkEvents]
      rfl
    | event id data noData =>
      rw [Arrival.events, List.flatMap_singleton, count_eventEffect, if_neg noData, Nat.zero_add]
      rfl

theorem replies_arrivals (as : List (Arrival size))
    (h : (websocketApp cJsonParse).run .new (as.flatMap Arrival.events) = some d) :
    d.replies = totalReplies as := by
  rw [Device.replies, (websocketApp_run h).1]
  exact count_arrivals cJsonParse as

end

section
variable {m : Assembly} {f : Delivery size}

theorem Delivery.replies_pos (f : Delivery size) (h : ∀ n, repliesTo f.opCode n = true) :
    f.replies = f.chunks.length := by
  apply List.countP_eq_length.2
  intro c _
  exact h _

theorem Assembly.completes.repliesTo (h : m.completes f) (n : Nat) :
    repliesTo f.opCode n = true := by
  obtain ⟨_, h | ⟨h, _⟩⟩ := h
  · simp [TeleopLedBenchmarks.repliesTo, h]
  · simp [TeleopLedBenchmarks.repliesTo, h]

theorem Delivery.length_pos (f : Delivery size) : 0 < f.chunks.length :=
  List.length_pos_iff.2 f.chunks_ne_nil

theorem Delivery.completes_le (m : Assembly) (f : Delivery size) :
    (if m.completes f then 1 else 0) ≤ f.replies := by
  split
  · next h =>
    rw [f.replies_pos h.repliesTo]
    exact f.length_pos
  · exact Nat.zero_le _

theorem Delivery.replies_eq_zero_iff : f.replies = 0 ↔
    f.opCode = 0x2 ∨ f.opCode = 0x8 ∧ ∀ c ∈ f.chunks, c.data.length = 2 := by
  rw [Delivery.replies, List.countP_eq_zero]
  obtain ⟨c, hc⟩ := List.exists_mem_of_ne_nil _ f.chunks_ne_nil
  by_cases h2 : f.opCode = 0x2
  · simp [repliesTo, h2]
  · by_cases h8 : f.opCode = 0x8
    · simp [repliesTo, h8]
    · simp only [repliesTo, h2, h8, false_and, or_false, iff_false]
      intro h
      simpa [h2, h8] using h c hc

theorem Delivery.rightlyAnswered_iff :
    f.replies = (if m.completes f then 1 else 0) ↔ f.RightlyAnswered m := by
  unfold Delivery.RightlyAnswered
  rw [← or_assoc, ← Delivery.replies_eq_zero_iff]
  split
  · next h =>
    have hr := f.replies_pos h.repliesTo
    have hp := f.length_pos
    constructor
    · intro he
      exact .inr ⟨h, by omega⟩
    · rintro (he | ⟨_, he⟩)
      · omega
      · omega
  · next h =>
    constructor
    · intro he
      exact .inl he
    · rintro (he | ⟨hc, _⟩)
      · exact he
      · exact (h hc).elim

theorem completeTexts_le (m : Assembly) (as : List (Arrival size)) :
    completeTexts m as ≤ totalReplies as := by
  induction as generalizing m with
  | nil => exact Nat.le_refl 0
  | cons a as ih =>
    cases a with
    | frame f => exact Nat.add_le_add (f.completes_le m) (ih _)
    | event id data noData => exact ih m

/-- Extra replies never make up for each other: the numbers agree only frame by frame. -/
theorem totalReplies_eq_iff (m : Assembly) (as : List (Arrival size)) :
    totalReplies as = completeTexts m as ↔ RightlyAnswered m as := by
  induction as generalizing m with
  | nil => simp [totalReplies, completeTexts, RightlyAnswered]
  | cons a as ih =>
    cases a with
    | event id data noData => exact ih m
    | frame f =>
      have hf := f.completes_le m
      have has := completeTexts_le (m.next f) as
      simp only [totalReplies, completeTexts, RightlyAnswered]
      rw [← Delivery.rightlyAnswered_iff, ← ih]
      omega

end

/-- The device sends one reply for each complete text message exactly if every frame is a
binary frame, a close frame that arrives two bytes at a time, or the last frame of a text
message that arrives in one event. -/
theorem one_reply_per_text_iff {cJsonParse : List Byte → Option CJson}
    (as : List (Arrival size))
    (h : (websocketApp cJsonParse).run .new (as.flatMap Arrival.events) = some d) :
    d.replies = completeTexts .closed as ↔ RightlyAnswered .closed as := by
  rw [replies_arrivals cJsonParse as h]
  exact totalReplies_eq_iff _ _

/-- A text message in one frame and one event. -/
def shortText : Arrival 1024 := .frame
  { fin := true, opCode := 0x1, chunks := [⟨chars "button clicked\n", []⟩]
    chunks_ne_nil := by decide, fits := by decide, split := by decide }

theorem one_reply_per_text_shortText :
    ∃ d, (websocketApp fun _ => none).run .new ([shortText].flatMap Arrival.events) = some d ∧
      (d.replies = completeTexts .closed [shortText] ↔ RightlyAnswered .closed [shortText]) := by
  obtain ⟨d, hd⟩ : ∃ d, (websocketApp fun _ => none).run .new
      ([shortText].flatMap Arrival.events) = some d := ⟨_, rfl⟩
  exact ⟨d, hd, one_reply_per_text_iff _ hd⟩

/-- A ping without payload. -/
def ping : Arrival 1024 := .frame
  { fin := true, opCode := 0x9, chunks := [⟨[], []⟩]
    chunks_ne_nil := by decide, fits := by decide, split := by decide }

/-- The device replies to a ping. -/
theorem ping_answered :
    ∃ d, (websocketApp fun _ => none).run .new ([ping].flatMap Arrival.events) = some d ∧
      d.replies = 1 ∧ completeTexts .closed [ping] = 0 :=
  ⟨_, rfl, by decide, by decide⟩

end TeleopLedBenchmarks
