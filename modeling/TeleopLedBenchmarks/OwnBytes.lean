import Mathlib.Data.List.TakeWhile
import TeleopLedBenchmarks.HandlerEffect

namespace TeleopLedBenchmarks
set_option autoImplicit true

/-- An event without the memory behind its bytes. -/
structure OwnEvent where
  id : WebsocketEventId
  opCode : Byte
  bytes : List Byte
  payloadLen : Nat
  payloadOffset : Nat
  errorHandle : ErrorHandle
  deriving DecidableEq, Repr

/-- The event in a receive buffer that goes on with `tail`. -/
def OwnEvent.inBuffer (e : OwnEvent) (tail : List Byte) : WebsocketEventId × WebsocketEventData :=
  (e.id, { opCode := e.opCode, dataPtr := e.bytes ++ tail, dataLen := e.bytes.length,
           payloadLen := e.payloadLen, payloadOffset := e.payloadOffset,
           errorHandle := e.errorHandle })

/-- What one call of the handler shows: its replies and log lines, whether it took the branch
for JSON, and whether it came back. -/
structure HandlerObservation where
  outputs : List Output
  jsonBranch : Bool
  fault : Option Fault
  deriving DecidableEq, Repr

/-- What of a parsed payload the handler makes use of. -/
structure Users where
  parsed : Bool
  lines : List Output
  complete : Bool
  deriving DecidableEq, Repr

def usersSeen (root : Option CJson) : Users := ⟨root.isSome, userLines root, allUsers root⟩

section
-- `cJSON_Parse` on the characters of a string.
variable (parse : List Byte → Option CJson)

/-- `cJSON_Parse` on memory: it reads up to the first NUL. -/
def parseCString (mem : List Byte) : Option CJson := parse (mem.takeWhile (· ≠ 0))

/-- The observations of a run. `buffer n` is what follows the bytes of event `n`. -/
def observe (buffer : Nat → List Byte) (d : Device) : List OwnEvent → List HandlerObservation
  | [] => []
  | e :: es =>
    match (websocketApp (parseCString parse)).step d (e.inBuffer (buffer 0)) with
    | none => []
    | some d' =>
      ⟨d'.outputs.drop d.outputs.length,
        e.id = .data && (parseCString parse (e.bytes ++ buffer 0)).isSome, d'.fault⟩ ::
        observe (fun n => buffer (n + 1)) d' es

/-- Two runs that agree on the events' own bytes look the same. -/
def OwnBytesOnly (es : List OwnEvent) : Prop :=
  ∀ buffer₁ buffer₂, observe parse buffer₁ .new es = observe parse buffer₂ .new es

/-- What `cJSON_Parse` makes of the bytes does not change with what follows them. -/
def Decided (bytes : List Byte) : Prop :=
  ∀ tail, usersSeen (parseCString parse (bytes ++ tail)) = usersSeen (parseCString parse bytes)

/-- The events up to the first that crashes the handler when nothing follows its bytes. -/
def handled : List OwnEvent → List OwnEvent
  | [] => []
  | e :: es => e :: if crashes (parseCString parse) (e.inBuffer []) then [] else handled es

end

section
variable {parse : List Byte → Option CJson}

theorem Decided.of_nul (h : 0 ∈ bytes) : Decided parse bytes := by
  intro tail
  have hcut : (bytes ++ tail).takeWhile (· ≠ 0) = bytes.takeWhile (· ≠ 0) := by
    induction bytes with
    | nil => cases h
    | cons b bytes ih =>
      by_cases hb : b = 0
      · subst hb
        rfl
      · have hmem : 0 ∈ bytes := by
          obtain h | h := List.mem_cons.1 h
          · exact (hb h.symm).elim
          · exact h
        rw [List.cons_append, List.takeWhile_cons_of_pos (by simpa using hb),
          List.takeWhile_cons_of_pos (by simpa using hb), ih hmem]
  rw [parseCString, parseCString, hcut]

/-- What a call of the handler shows, whatever happened before. -/
def observation (parse : List Byte → Option CJson) (e : OwnEvent) (tail : List Byte) :
    HandlerObservation :=
  let effect := eventEffect (parseCString parse) (e.inBuffer tail)
  ⟨effect.outputs, e.id = .data && (parseCString parse (e.bytes ++ tail)).isSome, effect.fault⟩

theorem observe_cons (buffer : Nat → List Byte) (os : List Output) (e : OwnEvent)
    (es : List OwnEvent) :
    observe parse buffer ⟨os, none⟩ (e :: es) = observation parse e (buffer 0) ::
      if crashes (parseCString parse) (e.inBuffer (buffer 0)) then []
      else observe parse (fun n => buffer (n + 1))
        ⟨os ++ (eventEffect (parseCString parse) (e.inBuffer (buffer 0))).outputs, none⟩ es := by
  have hs : (websocketApp (parseCString parse)).step ⟨os, none⟩ (e.inBuffer (buffer 0)) =
      some (websocketEventHandler (parseCString parse) (e.inBuffer (buffer 0)).1
        (e.inBuffer (buffer 0)).2 ⟨os, none⟩) := rfl
  rw [observe, hs, websocketEventHandler_eq]
  simp only [observation, List.drop_left]
  rw [eventEffect_fault]
  cases hc : crashes (parseCString parse) (e.inBuffer (buffer 0)) with
  | false => rfl
  | true => cases es <;> rfl

theorem replyToData_inBuffer (e : OwnEvent) (tail : List Byte) :
    replyToData (e.inBuffer tail).2 .new = replyToData (e.inBuffer []).2 .new := by
  obtain ⟨id, opCode, bytes, payloadLen, payloadOffset, errorHandle⟩ := e
  by_cases h2 : opCode = 0x2
  · simp [replyToData, OwnEvent.inBuffer, h2]
  · by_cases h8 : opCode = 0x8 ∧ bytes.length = 2
    · obtain ⟨a, b, rfl⟩ := List.length_eq_two.1 h8.2
      rfl
    · simp [replyToData, OwnEvent.inBuffer, h2, h8]

/-- What a data event shows, given what its payload parses to. -/
def OwnEvent.shows (e : OwnEvent) (users : Users) : HandlerObservation :=
  let outputs := (replyToData (e.inBuffer []).2 .new).outputs ++ users.lines
  if users.complete then
    ⟨outputs ++ [.logLengths e.payloadLen e.bytes.length e.payloadOffset, .resetTimer],
      users.parsed, none⟩
  else ⟨outputs, users.parsed, some .nullDereference⟩

theorem OwnEvent.shows_injective {e : OwnEvent} {users users' : Users}
    (h : e.shows users = e.shows users') : users = users' := by
  obtain ⟨parsed, lines, complete⟩ := users
  obtain ⟨parsed', lines', complete'⟩ := users'
  cases complete with
  | true =>
    cases complete' with
    | true =>
      simp only [OwnEvent.shows, if_true, HandlerObservation.mk.injEq, List.append_left_inj,
        List.append_right_inj, and_true] at h
      rw [h.1, h.2]
    | false => cases congrArg HandlerObservation.fault h
  | false =>
    cases complete' with
    | true => cases congrArg HandlerObservation.fault h
    | false =>
      simp only [OwnEvent.shows, Bool.false_eq_true, if_false, HandlerObservation.mk.injEq,
        List.append_right_inj, and_true] at h
      rw [h.1, h.2]

theorem observation_data (hid : e.id = .data) (tail : List Byte) :
    observation parse e tail = e.shows (usersSeen (parseCString parse (e.bytes ++ tail))) := by
  have he : e.inBuffer tail = (.data, (e.inBuffer tail).2) := by rw [OwnEvent.inBuffer, hid]
  have h := eventEffect_data (parseCString parse) (e.inBuffer tail).2
  rw [← he, replyToData_inBuffer] at h
  simp only [observation, h]
  simp only [hid, OwnEvent.shows, usersSeen, OwnEvent.inBuffer, decide_true, Bool.true_and]
  split
  · rfl
  · rw [List.append_nil]

theorem observation_eq_iff (e : OwnEvent) :
    (∀ tail₁ tail₂, observation parse e tail₁ = observation parse e tail₂) ↔
      (e.id = .data → Decided parse e.bytes) := by
  constructor
  · intro h hid tail
    have ht := h tail []
    rw [observation_data hid, observation_data hid, List.append_nil] at ht
    exact OwnEvent.shows_injective ht
  · intro h tail₁ tail₂
    by_cases hid : e.id = .data
    · rw [observation_data hid, observation_data hid, h hid tail₁, h hid tail₂]
    · obtain ⟨id, opCode, bytes, payloadLen, payloadOffset, errorHandle⟩ := e
      cases id with
      | data => exact (hid rfl).elim
      | begin | connected | disconnected | error | finish | other => rfl

theorem crashes_eq_of_observation (h : observation parse e tail₁ = observation parse e tail₂) :
    crashes (parseCString parse) (e.inBuffer tail₁) =
      crashes (parseCString parse) (e.inBuffer tail₂) := by
  rw [crashes_eq_isSome, crashes_eq_isSome]
  exact congrArg (fun o : HandlerObservation => o.fault.isSome) h

theorem observe_outputs (buffer : Nat → List Byte) (os os' : List Output) (es : List OwnEvent) :
    observe parse buffer ⟨os, none⟩ es = observe parse buffer ⟨os', none⟩ es := by
  induction es generalizing buffer os os' with
  | nil => rfl
  | cons e es ih => rw [observe_cons, observe_cons, ih]

/-- The buffer of a run one event longer, with nothing behind its first event. -/
def nothingThen (buffer : Nat → List Byte) : Nat → List Byte
  | 0 => []
  | n + 1 => buffer n

theorem ownBytesOnly_cons (e : OwnEvent) (es : List OwnEvent) : OwnBytesOnly parse (e :: es) ↔
    (e.id = .data → Decided parse e.bytes) ∧
      (crashes (parseCString parse) (e.inBuffer []) = false → OwnBytesOnly parse es) := by
  rw [← observation_eq_iff]
  simp only [OwnBytesOnly, Device.new, observe_cons, List.cons.injEq]
  constructor
  · intro h
    refine ⟨fun tail₁ tail₂ => (h (fun _ => tail₁) fun _ => tail₂).1, fun hc buffer₁ buffer₂ => ?_⟩
    have ht := (h (nothingThen buffer₁) (nothingThen buffer₂)).2
    simp only [nothingThen, hc, Bool.false_eq_true, if_false] at ht
    rw [observe_outputs _ [] _ es, ht, observe_outputs]
  · rintro ⟨ho, hes⟩ buffer₁ buffer₂
    refine ⟨ho _ _, ?_⟩
    rw [crashes_eq_of_observation (ho (buffer₁ 0) []),
      crashes_eq_of_observation (ho (buffer₂ 0) [])]
    cases hc : crashes (parseCString parse) (e.inBuffer []) with
    | true => rfl
    | false =>
      simp only [Bool.false_eq_true, if_false]
      rw [observe_outputs _ _ [] es, hes hc _ fun n => buffer₂ (n + 1), observe_outputs]

end

/-- With one parser the handler depends on the events' own bytes exactly if, for every data event
up to the first crash, what the parser makes of them does not change with what follows them. -/
theorem ownBytesOnly_iff (parse : List Byte → Option CJson) (es : List OwnEvent) :
    OwnBytesOnly parse es ↔
      ∀ e ∈ handled parse es, e.id = .data → Decided parse e.bytes := by
  induction es with
  | nil => exact iff_of_true (fun _ _ => rfl) (fun _ he => absurd he List.not_mem_nil)
  | cons e es ih =>
    rw [ownBytesOnly_cons, handled, List.forall_mem_cons]
    apply and_congr_right
    intro _
    cases crashes (parseCString parse) (e.inBuffer []) with
    | true => simp
    | false => simp [ih]

/-- A parser that takes one text for an empty list, and knows no other. -/
def emptyListAt (text : List Byte) (s : List Byte) : Option CJson :=
  if s = text then some (.array []) else none

theorem handled_subset (parse : List Byte → Option CJson) (es : List OwnEvent) :
    handled parse es ⊆ es := by
  induction es with
  | nil => exact List.Subset.refl _
  | cons e es ih =>
    rw [handled]
    split
    · exact List.cons_subset_cons e (List.nil_subset es)
    · exact List.cons_subset_cons e ih

theorem handled_emptyListAt (text : List Byte) (es : List OwnEvent) :
    handled (emptyListAt text) es = es := by
  have hall : ∀ s, allUsers (emptyListAt text s) = true := by
    intro s
    unfold emptyListAt
    split <;> rfl
  induction es with
  | nil => rfl
  | cons e es ih =>
    have hc : crashes (parseCString (emptyListAt text)) (e.inBuffer []) = false := by
      simp only [crashes, parseCString, hall, Bool.not_true, Bool.and_false]
    rw [handled, hc, ih]
    rfl

/-- Without a NUL among its own bytes, a payload may go on to the end of a text. -/
theorem nul_of_decided (h : Decided (emptyListAt (bytes ++ [1])) bytes) : 0 ∈ bytes := by
  by_contra hno
  have hcut : ∀ {s : List Byte}, 0 ∉ s → s.takeWhile (· ≠ 0) = s := by
    intro s hs
    apply List.takeWhile_eq_self_iff.2
    intro b hb
    exact decide_eq_true fun he => hs (he ▸ hb)
  have hlong : 0 ∉ bytes ++ [1] := by
    intro hm
    rcases List.mem_append.1 hm with hm | hm
    · exact hno hm
    · cases List.mem_singleton.1 hm
  have hparsed := congrArg Users.parsed (h [1])
  have hne : bytes ≠ bytes ++ [1] := by simp
  simp only [usersSeen, parseCString, hcut hno, hcut hlong, emptyListAt, if_true, if_neg hne,
    Option.isSome_some, Option.isSome_none] at hparsed
  cases hparsed

/-- The handler depends on the events' own bytes, whatever the parser makes of the characters up
to the first NUL, exactly if every data event has a NUL among its own bytes. -/
theorem own_bytes_iff (es : List OwnEvent) :
    (∀ parse : List Byte → Option CJson, OwnBytesOnly parse es) ↔
      ∀ e ∈ es, e.id = .data → 0 ∈ e.bytes := by
  constructor
  · intro h e he hid
    have hdecided := (ownBytesOnly_iff _ es).1 (h (emptyListAt (e.bytes ++ [1])))
    rw [handled_emptyListAt] at hdecided
    exact nul_of_decided (hdecided e he hid)
  · intro h parse
    rw [ownBytesOnly_iff]
    intro e he hid
    exact .of_nul (h e (handled_subset parse es he) hid)

/-- A text event with these bytes. -/
def ownText (bytes : List Byte) : OwnEvent where
  id := .data
  opCode := 0x1
  bytes := bytes
  payloadLen := bytes.length
  payloadOffset := 0
  errorHandle := ⟨false, 0, 0, 0, 0⟩

/-- `cJSON_Parse` on the texts of the example. -/
def parseBrackets (text : List Byte) : Option CJson :=
  if text = chars "[]" then some (.array []) else none

/-- After an empty list, a single bracket is taken for a list when the end of the earlier message
is still in the buffer. -/
theorem bracket_undecided :
    observe parseBrackets (fun n => if n = 0 then [] else chars "]") .new
        [ownText (chars "[]"), ownText (chars "[")] ≠
      observe parseBrackets (fun _ => []) .new [ownText (chars "[]"), ownText (chars "[")] ∧
    ¬OwnBytesOnly parseBrackets [ownText (chars "[]"), ownText (chars "[")] := by
  have hne : observe parseBrackets (fun n => if n = 0 then [] else chars "]") .new
        [ownText (chars "[]"), ownText (chars "[")] ≠
      observe parseBrackets (fun _ => []) .new [ownText (chars "[]"), ownText (chars "[")] := by
    decide
  exact ⟨hne, fun h => hne (h _ _)⟩

end TeleopLedBenchmarks
