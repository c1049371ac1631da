import Mathlib.Data.List.TakeWhile
import TeleopLedBenchmarks.HandlerEffect

namespace TeleopLedBenchmarks
set_option autoImplicit true

/-- No null node was dereferenced and no null string was logged. -/
def Device.JsonSafe (d : Device) : Prop :=
  d.fault = none ∧ ∀ id name, .logJson id name ∈ d.outputs → id.isSome ∧ name.isSome

/-- The node has an `id` and a `name`, and both are strings. -/
def CJson.IsUser (elem : CJson) : Prop :=
  ∃ id name, elem.getObjectItem (chars "id") = some (.string id) ∧
    elem.getObjectItem (chars "name") = some (.string name)

section
variable {elem : CJson}

theorem CJson.valuestring_isSome {node : CJson} :
    node.valuestring.isSome = true ↔ ∃ s, node = .string s := by
  cases node with
  | string s => exact iff_of_true rfl ⟨s, rfl⟩
  | null | bool | number | array | object => exact iff_of_false nofun nofun

theorem CJson.isUser_iff :
    elem.IsUser ↔ elem.hasUser = true ∧ ∀ id name, elem.userLine = .logJson id name →
      id.isSome ∧ name.isSome := by
  unfold CJson.IsUser CJson.hasUser CJson.userLine
  cases hid : elem.getObjectItem (chars "id") with
  | none => simp
  | some id =>
    cases hname : elem.getObjectItem (chars "name") with
    | none => simp
    | some name => simp [CJson.valuestring_isSome]

/-- What the loop does with a payload is safe exactly if it walks over users only. -/
theorem users_safe_iff (root : Option CJson) :
    (allUsers root = true ∧
      ∀ id name, .logJson id name ∈ userLines root → id.isSome ∧ name.isSome) ↔
      ∀ elem ∈ rootChildren root, elem.IsUser := by
  constructor
  · rintro ⟨hall, hlines⟩ elem he
    refine CJson.isUser_iff.2 ⟨List.all_eq_true.1 hall elem he, fun id name hl => ?_⟩
    apply hlines
    rw [userLines, List.takeWhile_eq_self_iff.2 (List.all_eq_true.1 hall), ← hl]
    exact List.mem_map_of_mem he
  · intro h
    constructor
    · exact List.all_eq_true.2 fun elem he => (CJson.isUser_iff.1 (h elem he)).1
    · intro id name hm
      obtain ⟨elem, he, hl⟩ := List.mem_map.1 hm
      exact (CJson.isUser_iff.1 (h elem ((List.takeWhile_sublist _).mem he))).2 id name hl

end

/-- The handler is safe on a run exactly if every payload that parses has users only. -/
theorem json_safe_iff {cJsonParse : List Byte → Option CJson}
    (h : (websocketApp cJsonParse).run .new es = some d) :
    d.JsonSafe ↔ ∀ e ∈ es, e.1 = .data → ∀ root, cJsonParse e.2.dataPtr = some root →
      ∀ elem ∈ root.children, elem.IsUser := by
  obtain ⟨houts, hfault⟩ := websocketApp_run h
  have hevent : ∀ e : WebsocketEventId × WebsocketEventData,
      (crashes cJsonParse e = false ∧
        ∀ id name, .logJson id name ∈ (eventEffect cJsonParse e).outputs →
          id.isSome ∧ name.isSome) ↔
        (e.1 = .data → ∀ root, cJsonParse e.2.dataPtr = some root →
          ∀ elem ∈ root.children, elem.IsUser) := by
    intro e
    simp only [logJson_mem_eventEffect, crashes]
    by_cases hid : e.1 = .data
    · simp only [hid, true_and, true_imp_iff, decide_true, Bool.true_and, Bool.not_eq_false',
        users_safe_iff]
      cases cJsonParse e.2.dataPtr with
      | none => simp [rootChildren]
      | some root => simp [rootChildren]
    · simp [hid]
  rw [Device.JsonSafe, hfault, houts, List.nil_append]
  constructor
  · rintro ⟨hc, hl⟩ e he
    refine (hevent e).1 ⟨hc e he, fun id name hm => hl id name ?_⟩
    exact List.mem_flatMap.2 ⟨e, he, hm⟩
  · intro hs
    refine ⟨fun e he => ((hevent e).2 (hs e he)).1, fun id name hm => ?_⟩
    obtain ⟨e, he, hm⟩ := List.mem_flatMap.1 hm
    exact ((hevent e).2 (hs e he)).2 id name hm

/-- A text event with these bytes and a NUL behind them. -/
def textEvent (bytes : List Byte) : WebsocketEventId × WebsocketEventData :=
  (.data, { opCode := 0x1, dataPtr := bytes ++ [0], dataLen := bytes.length,
            payloadLen := bytes.length, payloadOffset := 0,
            errorHandle := ⟨false, 0, 0, 0, 0⟩ })

def userText : List Byte := chars "\x7b\"id\":\"1\",\"name\":\"user1\"\x7d"

def userNode : CJson :=
  .object [(chars "id", .string (chars "1")), (chars "name", .string (chars "user1"))]

/-- `cJSON_Parse` on the texts of the examples. -/
def parseExamples (mem : List Byte) : Option CJson :=
  let text := mem.takeWhile (· ≠ 0)
  if text = chars "[" ++ userText ++ chars "]" then some (.array [userNode])
  else if text = userText then some userNode
  else if text = chars "[\x7b\"id\":1,\"name\":\"user1\"\x7d]" then
    some (.array [.object [(chars "id", .number), (chars "name", .string (chars "user1"))]])
  else none

theorem json_safe_userList :
    ∃ d, (websocketApp parseExamples).run .new
        [textEvent (chars "[" ++ userText ++ chars "]")] = some d ∧ d.JsonSafe := by
  obtain ⟨d, hd⟩ : ∃ d, (websocketApp parseExamples).run .new
      [textEvent (chars "[" ++ userText ++ chars "]")] = some d := ⟨_, rfl⟩
  refine ⟨d, hd, (json_safe_iff hd).2 fun e he _ root hroot elem helem => ?_⟩
  cases List.mem_singleton.1 he
  cases (show parseExamples _ = some (.array [userNode]) from rfl).symm.trans hroot
  cases List.mem_singleton.1 helem
  exact ⟨chars "1", chars "user1", rfl, rfl⟩

/-- A single user crashes the device. A number as `id` is logged as a null string. -/
theorem userObject_unsafe :
    (∃ d, (websocketApp parseExamples).run .new [textEvent userText] = some d ∧
      d.fault = some .nullDereference ∧ ¬d.JsonSafe) ∧
    ∃ d, (websocketApp parseExamples).run .new
        [textEvent (chars "[\x7b\"id\":1,\"name\":\"user1\"\x7d]")] = some d ∧
      d.fault = none ∧ ¬d.JsonSafe := by
  refine ⟨⟨_, rfl, rfl, fun h => ?_⟩, _, rfl, rfl, fun h => ?_⟩
  · cases h.1
  · have hline := h.2 none (some (chars "user1")) (by decide)
    exact absurd hline.1 Bool.false_ne_true

end TeleopLedBenchmarks
