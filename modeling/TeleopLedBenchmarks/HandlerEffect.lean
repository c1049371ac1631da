import TeleopLedBenchmarks.WebsocketHandler

namespace TeleopLedBenchmarks
set_option autoImplicit true

namespace CJson

/-- The node has the two members the loop dereferences. -/
def hasUser (elem : CJson) : Bool :=
  (elem.getObjectItem (chars "id")).isSome && (elem.getObjectItem (chars "name")).isSome

/-- The line the loop logs for a node. -/
def userLine (elem : CJson) : Output :=
  .logJson ((elem.getObjectItem (chars "id")).bind valuestring)
    ((elem.getObjectItem (chars "name")).bind valuestring)

end CJson

/-- The nodes the loop walks over: none when the payload does not parse. -/
def rootChildren (root : Option CJson) : List CJson := root.elim [] CJson.children

/-- The loop stops logging at the first node without both members. -/
def userLines (root : Option CJson) : List Output :=
  ((rootChildren root).takeWhile CJson.hasUser).map CJson.userLine

def allUsers (root : Option CJson) : Bool := (rootChildren root).all CJson.hasUser

theorem logUsers_eq (elems : List CJson) (os : List Output) :
    logUsers elems ⟨os, none⟩ =
      ⟨os ++ (elems.takeWhile CJson.hasUser).map CJson.userLine,
        if elems.all CJson.hasUser then none else some .nullDereference⟩ := by
  induction elems generalizing os with
  | nil => simp [logUsers]
  | cons elem elems ih =>
    unfold logUsers
    split
    · next id name hid hname =>
      have hu : elem.hasUser = true := by rw [CJson.hasUser, hid, hname]; rfl
      have hl : elem.userLine = .logJson id.valuestring name.valuestring := by
        rw [CJson.userLine, hid, hname]
        rfl
      rw [Device.emit, ih, List.takeWhile_cons, hu, List.all_cons, hu, ← hl]
      simp
    · next hn =>
      have hu : elem.hasUser = false := by
        rw [CJson.hasUser]
        cases hid : elem.getObjectItem (chars "id") with
        | none => rfl
        | some id =>
          cases hname : elem.getObjectItem (chars "name") with
          | none => rfl
          | some name => exact (hn id name hid hname).elim
      simp [hu]

/-- The lines logged for events that carry no data. -/
def Output.isStatus : Output → Bool
  | .logInfo _ | .logErrorCode _ _ => true
  | _ => false

/-- What the cascade over `op_code` and `data_len` does. -/
def Output.isAnswer : Output → Bool
  | .logHex _ | .logClosed _ | .sendText _ => true
  | _ => false

/-- A function that only adds outputs of its own to a running device, all of one kind. -/
structure Logs (P : Output → Bool) (f : Device → Device) : Prop where
  adds : ∀ os, f ⟨os, none⟩ = ⟨os ++ (f .new).outputs, none⟩
  only : ∀ o ∈ (f .new).outputs, P o = true

section
variable {P : Output → Bool} {f g : Device → Device}

theorem Logs.emit (ho : P o = true) : Logs P fun d => d.emit o :=
  ⟨fun _ => rfl, fun _ h => List.mem_singleton.1 h ▸ ho⟩

theorem Logs.id : Logs P fun d => d :=
  ⟨fun os => by rw [Device.new, List.append_nil], fun _ h => absurd h List.not_mem_nil⟩

theorem Logs.comp (hg : Logs P g) (hf : Logs P f) : Logs P fun d => g (f d) := by
  have hnew : (g (f .new)).outputs = (f .new).outputs ++ (g .new).outputs := by
    have h := hf.adds []
    rw [List.nil_append] at h
    exact congrArg Device.outputs ((congrArg g h).trans (hg.adds _))
  constructor
  · intro os
    rw [hnew, hf.adds, hg.adds, List.append_assoc]
  · intro o ho
    rw [hnew] at ho
    obtain ho | ho := List.mem_append.1 ho
    · exact hf.only o ho
    · exact hg.only o ho

theorem Logs.fault (h : Logs P f) : (f .new).fault = none := congrArg Device.fault (h.adds [])

end

theorem logErrorIfNonzero_logs (message : String) (errorCode : Int) :
    Logs Output.isStatus (logErrorIfNonzero message errorCode) := by
  unfold logErrorIfNonzero
  split
  · exact .emit rfl
  · exact .id

theorem logErrorHandle_logs (h : ErrorHandle) : Logs Output.isStatus (logErrorHandle h) := by
  have hline := logErrorIfNonzero_logs
  unfold logErrorHandle
  cases h.tcpTransport with
  | true => exact (hline _ _).comp ((hline _ _).comp ((hline _ _).comp (hline _ _)))
  | false => exact hline _ _

theorem replyToData_logs (data : WebsocketEventData) :
    Logs Output.isAnswer (replyToData data) := by
  unfold replyToData
  split
  · exact .emit rfl
  · split
    · exact .emit rfl
    · exact .emit rfl

section
variable (cJsonParse : List Byte → Option CJson) (e : WebsocketEventId × WebsocketEventData)

/-- What the handler does to a fresh device. -/
def eventEffect : Device := websocketEventHandler cJsonParse e.1 e.2 .new

theorem handleData_eq (data : WebsocketEventData) (os : List Output) :
    handleData cJsonParse data ⟨os, none⟩ =
      let root := cJsonParse data.dataPtr
      let seen := os ++ (replyToData data .new).outputs ++ userLines root
      if allUsers root then
        ⟨seen ++ [.logLengths data.payloadLen data.dataLen data.payloadOffset, .resetTimer], none⟩
      else ⟨seen, some .nullDereference⟩ := by
  have hj : ∀ os, handleJson cJsonParse data ⟨os, none⟩ =
      logUsers (rootChildren (cJsonParse data.dataPtr)) ⟨os, none⟩ := by
    intro os
    unfold handleJson
    split
    · next h => rw [h]; rfl
    · next h => rw [h]; rfl
  simp only [handleData, (replyToData_logs data).adds os, hj, logUsers_eq, allUsers, userLines]
  by_cases hall : (rootChildren (cJsonParse data.dataPtr)).all CJson.hasUser = true
  · simp only [if_pos hall, Device.emit, List.append_assoc]
    rfl
  · simp only [if_neg hall]
    exact (if_neg hall).symm

theorem noData_logs {eventId : WebsocketEventId} (hid : eventId ≠ .data)
    (data : WebsocketEventData) :
    Logs Output.isStatus (websocketEventHandler cJsonParse eventId data) := by
  cases eventId with
  | data => exact (hid rfl).elim
  | begin | connected | finish => exact .emit rfl
  | disconnected | error => exact (logErrorHandle_logs _).comp (.emit rfl)
  | other => exact .id

/-- The handler adds its outputs to those of a device, whatever they are. -/
theorem websocketEventHandler_eq (os : List Output) :
    websocketEventHandler cJsonParse e.1 e.2 ⟨os, none⟩ =
      ⟨os ++ (eventEffect cJsonParse e).outputs, (eventEffect cJsonParse e).fault⟩ := by
  obtain ⟨eventId, data⟩ := e
  by_cases hid : eventId = .data
  · subst hid
    simp only [eventEffect, websocketEventHandler, Device.new, handleData_eq]
    split
    · simp only [List.nil_append, List.append_assoc]
    · simp only [List.nil_append, List.append_assoc]
  · have hl := noData_logs cJsonParse hid data
    rw [eventEffect, hl.fault]
    exact hl.adds os

theorem eventEffect_data (data : WebsocketEventData) :
    let root := cJsonParse data.dataPtr
    eventEffect cJsonParse (.data, data) =
      ⟨(replyToData data .new).outputs ++ userLines root ++ if allUsers root then
          [.logLengths data.payloadLen data.dataLen data.payloadOffset, .resetTimer] else [],
        if allUsers root then none else some .nullDereference⟩ := by
  have h := handleData_eq cJsonParse data []
  simp only [eventEffect, websocketEventHandler, Device.new, List.nil_append] at h ⊢
  rw [h]
  split
  · rfl
  · rw [List.append_nil]

/-- The handler runs into a missing member. -/
def crashes : Bool := e.1 = .data && !allUsers (cJsonParse e.2.dataPtr)

theorem eventEffect_fault :
    (eventEffect cJsonParse e).fault =
      if crashes cJsonParse e then some .nullDereference else none := by
  obtain ⟨eventId, data⟩ := e
  by_cases hid : eventId = .data
  · subst hid
    rw [eventEffect_data, crashes]
    cases allUsers (cJsonParse data.dataPtr) with
    | true => rfl
    | false => rfl
  · have hl := noData_logs cJsonParse hid data
    rw [eventEffect, hl.fault]
    simp [crashes, hid]

theorem crashes_eq_isSome :
    crashes cJsonParse e = (eventEffect cJsonParse e).fault.isSome := by
  rw [eventEffect_fault]
  cases crashes cJsonParse e with
  | true => rfl
  | false => rfl

theorem eventEffect_noData (hid : e.1 ≠ .data) (ho : o.isStatus = false) :
    o ∉ (eventEffect cJsonParse e).outputs := by
  intro h
  exact Bool.false_ne_true (ho.symm.trans ((noData_logs cJsonParse hid e.2).only o h))

theorem not_answer (data : WebsocketEventData) (ho : o.isAnswer = false) :
    o ∉ (replyToData data .new).outputs := by
  intro h
  exact Bool.false_ne_true (ho.symm.trans ((replyToData_logs data).only o h))

theorem logJson_mem_eventEffect (id name : Option (List Byte)) :
    .logJson id name ∈ (eventEffect cJsonParse e).outputs ↔
      e.1 = .data ∧ .logJson id name ∈ userLines (cJsonParse e.2.dataPtr) := by
  obtain ⟨eventId, data⟩ := e
  by_cases hid : eventId = .data
  · subst hid
    have hanswer : .logJson id name ∉ (replyToData data .new).outputs := not_answer data rfl
    rw [eventEffect_data]
    split
    · simp [hanswer]
    · simp [hanswer]
  · exact iff_of_false (eventEffect_noData cJsonParse _ hid rfl) fun h => hid h.1

theorem not_userLine {root : Option CJson} (ho : ∀ id name, o ≠ .logJson id name) :
    o ∉ userLines root := by
  intro h
  obtain ⟨elem, _, hl⟩ := List.mem_map.1 h
  exact ho _ _ hl.symm

theorem resetTimer_mem_eventEffect :
    .resetTimer ∈ (eventEffect cJsonParse e).outputs ↔
      e.1 = .data ∧ crashes cJsonParse e = false := by
  obtain ⟨eventId, data⟩ := e
  by_cases hid : eventId = .data
  · subst hid
    have hanswer : .resetTimer ∉ (replyToData data .new).outputs := not_answer data rfl
    have hlines : .resetTimer ∉ userLines (cJsonParse data.dataPtr) := not_userLine nofun
    rw [eventEffect_data, crashes]
    split
    · next hall => simp [hall]
    · next hall => simp [hall, hanswer, hlines]
  · exact iff_of_false (eventEffect_noData cJsonParse _ hid rfl) fun h => hid h.1

end

section
variable {cJsonParse : List Byte → Option CJson} {d d' : Device}

theorem websocketApp_step (h : (websocketApp cJsonParse).step d e = some d') :
    d' = websocketEventHandler cJsonParse e.1 e.2 d := by
  simp only [websocketApp] at h
  split at h
  · cases h
  · exact (Option.some.inj h).symm

theorem websocketApp_run (h : (websocketApp cJsonParse).run ⟨os, none⟩ es = some d) :
    d.outputs = os ++ es.flatMap (fun e => (eventEffect cJsonParse e).outputs) ∧
      (d.fault = none ↔ ∀ e ∈ es, crashes cJsonParse e = false) := by
  induction es generalizing os with
  | nil =>
    cases h
    exact ⟨(List.append_nil os).symm, iff_of_true rfl (fun _ he => absurd he List.not_mem_nil)⟩
  | cons e es ih =>
    obtain ⟨d₁, hs, hr⟩ := Option.bind_eq_some_iff.1 h
    have hd₁ := websocketApp_step hs
    rw [websocketEventHandler_eq, eventEffect_fault] at hd₁
    rw [List.flatMap_cons, List.forall_mem_cons, ← List.append_assoc]
    cases hc : crashes cJsonParse e with
    | false =>
      rw [hc, if_neg Bool.false_ne_true] at hd₁
      rw [hd₁] at hr
      obtain ⟨houts, hfault⟩ := ih hr
      exact ⟨houts, hfault.trans (by simp)⟩
    | true =>
      rw [hc, if_pos rfl] at hd₁
      -- Nothing runs after the fault.
      cases es with
      | nil =>
        cases hr
        rw [hd₁]
        exact ⟨by simp, by simp⟩
      | cons e' es =>
        rw [hd₁] at hr
        cases hr

end

end TeleopLedBenchmarks
