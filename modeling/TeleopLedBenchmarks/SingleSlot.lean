import TeleopLedBenchmarks.Steps

namespace TeleopLedBenchmarks
set_option autoImplicit true

/-- The life of the I/O slot, with the buffers, the network and the clock left out. -/
inductive Slot.Step (c : ConnectionType) : Slot → Event → Slot → Prop
  | frame : Slot.Step c slot (.frame clicked) slot.frame
  | stop : Slot.Step c slot (.frame clicked) slot
  | accept : Slot.Step c .accepting (.acceptHandler i ec socket handshake) (.accepted ec socket)
  | abort : c = .webSocket →
      Slot.Step c .accepting (.acceptHandler i none socket false) .accepting
  | readSome : Slot.Step c (.reading sk got) (.readSome i n) (.reading sk (got + n))
  | readError : Slot.Step c (.reading sk got) (.readHandler i (some e)) (.idle (some sk))
  | readEmpty : c = .webSocket →
      Slot.Step c (.reading sk 0) (.readHandler i none) (.idle (some sk))
  | readDone : Slot.Step c (.reading sk got) (.readHandler i none) (.message sk)
  | writeSome : Slot.Step c slot (.writeSome i n) slot
  | writeHandler : Slot.Step c slot (.writeHandler i ec) slot
  | peerRecv : Slot.Step c slot (.peerRecv n) slot
  | peerSendBytes : Slot.Step c slot (.peerSendBytes bytes) slot
  | peerSendMessage : Slot.Step c slot (.peerSendMessage msg) slot
  | setStopFlag : Slot.Step c slot .setStopFlag slot
  | closeWindow : Slot.Step c slot .closeWindow slot

theorem Slot.Step.idle (h : Slot.Step c (.idle sk) e slot) : slot = .idle sk := by
  cases h <;> rfl

theorem Slot.Step.sock (h : Slot.Step c slot e slot') (hs : slot.sock = some sk) :
    slot'.sock = some sk := by
  cases h with
  | frame => cases slot <;> first | exact hs | cases hs
  | accept | abort => cases hs
  | _ => exact hs

theorem Slot.Step.sock_quiet (h : Slot.Step c slot e slot') (he : ∀ b, e ≠ .frame b) :
    slot'.sock = slot.sock := by
  cases h with
  | frame | stop => exact (he _ rfl).elim
  | accept => exact Slot.accepted_sock _ _
  | _ => rfl

theorem AppState.ran_sending {clock : Nat → Time} {s : AppState} (hk : s.ClickOk slot)
    (hs : s.isSendingBlinkCommand = true → slot.sock.isSome)
    (h : (s.ran clock slot clicked).isSendingBlinkCommand = true) : slot.frame.sock.isSome := by
  have hsend : (s.sendQueued clock).isSendingBlinkCommand = true → slot.sock.isSome := by
    intro hf
    rcases hk with hu | ⟨_, _, hc⟩
    · simp only [AppState.sendQueued, hu] at hf
      exact hs hf
    · exact hc
  cases slot with
  | accepting | cancelled | connected => cases hsend h
  | reading | message => rfl
  | idle => exact hsend h

namespace System
variable {clock : Nat → Time} {w w' : System}

theorem Ok.withPosted (h : w.Ok slot) (n : Nat) :
    System.Ok { w with app := w.app.withPosted n } slot :=
  h.congr rfl

theorem Ok.ran (h : w.Ok slot) (clicked : Bool) :
    System.Ok { w with app := w.app.ran clock slot clicked, started := true } slot.frame :=
  ⟨h.atSlot.ran clicked, AppState.ran_clickOk _ _ _, AppState.ran_sending h.click h.sending⟩

theorem Ok.frame (h : w.Ok slot) (hs : w.frame clock clicked = some w') :
    ∃ slot', w'.Ok slot' ∧ Slot.Step w.app.connType slot (.frame clicked) slot' := by
  obtain ⟨_, n, ⟨_, rfl⟩ | ⟨_, rfl⟩⟩ := frame_cases h hs
  · exact ⟨slot, h.congr rfl, .stop⟩
  · exact ⟨slot.frame, (h.withPosted n).ran clicked, .frame⟩

/-- The desktop program refines the life of its slot. -/
theorem Ok.step (h : w.Ok slot) (hs : (system clock).step w e = some w') :
    ∃ slot', w'.Ok slot' ∧ Slot.Step w.app.connType slot e slot' := by
  cases e with
  | frame clicked => exact h.frame hs
  | acceptHandler i ec socket handshake =>
    obtain ⟨_, rfl, rfl | ⟨hc, rfl, rfl, rfl⟩⟩ := acceptHandler_cases h hs
    · exact ⟨_, h.setSlot (Slot.accepted_sock _ _), .accept⟩
    · exact ⟨_, h.congr rfl, .abort hc⟩
  | readSome i n =>
    obtain ⟨_, _, sock, got, rfl, hc⟩ := readSome_cases h hs
    have h' := h.setSlot (k := .reading sock (got + n)) rfl
    refine ⟨.reading sock (got + n), ?_, .readSome⟩
    obtain ⟨_, _, _, rfl⟩ | ⟨_, _, _, _, _, rfl⟩ := hc
    · exact h'.congr rfl
    · exact h'.congr rfl
  | readHandler i ec =>
    obtain ⟨_, sock, got, rfl, _, hc⟩ := readHandler_cases h hs
    have hm := h.setSlot (k := .message sock) rfl
    have hi := h.setSlot (k := .idle (some sock)) rfl
    obtain ⟨he, rfl⟩ | ⟨rfl, _, _, rfl⟩ | ⟨rfl, hw, _, _, ⟨rfl, rfl⟩ | ⟨_, rfl⟩⟩ := hc
    · obtain ⟨e, rfl⟩ := Option.ne_none_iff_exists'.1 he
      exact ⟨_, hi, .readError⟩
    · exact ⟨_, hm.congr rfl, .readDone⟩
    · exact ⟨_, hi.congr rfl, .readEmpty hw⟩
    · exact ⟨_, hm.congr rfl, .readDone⟩
  | writeSome i n =>
    obtain ⟨_, _, _, _, _, rfl⟩ := writeSome_cases hs
    exact ⟨slot, h.congr rfl, .writeSome⟩
  | writeHandler i ec =>
    obtain ⟨_, _, _, _, rfl⟩ := writeHandler_cases hs
    exact ⟨slot, h.congr rfl, .writeHandler⟩
  | peerRecv n =>
    obtain ⟨_, rfl⟩ := peerRecv_cases hs
    exact ⟨slot, h.congr rfl, .peerRecv⟩
  | peerSendBytes bytes =>
    obtain ⟨_, rfl⟩ := peerSendBytes_cases hs
    exact ⟨slot, h.congr rfl, .peerSendBytes⟩
  | peerSendMessage msg =>
    obtain ⟨_, rfl⟩ := peerSendMessage_cases hs
    exact ⟨slot, h.congr rfl, .peerSendMessage⟩
  | setStopFlag =>
    cases hs
    exact ⟨slot, h.congr rfl, .setStopFlag⟩
  | closeWindow =>
    cases hs
    exact ⟨slot, h.congr rfl, .closeWindow⟩

theorem reach_ok (h : (system clock).Reach G (.new c) w) : ∃ slot, w.Ok slot :=
  h.invariant (I := fun w => ∃ slot, w.Ok slot) ⟨_, .new c⟩ fun _ _ _ _ ⟨_, hw⟩ _ hs =>
    have ⟨slot', hw', _⟩ := hw.step hs
    ⟨slot', hw'⟩

end System

/-- The frame that starts now, stopped in `processIOResults` between two turns of its loop:
`seen` are the results it has processed, `rest` those it has not. -/
def MidResults (clock : Nat → Time) (w : System) (seen rest : List IOResult) (t : AppState) :
    Prop :=
  ∃ s s₁, w.takeFrame = some s ∧ processUiEvents clock s = .ok s₁ ∧
    s₁.ioResults = seen ++ rest ∧ seen.foldlM (processIOResult clock) s₁ = .ok t

section
variable {clock : Nat → Time} {w : System}

theorem AppState.At.length_le_one {s : AppState} (h : s.At slot) :
    s.ioc.accepts.length + s.ioc.reads.length + s.ioResults.length ≤ 1 := by
  rw [h.accepts, h.reads, h.ioResults]
  exact slot.length_le_one s.connType

theorem AppState.At.midResults {s t : AppState} (h : s.At slot)
    (hr : s.ioResults = seen ++ rest) (ht : seen.foldlM (processIOResult clock) s = .ok t) :
    t.ioc.accepts.length + t.ioc.reads.length + rest.length ≤ 1 ∧
      t.ioResults = s.ioResults := by
  have hle := h.length_le_one
  rw [hr, List.length_append] at hle
  cases seen with
  | nil =>
    cases ht
    exact ⟨by simpa using hle, rfl⟩
  | cons res seen =>
    simp only [List.length_cons] at hle
    have hs : seen = [] := List.length_eq_zero_iff.1 (by omega)
    have hn : rest = [] := List.length_eq_zero_iff.1 (by omega)
    subst hs hn
    simp only [List.foldlM_cons, List.foldlM_nil, processIOResult_eq h hr] at ht
    cases ht
    have hf := (h.settle clock).length_le_one
    exact ⟨by simp only [List.length_nil]; omega, rfl⟩

/-- The single-slot discipline, between handlers and in the middle of `processIOResults`. -/
theorem single_slot (h : (system clock).Reach Machine.Free (.new c) w) :
    w.app.ioc.accepts.length + w.app.ioc.reads.length + w.app.ioResults.length ≤ 1 ∧
      (∀ seen rest t, MidResults clock w seen rest t →
        t.ioc.accepts.length + t.ioc.reads.length + rest.length ≤ 1 ∧
          t.ioResults = seen ++ rest) ∧
      w.app.ioc.reads.length ≤ 1 ∧ (w.app.ioResults ≠ [] → w.app.ioc.reads = []) := by
  obtain ⟨slot, hw⟩ := System.reach_ok h
  have hle := hw.atSlot.length_le_one
  refine ⟨hle, ?_, by omega, ?_⟩
  · rintro seen rest t ⟨s, s₁, hs, hu, hr, ht⟩
    obtain ⟨_, n, rfl⟩ := System.takeFrame_eq hs
    have ha : (w.app.withPosted n).At slot := hw.atSlot.congr rfl
    rw [processUiEvents_eq ha hw.click] at hu
    cases hu
    obtain ⟨hl, he⟩ := (ha.sendQueued clock).midResults hr ht
    exact ⟨hl, he.trans hr⟩
  · intro hn
    have hp := List.length_pos_iff.2 hn
    exact List.length_eq_zero_iff.1 (by omega)

/-- The peer connects and the frame arms the first read. -/
def connectRun : List Event :=
  [.frame false, .acceptHandler 0 none ⟨true⟩ true, .frame false]

theorem connectRun_possible (c : ConnectionType) :
    ∃ w, (system Int.ofNat).run (.new c) connectRun = some w :=
  Option.isSome_iff_exists.1 (by cases c <;> decide)

theorem single_slot_connectRun :
    ∃ w, (system Int.ofNat).run (.new .webSocket) connectRun = some w ∧
      w.app.ioc.accepts.length + w.app.ioc.reads.length + w.app.ioResults.length ≤ 1 := by
  obtain ⟨w, hw⟩ := connectRun_possible .webSocket
  exact ⟨w, hw, (single_slot (Machine.reach_of_run hw)).1⟩

end

end TeleopLedBenchmarks
