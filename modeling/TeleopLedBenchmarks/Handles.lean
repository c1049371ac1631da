import Mathlib.Data.List.Basic

set_option autoImplicit true

/-- What a program does with handles that have to be opened before they are used, and closed. -/
inductive HandleCall (α : Type u)
  | opened (h : α)
  | used (h : α)
  | closed (h : α)
  deriving DecidableEq, Repr

namespace HandleCall

section
variable [DecidableEq α]

/-- The handles that are open after a trace, when `held` were before it. -/
def heldAfter (held : List α) : List (HandleCall α) → List α
  | [] => held
  | .opened h :: tr => heldAfter (h :: held) tr
  | .used _ :: tr => heldAfter held tr
  | .closed h :: tr => heldAfter (held.erase h) tr

/-- Handles are opened while they are not open, and used and closed while they are. -/
def Proper (held : List α) : List (HandleCall α) → Prop
  | [] => True
  | .opened h :: tr => h ∉ held ∧ Proper (h :: held) tr
  | .used h :: tr => h ∈ held ∧ Proper held tr
  | .closed h :: tr => h ∈ held ∧ Proper (held.erase h) tr

instance decidableProper (held : List α) : (tr : List (HandleCall α)) → Decidable (Proper held tr)
  | [] => isTrue trivial
  | .opened h :: tr => @instDecidableAnd _ _ inferInstance (decidableProper (h :: held) tr)
  | .used _ :: tr => @instDecidableAnd _ _ inferInstance (decidableProper held tr)
  | .closed h :: tr => @instDecidableAnd _ _ inferInstance (decidableProper (held.erase h) tr)

theorem heldAfter_append (held : List α) (tr tr' : List (HandleCall α)) :
    heldAfter held (tr ++ tr') = heldAfter (heldAfter held tr) tr' := by
  induction tr generalizing held with
  | nil => rfl
  | cons c tr ih =>
    cases c with
    | opened h => exact ih _
    | used h => exact ih _
    | closed h => exact ih _

theorem proper_append (held : List α) (tr tr' : List (HandleCall α)) :
    Proper held (tr ++ tr') ↔ Proper held tr ∧ Proper (heldAfter held tr) tr' := by
  induction tr generalizing held with
  | nil => exact (and_iff_right trivial).symm
  | cons c tr ih =>
    cases c with
    | opened h => exact (and_congr_right fun _ => ih _).trans and_assoc.symm
    | used h => exact (and_congr_right fun _ => ih _).trans and_assoc.symm
    | closed h => exact (and_congr_right fun _ => ih _).trans and_assoc.symm

theorem Proper.nodup {held : List α} (hp : Proper held tr) (hn : held.Nodup) :
    (heldAfter held tr).Nodup := by
  induction tr generalizing held with
  | nil => exact hn
  | cons c tr ih =>
    cases c with
    | opened h => exact ih hp.2 (List.nodup_cons.2 ⟨hp.1, hn⟩)
    | used h => exact ih hp.2 hn
    | closed h => exact ih hp.2 (hn.erase h)

theorem mem_of_heldAfter {held : List α} (hm : h ∈ heldAfter held tr) :
    h ∈ held ∨ .opened h ∈ tr := by
  induction tr generalizing held with
  | nil => exact .inl hm
  | cons c tr ih =>
    cases c with
    | opened k =>
      obtain hk | ho := ih hm
      · obtain rfl | hk := List.mem_cons.1 hk
        · exact .inr List.mem_cons_self
        · exact .inl hk
      · exact .inr (List.mem_cons_of_mem _ ho)
    | used k => exact (ih hm).imp_right (List.mem_cons_of_mem _)
    | closed k => exact (ih hm).imp List.mem_of_mem_erase (List.mem_cons_of_mem _)

/-- Between two closings of a handle it is opened again. -/
theorem Proper.opened_between {held : List α} (hn : held.Nodup)
    (hp : Proper held (tr ++ .closed h :: (tr' ++ .closed h :: tr''))) : .opened h ∈ tr' := by
  obtain ⟨hp, _, hrest⟩ := (proper_append _ _ _).1 hp
  have hmem := ((proper_append _ _ _).1 hrest).2.1
  obtain hm | ho := mem_of_heldAfter hmem
  · exact ((hp.nodup hn).not_mem_erase hm).elim
  · exact ho

end

end HandleCall
