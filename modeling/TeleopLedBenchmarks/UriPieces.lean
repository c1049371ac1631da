import TeleopLedBenchmarks.UriUnescape

namespace TeleopLedBenchmarks
set_option autoImplicit true

def IsHex (c : Byte) : Prop := hexValue c ≠ none

instance (c : Byte) : Decidable (IsHex c) := inferInstanceAs (Decidable (¬_))

/-- A piece of an escaped text. -/
inductive Piece
  | plain (b : Byte) (h : b ≠ '%'.toUInt8)
  | sequence (hi lo : Byte) (hhi : IsHex hi) (hlo : IsHex lo)
  | loose (ch : Byte) (h : ¬IsHex ch)  -- a `%` before something else
  | broken (hi ch : Byte) (hhi : IsHex hi) (h : ¬IsHex ch)
  deriving DecidableEq, Repr

/-- The start of an escape sequence that the text ends in. -/
inductive Rest
  | none
  | percent
  | digit (hi : Byte) (h : IsHex hi)
  deriving DecidableEq, Repr

def Piece.bytes : Piece → List Byte
  | .plain b _ => [b]
  | .sequence hi lo _ _ => ['%'.toUInt8, hi, lo]
  | .loose ch _ => ['%'.toUInt8, ch]
  | .broken hi ch _ _ => ['%'.toUInt8, hi, ch]

def Rest.bytes : Rest → List Byte
  | .none => []
  | .percent => ['%'.toUInt8]
  | .digit hi _ => ['%'.toUInt8, hi]

/-- The text of some pieces. -/
def textOf (ps : List Piece) : List Byte := ps.flatMap Piece.bytes

/-- The byte that two digits stand for. -/
def codeOf (hi lo : Byte) : Byte := ((hexValue hi).getD 0 <<< 4) + (hexValue lo).getD 0

/-- What is written for a piece, and whether the output ends with it. -/
def Piece.written (type : UInt32) : Piece → List Byte × Bool
  | .plain b _ => ([b], b == '?'.toUInt8 && endsAtQuery type)
  | .sequence hi lo _ _ =>
    let r := unquoted type hi lo (codeOf hi lo)
    (r.1, r.2.isNone)
  | .loose ch _ => ([ch], false)
  | .broken _ _ _ _ => ([], false)

def writtenOf (type : UInt32) : List Piece → List Byte
  | [] => []
  | p :: ps => (p.written type).1 ++ if (p.written type).2 then [] else writtenOf type ps

/-- Takes a text apart. -/
def pieces : List Byte → List Piece × Rest
  | [] => ([], .none)
  | b :: bs =>
    if h : b ≠ '%'.toUInt8 then ((pieces bs).1.cons (.plain b h), (pieces bs).2)
    else match bs with
      | [] => ([], .percent)
      | hi :: bs =>
        if hhi : IsHex hi then
          match bs with
          | [] => ([], .digit hi hhi)
          | lo :: bs =>
            if hlo : IsHex lo then ((pieces bs).1.cons (.sequence hi lo hhi hlo), (pieces bs).2)
            else ((pieces bs).1.cons (.broken hi lo hhi hlo), (pieces bs).2)
        else ((pieces bs).1.cons (.loose hi hhi), (pieces bs).2)

section
variable {type : UInt32}

@[simp] theorem textOf_nil : textOf [] = [] := rfl

@[simp] theorem textOf_cons (p : Piece) (ps : List Piece) :
    textOf (p :: ps) = p.bytes ++ textOf ps := rfl

theorem piece_induction {motive : List Byte → Prop} (rest : ∀ e : Rest, motive e.bytes)
    (piece : ∀ (p : Piece) (bs : List Byte), motive bs → motive (p.bytes ++ bs))
    (bs : List Byte) : motive bs := by
  fun_induction pieces bs with
  | case1 => exact rest .none
  | case2 b bs h ih => exact piece (.plain b h) bs ih
  | case3 b h =>
    obtain rfl := not_not.1 h
    exact rest .percent
  | case4 b h hi hhi =>
    obtain rfl := not_not.1 h
    exact rest (.digit hi hhi)
  | case5 b h hi hhi lo bs hlo ih =>
    obtain rfl := not_not.1 h
    exact piece (.sequence hi lo hhi hlo) bs ih
  | case6 b h hi hhi lo bs hlo ih =>
    obtain rfl := not_not.1 h
    exact piece (.broken hi lo hhi hlo) bs ih
  | case7 b h hi bs hhi ih =>
    obtain rfl := not_not.1 h
    exact piece (.loose hi hhi) bs ih

theorem pieces_rest (e : Rest) : pieces e.bytes = ([], e) := by
  cases e with
  | none => rfl
  | percent => rfl
  | digit hi h => simp [pieces, Rest.bytes, h]

theorem pieces_append (p : Piece) (bs : List Byte) :
    pieces (p.bytes ++ bs) = (p :: (pieces bs).1, (pieces bs).2) := by
  cases p with
  | plain b h =>
    rw [Piece.bytes, List.singleton_append, pieces.eq_def]
    exact dif_pos h
  | sequence hi lo hhi hlo => simp [pieces, Piece.bytes, hhi, hlo]
  | loose ch h => simp [pieces, Piece.bytes, h]
  | broken hi ch hhi h => simp [pieces, Piece.bytes, hhi, h]

theorem textOf_pieces (bs : List Byte) :
    textOf (pieces bs).1 ++ (pieces bs).2.bytes = bs := by
  induction bs using piece_induction with
  | rest e => simp only [pieces_rest, textOf_nil, List.nil_append]
  | piece p bs ih => simp only [pieces_append, textOf_cons, List.append_assoc, ih]

theorem pieces_textOf (ps : List Piece) (e : Rest) : pieces (textOf ps ++ e.bytes) = (ps, e) := by
  induction ps with
  | nil => exact pieces_rest e
  | cons p ps ih => rw [textOf_cons, List.append_assoc, pieces_append, ih]

theorem IsHex.value (h : IsHex c) : ∃ x, hexValue c = some x := Option.ne_none_iff_exists'.1 h

theorem unquoted_usual (type : UInt32) (hi lo ch : Byte) :
    (unquoted type hi lo ch).2 =
      if (unquoted type hi lo ch).2.isNone then none else some .usual := by
  simp only [unquoted]
  split
  · rfl
  · split
    · rfl
    · rfl

theorem step_percent (type : UInt32) :
    (unescaper type).step .usual '%'.toUInt8 = ([], some .quoted) := by
  have hne : ¬('%'.toUInt8 = '?'.toUInt8 ∧ endsAtQuery type = true) := by
    rintro ⟨h, _⟩
    cases h
  simp only [unescaper, if_neg hne, if_true]

theorem step_plain (type : UInt32) (h : b ≠ '%'.toUInt8) :
    (unescaper type).step .usual b =
      if b = '?'.toUInt8 ∧ endsAtQuery type then ([b], none) else ([b], some .usual) := by
  simp only [unescaper, if_neg h]

theorem step_hex (type : UInt32) (h : IsHex hi) :
    (unescaper type).step .quoted hi = ([], some (.second hi)) := by
  obtain ⟨x, hx⟩ := h.value
  simp only [unescaper, hx]

theorem step_loose (type : UInt32) (h : ¬IsHex ch) :
    (unescaper type).step .quoted ch = ([ch], some .usual) := by
  simp only [unescaper, not_not.1 h]

theorem step_sequence (type : UInt32) (hhi : IsHex hi) (hlo : IsHex lo) :
    (unescaper type).step (.second hi) lo = unquoted type hi lo (codeOf hi lo) := by
  obtain ⟨x, hx⟩ := hhi.value
  obtain ⟨y, hy⟩ := hlo.value
  simp only [unescaper, hx, hy, codeOf, Option.getD_some]

theorem step_broken (type : UInt32) (hi : Byte) (h : ¬IsHex ch) :
    (unescaper type).step (.second hi) ch = ([], some .usual) := by
  simp only [unescaper, not_not.1 h]
  cases hexValue hi with
  | none => rfl
  | some x => rfl

open Transducer in
theorem run_percent (type : UInt32) (bs : List Byte) :
    unescaped type ('%'.toUInt8 :: bs) = (unescaper type).run .quoted bs :=
  run_next (step_percent type) bs

open Transducer in
theorem run_hex (type : UInt32) (h : IsHex hi) (bs : List Byte) :
    unescaped type ('%'.toUInt8 :: hi :: bs) = (unescaper type).run (.second hi) bs := by
  rw [run_percent]
  exact run_next (step_hex type h) bs

theorem unescaped_rest (type : UInt32) (e : Rest) : unescaped type e.bytes = [] := by
  cases e with
  | none => rfl
  | percent => exact run_percent type []
  | digit hi h => exact run_hex type h []

theorem unescaped_append (type : UInt32) (p : Piece) (bs : List Byte) :
    unescaped type (p.bytes ++ bs) =
      (p.written type).1 ++ if (p.written type).2 then [] else unescaped type bs := by
  cases p with
  | plain b h =>
    have hs := step_plain type h
    by_cases hq : b = '?'.toUInt8 ∧ endsAtQuery type = true
    · rw [if_pos hq] at hs
      have hw : (Piece.plain b h).written type = ([b], true) := by simp [Piece.written, hq]
      rw [hw]
      exact Transducer.run_stop hs bs
    · rw [if_neg hq] at hs
      have hw : (Piece.plain b h).written type = ([b], false) := by
        simpa [Piece.written] using hq
      rw [hw]
      exact Transducer.run_next hs bs
  | sequence hi lo hhi hlo =>
    have hs := step_sequence type hhi hlo
    have hu := unquoted_usual type hi lo (codeOf hi lo)
    have hrun : unescaped type ('%'.toUInt8 :: hi :: lo :: bs) =
        (unescaper type).run (.second hi) (lo :: bs) := run_hex type hhi _
    obtain ⟨out, q, hq⟩ : ∃ out q, unquoted type hi lo (codeOf hi lo) = (out, q) :=
      ⟨_, _, rfl⟩
    have hw : (Piece.sequence hi lo hhi hlo).written type = (out, q.isNone) := by
      simp only [Piece.written, hq]
    rw [hq] at hs hu
    rw [hw]
    cases q with
    | none =>
      have hstop := hrun.trans (Transducer.run_stop hs bs)
      exact hstop.trans (List.append_nil out).symm
    | some q =>
      cases hu
      exact hrun.trans (Transducer.run_next hs bs)
  | loose ch h =>
    have hrun := run_percent type (ch :: bs)
    exact hrun.trans (Transducer.run_next (step_loose type h) bs)
  | broken hi ch hhi h =>
    have hrun := run_hex type hhi (ch :: bs)
    exact hrun.trans (Transducer.run_next (step_broken type hi h) bs)

/-- The decoder writes what the pieces of the text stand for. -/
theorem unescaped_eq_writtenOf (type : UInt32) (bs : List Byte) :
    unescaped type bs = writtenOf type (pieces bs).1 := by
  induction bs using piece_induction with
  | rest e => rw [unescaped_rest, pieces_rest, writtenOf]
  | piece p bs ih => rw [unescaped_append, ih, pieces_append, writtenOf]

end

end TeleopLedBenchmarks
