import TeleopLedBenchmarks.UriRoundTrip

namespace TeleopLedBenchmarks
set_option autoImplicit true

/-- Every `%` is the first of an escape sequence. -/
def Piece.IsWhole : Piece → Prop
  | .plain _ _ => True
  | .sequence _ _ _ _ => True
  | .loose _ _ => False
  | .broken _ _ _ _ => False

def WellEscaped (bytes : List Byte) : Prop :=
  (pieces bytes).2 = .none ∧ ∀ p ∈ (pieces bytes).1, p.IsWhole

instance (p : Piece) : Decidable p.IsWhole :=
  match p with
  | .plain _ _ | .sequence _ _ _ _ => isTrue trivial
  | .loose _ _ | .broken _ _ _ _ => isFalse id

instance (bytes : List Byte) : Decidable (WellEscaped bytes) :=
  inferInstanceAs (Decidable (_ ∧ _))

section
variable {type : UInt32} {bs : List Byte}

theorem length_unescaped_le (type : UInt32) (bs : List Byte) :
    (unescaped type bs).length ≤ bs.length := by
  have hl := Transducer.length_run_le (unescaper_grows type) .usual bs
  rwa [Quoting.credit, Nat.zero_add, Nat.one_mul] at hl

theorem keepsQuoted_redirect (lo : Byte) : keepsQuoted ngxUnescapeRedirectFlag lo = true := by
  have huri : (ngxUnescapeRedirectFlag &&& ngxUnescapeUriFlag == 0) = true := rfl
  rw [keepsQuoted, huri, Bool.or_true]
  rfl

theorem unquoted_redirect (hi lo ch : Byte) :
    unquoted ngxUnescapeRedirectFlag hi lo ch =
      if '%'.toUInt8 < ch ∧ ch < 0x7f then
        ([ch], if ch = '?'.toUInt8 then none else some .usual)
      else (['%'.toUInt8, hi, lo], some .usual) := by
  have hends : endsAtQuery ngxUnescapeRedirectFlag = true := rfl
  simp only [unquoted, hends, keepsQuoted_redirect, and_true, true_and]
  by_cases hq : ch = '?'.toUInt8
  · have hp : '%'.toUInt8 < ch ∧ ch < 0x7f := by
      rw [hq]
      decide
    rw [if_pos hq, if_pos hp, if_pos hq]
  · rw [if_neg hq, if_neg hq]
    by_cases hp : '%'.toUInt8 < ch ∧ ch < 0x7f
    · rw [if_neg (not_not.2 hp), if_pos hp]
    · rw [if_pos hp, if_neg hp]

theorem redirect_printable (h : b ∈ unescaped ngxUnescapeRedirectFlag bs) :
    b ∈ bs ∨ '%'.toUInt8 < b ∧ b < 0x7f := by
  induction bs using piece_induction with
  | rest e =>
    rw [unescaped_rest] at h
    cases h
  | piece p bs ih =>
    rw [unescaped_append, List.mem_append] at h
    rcases h with h | h
    · cases p with
      | plain c hc => exact .inl (List.mem_append_left _ h)
      | sequence hi lo hhi hlo =>
        rw [Piece.written, unquoted_redirect] at h
        split at h
        · rename_i hp
          rw [List.mem_singleton.1 h]
          exact .inr hp
        · exact .inl (List.mem_append_left _ h)
      | loose ch hch =>
        have hmem : b ∈ (Piece.loose ch hch).bytes := List.mem_cons_of_mem _ h
        exact .inl (List.mem_append_left _ hmem)
      | broken hi ch hhi hch => cases h
    · split at h
      · cases h
      · exact (ih h).imp_left (List.mem_append_right _)

/-- Whatever the text, `REDIRECT` brings in characters between `%` and DEL only: a control
character, a blank or a byte from DEL on that it writes is one that stood there unescaped. -/
theorem redirect_brings_in_printable (m : Nat → Byte) (h : dst ≤ src ∨ src + size ≤ dst) :
    let r := ngxUnescapeUri m dst src size ngxUnescapeRedirectFlag
    ∀ b ∈ Cells.read r.1 dst (r.2.1 - dst),
      b ∈ Cells.read m src size ∨ '%'.toUInt8 < b ∧ b < 0x7f := by
  have hun := ngxUnescapeUri_eq m ngxUnescapeRedirectFlag h
  simp only at hun
  simp only [hun, Nat.add_sub_cancel_left, Cells.read_write]
  intro b hb
  exact redirect_printable hb

theorem redirect_brings_in_printable_newline :
    (10 : Byte) ∉
      let r := ngxUnescapeUri (uriMemory "a%0Ab%41") 0 0 8 ngxUnescapeRedirectFlag
      Cells.read r.1 0 (r.2.1 - 0) := by
  intro hb
  rcases redirect_brings_in_printable (uriMemory "a%0Ab%41")
    (.inl (Nat.le_refl 0) : 0 ≤ 0 ∨ 0 + 8 ≤ 0) 10 hb with h | h
  · exact absurd h (by decide)
  · exact absurd h (by decide)

/-- What `REDIRECT` makes of a whole piece. -/
def Piece.redirect : Piece → Piece
  | .sequence hi lo hhi hlo =>
    if h : '%'.toUInt8 < codeOf hi lo ∧ codeOf hi lo < 0x7f then
      .plain (codeOf hi lo) fun he => absurd (he ▸ h.1) (by decide)
    else .sequence hi lo hhi hlo
  | p => p

/-- The byte that a whole piece stands for. -/
def Piece.code : Piece → Byte
  | .plain b _ => b
  | .sequence hi lo _ _ => codeOf hi lo
  | .loose ch _ => ch
  | .broken _ ch _ _ => ch

def redirected : List Piece → List Piece
  | [] => []
  | p :: ps => p.redirect :: if p.code = '?'.toUInt8 then [] else redirected ps

theorem query_printable : '%'.toUInt8 < '?'.toUInt8 ∧ '?'.toUInt8 < 0x7f := by decide

theorem written_redirect {p : Piece} (h : p.IsWhole) :
    p.written ngxUnescapeRedirectFlag = (p.redirect.bytes, p.code == '?'.toUInt8) := by
  cases p with
  | plain b hb =>
    have hends : endsAtQuery ngxUnescapeRedirectFlag = true := rfl
    rw [Piece.written, hends, Bool.and_true]
    rfl
  | sequence hi lo hhi hlo =>
    simp only [Piece.written, unquoted_redirect, Piece.redirect, Piece.code]
    by_cases hp : '%'.toUInt8 < codeOf hi lo ∧ codeOf hi lo < 0x7f
    · rw [if_pos hp, dif_pos hp]
      by_cases hq : codeOf hi lo = '?'.toUInt8
      · simp [hq, Piece.bytes]
      · simp [hq, Piece.bytes]
    · have hq : codeOf hi lo ≠ '?'.toUInt8 := by
        rintro he
        exact hp (he ▸ query_printable)
      simp [hp, hq, Piece.bytes]
  | loose ch hch => exact h.elim
  | broken hi ch hhi hch => exact h.elim

theorem written_zero {p : Piece} (h : p.IsWhole) : p.written 0 = ([p.code], false) := by
  have hends : endsAtQuery 0 = false := rfl
  have hkeep (lo : Byte) : keepsQuoted 0 lo = false := rfl
  cases p with
  | plain b hb =>
    rw [Piece.written, hends, Bool.and_false]
    rfl
  | sequence hi lo hhi hlo => simp [Piece.written, unquoted, hends, hkeep, Piece.code]
  | loose ch hch => exact h.elim
  | broken hi ch hhi hch => exact h.elim

theorem redirect_isWhole {p : Piece} (h : p.IsWhole) : p.redirect.IsWhole := by
  cases p with
  | plain b hb => trivial
  | sequence hi lo hhi hlo =>
    rw [Piece.redirect]
    split
    · trivial
    · trivial
  | loose ch hch => exact h.elim
  | broken hi ch hhi hch => exact h.elim

@[simp] theorem redirect_code (p : Piece) : p.redirect.code = p.code := by
  cases p with
  | sequence hi lo hhi hlo =>
    rw [Piece.redirect]
    split
    · rfl
    · rfl
  | _ => rfl

@[simp] theorem redirect_redirect (p : Piece) : p.redirect.redirect = p.redirect := by
  cases p with
  | sequence hi lo hhi hlo =>
    by_cases hp : '%'.toUInt8 < codeOf hi lo ∧ codeOf hi lo < 0x7f
    · simp only [Piece.redirect, dif_pos hp]
    · simp only [Piece.redirect, dif_neg hp]
  | _ => rfl

section
variable {ps : List Piece}

theorem writtenOf_redirect (h : ∀ p ∈ ps, p.IsWhole) :
    writtenOf ngxUnescapeRedirectFlag ps = textOf (redirected ps) := by
  induction ps with
  | nil => rfl
  | cons p ps ih =>
    obtain ⟨hp, hps⟩ := List.forall_mem_cons.1 h
    rw [writtenOf, written_redirect hp, ih hps, redirected, textOf_cons]
    by_cases hq : p.code = '?'.toUInt8
    · simp [hq]
    · simp [hq]

theorem writtenOf_zero (h : ∀ p ∈ ps, p.IsWhole) : writtenOf 0 ps = ps.map Piece.code := by
  induction ps with
  | nil => rfl
  | cons p ps ih =>
    obtain ⟨hp, hps⟩ := List.forall_mem_cons.1 h
    rw [writtenOf, written_zero hp, ih hps]
    rfl

theorem redirected_isWhole (h : ∀ p ∈ ps, p.IsWhole) : ∀ p ∈ redirected ps, p.IsWhole := by
  induction ps with
  | nil => exact h
  | cons p ps ih =>
    obtain ⟨hp, hps⟩ := List.forall_mem_cons.1 h
    rw [redirected, List.forall_mem_cons]
    apply And.intro (redirect_isWhole hp)
    split
    · intro q hq
      cases hq
    · exact ih hps

theorem redirected_redirected (ps : List Piece) :
    redirected (redirected ps) = redirected ps := by
  induction ps with
  | nil => rfl
  | cons p ps ih =>
    by_cases hq : p.code = '?'.toUInt8
    · simp [redirected, hq]
    · simp [redirected, hq, ih]

theorem map_code_redirected (ps : List Piece) :
    (redirected ps).map Piece.code = upToQuery ngxUnescapeRedirectFlag (ps.map Piece.code) := by
  have hends : endsAtQuery ngxUnescapeRedirectFlag = true := rfl
  induction ps with
  | nil => rfl
  | cons p ps ih =>
    by_cases hq : p.code = '?'.toUInt8
    · simp [redirected, upToQuery, hends, hq]
    · simp [redirected, upToQuery, hq, ih]

end

theorem pieces_redirect (h : WellEscaped bs) :
    pieces (unescaped ngxUnescapeRedirectFlag bs) = (redirected (pieces bs).1, .none) := by
  have hp := pieces_textOf (redirected (pieces bs).1) .none
  rwa [Rest.bytes, List.append_nil, ← writtenOf_redirect h.2, ← unescaped_eq_writtenOf] at hp

theorem unescaped_redirect (h : WellEscaped bs) :
    let out := unescaped ngxUnescapeRedirectFlag bs
    WellEscaped out ∧ unescaped ngxUnescapeRedirectFlag out = out ∧
      unescaped 0 out = upToQuery ngxUnescapeRedirectFlag (unescaped 0 bs) := by
  have hp := pieces_redirect h
  have hw := redirected_isWhole h.2
  refine ⟨⟨by rw [hp], by rw [hp]; exact hw⟩, ?_, ?_⟩
  · rw [unescaped_eq_writtenOf, hp, writtenOf_redirect hw, redirected_redirected,
      ← writtenOf_redirect h.2, ← unescaped_eq_writtenOf]
  · rw [unescaped_eq_writtenOf, hp, writtenOf_zero hw, map_code_redirected,
      ← writtenOf_zero h.2, ← unescaped_eq_writtenOf]

/-- `REDIRECT` and then plain unescaping is plain unescaping up to the query, and `REDIRECT` done
again changes nothing. -/
theorem redirect_keeps_meaning (m : Nat → Byte) (h : dst ≤ src ∨ src + size ≤ dst)
    (hw : WellEscaped (Cells.read m src size)) :
    let r := ngxUnescapeUri m dst src size ngxUnescapeRedirectFlag
    let again := ngxUnescapeUri r.1 dst dst (r.2.1 - dst) ngxUnescapeRedirectFlag
    let plain := ngxUnescapeUri r.1 dst dst (r.2.1 - dst) 0
    let direct := ngxUnescapeUri m dst src size 0
    again.1 = r.1 ∧ again.2.1 = r.2.1 ∧
      Cells.read plain.1 dst (plain.2.1 - dst) =
        upToQuery ngxUnescapeRedirectFlag (Cells.read direct.1 dst (direct.2.1 - dst)) := by
  obtain ⟨_, hagain, hplain⟩ := unescaped_redirect hw
  have hr := ngxUnescapeUri_eq m ngxUnescapeRedirectFlag h
  have hd := ngxUnescapeUri_eq m 0 h
  simp only at hr hd
  simp only [hr, hd, Nat.add_sub_cancel_left, Cells.read_write]
  generalize hout : unescaped ngxUnescapeRedirectFlag (Cells.read m src size) = out at *
  have hread := Cells.read_write m dst out
  have hroom : dst ≤ dst ∨ dst + out.length ≤ dst := .inl (Nat.le_refl dst)
  have ha := ngxUnescapeUri_eq (Cells.write m dst out) ngxUnescapeRedirectFlag hroom
  have hp := ngxUnescapeUri_eq (Cells.write m dst out) 0 hroom
  simp only [hread, hagain] at ha hp
  simp only [ha, hp, Nat.add_sub_cancel_left, Cells.read_write, hplain, and_true]
  have hsame := Cells.write_read (Cells.write m dst out) dst out.length
  rwa [hread] at hsame

theorem redirect_keeps_meaning_blank :
    let r := ngxUnescapeUri (uriMemory "%41%20b") 0 0 7 ngxUnescapeRedirectFlag
    (ngxUnescapeUri r.1 0 0 (r.2.1 - 0) ngxUnescapeRedirectFlag).1 = r.1 := by
  have h : 0 ≤ 0 ∨ 0 + 7 ≤ 0 := .inl (Nat.le_refl 0)
  exact (redirect_keeps_meaning (uriMemory "%41%20b") h (by decide +kernel)).1

end

end TeleopLedBenchmarks
