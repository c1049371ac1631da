import TeleopLedBenchmarks.UriEscape
import TeleopLedBenchmarks.UriPieces

namespace TeleopLedBenchmarks
set_option autoImplicit true

theorem forall_byte {p : Byte → Prop} (h : ∀ n < 256, p (UInt8.ofNat n)) (b : Byte) : p b := by
  have hb := h b.toNat b.toNat_lt
  rwa [UInt8.ofNat_toNat] at hb

theorem hexDigit_spec (b : Byte) :
    IsHex (hexDigit (b >>> 4)) ∧ IsHex (hexDigit (b &&& 0xf)) ∧
      codeOf (hexDigit (b >>> 4)) (hexDigit (b &&& 0xf)) = b := by
  revert b
  exact forall_byte (by decide +kernel)

theorem escapes_percent (type : EscapeType) :
    type.escapes '%'.toUInt8 = true ↔ type ≠ .refresh := by
  cases type <;> decide

/-- What a byte stands as in an escaped text. -/
def pieceOf (type : EscapeType) (h : type ≠ .refresh) (b : Byte) : Piece :=
  if hb : type.escapes b then
    .sequence (hexDigit (b >>> 4)) (hexDigit (b &&& 0xf)) (hexDigit_spec b).1 (hexDigit_spec b).2.1
  else .plain b fun he => hb (he ▸ (escapes_percent type).2 h)

/-- The text up to its first `?`, if the decoder ends there. -/
def upToQuery (type : UInt32) : List Byte → List Byte
  | [] => []
  | b :: bs => if b = '?'.toUInt8 ∧ endsAtQuery type then [b] else b :: upToQuery type bs

section
variable {type : EscapeType}

theorem textOf_map_pieceOf (h : type ≠ .refresh) (bs : List Byte) :
    textOf (bs.map (pieceOf type h)) = escaped type bs := by
  induction bs with
  | nil => rfl
  | cons b bs ih =>
    have hb : (pieceOf type h b).bytes = escapedByte type b := by
      rw [pieceOf, escapedByte]
      split
      · rfl
      · rfl
    rw [List.map_cons, textOf_cons, ih, escaped_cons, hb]

theorem pieces_escaped (h : type ≠ .refresh) (bs : List Byte) :
    pieces (escaped type bs) = (bs.map (pieceOf type h), .none) := by
  have hp := pieces_textOf (bs.map (pieceOf type h)) .none
  rwa [textOf_map_pieceOf, Rest.bytes, List.append_nil] at hp

theorem written_pieceOf (h : type ≠ .refresh) (hr : flags &&& ngxUnescapeRedirectFlag = 0)
    (b : Byte) :
    (pieceOf type h b).written flags = ([b], b == '?'.toUInt8 && endsAtQuery flags) := by
  have hkeep (lo : Byte) : keepsQuoted flags lo = false := by simp [keepsQuoted, hr]
  rw [pieceOf]
  split
  · simp only [Piece.written, (hexDigit_spec b).2.2, unquoted, hkeep, Bool.false_eq_true,
      false_and, if_false]
    by_cases hq : b = '?'.toUInt8 ∧ endsAtQuery flags = true
    · simp [hq]
    · rw [if_neg hq]
      simpa using hq
  · rfl

theorem unescaped_escaped (h : type ≠ .refresh) (hr : flags &&& ngxUnescapeRedirectFlag = 0)
    (bs : List Byte) : unescaped flags (escaped type bs) = upToQuery flags bs := by
  rw [unescaped_eq_writtenOf, pieces_escaped h]
  induction bs with
  | nil => rfl
  | cons b bs ih =>
    rw [List.map_cons, writtenOf, ih, written_pieceOf h hr, upToQuery]
    by_cases hq : b = '?'.toUInt8 ∧ endsAtQuery flags = true
    · simp [hq]
    · rw [if_neg hq]
      have hb : (b == '?'.toUInt8 && endsAtQuery flags) = false := by simpa using hq
      rw [hb]
      rfl

theorem upToQuery_zero (bs : List Byte) : upToQuery 0 bs = bs := by
  induction bs with
  | nil => rfl
  | cons b bs ih =>
    have hne : ¬(b = '?'.toUInt8 ∧ endsAtQuery 0 = true) := by
      rintro ⟨_, h⟩
      cases h
    rw [upToQuery, if_neg hne, ih]

theorem upToQuery_eq_self_iff (hf : endsAtQuery flags = true) (bs : List Byte) :
    upToQuery flags bs = bs ↔ '?'.toUInt8 ∉ bs.dropLast := by
  induction bs with
  | nil => exact iff_of_true rfl List.not_mem_nil
  | cons b bs ih =>
    rw [upToQuery]
    by_cases hb : b = '?'.toUInt8
    · rw [if_pos ⟨hb, hf⟩]
      cases bs with
      | nil => exact iff_of_true rfl List.not_mem_nil
      | cons c cs => simp [hb]
    · rw [if_neg fun h => hb h.1, List.cons.injEq, ih]
      cases bs with
      | nil => simp
      | cons c cs => simp [Ne.symm hb]

theorem length_escaped_le (type : EscapeType) (m : Nat → Byte) (src size : Nat) :
    (escaped type (Cells.read m src size)).length ≤ 3 * size := by
  have hl := length_escaped type (Cells.read m src size)
  have hcount := List.countP_le_length (p := type.escapes) (l := Cells.read m src size)
  rw [Cells.length_read] at hl hcount
  omega

theorem ngxUnescapeUri_escaped (h : type ≠ .refresh) (flags : UInt32)
    (hr : flags &&& ngxUnescapeRedirectFlag = 0) (m : Nat → Byte)
    (hc : Transducer.Clear 3 0 size dst src) (hout : out ≤ dst ∨ dst + 3 * size ≤ out) :
    let r := ngxEscapeUri m (some dst) src size type
    let back := upToQuery flags (Cells.read m src size)
    let u := ngxUnescapeUri r.1 out dst (r.2 - dst) flags
    u.1 = Cells.write r.1 out back ∧ u.2.1 = out + back.length := by
  have hlen := length_escaped_le type m src size
  have hesc := ngxEscapeUri_some type m hc
  simp only at hesc
  rw [hesc]
  simp only [Nat.add_sub_cancel_left]
  have hread := Cells.read_write m dst (escaped type (Cells.read m src size))
  have hroom : out ≤ dst ∨ dst + (escaped type (Cells.read m src size)).length ≤ out := by
    rcases hout with ho | ho
    · exact .inl ho
    · right
      omega
  have hun := ngxUnescapeUri_eq (Cells.write m dst (escaped type (Cells.read m src size)))
    flags hroom
  simp only [hread, unescaped_escaped h hr] at hun
  rw [hun]
  exact ⟨rfl, rfl⟩

end

/-- `ALPHA`, `DIGIT`, `-`, `.`, `_` and `~`. -/
def Unreserved (b : Byte) : Prop :=
  'A'.toUInt8 ≤ b ∧ b ≤ 'Z'.toUInt8 ∨ 'a'.toUInt8 ≤ b ∧ b ≤ 'z'.toUInt8 ∨
    '0'.toUInt8 ≤ b ∧ b ≤ '9'.toUInt8 ∨ b ∈ chars "-._~"

instance (b : Byte) : Decidable (Unreserved b) :=
  inferInstanceAs (Decidable (_ ∨ _ ∨ _ ∨ _))

theorem escapes_uriComponent (b : Byte) :
    EscapeType.uriComponent.escapes b = true ↔ ¬Unreserved b := by
  revert b
  exact forall_byte (by decide +kernel)

theorem hexDigit_unreserved (b : Byte) :
    Unreserved (hexDigit (b >>> 4)) ∧ Unreserved (hexDigit (b &&& 0xf)) := by
  revert b
  exact forall_byte (by decide +kernel)

theorem escaped_alphabet (h : b ∈ escaped .uriComponent bs) :
    Unreserved b ∨ b = '%'.toUInt8 := by
  obtain ⟨c, _, hb⟩ := List.mem_flatMap.1 h
  rw [escapedByte] at hb
  split at hb
  · rcases List.mem_cons.1 hb with rfl | hb
    · exact .inr rfl
    · rcases List.mem_cons.1 hb with rfl | hb
      · exact .inl (hexDigit_unreserved c).1
      · rw [List.mem_singleton.1 hb]
        exact .inl (hexDigit_unreserved c).2
  · rename_i hc
    rw [List.mem_singleton.1 hb]
    rw [escapes_uriComponent] at hc
    exact .inl (not_not.1 hc)

/-- The first call tells how long a buffer the second one needs. -/
theorem escape_writes (type : EscapeType) (m : Nat → Byte)
    (hc : Transducer.Clear 3 0 size dst src) :
    let bytes := Cells.read m src size
    let n := bytes.countP type.escapes
    let r := ngxEscapeUri m (some dst) src size type
    ngxEscapeUri m none src size type = (m, n % UInt32.size) ∧
      r.2 = dst + size + 2 * n ∧ r.2 ≤ dst + 3 * size ∧
      Cells.read r.1 dst (r.2 - dst) = escaped type bytes ∧
      ∀ a, a < dst ∨ r.2 ≤ a → r.1 a = m a := by
  have hlen := length_escaped type (Cells.read m src size)
  have hcount := List.countP_le_length (p := type.escapes) (l := Cells.read m src size)
  rw [Cells.length_read] at hlen hcount
  have hesc := ngxEscapeUri_some type m hc
  simp only at hesc
  intro bytes n r
  have hnull : escapeCount type m src 0 size = UInt32.ofNat n := by
    rw [escapeCount_eq, UInt32.zero_add]
  have hr : r = (Cells.write m dst (escaped type bytes), dst + (escaped type bytes).length) :=
    hesc
  rw [hr]
  simp only [Nat.add_sub_cancel_left]
  have hn : (escaped type bytes).length = size + 2 * n := hlen
  have hle : n ≤ size := hcount
  apply And.intro
  · rw [ngxEscapeUri, hnull]
    rfl
  · refine ⟨by omega, by omega, Cells.read_write _ _ _, ?_⟩
    intro a ha
    exact Cells.write_outside ha

def uriMemory (text : String) : Nat → Byte := Cells.write (fun _ => 0) 0 (chars text)

theorem escape_writes_html :
    let r := ngxEscapeUri (uriMemory "a <b>") (some 5) 0 5 .html
    Cells.read r.1 5 (r.2 - 5) = chars "a%20%3Cb%3E" := by
  have hc : Transducer.Clear 3 0 5 5 0 := .inr (by decide)
  exact (escape_writes .html (uriMemory "a <b>") hc).2.2.2.1.trans (by decide)

theorem escaped_eq_self_iff (bs : List Byte) :
    escaped .uriComponent bs = bs ↔ ∀ b ∈ bs, Unreserved b := by
  induction bs with
  | nil => simp
  | cons b bs ih =>
    rw [escaped_cons, List.forall_mem_cons, ← ih, escapedByte]
    split
    · rename_i hb
      have hnot := (escapes_uriComponent b).1 hb
      constructor
      · intro h
        have hlen := congrArg List.length h
        have hl := length_escaped .uriComponent bs
        simp only [List.length_append, List.length_cons, List.length_nil] at hlen
        omega
      · intro h
        exact absurd h.1 hnot
    · rename_i hb
      rw [escapes_uriComponent] at hb
      simp [not_not.1 hb]

theorem exampleUriEncode_some (m : Nat → Byte) (hc : Transducer.Clear 3 0 len dest src)
    (hlen : 3 * len < UInt32.size) :
    let out := escaped .uriComponent (Cells.read m src len)
    let r := exampleUriEncode m (some dest) (some src) len
    r.1 = Cells.write m dest out ∧ r.2.toNat = out.length := by
  have hesc := ngxEscapeUri_some .uriComponent m hc
  have hle := length_escaped_le .uriComponent m src len
  simp only at hesc
  simp only [exampleUriEncode, hesc, Nat.add_sub_cancel_left, true_and]
  exact UInt32.toNat_ofNat_of_lt' (by omega)

/-- The text that `example_uri_encode` writes consists of unreserved characters and `%`, and the
value it returns is the length of that text, not the count of escaped characters. -/
theorem uri_encode_alphabet (m : Nat → Byte) (hc : Transducer.Clear 3 0 len dest src)
    (hlen : 3 * len < UInt32.size) :
    let bytes := Cells.read m src len
    let n := bytes.countP fun b => ¬Unreserved b
    let r := exampleUriEncode m (some dest) (some src) len
    let out := Cells.read r.1 dest r.2.toNat
    (∀ b ∈ out, Unreserved b ∨ b = '%'.toUInt8) ∧
      (out = bytes ↔ ∀ b ∈ bytes, Unreserved b) ∧
      r.2.toNat = len + 2 * n ∧ (r.2.toNat = n ↔ len = 0) := by
  intro bytes n r out
  obtain ⟨hmem, hret⟩ := exampleUriEncode_some m hc hlen
  have hl := length_escaped .uriComponent bytes
  have hn : bytes.countP EscapeType.uriComponent.escapes = n := by
    apply List.countP_congr
    intro b _
    rw [escapes_uriComponent, decide_eq_true_iff]
  have hsize : bytes.length = len := Cells.length_read m src len
  have hle : n ≤ len := hsize ▸ List.countP_le_length
  rw [hn, hsize] at hl
  have hout : out = escaped .uriComponent bytes := by
    simp only [out, r, hret, hmem]
    exact Cells.read_write _ _ _
  have hr : r.2.toNat = len + 2 * n := hret.trans hl
  rw [hout, hr]
  apply And.intro
  · intro b hb
    exact escaped_alphabet hb
  · refine ⟨escaped_eq_self_iff bytes, rfl, ?_⟩
    constructor
    · intro h
      omega
    · intro h
      omega

theorem uri_encode_alphabet_blank :
    (exampleUriEncode (uriMemory "a b") (some 3) (some 0) 3).2.toNat = 5 := by
  have hc : Transducer.Clear 3 0 3 3 0 := .inr (by decide)
  exact (uri_encode_alphabet (uriMemory "a b") hc (by decide)).2.2.1.trans (by decide)

/-- Decoding gives the source back up to its first `?`. -/
theorem uri_round_trip (m : Nat → Byte) (hc : Transducer.Clear 3 0 len buf src)
    (hout : out ≤ buf ∨ buf + 3 * len ≤ out) (hlen : 3 * len < UInt32.size) :
    let bytes := Cells.read m src len
    let r := exampleUriEncode m (some buf) (some src) len
    let m' := exampleUriDecode r.1 (some out) (some buf) r.2.toNat
    let back := upToQuery ngxUnescapeUriFlag bytes
    Cells.read m' out back.length = back ∧
      (∀ a, a < out ∨ out + back.length ≤ a → m' a = r.1 a) ∧
      (back = bytes ↔ '?'.toUInt8 ∉ bytes.dropLast) := by
  intro bytes r m' back
  obtain ⟨hmem, hret⟩ := exampleUriEncode_some m hc hlen
  have hesc := ngxEscapeUri_some .uriComponent m hc
  simp only at hesc
  have htype : EscapeType.uriComponent ≠ .refresh := by decide
  have hdec := ngxUnescapeUri_escaped htype ngxUnescapeUriFlag rfl m hc hout
  simp only [hesc, Nat.add_sub_cancel_left] at hdec
  have hm' : m' = Cells.write r.1 out back := by
    simp only [m', r, hmem, hret]
    exact hdec.1
  rw [hm']
  apply And.intro
  · exact Cells.read_write _ _ _
  · apply And.intro
    · intro a ha
      exact Cells.write_outside ha
    · exact upToQuery_eq_self_iff rfl bytes

/-- The buffer is decoded in place, and the query is lost. -/
theorem uri_round_trip_query :
    let r := exampleUriEncode (uriMemory "a b?c=d") (some 7) (some 0) 7
    Cells.read (exampleUriDecode r.1 (some 7) (some 7) r.2.toNat) 7 4 = chars "a b?" := by
  have hc : Transducer.Clear 3 0 7 7 0 := .inr (by decide)
  exact (uri_round_trip (uriMemory "a b?c=d") hc (.inl (by decide)) (by decide)).1

/-- What `ngx_escape_uri` writes is undone by `ngx_unescape_uri` with no flag, whatever the text
is, for every map that escapes `%`; `refresh` is the one that does not. -/
theorem unescape_inverts_escape (type : EscapeType) :
    (∀ (m : Nat → Byte) (dst src size out : Nat), Transducer.Clear 3 0 size dst src →
      (out ≤ dst ∨ dst + 3 * size ≤ out) →
      let r := ngxEscapeUri m (some dst) src size type
      let u := ngxUnescapeUri r.1 out dst (r.2 - dst) 0
      Cells.read u.1 out (u.2.1 - out) = Cells.read m src size) ↔ type ≠ .refresh := by
  constructor
  · intro h he
    subst he
    have hback := h (uriMemory "%20") 3 0 3 3 (.inr (by decide)) (.inl (by decide))
    exact absurd hback (by decide)
  · intro h m dst src size out hc hout
    obtain ⟨hmem, hd⟩ := ngxUnescapeUri_escaped h 0 rfl m hc hout
    rw [upToQuery_zero] at hmem hd
    simp only [hmem, hd, Nat.add_sub_cancel_left]
    exact Cells.read_write _ _ _

end TeleopLedBenchmarks
