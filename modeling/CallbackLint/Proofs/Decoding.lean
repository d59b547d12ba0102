import CallbackLint.Source
import Mathlib.Data.List.Basic
/-!
# Reading bytes as text

What `Utf8.decode` does is said here without its branches. A character stands in the source by
the bytes that spell it; an ill-formed piece is the longest start of a character at a place where
no character stands, or a single byte where there is not even a start (`IllFormed`). Bytes are
read as text by taking one or the other from the front until nothing is left (`Reads`). There is
one way to do so, and `decodeChars` finds it (`reads_iff`).

The branches of the decoder are matched with this once, in `reads_decodeChars`; the four lengths of
a character are listed by `WellFormed`. That a text is read back from its bytes, whatever bytes
follow it, is then a matter of `Reads` alone (`decode_encode_append`), and so is what the text of
a node is (`text_of_utf8`).
-/

namespace CallbackLint

namespace Utf8

variable {a b c d : UInt8} {bs rest : Bytes} {n : Nat}

/-! ## Ranges of bytes -/

/-- The bytes that follow the first, as numbers. -/
theorem isTail_iff : isTail b = true ↔ 0x80 ≤ b.toNat ∧ b.toNat ≤ 0xBF := by
  simp [isTail, UInt8.le_iff_toNat_le]

/-- Behind the least first byte of three the shorter spellings are left out, and behind another the
surrogates. -/
theorem isSecondOfThree_iff : isSecondOfThree a b = true ↔
    (0x80 ≤ b.toNat ∧ b.toNat ≤ 0xBF) ∧
      (a.toNat = 0xE0 → 0xA0 ≤ b.toNat) ∧ (a.toNat = 0xED → b.toNat ≤ 0x9F) := by
  simp only [isSecondOfThree, isTail, UInt8.le_iff_toNat_le, ← UInt8.toNat_inj, beq_iff_eq,
    UInt8.reduceToNat]
  split_ifs <;> simp <;> omega

/-- Behind the least first byte of four the shorter spellings are left out, and behind the greatest
what is past the code space. -/
theorem isSecondOfFour_iff : isSecondOfFour a b = true ↔
    (0x80 ≤ b.toNat ∧ b.toNat ≤ 0xBF) ∧
      (a.toNat = 0xF0 → 0x90 ≤ b.toNat) ∧ (a.toNat = 0xF4 → b.toNat ≤ 0x8F) := by
  simp only [isSecondOfFour, isTail, UInt8.le_iff_toNat_le, ← UInt8.toNat_inj, beq_iff_eq,
    UInt8.reduceToNat]
  split_ifs <;> simp <;> omega

/-! ## The bytes of a character -/

/-- The bytes spell the character with the number `n`: one constructor for each length. -/
inductive WellFormed : Bytes → Nat → Prop where
  | one {a : UInt8} {n : Nat} (ha : a < 0x80) (hn : n = a.toNat) : WellFormed [a] n
  | two {a b : UInt8} {n : Nat} (ha : 0xC2 ≤ a ∧ a ≤ 0xDF) (hb : isTail b)
    (hn : n = a.toNat % 0x20 * 0x40 + tailBits b) : WellFormed [a, b] n
  | three {a b c : UInt8} {n : Nat} (ha : 0xE0 ≤ a ∧ a ≤ 0xEF) (hb : isSecondOfThree a b)
    (hc : isTail c) (hn : n = (a.toNat % 0x10 * 0x40 + tailBits b) * 0x40 + tailBits c) :
    WellFormed [a, b, c] n
  | four {a b c d : UInt8} {n : Nat} (ha : 0xF0 ≤ a ∧ a ≤ 0xF4) (hb : isSecondOfFour a b)
    (hc : isTail c) (hd : isTail d)
    (hn : n = ((a.toNat % 0x08 * 0x40 + tailBits b) * 0x40 + tailBits c) * 0x40 + tailBits d) :
    WellFormed [a, b, c, d] n

/-- **Every character is spelled by its bytes.** -/
theorem wellFormed_encodeChar (c : Char) : WellFormed (encodeChar c) c.toNat := by
  have hvalid : c.toNat.isValidChar := c.valid
  unfold Nat.isValidChar at hvalid
  unfold encodeChar
  generalize c.toNat = n at *
  dsimp only
  split
  · refine .one ?_ ?_ <;> simp [UInt8.lt_iff_toNat_lt] <;> omega
  split
  · refine .two ?_ ?_ ?_ <;> simp [UInt8.le_iff_toNat_le, isTail_iff, tailBits] <;> omega
  split
  · refine .three ?_ ?_ ?_ ?_ <;>
      simp [UInt8.le_iff_toNat_le, isSecondOfThree_iff, isTail_iff, tailBits] <;> omega
  · refine .four ?_ ?_ ?_ ?_ ?_ <;>
      simp [UInt8.le_iff_toNat_le, isSecondOfFour_iff, isTail_iff, tailBits] <;> omega

/-- Such a number is that of a character: it is no surrogate and within the code space. -/
theorem WellFormed.isValidChar (h : WellFormed bs n) : n.isValidChar := by
  unfold Nat.isValidChar
  cases h with
  | one ha hn =>
    simp only [UInt8.lt_iff_toNat_lt, UInt8.reduceToNat] at ha
    omega
  | two ha hb hn =>
    simp only [UInt8.le_iff_toNat_le, UInt8.reduceToNat, tailBits] at ha hn
    omega
  | three ha hb hc hn =>
    simp only [UInt8.le_iff_toNat_le, UInt8.reduceToNat, isSecondOfThree_iff, tailBits] at ha hb hn
    omega
  | four ha hb hc hd hn =>
    simp only [UInt8.le_iff_toNat_le, UInt8.reduceToNat, isSecondOfFour_iff, tailBits] at ha hb hn
    omega

theorem ofNat_eq_of_toNat (h : a.toNat = n) : UInt8.ofNat n = a := by
  rw [← h, UInt8.ofNat_toNat]

/-- **Only the bytes of a character spell it**: none of them can be chosen otherwise. -/
theorem WellFormed.encodeChar_ofNat (h : WellFormed bs n) : encodeChar (Char.ofNat n) = bs := by
  have hnumber : (Char.ofNat n).toNat = n := by
    rw [Char.ofNat, dif_pos h.isValidChar]
    rfl
  unfold encodeChar
  rw [hnumber]
  dsimp only
  cases h with
  | @one a n ha hn =>
    simp only [UInt8.lt_iff_toNat_lt, UInt8.reduceToNat] at ha
    have hbyte : UInt8.ofNat n = a := ofNat_eq_of_toNat (by omega)
    rw [if_pos (by omega), hbyte]
  | @two a b n ha hb hn =>
    simp only [UInt8.le_iff_toNat_le, UInt8.reduceToNat, isTail_iff, tailBits] at ha hb hn
    have hfirst : UInt8.ofNat (0xC0 + n / 0x40) = a := ofNat_eq_of_toNat (by omega)
    have hlast : UInt8.ofNat (0x80 + n % 0x40) = b := ofNat_eq_of_toNat (by omega)
    rw [if_neg (by omega), if_pos (by omega), hfirst, hlast]
  | @three a b c n ha hb hc hn =>
    simp only [UInt8.le_iff_toNat_le, UInt8.reduceToNat, isSecondOfThree_iff, isTail_iff,
      tailBits] at ha hb hc hn
    have hfirst : UInt8.ofNat (0xE0 + n / 0x1000) = a := ofNat_eq_of_toNat (by omega)
    have hsecond : UInt8.ofNat (0x80 + n / 0x40 % 0x40) = b := ofNat_eq_of_toNat (by omega)
    have hlast : UInt8.ofNat (0x80 + n % 0x40) = c := ofNat_eq_of_toNat (by omega)
    rw [if_neg (by omega), if_neg (by omega), if_pos (by omega), hfirst, hsecond, hlast]
  | @four a b c d n ha hb hc hd hn =>
    simp only [UInt8.le_iff_toNat_le, UInt8.reduceToNat, isSecondOfFour_iff, isTail_iff,
      tailBits] at ha hb hc hd hn
    have hfirst : UInt8.ofNat (0xF0 + n / 0x40000) = a := ofNat_eq_of_toNat (by omega)
    have hsecond : UInt8.ofNat (0x80 + n / 0x1000 % 0x40) = b := ofNat_eq_of_toNat (by omega)
    have hthird : UInt8.ofNat (0x80 + n / 0x40 % 0x40) = c := ofNat_eq_of_toNat (by omega)
    have hlast : UInt8.ofNat (0x80 + n % 0x40) = d := ofNat_eq_of_toNat (by omega)
    rw [if_neg (by omega), if_neg (by omega), if_neg (by omega), hfirst, hsecond, hthird, hlast]

/-- The bytes are those of the standard library's encoding. -/
theorem encodeChar_eq_utf8EncodeChar (c : Char) : encodeChar c = String.utf8EncodeChar c := by
  have hvalid : c.toNat.isValidChar := c.valid
  unfold Nat.isValidChar at hvalid
  have hval : c.val.toNat = c.toNat := rfl
  simp only [encodeChar, String.utf8EncodeChar, hval]
  generalize c.toNat = n at *
  split
  · rw [if_pos (by omega)]
  split
  · rw [if_neg (by omega), if_pos (by omega), Nat.mod_eq_of_lt (by omega : n / 0x40 < 0x20),
      Nat.add_comm, Nat.add_comm (n % 0x40)]
  split
  · rw [if_neg (by omega), if_neg (by omega), if_pos (by omega),
      Nat.mod_eq_of_lt (by omega : n / 0x1000 < 0x10), Nat.add_comm, Nat.add_comm (n % 0x40),
      Nat.add_comm (n / 0x40 % 0x40)]
  · rw [if_neg (by omega), if_neg (by omega), if_neg (by omega),
      Nat.mod_eq_of_lt (by omega : n / 0x40000 < 0x08), Nat.add_comm, Nat.add_comm (n % 0x40),
      Nat.add_comm (n / 0x40 % 0x40), Nat.add_comm (n / 0x1000 % 0x40)]

/-- No character is spelled by nothing. -/
theorem encodeChar_ne_nil (c : Char) : encodeChar c ≠ [] := by
  rw [encodeChar_eq_utf8EncodeChar]
  exact String.utf8EncodeChar_ne_nil

/-- **The bytes in front tell the character**, whatever follows them. -/
theorem encodeChar_append_inj {x y : Char} {rest rest' : Bytes}
    (h : encodeChar x ++ rest = encodeChar y ++ rest') : x = y ∧ rest = rest' := by
  have hchar : x = y := by
    have hread : ∀ (z : Char) (bytes : Bytes),
        ByteArray.utf8DecodeChar? (encodeChar z ++ bytes).toByteArray 0 = some z := by
      intro z bytes
      rw [encodeChar_eq_utf8EncodeChar, List.toByteArray_append]
      exact ByteArray.utf8DecodeChar?_utf8EncodeChar_append
    exact Option.some.inj ((hread x rest).symm.trans (h ▸ hread y rest'))
  subst hchar
  exact ⟨rfl, List.append_cancel_left h⟩

/-! ## Starts of characters -/

/-- The bytes are the first of those that spell some character, or all of them. -/
def IsStart (bs : Bytes) : Prop := ∃ c, bs <+: encodeChar c

/-- The start of a start is one. -/
theorem IsStart.shorten {bs' : Bytes} (h : IsStart bs) (hfront : bs' <+: bs) : IsStart bs' := by
  obtain ⟨c, hc⟩ := h
  exact ⟨c, hfront.trans hc⟩

/-- A start is what can be completed to the bytes of a character. -/
theorem isStart_iff_wellFormed : IsStart bs ↔ ∃ rest n, WellFormed (bs ++ rest) n := by
  constructor
  · rintro ⟨c, rest, h⟩
    exact ⟨rest, c.toNat, h ▸ wellFormed_encodeChar c⟩
  · rintro ⟨rest, n, h⟩
    exact ⟨Char.ofNat n, rest, h.encodeChar_ofNat.symm⟩

theorem isTail_first : isTail 0x80 = true := by decide

/-- Two bytes are a start by the first and what it asks of the second. -/
@[grind =] theorem isStart_two_iff : IsStart [a, b] ↔
    (0xC2 ≤ a ∧ a ≤ 0xDF) ∧ isTail b ∨ (0xE0 ≤ a ∧ a ≤ 0xEF) ∧ isSecondOfThree a b ∨
      (0xF0 ≤ a ∧ a ≤ 0xF4) ∧ isSecondOfFour a b := by
  rw [isStart_iff_wellFormed]
  constructor
  · rintro ⟨rest, n, h⟩
    cases h with
    | two ha hb => exact .inl ⟨ha, hb⟩
    | three ha hb => exact .inr (.inl ⟨ha, hb⟩)
    | four ha hb => exact .inr (.inr ⟨ha, hb⟩)
  · -- Only the second byte is bound by the first; behind it any tail will do.
    rintro (⟨ha, hb⟩ | ⟨ha, hb⟩ | ⟨ha, hb⟩)
    · exact ⟨[], _, .two ha hb rfl⟩
    · exact ⟨[0x80], _, .three ha hb isTail_first rfl⟩
    · exact ⟨[0x80, 0x80], _, .four ha hb isTail_first isTail_first rfl⟩

/-- Three bytes are a start if two are and the third follows. -/
@[grind =] theorem isStart_three_iff : IsStart [a, b, c] ↔
    ((0xE0 ≤ a ∧ a ≤ 0xEF) ∧ isSecondOfThree a b ∨
      (0xF0 ≤ a ∧ a ≤ 0xF4) ∧ isSecondOfFour a b) ∧ isTail c := by
  rw [isStart_iff_wellFormed]
  constructor
  · rintro ⟨rest, n, h⟩
    cases h with
    | three ha hb hc => exact ⟨.inl ⟨ha, hb⟩, hc⟩
    | four ha hb hc => exact ⟨.inr ⟨ha, hb⟩, hc⟩
  · rintro ⟨⟨ha, hb⟩ | ⟨ha, hb⟩, hc⟩
    · exact ⟨[], _, .three ha hb hc rfl⟩
    · exact ⟨[0x80], _, .four ha hb hc isTail_first rfl⟩

/-- In a start of four bytes the last follows the others. -/
@[grind →] theorem isTail_of_isStart (h : IsStart [a, b, c, d]) : isTail d := by
  obtain ⟨rest, n, hspelled⟩ := isStart_iff_wellFormed.1 h
  cases hspelled with
  | four _ _ _ hd => exact hd

/-! ## Ill-formed pieces -/

/-- The piece is the maximal ill-formed one in front of `rest`: no character stands there, and
the piece is the longest start of a character that is found there, or a single byte if none
is. -/
structure IllFormed (piece rest : Bytes) : Prop where
  ne_nil : piece ≠ []
  noChar : ∀ c, ¬ encodeChar c <+: piece ++ rest
  start : IsStart piece ∨ piece.length = 1
  longest : ∀ longer, longer <+: piece ++ rest → IsStart longer → longer.length ≤ piece.length

/-- **The next byte breaks a piece off.** A start of a character that is no character yet, or a
single byte, is ill-formed if it does not go on to be a start with the byte behind it. -/
theorem IllFormed.of_broken {piece : Bytes} (hne : piece ≠ [])
    (hstart : IsStart piece ∨ piece.length = 1) (hopen : ∀ n, ¬ WellFormed piece n)
    (hbroken : ∀ b ∈ rest.head?, ¬ IsStart (piece ++ [b])) : IllFormed piece rest := by
  have hwhole : ∀ c, encodeChar c ≠ piece := fun c hc =>
    hopen c.toNat (hc ▸ wellFormed_encodeChar c)
  have hlongest : ∀ longer, longer <+: piece ++ rest → IsStart longer →
      longer.length ≤ piece.length := by
    intro longer hlonger hs
    by_contra hlength
    obtain ⟨more, rfl⟩ : piece <+: longer :=
      List.prefix_of_prefix_length_le (List.prefix_append piece rest) hlonger (by omega)
    rcases more with _ | ⟨b, more⟩
    · exact hlength (by simp)
    · obtain ⟨behind, rfl⟩ : b :: more <+: rest := (List.prefix_append_right_inj piece).1 hlonger
      exact hbroken b rfl (hs.shorten ⟨more, by simp⟩)
  refine ⟨hne, fun c hc => ?_, hstart, hlongest⟩
  -- A character in front is no longer than the piece, and so is a start of it.
  have hlength := hlongest _ hc ⟨c, List.prefix_rfl⟩
  have hfront : encodeChar c <+: piece :=
    List.prefix_of_prefix_length_le hc (List.prefix_append piece rest) hlength
  rcases hstart with ⟨x, hx⟩ | hone
  · obtain ⟨more, hmore⟩ := hfront.trans hx
    obtain ⟨rfl, -⟩ := encodeChar_append_inj (hmore.trans (List.append_nil _).symm)
    exact hwhole c (hfront.eq_of_length_le hx.length_le)
  · have hpos := List.length_pos_iff.2 (encodeChar_ne_nil c)
    exact hwhole c (hfront.eq_of_length_le (by omega))

/-- A byte that no second byte continues is ill-formed on its own. -/
theorem illFormed_one (ha : ¬ a < 0x80) (h : ∀ b ∈ rest.head?, ¬ IsStart [a, b]) :
    IllFormed [a] rest := by
  refine .of_broken (by simp) (.inr rfl) (fun n hspelled => ?_) h
  cases hspelled with
  | one hone => exact ha hone

/-- Two bytes that no third continues are so together. -/
theorem illFormed_two (ha : 0xE0 ≤ a) (hstart : IsStart [a, b])
    (h : ∀ c ∈ rest.head?, ¬ IsStart [a, b, c]) : IllFormed [a, b] rest := by
  refine .of_broken (by simp) (.inl hstart) (fun n hspelled => ?_) h
  cases hspelled with
  | two htwo => grind

/-- And three that no fourth continues. -/
theorem illFormed_three (ha : 0xF0 ≤ a) (hstart : IsStart [a, b, c])
    (h : ∀ d ∈ rest.head?, ¬ IsStart [a, b, c, d]) : IllFormed [a, b, c] rest := by
  refine .of_broken (by simp) (.inl hstart) (fun n hspelled => ?_) h
  cases hspelled with
  | three hthree => grind

/-- Two such pieces in front of the same bytes are one. -/
theorem IllFormed.append_inj {piece piece' rest' : Bytes} (h : IllFormed piece rest)
    (h' : IllFormed piece' rest') (heq : piece ++ rest = piece' ++ rest') :
    piece = piece' ∧ rest = rest' := by
  have hle : ∀ {p q r s : Bytes}, IllFormed p r → IllFormed q s → p ++ r = q ++ s →
      q.length ≤ p.length := by
    intro p q r s hp hq hpq
    rcases hq.start with hstart | hone
    · exact hp.longest q (hpq ▸ List.prefix_append q s) hstart
    · have hpos := List.length_pos_iff.2 hp.ne_nil
      omega
  exact List.append_inj heq (Nat.le_antisymm (hle h' h heq.symm) (hle h h' heq))

/-! ## Reading -/

/-- The characters that bytes are read as: a character that stands in front, or a replacement
for an ill-formed piece, and then the same again behind it. -/
inductive Reads : Bytes → List Char → Prop where
  | nil : Reads [] []
  | char {c : Char} {rest : Bytes} {cs : List Char} (hrest : Reads rest cs) :
    Reads (encodeChar c ++ rest) (c :: cs)
  | illFormed {piece rest : Bytes} {cs : List Char} (hpiece : IllFormed piece rest)
    (hrest : Reads rest cs) : Reads (piece ++ rest) (replacement :: cs)

/-- There is at most one way to read bytes. -/
theorem Reads.unique {cs cs' : List Char} (h : Reads bs cs) (h' : Reads bs cs') : cs = cs' := by
  induction h generalizing cs' with
  | nil =>
    generalize hbs : ([] : Bytes) = bs at h'
    cases h' with
    | nil => rfl
    | char _ => exact absurd (List.append_eq_nil_iff.1 hbs.symm).1 (encodeChar_ne_nil _)
    | illFormed hpiece _ => exact absurd (List.append_eq_nil_iff.1 hbs.symm).1 hpiece.ne_nil
  | @char c rest cs _ ih =>
    generalize hbs : encodeChar c ++ rest = bs at h'
    cases h' with
    | nil => exact absurd (List.append_eq_nil_iff.1 hbs).1 (encodeChar_ne_nil c)
    | char hrest' =>
      obtain ⟨rfl, rfl⟩ := encodeChar_append_inj hbs
      rw [ih hrest']
    | illFormed hpiece _ => exact absurd ⟨rest, hbs⟩ (hpiece.noChar c)
  | @illFormed piece rest cs hpiece _ ih =>
    generalize hbs : piece ++ rest = bs at h'
    cases h' with
    | nil => exact absurd (List.append_eq_nil_iff.1 hbs).1 hpiece.ne_nil
    | char _ => exact absurd ⟨_, hbs.symm⟩ (hpiece.noChar _)
    | illFormed hpiece' hrest' =>
      obtain ⟨rfl, rfl⟩ := hpiece.append_inj hpiece' hbs
      rw [ih hrest']

/-- The bytes of a character in front are read as it. -/
theorem Reads.of_wellFormed {cs : List Char} (h : WellFormed bs n) (hrest : Reads rest cs) :
    Reads (bs ++ rest) (Char.ofNat n :: cs) := by
  rw [← h.encodeChar_ofNat]
  exact .char hrest

/-- Each branch of the decoder takes a character from the front, or the ill-formed piece that its
conditions tell. -/
theorem reads_decodeChars (bytes : Bytes) : Reads bytes (decodeChars bytes) := by
  unfold decodeChars
  fun_induction spans bytes with
  | case1 => exact .nil
  | case2 a rest h ih => exact .of_wellFormed (.one h rfl) ih
  -- The first byte is one of two.
  | case3 a h ha b rest hb ih => exact .of_wellFormed (.two (by grind) hb rfl) ih
  | case4 a h ha b rest hb ih =>
    have hpiece : IllFormed [a] (b :: rest) := illFormed_one h (by grind)
    exact .illFormed hpiece ih
  | case5 a h ha =>
    have hpiece : IllFormed [a] [] := illFormed_one h (by grind)
    exact .illFormed hpiece .nil
  -- The first byte is one of three: each byte that follows may break the character off, and so
  -- may the end.
  | case6 a h _ ha b c rest hb ih =>
    have hpiece : IllFormed [a] (b :: c :: rest) := illFormed_one h (by grind)
    exact .illFormed hpiece ih
  | case7 a h _ ha b c rest hb hc ih =>
    have hpiece : IllFormed [a, b] (c :: rest) := illFormed_two (by grind) (by grind) (by grind)
    exact .illFormed hpiece ih
  | case8 a h _ ha b c rest hb hc ih =>
    exact .of_wellFormed (.three (by grind) (by grind) (by grind) rfl) ih
  | case9 a h _ ha b hb =>
    have hpiece : IllFormed [a, b] [] := illFormed_two (by grind) (by grind) (by grind)
    exact .illFormed hpiece .nil
  | case10 a h _ ha b hb ih =>
    have hpiece : IllFormed [a] [b] := illFormed_one h (by grind)
    exact .illFormed hpiece ih
  | case11 a h _ ha =>
    have hpiece : IllFormed [a] [] := illFormed_one h (by grind)
    exact .illFormed hpiece .nil
  -- The first byte is one of four.
  | case12 a h _ _ ha b c d rest hb ih =>
    have hpiece : IllFormed [a] (b :: c :: d :: rest) := illFormed_one h (by grind)
    exact .illFormed hpiece ih
  | case13 a h _ _ ha b c d rest hb hc ih =>
    have hpiece : IllFormed [a, b] (c :: d :: rest) :=
      illFormed_two (by grind) (by grind) (by grind)
    exact .illFormed hpiece ih
  | case14 a h _ _ ha b c d rest hb hc hd ih =>
    have hpiece : IllFormed [a, b, c] (d :: rest) :=
      illFormed_three (by grind) (by grind) (by grind)
    exact .illFormed hpiece ih
  | case15 a h _ _ ha b c d rest hb hc hd ih =>
    exact .of_wellFormed (.four (by grind) (by grind) (by grind) (by grind) rfl) ih
  | case16 a h _ _ ha b c hb ih =>
    have hpiece : IllFormed [a] [b, c] := illFormed_one h (by grind)
    exact .illFormed hpiece ih
  | case17 a h _ _ ha b c hb hc ih =>
    have hpiece : IllFormed [a, b] [c] := illFormed_two (by grind) (by grind) (by grind)
    exact .illFormed hpiece ih
  | case18 a h _ _ ha b c hb hc =>
    have hpiece : IllFormed [a, b, c] [] := illFormed_three (by grind) (by grind) (by grind)
    exact .illFormed hpiece .nil
  | case19 a h _ _ ha b hb =>
    have hpiece : IllFormed [a, b] [] := illFormed_two (by grind) (by grind) (by grind)
    exact .illFormed hpiece .nil
  | case20 a h _ _ ha b hb ih =>
    have hpiece : IllFormed [a] [b] := illFormed_one h (by grind)
    exact .illFormed hpiece ih
  | case21 a h _ _ ha =>
    have hpiece : IllFormed [a] [] := illFormed_one h (by grind)
    exact .illFormed hpiece .nil
  -- The first byte starts no character.
  | case22 a rest h _ _ _ ih =>
    have hpiece : IllFormed [a] rest := illFormed_one h (by grind)
    exact .illFormed hpiece ih

/-- **Decoding is reading**: the decoder finds the one way in which bytes are read. -/
theorem reads_iff {cs : List Char} : Reads bs cs ↔ decodeChars bs = cs := by
  constructor
  · intro h
    exact (reads_decodeChars bs).unique h
  · rintro rfl
    exact reads_decodeChars bs

/-! ## Texts -/

/-- **The bytes of a text in front are read as the text**, character by character. -/
theorem Reads.encode_append {z : Bytes} {zs : List Char} (h : Reads z zs) (cs : List Char) :
    Reads (cs.flatMap encodeChar ++ z) (cs ++ zs) := by
  induction cs with
  | nil => exact h
  | cons c cs ih =>
    rw [List.flatMap_cons, List.append_assoc]
    exact .char ih

/-- **A text is read back from its bytes**, whatever bytes follow them. -/
theorem decode_encode_append (s : String) (z : Bytes) : decode (encode s ++ z) = s ++ decode z := by
  have hread := reads_iff.1 ((reads_decodeChars z).encode_append s.toList)
  rw [decode, encode, hread, String.ofList_append, String.ofList_toList, decode]

/-- In particular where nothing follows. -/
theorem decode_encode (s : String) : decode (encode s) = s := by
  have h := decode_encode_append s []
  rwa [List.append_nil, show decode [] = "" from rfl, String.append_empty] at h

/-- The bytes of a text are those of the standard library's encoding. -/
theorem encode_eq_toUTF8 (s : String) : encode s = s.toUTF8.data.toList := by
  rw [String.toUTF8_eq_toByteArray, ← String.utf8Encode_toList, List.utf8Encode, encode,
    funext encodeChar_eq_utf8EncodeChar]
  simp

/-- There are as many as it counts. -/
theorem length_encode (s : String) : (encode s).length = s.utf8ByteSize := by
  rw [encode_eq_toUTF8]
  simp

end Utf8

namespace Bytes

/-- A part of the source is cut out between what is in front of it and what is behind. -/
theorem slice_append (front middle back : Bytes) :
    slice (front ++ middle ++ back) front.length (front.length + middle.length) = middle := by
  rw [slice, ← List.length_append, List.take_left, List.drop_left]

/-- A cut past the end goes to the end. -/
theorem slice_of_length_le {src : Bytes} {stop : Nat} (h : src.length ≤ stop) (start : Nat) :
    slice src start stop = src.drop start := by
  rw [slice, List.take_of_length_le h]

end Bytes

/-- **The text of a node is the text of its bytes.** In a source that starts with two texts, a node
over the second has that text, whatever follows; and a node that goes on to the end of the source
or past it has that text and behind it what the rest of the bytes is read as. -/
theorem Node.text_of_utf8 (a b : String) (z : Bytes) {src : Bytes} {n : Node}
    (hsrc : src = a.toUTF8.data.toList ++ b.toUTF8.data.toList ++ z)
    (hstart : n.start = a.utf8ByteSize) :
    (n.stop = a.utf8ByteSize + b.utf8ByteSize → n.text src = b) ∧
      (src.length ≤ n.stop → n.text src = b ++ Utf8.decode z) ∧
      ∀ r : String, Utf8.Reads z r.toList ↔ Utf8.decode z = r := by
  rw [← Utf8.encode_eq_toUTF8, ← Utf8.encode_eq_toUTF8] at hsrc
  rw [← Utf8.length_encode] at hstart
  refine ⟨fun hstop => ?_, fun hstop => ?_, fun r => ?_⟩
  · rw [← Utf8.length_encode, ← Utf8.length_encode] at hstop
    rw [text, hsrc, hstart, hstop, Bytes.slice_append, Utf8.decode_encode]
  · rw [text, Bytes.slice_of_length_le hstop, hsrc, hstart, List.append_assoc, List.drop_left,
      Utf8.decode_encode_append]
  · rw [Utf8.reads_iff, Utf8.decode, ← String.toList_inj, String.toList_ofList]

namespace BrokenOff

/-- A character of which the last byte is missing, a letter, and a byte that starts nothing. -/
def z : Bytes := [0xE2, 0x82, 0x41, 0xFF]

/-- Characters of all four lengths in front of it. -/
def src : Bytes := "é\n".toUTF8.data.toList ++ "x€😀".toUTF8.data.toList ++ z

/-- A node from the fourth byte on. -/
def upTo (stop : Nat) : Node := .mk "identifier" 3 stop true none []

end BrokenOff

open BrokenOff in
/-- The text in front is read as it was written, and the character that breaks off counts
once. -/
theorem brokenOff_text :
    (upTo 11).text src = "x€😀" ∧ (upTo 15).text src = "x€😀\uFFFDA\uFFFD" ∧
      (upTo 99).text src = "x€😀\uFFFDA\uFFFD" ∧
      Utf8.Reads z [Utf8.replacement, 'A', Utf8.replacement] := by
  have hfirst : 3 = "é\n".utf8ByteSize := by decide +kernel
  have hstart : ∀ stop, (upTo stop).start = "é\n".utf8ByteSize := fun _ => hfirst
  have hlength : src.length = 15 := by decide +kernel
  have hread : Utf8.decode z = "\uFFFDA\uFFFD" := by decide +kernel
  obtain ⟨hmiddle, -, hz⟩ := Node.text_of_utf8 "é\n" "x€😀" z rfl (hstart 11)
  obtain ⟨-, hend, -⟩ := Node.text_of_utf8 "é\n" "x€😀" z rfl (hstart 15)
  obtain ⟨-, hpast, -⟩ := Node.text_of_utf8 "é\n" "x€😀" z rfl (hstart 99)
  refine ⟨hmiddle (by decide +kernel), ?_, ?_, (hz "\uFFFDA\uFFFD").2 hread⟩
  · refine (hend (Nat.le_of_eq hlength)).trans ?_
    rw [hread]
    decide +kernel
  · refine (hpast (Nat.le_trans (Nat.le_of_eq hlength) (by decide))).trans ?_
    rw [hread]
    decide +kernel

end CallbackLint
