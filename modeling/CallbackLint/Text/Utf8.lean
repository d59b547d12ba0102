/-!
# UTF-8

A source file is a sequence of bytes and need not be valid text. `decode` reads it as
UTF-8 and never fails: each maximal ill-formed piece, the longest start of a character
that the next byte breaks off, becomes one replacement character, and reading goes on
at the byte that broke it. `encode` is the way back for well-formed text.
-/

namespace CallbackLint

/-- The raw content of a file. -/
abbrev Bytes := List UInt8

namespace Utf8

/-- The character that stands for an ill-formed piece. -/
def replacement : Char := '\uFFFD'

/-- A byte that continues a character. -/
def isTail (b : UInt8) : Bool := 0x80 ≤ b && b ≤ 0xBF

/-- The second bytes that may follow the first byte `a` of a three-byte character: after
`E0` only those that do not spell a shorter character, after `ED` only those that do not
spell a surrogate. -/
def isSecondOfThree (a b : UInt8) : Bool :=
  if a == 0xE0 then 0xA0 ≤ b && b ≤ 0xBF
  else if a == 0xED then 0x80 ≤ b && b ≤ 0x9F
  else isTail b

/-- The second bytes that may follow the first byte `a` of a four-byte character: after
`F0` only those that do not spell a shorter character, after `F4` only those that stay
within the code space. -/
def isSecondOfFour (a b : UInt8) : Bool :=
  if a == 0xF0 then 0x90 ≤ b && b ≤ 0xBF
  else if a == 0xF4 then 0x80 ≤ b && b ≤ 0x8F
  else isTail b

/-- The six payload bits of a continuation byte. -/
def tailBits (b : UInt8) : Nat := b.toNat % 0x40

/-- The characters of a byte sequence, each with the number of bytes it takes up, and one
replacement character for each maximal ill-formed piece. -/
def spans : Bytes → List (Char × Nat)
  | [] => []
  | a :: rest =>
    if a < 0x80 then (Char.ofNat a.toNat, 1) :: spans rest
    else if 0xC2 ≤ a && a ≤ 0xDF then
      match rest with
      | b :: rest' =>
        if isTail b then (Char.ofNat (a.toNat % 0x20 * 0x40 + tailBits b), 2) :: spans rest'
        else (replacement, 1) :: spans (b :: rest')
      | [] => [(replacement, 1)]
    else if 0xE0 ≤ a && a ≤ 0xEF then
      match rest with
      | b :: c :: rest' =>
        if !isSecondOfThree a b then (replacement, 1) :: spans (b :: c :: rest')
        else if !isTail c then (replacement, 2) :: spans (c :: rest')
        else
          (Char.ofNat ((a.toNat % 0x10 * 0x40 + tailBits b) * 0x40 + tailBits c), 3) ::
            spans rest'
      | [b] =>
        if isSecondOfThree a b then [(replacement, 2)] else (replacement, 1) :: spans [b]
      | [] => [(replacement, 1)]
    else if 0xF0 ≤ a && a ≤ 0xF4 then
      match rest with
      | b :: c :: d :: rest' =>
        if !isSecondOfFour a b then (replacement, 1) :: spans (b :: c :: d :: rest')
        else if !isTail c then (replacement, 2) :: spans (c :: d :: rest')
        else if !isTail d then (replacement, 3) :: spans (d :: rest')
        else
          (Char.ofNat
            (((a.toNat % 0x08 * 0x40 + tailBits b) * 0x40 + tailBits c) * 0x40 + tailBits d), 4) ::
            spans rest'
      | [b, c] =>
        if !isSecondOfFour a b then (replacement, 1) :: spans [b, c]
        else if !isTail c then (replacement, 2) :: spans [c]
        else [(replacement, 3)]
      | [b] =>
        if isSecondOfFour a b then [(replacement, 2)] else (replacement, 1) :: spans [b]
      | [] => [(replacement, 1)]
    else (replacement, 1) :: spans rest

/-- The characters of a byte sequence. -/
def decodeChars (bytes : Bytes) : List Char := (spans bytes).map Prod.fst

/-- The text of a byte sequence. -/
def decode (bytes : Bytes) : String := String.ofList (decodeChars bytes)

/-- The bytes of one character. -/
def encodeChar (c : Char) : Bytes :=
  let n := c.toNat
  if n < 0x80 then [UInt8.ofNat n]
  else if n < 0x800 then [UInt8.ofNat (0xC0 + n / 0x40), UInt8.ofNat (0x80 + n % 0x40)]
  else if n < 0x10000 then
    [UInt8.ofNat (0xE0 + n / 0x1000), UInt8.ofNat (0x80 + n / 0x40 % 0x40),
      UInt8.ofNat (0x80 + n % 0x40)]
  else
    [UInt8.ofNat (0xF0 + n / 0x40000), UInt8.ofNat (0x80 + n / 0x1000 % 0x40),
      UInt8.ofNat (0x80 + n / 0x40 % 0x40), UInt8.ofNat (0x80 + n % 0x40)]

/-- The bytes of a text. -/
def encode (s : String) : Bytes := s.toList.flatMap encodeChar

end Utf8

end CallbackLint
