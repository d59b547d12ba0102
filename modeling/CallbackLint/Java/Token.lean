import CallbackLint.Text.Blank
import CallbackLint.Text.Utf8
/-!
# Java tokens

The text of a Java file is cut into tokens: words (names and keywords alike), signs,
literals and comments. A token carries the byte offsets it covers, and blanks between
tokens leave no trace but the gap in the offsets.

Two things are left to the grammar. Whether a word is a keyword depends on where it stands.
A greater-than sign is always a token of its own, since two of them in a row may close two
lists of type arguments or spell a shift.

Inside a string the text is not cut into tokens but into fragments and escapes, up to the
closing quote; an embedded expression is cut into tokens again, up to its closing brace.
The scanner keeps what it is inside of as a stack of modes.
-/

namespace CallbackLint

namespace Java

/-- A character of a file with the byte offsets it covers. -/
structure Glyph where
  char : Char
  start : Nat
  stop : Nat
deriving Repr, DecidableEq, Inhabited

/-- Characters placed one after the other from an offset on. -/
def Glyph.place (offset : Nat) : List (Char × Nat) → List Glyph
  | [] => []
  | (c, width) :: rest => ⟨c, offset, offset + width⟩ :: place (offset + width) rest

/-- The characters of a file. -/
def Glyph.ofBytes (src : Bytes) : List Glyph :=
  place 0 (Utf8.spans src)

/-- The sorts of token. -/
inductive TokenSort where
  /-- A name or a keyword. -/
  | word
  /-- Punctuation, an operator, or the quotes of a string. -/
  | sign
  /-- A literal or a piece of a string; the text of the token is its kind. -/
  | literal
  /-- A comment; the text of the token is its kind. -/
  | comment
deriving Repr, DecidableEq, Inhabited

/-- A token: its sort, its text (for a literal or a comment its kind), and its offsets. -/
structure Token where
  sort : TokenSort
  text : String
  start : Nat
  stop : Nat
deriving Repr, DecidableEq, Inhabited

/-- What the scanner is inside of. -/
inductive Mode where
  /-- Code with the given number of open braces. -/
  | code (braces : Nat)
  /-- A string on one line. -/
  | string
  /-- A string in triple quotes. -/
  | textBlock
deriving Repr, DecidableEq, Inhabited

/-! ## Characters -/

/-- The characters that separate tokens. -/
def isGap (c : Char) : Bool :=
  Text.isBlank c || c == '\uFEFF'

/-- The characters a word may start with. -/
def isWordStart (c : Char) : Bool :=
  c.isAlpha || c == '_' || c == '$' || (0x80 ≤ c.toNat && !isGap c)

/-- The characters a word may go on with. -/
def isWordPart (c : Char) : Bool :=
  isWordStart c || c.isDigit

/-- The number of leading characters with a property. -/
def countWhile (p : Char → Bool) : List Char → Nat
  | [] => 0
  | c :: cs => if p c then countWhile p cs + 1 else 0

/-! ## Numbers -/

/-- The digits of a number with the underscores between them. -/
def isDigitPart (c : Char) : Bool :=
  c.isDigit || c == '_'

/-- Hexadecimal digits with the underscores between them. -/
def isHexPart (c : Char) : Bool :=
  isDigitPart c || ('a' ≤ c && c ≤ 'f') || ('A' ≤ c && c ≤ 'F')

/-- The length of an exponent that one of the given letters introduces, zero when there is
none. -/
def exponentLength (letters : List Char) : List Char → Nat
  | e :: rest =>
    if letters.contains e then
      match rest with
      | s :: ds =>
        if s == '+' || s == '-' then 2 + countWhile isDigitPart ds
        else 1 + countWhile isDigitPart rest
      | [] => 1
    else 0
  | [] => 0

/-- One, if the next character is among the given ones. -/
def suffixLength (letters : List Char) : List Char → Nat
  | c :: _ => if letters.contains c then 1 else 0
  | [] => 0

/-- The length of a fraction, its point included. -/
def fractionLength (isPart : Char → Bool) : List Char → Nat
  | '.' :: ds => 1 + countWhile isPart ds
  | _ => 0

/-- The kind and the length of a number after `0x`. -/
def hexNumber (cs : List Char) : String × Nat :=
  let whole := countWhile isHexPart cs
  let fraction := fractionLength isHexPart (cs.drop whole)
  let exponent := exponentLength ['p', 'P'] (cs.drop (whole + fraction))
  let length := whole + fraction + exponent
  if fraction + exponent == 0 then
    ("hex_integer_literal", length + suffixLength ['l', 'L'] (cs.drop length))
  else
    ("hex_floating_point_literal", length + suffixLength ['f', 'F', 'd', 'D'] (cs.drop length))

/-- The kind and the length of a number that starts with a digit or a point. -/
def decimalNumber (cs : List Char) : String × Nat :=
  let whole := countWhile isDigitPart cs
  let fraction := fractionLength isDigitPart (cs.drop whole)
  let exponent := exponentLength ['e', 'E'] (cs.drop (whole + fraction))
  let length := whole + fraction + exponent
  let float := suffixLength ['f', 'F', 'd', 'D'] (cs.drop length)
  if fraction + exponent + float != 0 then ("decimal_floating_point_literal", length + float)
  else
    let kind :=
      if whole > 1 && cs.head? == some '0' then "octal_integer_literal"
      else "decimal_integer_literal"
    (kind, length + suffixLength ['l', 'L'] (cs.drop length))

/-- The kind and the length of the number at the front. -/
def number (cs : List Char) : String × Nat :=
  match cs with
  | '0' :: x :: rest =>
    if x == 'x' || x == 'X' then
      let (kind, length) := hexNumber rest
      (kind, length + 2)
    else if x == 'b' || x == 'B' then
      let digits := countWhile isDigitPart rest
      ("binary_integer_literal", 2 + digits + suffixLength ['l', 'L'] (rest.drop digits))
    else decimalNumber cs
  | _ => decimalNumber cs

/-! ## Comments, quoted text and signs -/

/-- The length of a block comment after its opening, up to and with its end. -/
def blockCommentLength : List Char → Nat
  | [] => 0
  | '*' :: '/' :: _ => 2
  | _ :: cs => blockCommentLength cs + 1

/-- The length of a character literal after its opening quote, up to and with the closing
one. -/
def characterLength : List Char → Nat
  | [] => 0
  | '\'' :: _ => 1
  | '\\' :: _ :: cs => characterLength cs + 2
  | _ :: cs => characterLength cs + 1

/-- The length of a fragment of a string in triple quotes. -/
def blockFragmentLength : List Char → Nat
  | [] => 0
  | '\\' :: _ => 0
  | '"' :: '"' :: '"' :: _ => 0
  | _ :: cs => blockFragmentLength cs + 1

/-- The length of an escape after its backslash: a code point in hexadecimal, a code in up
to three octal digits, or one character. -/
def escapeLength : List Char → Nat
  | [] => 0
  | 'u' :: cs =>
    1 + countWhile (· == 'u') cs + min 4 (countWhile isHexPart (cs.dropWhile (· == 'u')))
  | c :: cs => if c.isDigit then 1 + min 2 (countWhile Char.isDigit cs) else 1

/-- The signs of more than one character, longer ones before their beginnings. -/
def longSigns : List String :=
  ["...", "<<=", "->", "::", "++", "--", "&&", "||", "==", "!=", "<=", "<<", "+=", "-=", "*=",
    "/=", "&=", "|=", "^=", "%="]

/-- The sign at the front. -/
def signAt (cs : List Char) : String :=
  match longSigns.find? (fun s => s.toList.isPrefixOf cs) with
  | some s => s
  | none => String.ofList (cs.take 1)

/-! ## The scanner -/

/-- One step of the scanner: how many characters it covers beyond the first, the token they
make if they make one, and the modes after it. -/
structure Step where
  extra : Nat
  token : Option (TokenSort × String)
  modes : List Mode

/-- The step at a word. -/
def wordStep (modes : List Mode) (cs : List Char) : Step :=
  let sealedLength := "non-sealed".length
  if "non-sealed".toList.isPrefixOf cs && countWhile isWordPart (cs.drop sealedLength) == 0 then
    ⟨sealedLength - 1, some (.word, "non-sealed"), modes⟩
  else
    let length := countWhile isWordPart cs
    ⟨length - 1, some (.word, String.ofList (cs.take length)), modes⟩

/-- The step at a sign. Braces are counted inside an embedded expression, whose closing brace
leads back into the string around it. -/
def signStep (modes : List Mode) (cs : List Char) : Step :=
  let marked := "@interface"
  if marked.toList.isPrefixOf cs && countWhile isWordPart (cs.drop marked.length) == 0 then
    ⟨marked.length - 1, some (.sign, marked), modes⟩
  else
    let sign := signAt cs
    let after :=
      match sign, modes with
      | "\x7b", .code n :: rest => .code (n + 1) :: rest
      | "\x7d", .code 0 :: rest => if rest.isEmpty then modes else rest
      | "\x7d", .code (n + 1) :: rest => .code n :: rest
      | _, _ => modes
    ⟨sign.length - 1, some (.sign, sign), after⟩

/-- The step in code. -/
def codeStep (modes : List Mode) (cs : List Char) : Step :=
  match cs with
  | [] => ⟨0, none, modes⟩
  | c :: rest =>
    if isGap c then ⟨0, none, modes⟩
    else if "//".toList.isPrefixOf cs then
      ⟨countWhile (· != '\n') rest, some (.comment, "line_comment"), modes⟩
    else if "/*".toList.isPrefixOf cs then
      ⟨1 + blockCommentLength (rest.drop 1), some (.comment, "block_comment"), modes⟩
    else if "\"\"\"".toList.isPrefixOf cs then
      ⟨2, some (.sign, "\"\"\""), .textBlock :: modes⟩
    else if c == '"' then ⟨0, some (.sign, "\""), .string :: modes⟩
    else if c == '\'' then
      ⟨characterLength rest, some (.literal, "character_literal"), modes⟩
    else if c.isDigit || (c == '.' && (rest.head?.map Char.isDigit).getD false) then
      let (kind, length) := number cs
      ⟨length - 1, some (.literal, kind), modes⟩
    else if isWordStart c then wordStep modes cs
    else signStep modes cs

/-- The step at a backslash inside a string. -/
def escapeStep (modes : List Mode) (rest : List Char) : Step :=
  match rest with
  | '\x7b' :: _ => ⟨1, some (.sign, "\\\x7b"), .code 0 :: modes⟩
  | _ => ⟨escapeLength rest, some (.literal, "escape_sequence"), modes⟩

/-- The step inside a string on one line. -/
def stringStep (modes : List Mode) (cs : List Char) : Step :=
  match cs with
  | [] => ⟨0, none, modes⟩
  | c :: rest =>
    if c == '"' then ⟨0, some (.sign, "\""), modes.drop 1⟩
    else if c == '\\' then escapeStep modes rest
    else
      ⟨countWhile (fun d => d != '"' && d != '\\') rest, some (.literal, "string_fragment"), modes⟩

/-- The step at a backslash inside a string in triple quotes, where one before a letter
without a meaning, or before the end of a line, is passed over. -/
def blockEscapeStep (modes : List Mode) (rest : List Char) : Step :=
  let s := escapeStep modes rest
  if (rest.head?.map "bfnrts'\"\\\x7b".toList.contains).getD false then s
  else { s with token := none }

/-- The step inside a string in triple quotes. -/
def textBlockStep (modes : List Mode) (cs : List Char) : Step :=
  match cs with
  | [] => ⟨0, none, modes⟩
  | c :: rest =>
    if "\"\"\"".toList.isPrefixOf cs then ⟨2, some (.sign, "\"\"\""), modes.drop 1⟩
    else if c == '\\' then blockEscapeStep modes rest
    else ⟨blockFragmentLength rest, some (.literal, "multiline_string_fragment"), modes⟩

/-- The step at the front of the remaining characters. -/
def step (modes : List Mode) (cs : List Char) : Step :=
  match modes with
  | .string :: _ => stringStep modes cs
  | .textBlock :: _ => textBlockStep modes cs
  | _ => codeStep modes cs

/-- The tokens of the remaining characters, given as `cs` and again with their offsets. -/
def scan (modes : List Mode) (cs : List Char) : List Glyph → List Token
  | [] => []
  | g :: gs =>
    let s := step modes cs
    let stop := ((g :: gs)[s.extra]?.getD ((g :: gs).getLast?.getD g)).stop
    let rest := scan s.modes (cs.drop (s.extra + 1)) (gs.drop s.extra)
    match s.token with
    | some (sort, text) => ⟨sort, text, g.start, stop⟩ :: rest
    | none => rest
termination_by gs => gs.length
decreasing_by simp only [List.length_drop, List.length_cons]; omega

/-- The tokens of a file, comments among them. -/
def tokens (src : Bytes) : List Token :=
  let gs := Glyph.ofBytes src
  scan [.code 0] (gs.map Glyph.char) gs

end Java

end CallbackLint
