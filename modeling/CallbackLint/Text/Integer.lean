import CallbackLint.Text.Blank
/-!
# Integers written as text

A number may be given as text: in a command-line option, or in a field of a finding. The
reader is lenient about layout and strict about value. Blanks around the number, a plus
sign, leading zeros, single underscores between digits and a fraction of zeros are all
allowed; a fraction that is not zero, an exponent or any other character is not. A
negative number has no leading zeros.
-/

namespace CallbackLint

namespace Text

/-- White space around a number: the blanks other than the four information separators. -/
def isSpace (c : Char) : Bool :=
  isBlank c && !(0x1C ≤ c.toNat && c.toNat ≤ 0x1F)

/-- The digits of a number, where an underscore may stand between two of them. The flag
says whether a digit came just before. -/
def digitsOf? (afterDigit : Bool) : List Char → Option (List Nat)
  | [] => if afterDigit then some [] else none
  | c :: cs =>
    if c.isDigit then (digitsOf? true cs).map ((c.toNat - '0'.toNat) :: ·)
    else if c == '_' && afterDigit then digitsOf? false cs
    else none

/-- The value of a list of decimal digits. -/
def digitsValue (ds : List Nat) : Nat :=
  ds.foldl (fun n d => 10 * n + d) 0

/-- The characters without a final point and the zeros after it, if that is how they end. -/
def dropZeroFraction (cs : List Char) : List Char :=
  match cs.span (· != '.') with
  | (whole, _ :: fraction) => if fraction.all (· == '0') then whole else cs
  | (_, []) => cs

/-- The integer that a text spells, or `none` when it spells none. -/
def integer? (s : String) : Option Int :=
  let cs := ((s.toList.dropWhile isSpace).reverse.dropWhile isSpace).reverse
  match cs with
  | '-' :: rest =>
    match digitsOf? false (dropZeroFraction rest) with
    | some [d] => some (-(d : Int))
    | some (0 :: _) => none
    | some ds => some (-(digitsValue ds : Int))
    | none => none
  | '+' :: rest => (digitsOf? false (dropZeroFraction rest)).map (fun ds => (digitsValue ds : Int))
  | rest => (digitsOf? false (dropZeroFraction rest)).map (fun ds => (digitsValue ds : Int))

end Text

end CallbackLint
