/-!
# Lines

A declaration without a body is shown by its first line. The characters that end a line
are those at which a text editor breaks one; a carriage return followed by a line feed
needs no case of its own, since the first of the two already ends the line.
-/

namespace CallbackLint

namespace Text

/-- The characters that end a line. -/
def isLineBreak (c : Char) : Bool :=
  let n := c.toNat
  (0x0A ≤ n && n ≤ 0x0D) || (0x1C ≤ n && n ≤ 0x1E) || n == 0x85 || n == 0x2028 || n == 0x2029

/-- The first line of a text, without the character that ends it. -/
def firstLine (s : String) : String :=
  String.ofList (s.toList.takeWhile (fun c => !isLineBreak c))

end Text

end CallbackLint
