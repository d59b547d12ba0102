/-!
# Blank characters and words

Source text reaches a report in two normal forms. `squeeze` keeps the words of a text
and puts one space between two of them, so that a declaration spread over several lines
reads as one. `compact` keeps no blank at all, so that a dotted name written with spaces
around its dots compares equal to the same name written without. Both rest on one class
of characters, `isBlank`, and on the list of words it cuts a text into.
-/

namespace CallbackLint

namespace Text

/-- White space: the control characters that move to a new column or line, the four
information separators, the spaces of every width, and the two line and paragraph
separators. The zero-width characters are not blank. -/
def isBlank (c : Char) : Bool :=
  let n := c.toNat
  (0x09 ≤ n && n ≤ 0x0D) || (0x1C ≤ n && n ≤ 0x20) || n == 0x85 || n == 0xA0 || n == 0x1680 ||
    (0x2000 ≤ n && n ≤ 0x200A) || n == 0x2028 || n == 0x2029 || n == 0x202F || n == 0x205F ||
    n == 0x3000

/-- The words of a text: its maximal runs of characters that are not blank, in order. -/
def words : List Char → List (List Char)
  | [] => []
  | c :: cs =>
    if isBlank c then words cs
    else
      match cs with
      | [] => [[c]]
      | d :: ds =>
        if isBlank d then [c] :: words (d :: ds)
        else
          match words (d :: ds) with
          | [] => [[c]]
          | w :: ws => (c :: w) :: ws

/-- Lists of characters joined by one space. -/
def unwords : List (List Char) → List Char
  | [] => []
  | [w] => w
  | w :: v :: ws => w ++ ' ' :: unwords (v :: ws)

/-- The text with every run of blanks between two words made one space, and none at
either end. -/
def squeeze (s : String) : String :=
  String.ofList (unwords (words s.toList))

/-- The text with every blank deleted. -/
def compact (s : String) : String :=
  String.ofList (s.toList.filter (fun c => !isBlank c))

/-- The characters with the blanks at the front dropped. -/
def trimLeft (cs : List Char) : List Char :=
  cs.dropWhile isBlank

/-- The text without the blanks at its two ends. -/
def trim (s : String) : String :=
  String.ofList (trimLeft (trimLeft s.toList).reverse).reverse

end Text

end CallbackLint
