import CallbackLint.Text.WordChar
/-!
# Dotted names

Types and methods are named by segments with dots between them. Nothing here looks a name
up; these are the facts that can be read off its spelling: its last segment, the part in
front of it, and whether it has the form of a dotted name at all.
-/

namespace CallbackLint

namespace Name

/-- The characters after the last dot, all of them when there is no dot. -/
def lastSegment (cs : List Char) : List Char :=
  (cs.reverse.takeWhile (· != '.')).reverse

/-- The characters in front of the last dot, none when there is no dot. -/
def beforeLastDot (cs : List Char) : List Char :=
  ((cs.reverse.dropWhile (· != '.')).drop 1).reverse

/-- The last segment of a dotted name: `C` for `a.b.C`. -/
def simple (name : String) : String :=
  String.ofList (lastSegment name.toList)

/-- The name in front of the last segment: `a.b` for `a.b.C`, empty for `C`. -/
def qualifier (name : String) : String :=
  String.ofList (beforeLastDot name.toList)

/-- A name with at least one dot in it. -/
def isQualified (name : String) : Bool :=
  name.toList.contains '.'

/-- The characters a segment may start with. -/
def isSegmentStart (c : Char) : Bool :=
  ('A' ≤ c && c ≤ 'Z') || ('a' ≤ c && c ≤ 'z') || c == '_' || c == '$'

/-- The characters a segment may go on with. -/
def isSegmentPart (c : Char) : Bool :=
  Text.isWordChar c || c == '$'

/-- Reads segments with single dots between them to the end; the flag says whether a
segment has to start here. -/
def readsDotted (atStart : Bool) : List Char → Bool
  | [] => !atStart
  | c :: cs =>
    if atStart then isSegmentStart c && readsDotted false cs
    else if c == '.' then readsDotted true cs
    else isSegmentPart c && readsDotted false cs

/-- A dotted name: segments, each of which starts with a letter A to Z or a to z, an
underscore or a dollar sign, with single dots between them. -/
def isDotted (name : String) : Bool :=
  readsDotted true name.toList

/-- By convention a type is spelled with a capital and a variable or package is not: the
last segment starts with one of A to Z. This decides whether a dotted name has a capital
there, since by `isDotted` a segment starts with no other capital; of a name that is not
dotted it is not asked. -/
def isTypeLike (name : String) : Bool :=
  match lastSegment name.toList with
  | c :: _ => 'A' ≤ c && c ≤ 'Z'
  | [] => false

end Name

end CallbackLint
