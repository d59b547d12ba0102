import CallbackLint.Text.Upper
/-!
# Paths

A path is an anchor and a list of parts. Reading a path drops what does not matter to
where it leads: repeated slashes, a slash at the end, and parts that are a single dot. A
part of two dots stays, since what it leads to depends on links. Two leading slashes are
an anchor of their own; three or more count as one.
-/

namespace CallbackLint

/-- A path as its anchor (empty, one slash or two) and its parts. -/
structure Path where
  anchor : String := ""
  parts : List String := []
deriving Repr, DecidableEq, Inhabited

namespace Path

/-- The pieces of a list of characters between the slashes. -/
def pieces : List Char → List (List Char)
  | [] => [[]]
  | c :: cs =>
    if c == '/' then [] :: pieces cs
    else
      match pieces cs with
      | [] => [[c]]
      | p :: ps => (c :: p) :: ps

/-- The parts a text is read into: its pieces without the empty ones and the single dots. -/
def partsOf (s : String) : List String :=
  ((pieces s.toList).filter (fun p => p != [] && p != ['.'])).map String.ofList

/-- The anchor of a text, from the number of slashes it starts with. -/
def anchorOf (s : String) : String :=
  match (s.toList.takeWhile (· == '/')).length with
  | 0 => ""
  | 2 => "//"
  | _ => "/"

/-- Reads a path. -/
def ofString (s : String) : Path :=
  { anchor := anchorOf s, parts := partsOf s }

/-- Parts with a slash between each two. -/
def joinParts (parts : List String) : String :=
  "/".intercalate parts

/-- The path as text; the path with neither anchor nor parts is a single dot. -/
def toString (p : Path) : String :=
  if p.anchor == "" && p.parts.isEmpty then "." else p.anchor ++ joinParts p.parts

/-- The last part, empty when there is none. -/
def name (p : Path) : String :=
  p.parts.getLast?.getD ""

/-- The ending of a file name from its last dot on, provided that dot is neither the first
nor the last character. -/
def suffixOf (name : String) : String :=
  let reversed := name.toList.reverse
  let ending := reversed.takeWhile (· != '.')
  match reversed.dropWhile (· != '.') with
  | _ :: _ :: _ => if ending.isEmpty then "" else String.ofList ('.' :: ending.reverse)
  | _ => ""

/-- The ending of the last part. -/
def suffix (p : Path) : String :=
  suffixOf p.name

/-- A Java source file, by the ending of its name in either case. -/
def isJavaName (name : String) : Bool :=
  Text.lower (suffixOf name) == ".java"

/-- A path whose last part is the name of a Java source file. -/
def isJava (p : Path) : Bool :=
  isJavaName p.name

end Path

end CallbackLint
