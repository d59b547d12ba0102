import CallbackLint.Path
import CallbackLint.Text.Blank
import CallbackLint.Text.Line
import CallbackLint.Text.Utf8
import CallbackLint.Tree
/-!
# Source files

A source file is its bytes together with the syntax tree over them. Here a byte range
becomes text, and a byte offset becomes a position: the row counts the line feeds before
the offset and the column the bytes since the last of them. Both are defined for every
offset, also past the end of the file, where a range is cut off and a column goes on
counting.
-/

namespace CallbackLint

/-- A place in a file, counted from zero. -/
structure Position where
  row : Nat
  column : Nat
deriving Repr, DecidableEq, Inhabited

namespace Position

/-- The line as it is shown, counted from one. -/
def line (p : Position) : Nat := p.row + 1

/-- The column as it is shown, counted from one. -/
def shownColumn (p : Position) : Nat := p.column + 1

/-- The place reached from `p` by moving over `offset` bytes. -/
def advance (p : Position) : Bytes → Nat → Position
  | _, 0 => p
  | [], n + 1 => { p with column := p.column + (n + 1) }
  | b :: bs, n + 1 =>
    if b == 0x0A then advance ⟨p.row + 1, 0⟩ bs n else advance ⟨p.row, p.column + 1⟩ bs n

/-- The place of a byte offset in a file. -/
def ofOffset (src : Bytes) (offset : Nat) : Position :=
  advance ⟨0, 0⟩ src offset

end Position

/-- The bytes from one offset up to another, cut off at the end of the file. -/
def Bytes.slice (src : Bytes) (start stop : Nat) : Bytes :=
  (src.take stop).drop start

namespace Node

variable (src : Bytes)

/-- The source text of a node. -/
def text (n : Node) : String :=
  Utf8.decode (Bytes.slice src n.start n.stop)

/-- The source text of a node without blanks. -/
def compactText (n : Node) : String :=
  Text.compact (n.text src)

/-- The source text of a node with single spaces between its words. -/
def squeezedText (n : Node) : String :=
  Text.squeeze (n.text src)

/-- Where the node starts. -/
def startPosition (n : Node) : Position :=
  Position.ofOffset src n.start

/-- Where the node stops. -/
def stopPosition (n : Node) : Position :=
  Position.ofOffset src n.stop

end Node

/-- A file that was read: its path, its bytes, the syntax tree over them, and whether the
tree has places that are not well-formed. -/
structure SourceFile where
  path : Path
  bytes : Bytes
  tree : Node
  hasErrors : Bool := false

end CallbackLint
