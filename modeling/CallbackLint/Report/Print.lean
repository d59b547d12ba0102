/-!
# Prints

A report is a list of prints, each one thing put on the console: an empty line, a line of
markup, a table, or a panel around either. How they are laid out, coloured and wrapped is
the console's own affair.
-/

namespace CallbackLint

/-- The lines drawn around a panel or a table. -/
inductive Box where
  | rounded
  | simple
  | simpleHead
deriving Repr, DecidableEq, Inhabited

/-- On which side a column is flush. -/
inductive Justify where
  | left
  | right
deriving Repr, DecidableEq, Inhabited

/-- What stands in a cell of a table. -/
inductive Cell where
  /-- Text in which style tags take effect. -/
  | markup (s : String)
  /-- Text shown as it is, all in one style. -/
  | styled (text style : String)
deriving Repr, DecidableEq, Inhabited

/-- A column of a table. -/
structure Column where
  header : String
  justify : Justify := .left
  style : String := ""
  width : Option Nat := none
deriving Repr, DecidableEq, Inhabited

/-- A table. -/
structure Table where
  title : Option String := none
  headerStyle : String
  box : Box
  columns : List Column
  rows : List (List Cell)
deriving Repr, DecidableEq, Inhabited

/-- What a panel is drawn around. -/
inductive Content where
  | markup (s : String)
  | table (t : Table)
deriving Repr, DecidableEq, Inhabited

/-- A box around some content. -/
structure Panel where
  content : Content
  title : Option String := none
  borderStyle : String
  box : Box
  /-- Blank lines above and below, and spaces on the left and right. -/
  padding : Nat × Nat := (0, 1)
deriving Repr, DecidableEq, Inhabited

/-- One thing put on the console. -/
inductive Print where
  | blank
  | line (markup : String)
  | table (t : Table)
  | panel (p : Panel)
deriving Repr, DecidableEq, Inhabited

end CallbackLint
