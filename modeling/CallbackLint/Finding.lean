import CallbackLint.Finding.Fault
import CallbackLint.Path
/-!
# Issues, locations and findings

An issue is what a rule reports, once and for all; a finding is one place where it was
reported. Lines and columns are counted from one, and a location is only made of numbers
that keep to that.
-/

namespace CallbackLint

/-- The standing identity of a rule: what it reports and how seriously. -/
structure Issue where
  id : String
  brief : String
  explanation : String
  category : String := "correctness"
  /-- From 1, the lowest, to 10. -/
  priority : Int := 5
  severity : String := "error"
deriving Repr, DecidableEq, Inhabited

/-- A place in a file. -/
structure Location where
  path : Path
  line : Int
  column : Int
  endLine : Option Int := none
  endColumn : Option Int := none
  snippet : Option String := none
deriving Repr, DecidableEq, Inhabited

/-- One reported issue. -/
structure Finding where
  ruleId : String
  message : String
  location : Location
  severity : String := "warning"
deriving Repr, DecidableEq, Inhabited

namespace Location

/-- An integer that has to be at least one. -/
def positive (field : String) (n : Int) : Checked Int :=
  if n < 1 then Checked.refuse field .tooSmall else .ok n

/-- An integer that has to be at least one where it is given. -/
def positive? (field : String) : Option Int → Checked (Option Int)
  | none => .ok none
  | some n =>
    match positive field n with
    | .ok m => .ok (some m)
    | .error es => .error es

/-- The location with the given parts, unless a line or a column is below one. -/
def make (path : Path) (line column : Int) (endLine endColumn : Option Int)
    (snippet : Option String) : Checked Location :=
  let build (l c : Int) (el ec : Option Int) : Location :=
    { path := path, line := l, column := c, endLine := el, endColumn := ec, snippet := snippet }
  ((((Checked.ok build).and (positive "line" line)).and
    (positive "column" column)).and (positive? "end_line" endLine)).and
      (positive? "end_column" endColumn)

end Location

namespace Issue

/-- The finding of this issue at a location. -/
def found (issue : Issue) (location : Location) (message : String) : Finding where
  ruleId := issue.id
  message := message
  location := location
  severity := issue.severity

end Issue

end CallbackLint
