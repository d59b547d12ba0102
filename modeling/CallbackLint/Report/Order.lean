import CallbackLint.Finding
/-!
# The order of a report

Findings are shown by file and by position in the file, and at one position by rule. The
sort is stable, so findings that agree in all of these keep the order in which they came.
-/

namespace CallbackLint

namespace Finding

/-- The path of the file a finding is in, as text. -/
def file (f : Finding) : String :=
  f.location.path.toString

/-- Whether `f` may come before `g` in a report: by path, line, column and rule, the first
difference deciding. -/
def notAfter (f g : Finding) : Bool :=
  if f.file != g.file then f.file < g.file
  else if f.location.line != g.location.line then f.location.line < g.location.line
  else if f.location.column != g.location.column then f.location.column < g.location.column
  else f.ruleId ≤ g.ruleId

/-- Findings in the order of a report. -/
def sorted (fs : List Finding) : List Finding :=
  fs.mergeSort notAfter

end Finding

end CallbackLint
