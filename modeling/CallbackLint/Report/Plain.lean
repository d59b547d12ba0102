import CallbackLint.Report.Order
import CallbackLint.Text.Terminal
import CallbackLint.Text.Upper
/-!
# The plain report

One line for each finding, in a form that editors and search tools understand: the path,
the line and the column with colons between them, the severity in capitals, the rule in
brackets, and the message.
-/

namespace CallbackLint

namespace Report

/-- The line for one finding. -/
def plainLine (f : Finding) : String :=
  f.file ++ ":" ++ toString f.location.line ++ ":" ++ toString f.location.column ++ ": " ++
    Text.upper f.severity ++ " [" ++ f.ruleId ++ "] " ++ f.message

/-- The lines of a plain report; a report without findings says so. -/
def plainLines (fs : List Finding) : List String :=
  if fs.isEmpty then ["No findings."] else (Finding.sorted fs).map plainLine

/-- The plain report as text, without terminal sequences, each line ended by a line feed. -/
def plain (fs : List Finding) : String :=
  String.join ((plainLines fs).map (fun l => Text.withoutSequences l ++ "\n"))

end Report

end CallbackLint
