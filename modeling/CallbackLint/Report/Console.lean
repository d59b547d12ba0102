import CallbackLint.Report.Markup
import CallbackLint.Report.Order
import CallbackLint.Report.Print
import CallbackLint.Text.Upper
/-!
# The console report

Findings grouped by file, each group a panel with the path and a table with one row for
each finding, then the excerpts of the group and, on request, the explanation of each rule
in it. After the groups comes a table of the files that were analysed, those with findings
first, and a panel that counts the findings by severity.
-/

namespace CallbackLint

namespace Report

/-- Whether two severities are the same but for case. -/
def isSeverity (name : String) (f : Finding) : Bool :=
  Text.lower f.severity == name

/-- The style in which a severity is shown. -/
def severityStyle (severity : String) : String :=
  match Text.lower severity with
  | "error" => "bold red"
  | "warning" => "bold yellow"
  | "info" => "bold blue"
  | _ => "bold white"

/-- The paths of a list of findings, each once, in order of first occurrence. -/
def filesOf (fs : List Finding) : List String :=
  (fs.map Finding.file).eraseDups

/-- The findings in one file. -/
def inFile (file : String) (fs : List Finding) : List Finding :=
  fs.filter (fun f => f.file == file)

/-- The panel over the findings of one file. -/
def filePanel (file : String) : Panel where
  content := .markup ("[bold cyan]" ++ Markup.escape file ++ "[/bold cyan]")
  borderStyle := "blue"
  box := .simpleHead

/-- The row for one finding. -/
def findingRow (f : Finding) : List Cell :=
  [.markup (toString f.location.line), .markup (toString f.location.column),
    .styled (Text.upper f.severity) (severityStyle f.severity),
    .styled ("[" ++ f.ruleId ++ "]") "dim", .markup f.message]

/-- The table of the findings of one file. -/
def findingTable (fs : List Finding) : Table where
  headerStyle := "bold magenta"
  box := .simple
  columns :=
    [{ header := "Line", justify := .right, style := "dim", width := some 5 },
      { header := "Col", justify := .right, style := "dim", width := some 4 },
      { header := "Severity", width := some 10 }, { header := "Rule", width := some 34 },
      { header := "Message", style := "white" }]
  rows := fs.map findingRow

/-- The excerpts of a list of findings, without the missing and the empty ones. -/
def snippetsOf (fs : List Finding) : List String :=
  (fs.filterMap (fun f => f.location.snippet)).filter (· != "")

/-- The lines with the excerpts of the findings of one file, closed by an empty line when
there are any. -/
def snippetPrints (fs : List Finding) : List Print :=
  match snippetsOf fs with
  | [] => []
  | snippets => snippets.map (fun s => .line ("  [dim]|--[/dim] " ++ Markup.escape s)) ++ [.blank]

/-- The explanation of a rule: that of the last issue with its id, unless it is empty. -/
def explanation? (issues : List Issue) (ruleId : String) : Option String :=
  match issues.reverse.find? (fun i => i.id == ruleId) with
  | some issue => if issue.explanation == "" then none else some issue.explanation
  | none => none

/-- The lines with the explanations of the rules in one file, each rule once, closed by an
empty line. -/
def explanationPrints (issues : List Issue) (fs : List Finding) : List Print :=
  let ruleIds := (fs.map Finding.ruleId).eraseDups
  ruleIds.filterMap (fun r =>
    (explanation? issues r).map (fun e => Print.line ("  [dim][Fix][/dim] [" ++ r ++ "] " ++ e))) ++
    (if ruleIds.isEmpty then [] else [.blank])

/-- All prints for one file, given the findings in it in their order. -/
def filePrints (verbose : Bool) (issues : List Issue) (file : String) (fs : List Finding) :
    List Print :=
  [.blank, .panel (filePanel file), .table (findingTable fs)] ++ snippetPrints fs ++
    (if verbose then explanationPrints issues fs else [])

/-- The number of findings in one file. -/
def countIn (fs : List Finding) (file : String) : Nat :=
  (inFile file fs).length

/-- The row of one analysed file: failed, with the number of its findings, or passed. -/
def fileRow (fs : List Finding) (file : String) : List Cell :=
  if countIn fs file == 0 then [.markup file, .styled "OK" "bold green", .markup "0"]
  else [.markup file, .styled "FAIL" "bold red", .markup (toString (countIn fs file))]

/-- The analysed files as the summary lists them: those with findings, then those without,
each in alphabetical order. -/
def summaryOrder (fs : List Finding) (analyzed : List String) : List String :=
  (analyzed.filter (fun p => countIn fs p != 0)).mergeSort (fun a b => a ≤ b) ++
    (analyzed.filter (fun p => countIn fs p == 0)).mergeSort (fun a b => a ≤ b)

/-- The table of the analysed files. -/
def fileTable (fs : List Finding) (analyzed : List String) : Table where
  title := some "Files Summary"
  headerStyle := "bold cyan"
  box := .rounded
  columns :=
    [{ header := "File", style := "white" }, { header := "Status", width := some 10 },
      { header := "Findings", justify := .right, width := some 8 }]
  rows := (summaryOrder fs analyzed).map (fileRow fs)

/-- The prints of the table of analysed files. -/
def fileSummary (fs : List Finding) (analyzed : List String) : List Print :=
  [.blank, .panel { content := .table (fileTable fs analyzed), borderStyle := "cyan",
                    box := .rounded }]

/-- The number of findings of a severity. -/
def severityCount (fs : List Finding) (severity : String) : Nat :=
  (fs.filter (isSeverity severity)).length

/-- The part of the summary for one severity, when there are findings of it. -/
def severityPart? (fs : List Finding) (severity : String) : Option String :=
  if severityCount fs severity == 0 then none
  else
    some ("[" ++ severityStyle severity ++ "]" ++ toString (severityCount fs severity) ++ " " ++
      severity ++ "[/]")

/-- The part of the summary that counts all findings. -/
def totalPart (fs : List Finding) : String :=
  "[bold]" ++ toString fs.length ++ " finding" ++ (if fs.length == 1 then "" else "s") ++ "[/bold]"

/-- The closing panel. -/
def summaryPanel (fs : List Finding) : Panel where
  content := .markup
    (" | ".intercalate (totalPart fs :: ["error", "warning", "info"].filterMap (severityPart? fs)))
  title := some "Summary"
  borderStyle := if fs.length == 0 then "green" else "yellow"
  box := .rounded

/-- The panel of a report on nothing. -/
def cleanPanel : Panel where
  content := .markup "[green]No issues found.[/green]"
  title := some "PermLint Analysis"
  borderStyle := "green"
  box := .rounded

/-- The console report on some findings and the files that were analysed. -/
def prints (fs : List Finding) (analyzed : List Path) (verbose : Bool) (issues : List Issue) :
    List Print :=
  let files := analyzed.map Path.toString
  if fs.isEmpty then
    if files.isEmpty then [.panel cleanPanel] else fileSummary [] files
  else
    let sorted := Finding.sorted fs
    (filesOf sorted).flatMap (fun p => filePrints verbose issues p (inFile p sorted)) ++
      (if files.isEmpty then [] else fileSummary fs files) ++
      [.blank, .panel (summaryPanel fs)]

end Report

end CallbackLint
