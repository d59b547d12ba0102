import CallbackLint.Analysis
import CallbackLint.CommandLine
import CallbackLint.FileTree.Collect
import CallbackLint.Java.Parse
import CallbackLint.Report.Console
import CallbackLint.Report.Plain
/-!
# Running a command

A request becomes an outcome: what is written, what is printed, and the status to exit
with. The target of a request is a Java file or a folder; a folder stands for the Java files
below it. The status is one when a finding is an error, and two when the command line was
refused.
-/

namespace CallbackLint

namespace CommandLine

/-- What running a command comes to. -/
structure Outcome where
  exit : Nat
  output : String := ""
  prints : List Print := []
deriving Repr, DecidableEq, Inhabited

namespace Request

variable (r : Request)

/-- The contract that a request sets. -/
def contract : Contract :=
  Contract.ofParts r.markers r.callback r.companionSuffix

/-- The rules that a request runs. -/
def rules : List Rule :=
  Config.enabledRules (some (Config.standard r.contract))

/-- The files that a target stands for, each as the names that lead to it from the target;
the entry is what was found at the path. -/
def filesOf (path : Path) : Option Entry → Except UsageFault (List Place)
  | none | some (.link _ _) => .error (.targetNotFound path.toString)
  | some entry =>
    if !r.extra.isEmpty then .error (.extraArguments r.extra)
    else
      match entry with
      | .file _ _ =>
        if path.isJava then .ok [[]] else .error (.targetNotJava path.toString)
      | .folder _ _ _ => .ok (Walk.collectBelow { ignored := Walk.defaultIgnored } [] entry)
      | .link _ _ | .special _ => .error (.targetOfOtherSort path.toString)

/-- The path of a file below a target. -/
def pathOf (target : Path) (place : Place) : Path :=
  { target with parts := target.parts ++ place }

/-- The file at a place below the target, parsed, if it can be read. -/
def fileAt (target : Path) (entry : Entry) (place : Place) : Option SourceFile :=
  (entry.read? place).map (SourceFile.parse (pathOf target place))

/-- The status to exit with after a report. -/
def exitStatus (findings : List Finding) : Nat :=
  if findings.any (Report.isSeverity "error") then 1 else 0

/-- The outcome of a report. -/
def outcomeOf (files : List Path) (findings : List Finding) : Outcome :=
  if r.plain then { exit := exitStatus findings, output := Report.plain findings }
  else
    { exit := exitStatus findings
      prints := Report.prints findings files r.verbose (r.rules.map Rule.issue) }

/-- Runs a request on the target at `path`, given what was found there. -/
def run (path : Path) (target : Option Entry) : Except UsageFault Outcome :=
  match r.filesOf path target with
  | .error e => .error e
  | .ok places =>
    let entry := target.getD (.special "")
    .ok (r.outcomeOf (places.map (pathOf path))
      (Analysis.findings r.rules (places.map (fileAt path entry))))

end Request

/-- Runs a command line in the root folder of a file tree. -/
def runIn (root : Entry) (args : List String) : Except UsageFault Outcome :=
  match parse args with
  | .error e => .error e
  | .ok r =>
    let place := root.realPlace [] (Path.partsOf r.target)
    r.run { parts := place } (root.lookup place)

/-- The outcome when the command line was refused. -/
def refused : Outcome where
  exit := 2

end CommandLine

/-- The findings in some files of a tree, given by paths from its root. -/
def Analysis.findingsIn (root : Entry) (rules : List Rule) (paths : List String) : List Finding :=
  Analysis.findings rules (paths.map fun p =>
    (root.read? (Path.partsOf p)).map (SourceFile.parse (Path.ofString p)))

end CallbackLint
