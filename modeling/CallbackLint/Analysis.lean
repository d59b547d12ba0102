import CallbackLint.Forwarding
/-!
# Analysis

A rule looks at one file at a time and either answers with findings or fails. Analysing a
list of files runs every rule over every file that can be read; a file that cannot be read
and a rule that fails contribute nothing and hinder nothing else.

The unit of work is a file: what it contributes is a list of batches, one for each rule that
did not fail, and each batch enters the sink as a whole. Run one file after the other, the
batches enter in the order of the files.
-/

namespace CallbackLint

/-- A rule: what it reports, the contract it holds files to, and its answer on a file. -/
structure Rule where
  issue : Issue
  contract : Contract
  run : SourceFile → Checked (List Finding)

namespace Rule

/-- The forwarding rule for a contract. -/
def forwarding (c : Contract) : Rule where
  issue := Forwarding.issue
  contract := c
  run := Forwarding.findings c

end Rule

/-- The rules that are switched on and the contract they were built for. -/
structure Config where
  rules : List Rule := []
  contract : Contract := {}

namespace Config

/-- Every rule there is, built for a contract. -/
def standard (c : Contract) : Config where
  rules := [Rule.forwarding c]
  contract := c

/-- The rules to run; without a configuration these are the standard ones. -/
def enabledRules : Option Config → List Rule
  | some config => config.rules
  | none => (standard {}).rules

end Config

namespace Analysis

/-- What a rule contributes on a file, nothing when it fails. -/
def batch? (file : SourceFile) (rule : Rule) : Option (List Finding) :=
  match rule.run file with
  | .ok findings => some findings
  | .error _ => none

/-- The batches that a file contributes, in the order of the rules. -/
def batches (rules : List Rule) (file : Option SourceFile) : List (List Finding) :=
  match file with
  | some f => rules.filterMap (batch? f)
  | none => []

/-- The sink after one more file. -/
def addFile (rules : List Rule) (sink : Sink) (file : Option SourceFile) : Sink :=
  (batches rules file).foldl Sink.extend sink

/-- The findings in a list of files, each of which may have turned out to be unreadable. -/
def findings (rules : List Rule) (files : List (Option SourceFile)) : List Finding :=
  (files.foldl (addFile rules) {}).findings

/-- Findings by file, those in one file in the order they came in. -/
def byFile (fs : List Finding) : List Finding :=
  fs.mergeSort (fun f g => f.location.path.toString ≤ g.location.path.toString)

end Analysis

end CallbackLint
