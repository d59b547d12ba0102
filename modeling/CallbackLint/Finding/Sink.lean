import CallbackLint.Finding
/-!
# The sink

Findings meet in one place that only grows. A report adds one finding, an extension adds a
batch as a whole, and a snapshot is the list at that moment, which later additions do not
touch.
-/

namespace CallbackLint

/-- A collector of findings, in the order in which they came in. -/
structure Sink where
  findings : List Finding := []
deriving Repr, DecidableEq, Inhabited

namespace Sink

/-- The sink after a batch. -/
def extend (sink : Sink) (batch : List Finding) : Sink :=
  ⟨sink.findings ++ batch⟩

/-- The finding that a report makes, and the sink after it. -/
def report (sink : Sink) (issue : Issue) (location : Location) (message : String) :
    Finding × Sink :=
  (issue.found location message, sink.extend [issue.found location message])

/-- The number of findings so far. -/
def size (sink : Sink) : Nat :=
  sink.findings.length

end Sink

end CallbackLint
