import CallbackLint.Contract
import CallbackLint.Declaration.OfNode
import CallbackLint.Finding.Sink
/-!
# The forwarding rule

A class that carries a marker annotation has to forward its callback to its companion: each
of its methods with the callback's name must have a call to the companion's method of that
name among the statements at the top level of its body. A call inside an `if`, a loop, a
lambda or a returned value does not count, nor does a method without a body. Each method
that does not forward is one finding.
-/

namespace CallbackLint

namespace Contract

variable (c : Contract)

/-- Whether a type carries one of the marker annotations, by its full name. -/
def isMarked (d : TypeDecl) : Bool :=
  d.annotations.any fun a =>
    match a.qualifiedName with
    | some name => c.markers.contains name
    | none => false

/-- The name of the companion of a type. -/
def companion (d : TypeDecl) : String :=
  d.name ++ c.suffix

/-- The methods of a type that have the callback's name. -/
def callbacks (d : TypeDecl) : List MethodDecl :=
  d.methods.filter (fun m => m.name == c.callback)

/-- Whether a statement is a call of the companion's callback. -/
def isForwarding (d : TypeDecl) : Statement → Bool
  | .call _ (some t) => t.simpleOwner == c.companion d && t.name == c.callback
  | _ => false

/-- Whether a method of a type forwards to the companion. -/
def forwards (d : TypeDecl) (m : MethodDecl) : Bool :=
  match m.body with
  | some statements => statements.any (c.isForwarding d)
  | none => false

/-- Whether a method of a type has to be reported. -/
def isViolation (d : TypeDecl) (m : MethodDecl) : Bool :=
  c.isMarked d && m.name == c.callback && !c.forwards d m

/-- The methods of a type that have to be reported. -/
def violations (d : TypeDecl) : List MethodDecl :=
  d.methods.filter (c.isViolation d)

end Contract

namespace Forwarding

/-- What the rule reports. -/
def issue : Issue where
  id := "NeedOnRequestPermissionsResult"
  brief := "Call the \"onRequestPermissionsResult\" method of the generated " ++
    "PermissionsDispatcher class in the respective method of your Activity or Fragment"
  explanation := "You are required to inform the generated PermissionsDispatcher class about " ++
    "the results of a permission request. In your class annotated with @RuntimePermissions, " ++
    "override the \"onRequestPermissionsResult\" method and call through to the generated " ++
    "PermissionsDispatcher method with the same name."
  category := "correctness"
  priority := 5
  severity := "error"

/-- The message of each finding. -/
def message : String :=
  "Generated onRequestPermissionsResult method not called"

/-- The place of a method in the file at `path`. -/
def locate (path : Path) (m : MethodDecl) : Checked Location :=
  Location.make path m.span.line m.span.column (m.span.endLine.map Int.ofNat)
    (m.span.endColumn.map Int.ofNat) m.span.snippet

/-- The finding for a method in the file at `path`. -/
def findingFor (path : Path) (m : MethodDecl) : Checked Finding :=
  match locate path m with
  | .ok location => .ok (issue.found location message)
  | .error es => .error es

/-- The methods of a file that have to be reported, type by type. -/
def violationsIn (c : Contract) (file : SourceFile) : List MethodDecl :=
  file.types.flatMap c.violations

/-- The findings of the rule in a file. -/
def findings (c : Contract) (file : SourceFile) : Checked (List Finding) :=
  Checked.all ((violationsIn c file).map (findingFor file.path))

end Forwarding

end CallbackLint
