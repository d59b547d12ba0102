/-!
# Faults of a record

A record that is built from outside data names every field that is wrong, each with one
reason, in the order in which the record declares its fields. `Checked` is the result of
such a construction, and `Checked.and` the step that goes on after a fault so that the
later ones are named as well.
-/

namespace CallbackLint

/-- Why a field was refused. -/
inductive Fault where
  /-- The field is required and absent. -/
  | missing
  /-- Something else than text. -/
  | notText
  /-- Something that is no number and spells none. -/
  | notInteger
  /-- Text that does not spell an integer. -/
  | unreadableInteger
  /-- A number with a fraction. -/
  | fraction
  /-- An integer below the least that is allowed. -/
  | tooSmall
  /-- An integer above the greatest that is allowed. -/
  | tooLarge
  /-- Something else than the text of a path. -/
  | notPath
  /-- Something else than a record. -/
  | notRecord
deriving Repr, DecidableEq, Inhabited

namespace Fault

/-- The short code of a reason. -/
def code : Fault → String
  | .missing => "missing"
  | .notText => "string_type"
  | .notInteger => "int_type"
  | .unreadableInteger => "int_parsing"
  | .fraction => "int_from_float"
  | .tooSmall => "greater_than_equal"
  | .tooLarge => "less_than_equal"
  | .notPath => "path_type"
  | .notRecord => "model_type"

end Fault

/-- A refused field: the names that lead to it from the outermost record, and the reason. -/
structure FieldFault where
  location : List String
  fault : Fault
deriving Repr, DecidableEq, Inhabited

/-- A value, or the fields that were refused. -/
inductive Checked (α : Type) where
  | ok (value : α)
  | error (faults : List FieldFault)
deriving Repr, DecidableEq

namespace Checked

/-- Applies a checked function to a checked argument and names the faults of both. -/
def and {α β : Type} (f : Checked (α → β)) (x : Checked α) : Checked β :=
  match f, x with
  | .ok g, .ok a => .ok (g a)
  | .ok _, .error es => .error es
  | .error es, .ok _ => .error es
  | .error es, .error es' => .error (es ++ es')

/-- The refusal of one field of the record at hand. -/
def refuse {α : Type} (field : String) (fault : Fault) : Checked α :=
  .error [⟨[field], fault⟩]

/-- The faults of an inner record as faults of the record that holds it under `field`. -/
def within {α : Type} (field : String) (x : Checked α) : Checked α :=
  match x with
  | .ok a => .ok a
  | .error es => .error (es.map (fun e => { e with location := field :: e.location }))

/-- All values of a list of checked ones, or the faults of the first that has any. -/
def all {α : Type} : List (Checked α) → Checked (List α)
  | [] => .ok []
  | x :: xs =>
    match x with
    | .error es => .error es
    | .ok a =>
      match all xs with
      | .ok as => .ok (a :: as)
      | .error es => .error es

end Checked

end CallbackLint
