import CallbackLint.Text.Blank
/-!
# Contracts

A contract says which classes are checked, which callback they override, and where it has
to forward to. A class is checked when it carries one of the marker annotations; the
companion of a class is the generated type whose name is the class name with a suffix.
-/

namespace CallbackLint

/-- The marker annotations, the callback and the suffix of the companion type. -/
structure Contract where
  markers : List String := ["RuntimePermissions", "permissions.dispatcher.RuntimePermissions"]
  callback : String := "onRequestPermissionsResult"
  suffix : String := "PermissionsDispatcher"
deriving Repr, DecidableEq, Inhabited

namespace Contract

/-- A text that was given, with the default in place of none and of the empty text. -/
def given (default : String) : Option String → String
  | some s => if s == "" then default else s
  | none => default

/-- The marker names in a list: blanks around a name are dropped, and so are empty names and
repetitions. -/
def markersOf (names : List String) : List String :=
  ((names.map Text.trim).filter (· != "")).eraseDups

/-- The contract with the given parts; a part that is not given, or is empty, is that of the
default contract. -/
def ofParts (names : List String) (callback suffix : Option String) : Contract where
  markers := if (markersOf names).isEmpty then ({} : Contract).markers else markersOf names
  callback := given ({} : Contract).callback callback
  suffix := given ({} : Contract).suffix suffix

/-- The marker names in alphabetical order. -/
def sortedMarkers (c : Contract) : List String :=
  c.markers.mergeSort (fun a b => a ≤ b)

end Contract

end CallbackLint
