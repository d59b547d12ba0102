import CallbackLint.Bindings
import CallbackLint.Name
import CallbackLint.Source
/-!
# Package and imports

What the head of a file says about names: the package its types belong to, the types that
single-type imports make visible under their simple names, and the owners of the members
that static imports make visible. An import on demand, with a star, pins no name to one
type and is passed over. When two imports bind the same name, the later one holds.
-/

namespace CallbackLint

/-- The package of a file and the names its imports bind. -/
structure Imports where
  package : Option String := none
  /-- Simple names of imported types, each with the full name. -/
  types : Bindings := {}
  /-- Names of statically imported members, each with the type that owns it. -/
  members : Bindings := {}
deriving Repr, DecidableEq, Inhabited

namespace Imports

/-- The kinds of node that spell a name, dotted or not. -/
def nameKinds : List String :=
  ["identifier", "scoped_identifier"]

/-- The name that a package or import declaration spells, without blanks. -/
def declaredName? (src : Bytes) (n : Node) : Option String :=
  (n.firstOf? nameKinds).map (Node.compactText src)

/-- The table with the static import of `name` added; a name without an owner binds
nothing. -/
def addMember (t : Imports) (name : String) : Imports :=
  if Name.qualifier name == "" then t
  else { t with members := t.members.put (Name.simple name) (Name.qualifier name) }

/-- The table with the single-type import of `name` added. -/
def addType (t : Imports) (name : String) : Imports :=
  { t with types := t.types.put (Name.simple name) name }

/-- The table after one more declaration of the file. -/
def add (src : Bytes) (t : Imports) (n : Node) : Imports :=
  if n.kind == "package_declaration" then
    match declaredName? src n with
    | some name => { t with package := some name }
    | none => t
  else if n.kind == "import_declaration" then
    match declaredName? src n with
    | none => t
    | some name =>
      if n.hasChild "asterisk" then t
      else if n.hasChild "static" then t.addMember name
      else t.addType name
  else t

/-- The table of a whole file, from the root of its tree. -/
def ofTree (src : Bytes) (root : Node) : Imports :=
  root.namedChildren.foldl (add src) {}

/-- The full name of a type as it is written in the file: a dotted name stands for itself,
and a simple name for the type imported under it, if there is one. -/
def qualify (t : Imports) (written : String) : String :=
  if Name.isQualified written then written
  else (t.types.get? written).getD written

end Imports

end CallbackLint
