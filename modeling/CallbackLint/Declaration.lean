import CallbackLint.Scope
/-!
# Declarations

The view of a file that a rule works on: its types, their annotations, their methods, and
the statements at the top level of each method body. Statements come in two sorts only, a
method call standing alone and everything else, because only the first can forward.
-/

namespace CallbackLint

/-- Where a declaration stands, counted from one, with a one-line excerpt. -/
structure Span where
  line : Nat := 1
  column : Nat := 1
  endLine : Option Nat := none
  endColumn : Option Nat := none
  snippet : Option String := none
deriving Repr, DecidableEq, Inhabited

/-- An annotation as written on a declaration; its full name is missing when the annotation
has no name. -/
structure AnnotationUse where
  name : String
  qualifiedName : Option String
deriving Repr, DecidableEq, Inhabited

/-- A statement at the top level of a method body. -/
inductive Statement where
  /-- A method call that stands alone, with the method it denotes if that is known. -/
  | call (text : String) (target : Option Target)
  /-- Any other statement, with the kind of its node. -/
  | other (kind text : String)
deriving Repr, DecidableEq, Inhabited

/-- A declared method; an abstract one has no body. -/
structure MethodDecl where
  name : String
  body : Option (List Statement)
  span : Span := {}
deriving Repr, DecidableEq, Inhabited

/-- A named type with its own annotations and methods, without those of nested types. -/
structure TypeDecl where
  name : String
  qualifiedName : String
  annotations : List AnnotationUse := []
  methods : List MethodDecl := []
  span : Span := {}
deriving Repr, DecidableEq, Inhabited

end CallbackLint
