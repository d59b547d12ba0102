import CallbackLint.Imports
/-!
# Scopes and call targets

Which method does a call denote? There is no compiler behind the answer: a call is mapped
to a declaring type and a method name by what one file says, its imports and the declared
types of its fields, parameters and locals. Where the file does not pin a call down the
target is `none`, and nothing that is looked for matches it.

A receiver is read by its shape. `this` is the enclosing type and `super` its superclass.
A plain name is a variable with a declared type, then an imported type, then the name of a
type as written. `this.f` is the declared type of the field `f`. Any other dotted receiver
is a type when it is spelled like one. Nothing else is followed.
-/

namespace CallbackLint

/-- The method a call denotes: the type that declares it and its name. -/
structure Target where
  owner : String
  name : String
deriving Repr, DecidableEq, Inhabited

namespace Target

/-- The declaring type by its last segment. -/
def simpleOwner (t : Target) : String :=
  Name.simple t.owner

end Target

/-- The names visible inside one method body. -/
structure Scope where
  typeName : String
  imports : Imports := {}
  superclass : Option String := none
  methods : List String := []
  fields : Bindings := {}
  locals : Bindings := {}
deriving Repr, DecidableEq, Inhabited

namespace Scope

/-- The declared type of a variable; locals and parameters come before fields. -/
def variableType? (scope : Scope) (name : String) : Option String :=
  match scope.locals.get? name with
  | some type => some type
  | none => scope.fields.get? name

end Scope

namespace Node

variable (src : Bytes)

/-- The name of a class type without type arguments; the placeholder `var` names none. -/
def typeName? (n : Node) : Option String :=
  if n.kind == "type_identifier" || n.kind == "scoped_type_identifier" then
    if n.compactText src == "var" then none else some (n.compactText src)
  else none

/-- The name of a declared type, read through its type arguments. Primitive types, arrays
and `var` have none. -/
def declaredType? (n : Node) : Option String :=
  if n.kind == "generic_type" then
    (n.firstOf? ["type_identifier", "scoped_type_identifier"]).bind (typeName? src)
  else n.typeName? src

/-- The declared type of the variables that a declaration introduces. -/
def variablesType? (n : Node) : Option String :=
  (n.child? "type").bind (declaredType? src)

/-- The names of the variables that a declaration introduces: a parameter has one, any
other declaration one for each of its declarators. -/
def variableNames (n : Node) : List String :=
  if n.kind == "formal_parameter" then ((n.child? "name").map (text src)).toList
  else (n.childrenIn "declarator").filterMap (fun d => (d.child? "name").map (text src))

/-- The variables that a declaration introduces, with their type; none when the type has no
name. -/
def introduced (n : Node) : List (String × String) :=
  match n.variablesType? src with
  | some type => (n.variableNames src).map (fun name => (name, type))
  | none => []

end Node

/-- The variables that a list of declarations introduces; a later one of the same name
holds. -/
def Bindings.ofDeclarations (src : Bytes) (decls : List Node) : Bindings :=
  Bindings.ofList (decls.flatMap (Node.introduced src))

namespace Scope

variable (src : Bytes) (scope : Scope)

/-- The type that a plain name on the left of a call stands for. -/
def nameType (name : String) : String :=
  match scope.variableType? name with
  | some type => type
  | none => (scope.imports.types.get? name).getD name

/-- The field that a receiver of the form `this.f` reads. -/
def ownField? (receiver : Node) : Option Node :=
  match receiver.child? "object", receiver.child? "field" with
  | some object, some member => if object.kind == "this" then some member else none
  | _, _ => none

/-- The type that a dotted text names, when it is spelled like a type. -/
def dottedType? (text : String) : Option String :=
  if Name.isDotted text && Name.isTypeLike text then some text else none

/-- The type that the expression on the left of a call names or has. -/
def receiverType? (receiver : Node) : Option String :=
  if receiver.kind == "this" then some scope.typeName
  else if receiver.kind == "super" then scope.superclass
  else if receiver.kind == "identifier" then some (scope.nameType (receiver.compactText src))
  else if receiver.kind == "field_access" then
    match ownField? receiver with
    | some member => scope.fields.get? (member.text src)
    | none => dottedType? (receiver.compactText src)
  else if receiver.kind == "scoped_identifier" then dottedType? (receiver.compactText src)
  else none

/-- The target of a call without a receiver: the enclosing type when it declares a method
of that name, else the owner of a static import. -/
def bareTarget? (name : String) : Option Target :=
  if scope.methods.contains name then some ⟨scope.typeName, name⟩
  else (scope.imports.members.get? name).map (fun owner => ⟨owner, name⟩)

/-- The target of a call on a receiver. A call through the superclass of an enclosing
instance, `Outer.super.m()`, has none. -/
def receiverTarget? (call receiver : Node) (name : String) : Option Target :=
  if receiver.kind != "super" && call.hasChild "super" then none
  else (scope.receiverType? src receiver).map (fun owner => ⟨owner, name⟩)

/-- The method that a node calls, or `none` when it is no call or cannot be pinned down. -/
def target? (call : Node) : Option Target :=
  if call.kind == "method_invocation" then
    match call.child? "name" with
    | none => none
    | some nameNode =>
      match call.child? "object" with
      | none => scope.bareTarget? (nameNode.text src)
      | some receiver => scope.receiverTarget? src call receiver (nameNode.text src)
  else none

end Scope

end CallbackLint
