import CallbackLint.Declaration
/-!
# Declarations read off a syntax tree

Every type declaration that is reached from the root through named nodes and has a name
becomes one `TypeDecl`, in the order of the source; a nested or local type is an entry of
its own, and its qualified name lists the types around it. A type without a name is looked
into and otherwise passed over.

The statements of a body are read in order, and a local is visible from the statement after
its declaration on. Locals of nested blocks never become visible, since only top-level
statements are looked at.
-/

namespace CallbackLint

namespace Span

/-- The excerpt of a declaration: the source up to its body, or its first line when it has
no body. -/
def snippetOf (src : Bytes) (n : Node) (body : Option Node) : String :=
  match body with
  | some b => Text.squeeze (Utf8.decode (Bytes.slice src n.start b.start))
  | none => Text.squeeze (Text.firstLine (n.text src))

/-- The span of a declaration with the given body. -/
def ofNode (src : Bytes) (n : Node) (body : Option Node) : Span where
  line := (n.startPosition src).line
  column := (n.startPosition src).shownColumn
  endLine := some (n.stopPosition src).line
  endColumn := some (n.stopPosition src).shownColumn
  snippet := some (snippetOf src n body)

end Span

namespace AnnotationUse

/-- The annotation that a node spells. -/
def ofNode (src : Bytes) (imports : Imports) (n : Node) : AnnotationUse :=
  match n.child? "name" with
  | some name => ⟨name.compactText src, some (imports.qualify (name.compactText src))⟩
  | none => ⟨"", none⟩

/-- The annotations of a declaration: those in its first list of modifiers. -/
def listOfDecl (src : Bytes) (imports : Imports) (n : Node) : List AnnotationUse :=
  match n.firstOf? ["modifiers"] with
  | some modifiers =>
    (modifiers.namedChildren.filter
      (fun c => c.kind == "marker_annotation" || c.kind == "annotation")).map (ofNode src imports)
  | none => []

end AnnotationUse

namespace Scope

/-- The scope after a statement: a declaration of locals makes them visible. -/
def after (src : Bytes) (scope : Scope) (n : Node) : Scope :=
  if n.kind == "local_variable_declaration" then
    { scope with locals := scope.locals.update (Bindings.ofDeclarations src [n]) }
  else scope

end Scope

namespace Statement

/-- The call that makes up an expression statement, if it is one. -/
def loneCall? (n : Node) : Option Node :=
  if n.kind == "expression_statement" then
    match n.namedChildren.filter (fun c => !c.isComment) with
    | e :: _ => if e.kind == "method_invocation" then some e else none
    | [] => none
  else none

/-- The view of one statement. -/
def ofNode (src : Bytes) (scope : Scope) (n : Node) : Statement :=
  match loneCall? n with
  | some e => .call (n.squeezedText src) (scope.target? src e)
  | none => .other n.kind (n.squeezedText src)

/-- The views of a list of statements, each in the scope that those before it leave. -/
def listOfNodes (src : Bytes) (scope : Scope) : List Node → List Statement
  | [] => []
  | n :: ns => ofNode src scope n :: listOfNodes src (scope.after src n) ns

/-- The views of the statements of a body. -/
def listOfBody (src : Bytes) (scope : Scope) (body : Node) : List Statement :=
  listOfNodes src scope (body.namedChildren.filter (fun c => !c.isComment))

end Statement

namespace MethodDecl

/-- The parameters of a method, with their declared types. -/
def parameters (src : Bytes) (n : Node) : Bindings :=
  match n.child? "parameters" with
  | some ps =>
    Bindings.ofDeclarations src (ps.namedChildren.filter (fun p => p.kind == "formal_parameter"))
  | none => {}

/-- The view of a method declaration inside a type with the given scope; a method without a
name has none. -/
def ofNode? (src : Bytes) (typeScope : Scope) (n : Node) : Option MethodDecl :=
  (n.child? "name").map fun nameNode =>
    { name := nameNode.text src
      body := (n.child? "body").map
        (Statement.listOfBody src { typeScope with locals := parameters src n })
      span := Span.ofNode src n (n.child? "body") }

end MethodDecl

namespace TypeDecl

/-- The members of a type body; those of an enumeration stand one level deeper, after its
constants. -/
def members (n : Node) : List Node :=
  match n.child? "body" with
  | some body =>
    body.namedChildren.flatMap fun c =>
      if c.kind == "enum_body_declarations" then c.namedChildren else [c]
  | none => []

/-- The method declarations among the members of a type. -/
def methodNodes (n : Node) : List Node :=
  (members n).filter (fun m => m.kind == "method_declaration")

/-- The field and constant declarations among the members of a type. -/
def fieldNodes (n : Node) : List Node :=
  (members n).filter (fun m => m.kind == "field_declaration" || m.kind == "constant_declaration")

/-- The full name of the declared superclass. -/
def superclass? (src : Bytes) (imports : Imports) (n : Node) : Option String :=
  match n.child? "superclass" with
  | some s =>
    match s.namedChildren with
    | type :: _ => (type.declaredType? src).map imports.qualify
    | [] => none
  | none => none

/-- What is visible in every method of a type. -/
def scopeOf (src : Bytes) (imports : Imports) (name : String) (n : Node) : Scope where
  typeName := name
  imports := imports
  superclass := superclass? src imports n
  methods := (methodNodes n).filterMap (fun m => (m.child? "name").map (Node.text src))
  fields := Bindings.ofDeclarations src (fieldNodes n)

/-- The full name of a type from its package, the types around it and its own name; empty
parts are left out. -/
def qualifiedNameOf (package : Option String) (outer : List String) (name : String) : String :=
  ".".intercalate ((package.toList ++ outer ++ [name]).filter (· != ""))

/-- The view of a type declaration inside the types named by `outer`; a type without a name
has none. -/
def ofNode? (src : Bytes) (imports : Imports) (outer : List String) (n : Node) :
    Option TypeDecl :=
  (n.child? "name").map fun nameNode =>
    let name := nameNode.text src
    { name := name
      qualifiedName := qualifiedNameOf imports.package outer name
      annotations := AnnotationUse.listOfDecl src imports n
      methods := (methodNodes n).filterMap (MethodDecl.ofNode? src (scopeOf src imports name n))
      span := Span.ofNode src n (n.child? "body") }

mutual

/-- The types declared strictly below a node, which itself stands inside the types named by
`outer`. -/
def below (src : Bytes) (imports : Imports) (outer : List String) : Node → List TypeDecl
  | .mk _ _ _ _ _ cs => inNodes src imports outer cs

/-- The types declared by a list of sibling nodes or below them. -/
def inNodes (src : Bytes) (imports : Imports) (outer : List String) : List Node → List TypeDecl
  | [] => []
  | n :: ns =>
    (if n.named then
      if n.isTypeDecl then
        match ofNode? src imports outer n with
        | some d => d :: below src imports (outer ++ [d.name]) n
        | none => below src imports outer n
      else below src imports outer n
    else []) ++ inNodes src imports outer ns

end

/-- The types that a tree declares. -/
def listOfTree (src : Bytes) (root : Node) : List TypeDecl :=
  below src (Imports.ofTree src root) [] root

end TypeDecl

/-- The types that a file declares. -/
def SourceFile.types (file : SourceFile) : List TypeDecl :=
  TypeDecl.listOfTree file.bytes file.tree

end CallbackLint
