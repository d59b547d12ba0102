import CallbackLint.Proofs.Denotation
/-!
# Shadowing

A parameter or a local is meant to hide a field and a type of its name. Whether it does is
decided by its declared type. Where the latest declaration of a name that a call can see has
a type with a name, the call goes to that type, whatever fields and imports there are. Where
it has none (a primitive type, an array, `var`), the declaration leaves no trace, and the
name is looked up as if it were not there: an earlier declaration, a field, an imported type,
or the name itself is taken.

So the declaration shadows exactly when its type has a name (`shadows_iff_isSome`).
-/

namespace CallbackLint

/-- A call `x.m(...)` on a plain name, as a statement at the top level of the body of a
method. -/
structure PlainCall (method : Node) where
  body : Node
  /-- The nodes of the body in front of the statement, and behind it. -/
  before : List Node
  statement : Node
  after : List Node
  call : Node
  callee : Node
  receiver : Node
  hasBody : method.child? "body" = some body
  inBody : body.namedChildren = before ++ statement :: after
  isCall : Statement.loneCall? statement = some call
  hasCallee : call.child? "name" = some callee
  hasReceiver : call.child? "object" = some receiver
  isPlain : receiver.kind = "identifier"
  /-- It is not of the form `x.super.m(...)`. -/
  isDirect : call.hasChild "super" = false

namespace PlainCall

variable {method : Node} (p : PlainCall method) (src : Bytes)

/-- The name that the method is called on. -/
def name : String :=
  p.receiver.compactText src

/-- The declarations of the parameters and locals that the call can see. -/
def visible : List Node :=
  MethodDecl.visible method p.before

/-- The target of the call when the name has a type. -/
def targetIn (type : String) : Target :=
  ⟨type, p.callee.text src⟩

/-- The latest declaration of the name that the call can see. -/
def Latest (d : Node) : Prop :=
  ∃ before after, p.visible = before ++ d :: after ∧ p.name src ∈ d.variableNames src ∧
    ∀ e ∈ after, p.name src ∉ e.variableNames src

variable {p src}

/-- The latest declaration of a name gives it a type, if its own has a name. -/
theorem latestType_of_latest {d : Node} {type : String} (h : p.Latest src d)
    (htype : d.variablesType? src = some type) :
    LatestType src p.visible (p.name src) type := by
  obtain ⟨before, after, hsplit, hx, hnone⟩ := h
  exact ⟨before, d, after, hsplit, hx, htype, fun e he hxe => absurd hxe (hnone e he)⟩

/-- A call is no comment, so it has a view. -/
theorem not_isComment : p.statement.isComment = false := by
  have hkind := (Statement.loneCall?_eq_some_iff.1 p.isCall).1
  simp [Node.isComment, Node.commentKinds, hkind]

/-- On a plain name a call always has a target. -/
theorem target?_eq (scope : Scope) :
    scope.target? src p.call = some (p.targetIn src (scope.nameType (p.name src))) := by
  have hkind := (Statement.loneCall?_eq_some_iff.1 p.isCall).2.2
  simp [Scope.target?, hkind, p.hasCallee, p.hasReceiver, Scope.receiverTarget?, p.isDirect,
    Scope.receiverType?, p.isPlain, targetIn, name]

/-- The view of the call in the view of its method. -/
theorem getElem?_views (imports : Imports) (name : String) (type : Node) :
    (Statement.listOfBody src { TypeDecl.scopeOf src imports name type with
        locals := MethodDecl.parameters src method } p.body)[Statement.indexAfter p.before]? =
      some (.call (p.statement.squeezedText src) (some (p.targetIn src
        ((p.before.foldl (Scope.after src) { TypeDecl.scopeOf src imports name type with
          locals := MethodDecl.parameters src method }).nameType (p.name src))))) := by
  rw [Statement.getElem?_listOfBody p.inBody not_isComment, Statement.ofNode, p.isCall]
  simp only [target?_eq]

/-- **Shadowing.** In the view of a method, the target of a call on a plain name is the one
that the latest declaration of the name asks for, none included, exactly when the type of
that declaration has a name. The call has a target in any case: the type that the name
denotes by the rules, which pass over a declaration whose type has no name. -/
theorem shadows_iff_isSome {src : Bytes} {imports : Imports} {outer : List String} {type : Node}
    {d : TypeDecl} (hd : TypeDecl.ofNode? src imports outer type = some d) {method : Node}
    (hmethod : method ∈ TypeDecl.methodNodes type) {m : MethodDecl}
    (hm : MethodDecl.ofNode? src (TypeDecl.scopeOf src imports d.name type) method = some m)
    (p : PlainCall method) {decl : Node} (hdecl : p.Latest src decl) :
    m ∈ d.methods ∧ ∃ views text target,
      m.body = some views ∧
      views[Statement.indexAfter p.before]? = some (.call text target) ∧
      (target = (decl.variablesType? src).map (p.targetIn src) ↔
        (decl.variablesType? src).isSome = true) ∧
      ∃ owner, target = some (p.targetIn src owner) ∧
        Surroundings.NameDenotes ⟨src, imports, type, d.name, p.visible⟩ (p.name src) owner := by
  have hmem : m ∈ d.methods := by
    obtain ⟨n, hn, rfl⟩ := Option.map_eq_some_iff.1 hd
    exact List.mem_filterMap.2 ⟨method, hmethod, hm⟩
  have hfits : Scope.FitsIn ⟨src, imports, type, d.name, p.visible⟩ _ :=
    Scope.Fits.atStatement src imports d.name type method p.before
  have hbody : m.body = some (Statement.listOfBody src
      { TypeDecl.scopeOf src imports d.name type with
        locals := MethodDecl.parameters src method } p.body) := by
    obtain ⟨n, hn, rfl⟩ := Option.map_eq_some_iff.1 hm
    rw [p.hasBody]
    rfl
  refine ⟨hmem, _, _, _, hbody, getElem?_views imports d.name type, ?_, _, rfl,
    (Scope.nameType_eq_iff hfits).1 rfl⟩
  -- Without a named type no target is asked for, but the call has one.
  rcases htype : decl.variablesType? src with _ | declared
  · simp
  · have hname := (Scope.nameType_eq_iff hfits).2 (.seen (latestType_of_latest hdecl htype))
    simp [hname]

end PlainCall

namespace VarOverField

/-- A class whose method declares a local with `var` under the name of a field. -/
def src : Bytes :=
  Utf8.encode "class A{Foo x;void m(){var x=f();x.go();}}"

/-- The field, `Foo x;`. -/
def fieldDecl : Node :=
  .mk "field_declaration" 8 14 true none
    [.mk "type_identifier" 8 11 true (some "type") [],
      .mk "variable_declarator" 12 13 true (some "declarator")
        [.mk "identifier" 12 13 true (some "name") []]]

/-- The local, `var x=f();`. -/
def localDecl : Node :=
  .mk "local_variable_declaration" 23 33 true none
    [.mk "type_identifier" 23 26 true (some "type") [],
      .mk "variable_declarator" 27 32 true (some "declarator")
        [.mk "identifier" 27 28 true (some "name") []]]

/-- The call `x.go()` and its parts. -/
def receiver : Node := .mk "identifier" 33 34 true (some "object") []

def callee : Node := .mk "identifier" 35 37 true (some "name") []

def call : Node := .mk "method_invocation" 33 39 true none [receiver, callee]

def statement : Node := .mk "expression_statement" 33 40 true none [call]

def body : Node := .mk "block" 22 41 true (some "body") [localDecl, statement]

def method : Node :=
  .mk "method_declaration" 14 41 true none
    [.mk "void_type" 14 18 true (some "type") [], .mk "identifier" 19 20 true (some "name") [],
      .mk "formal_parameters" 20 22 true (some "parameters") [], body]

def type : Node :=
  .mk "class_declaration" 0 42 true none
    [.mk "identifier" 6 7 true (some "name") [],
      .mk "class_body" 7 42 true (some "body") [fieldDecl, method]]

def plainCall : PlainCall method where
  body := body
  before := [localDecl]
  statement := statement
  after := []
  call := call
  callee := callee
  receiver := receiver
  hasBody := rfl
  inBody := rfl
  isCall := rfl
  hasCallee := rfl
  hasReceiver := rfl
  isPlain := rfl
  isDirect := rfl

theorem latest_localDecl : plainCall.Latest src localDecl :=
  ⟨[], [], rfl, by decide +kernel, fun _ h => absurd h List.not_mem_nil⟩

end VarOverField

open VarOverField in
/-- A local declared with `var` does not hide a field of its name: the call behind it has a
target. -/
theorem varLocal_leaves_target :
    ∃ d m, TypeDecl.ofNode? src {} [] type = some d ∧ m ∈ d.methods ∧
      plainCall.Latest src localDecl ∧ localDecl.variablesType? src = none ∧
      ∃ views text target, m.body = some views ∧ views[1]? = some (.call text target) ∧
        target ≠ none := by
  obtain ⟨d, hd⟩ : ∃ d, TypeDecl.ofNode? src {} [] type = some d := ⟨_, rfl⟩
  obtain ⟨m, hm⟩ : ∃ m, MethodDecl.ofNode? src (TypeDecl.scopeOf src {} d.name type) method =
      some m := ⟨_, rfl⟩
  have hmethod : method ∈ TypeDecl.methodNodes type := by
    have hnodes : TypeDecl.methodNodes type = [method] := rfl
    rw [hnodes]
    exact List.mem_singleton_self method
  have huntyped : localDecl.variablesType? src = none := by decide +kernel
  obtain ⟨hmem, views, text, target, hviews, hview, hiff, -⟩ :=
    PlainCall.shadows_iff_isSome hd hmethod hm plainCall latest_localDecl
  refine ⟨d, m, hd, hmem, latest_localDecl, huntyped, views, text, target, hviews, hview, ?_⟩
  rw [huntyped] at hiff
  intro hnone
  exact absurd (hiff.1 hnone) (by simp)

end CallbackLint
