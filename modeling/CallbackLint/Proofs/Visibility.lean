import CallbackLint.Proofs.Bindings
import CallbackLint.Proofs.Members
/-!
# What a statement can see

The statements of a body are read one after the other in a scope that grows on the way. The
scope in which a statement is read is told here by the declarations it comes from: those of
the enclosing type, which stay, and the visible ones, the parameters of the method and the
locals declared in front of the statement (`visible`).

`Fits` says that a scope answers as these declarations do. One statement keeps it
(`Fits.after`), so the scope at every statement of a body has it (`Fits.foldl_after`), and
the views of a body are the views of its statements, each in such a scope
(`getElem?_listOfBody`, `mem_listOfBody`).
-/

namespace CallbackLint

namespace MethodDecl

/-- The parameters of a method that can be called by name. -/
def parameterNodes (n : Node) : List Node :=
  match n.child? "parameters" with
  | some ps => ps.namedChildren.filter (fun p => p.kind == "formal_parameter")
  | none => []

/-- The declarations of locals among some statements. -/
def localNodes (statements : List Node) : List Node :=
  statements.filter (fun s => s.kind == "local_variable_declaration")

/-- The variables that a statement of a method can see, by their declarations: the
parameters, and the locals of the statements in front of it. -/
def visible (method : Node) (before : List Node) : List Node :=
  parameterNodes method ++ localNodes before

/-- The parameters are bound as their declarations say. -/
theorem parameters_eq (src : Bytes) (n : Node) :
    parameters src n = Bindings.ofDeclarations src (parameterNodes n) := by
  rcases h : n.child? "parameters" with _ | ps
  · simp only [parameters, parameterNodes, h]
    rfl
  · simp only [parameters, parameterNodes, h]

theorem localNodes_append (before after : List Node) :
    localNodes (before ++ after) = localNodes before ++ localNodes after :=
  List.filter_append ..

end MethodDecl

namespace Scope

variable {src : Bytes} {imports : Imports} {name : String} {type : Node} {decls : List Node}
variable {scope : Scope}

/-- A scope inside a type that answers as the declarations of the type and the visible ones
do. -/
structure Fits (src : Bytes) (imports : Imports) (name : String) (type : Node)
    (decls : List Node) (scope : Scope) : Prop where
  /-- But for the locals it is the scope of the type. -/
  shared : scope = { TypeDecl.scopeOf src imports name type with locals := scope.locals }
  /-- A local has the type of the latest visible declaration that gives it one. -/
  local_eq : ∀ x, scope.locals.get? x = decls.reverse.findSome? (Node.givenType? src x)

namespace Fits

/-- A scope that fits knows the name of the type. -/
theorem typeName_eq (h : Fits src imports name type decls scope) : scope.typeName = name := by
  rw [h.shared]
  rfl

/-- It asks the imports of the file. -/
theorem imports_eq (h : Fits src imports name type decls scope) : scope.imports = imports := by
  rw [h.shared]
  rfl

/-- It knows the superclass. -/
theorem superclass_eq (h : Fits src imports name type decls scope) :
    scope.superclass = TypeDecl.superclass? src imports type := by
  rw [h.shared]
  rfl

/-- It knows a method by its name exactly if the type has one as a member. -/
theorem mem_methods (h : Fits src imports name type decls scope) {x : String} :
    x ∈ scope.methods ↔
      ∃ m ∈ type.methodMembers, ∃ n, m.child? "name" = some n ∧ n.text src = x := by
  rw [h.shared, ← TypeDecl.methodNodes_eq]
  simp [TypeDecl.scopeOf]

/-- A field has the type of the latest member that gives it one. -/
theorem field_eq (h : Fits src imports name type decls scope) (x : String) :
    scope.fields.get? x =
      type.fieldMembers.reverse.findSome? (Node.givenType? src x) := by
  rw [h.shared, ← TypeDecl.fieldNodes_eq]
  exact Bindings.get?_ofDeclarations src (TypeDecl.fieldNodes type) x

/-- At the top of a method body the parameters are visible. -/
theorem ofParameters (src : Bytes) (imports : Imports) (name : String) (type method : Node) :
    Fits src imports name type (MethodDecl.visible method [])
      { TypeDecl.scopeOf src imports name type with
        locals := MethodDecl.parameters src method } where
  shared := rfl
  local_eq x := by
    rw [MethodDecl.parameters_eq, Bindings.get?_ofDeclarations, MethodDecl.visible,
      MethodDecl.localNodes, List.filter_nil, List.append_nil]

/-- **One statement**: a declaration of locals makes them visible behind it, and any other
statement leaves everything as it was. -/
theorem after (h : Fits src imports name type decls scope) (n : Node) :
    Fits src imports name type (decls ++ MethodDecl.localNodes [n]) (scope.after src n) := by
  by_cases hn : n.kind = "local_variable_declaration"
  · have hlocal : MethodDecl.localNodes [n] = [n] := by simp [MethodDecl.localNodes, hn]
    have hafter : scope.after src n =
        { scope with locals := scope.locals.update (Bindings.ofDeclarations src [n]) } := by
      simp [Scope.after, hn]
    -- New bindings are asked before old ones, as later declarations are in the reversed list.
    refine ⟨?_, fun x => ?_⟩
    · rw [hafter, h.shared]
    · rw [hafter, hlocal, Bindings.get?_update _ (Bindings.distinct_ofDeclarations src [n]),
        Bindings.get?_ofDeclarations, h.local_eq, List.reverse_append, List.findSome?_append]
  · have hlocal : MethodDecl.localNodes [n] = [] := by simp [MethodDecl.localNodes, hn]
    have hafter : scope.after src n = scope := by simp [Scope.after, hn]
    rw [hlocal, hafter, List.append_nil]
    exact h

/-- **A run of statements**: behind them the locals they declare are visible too. -/
theorem foldl_after (h : Fits src imports name type decls scope) (before : List Node) :
    Fits src imports name type (decls ++ MethodDecl.localNodes before)
      (before.foldl (Scope.after src) scope) := by
  induction before generalizing decls scope with
  | nil =>
    rw [MethodDecl.localNodes, List.filter_nil, List.append_nil]
    exact h
  | cons n ns ih =>
    have hstep := ih (h.after n)
    rw [List.append_assoc, ← MethodDecl.localNodes_append] at hstep
    exact hstep

/-- **The scope at a statement of a method** is that of its visible declarations. -/
theorem atStatement (src : Bytes) (imports : Imports) (name : String) (type method : Node)
    (before : List Node) :
    Fits src imports name type (MethodDecl.visible method before)
      (before.foldl (Scope.after src)
        { TypeDecl.scopeOf src imports name type with
          locals := MethodDecl.parameters src method }) := by
  have h := (ofParameters src imports name type method).foldl_after before
  rw [MethodDecl.visible, MethodDecl.localNodes, List.filter_nil, List.append_nil] at h
  exact h

end Fits

end Scope

namespace Statement

variable {src : Bytes}

/-- A statement is a call if its first expression is, comments apart. -/
theorem loneCall?_eq_some_iff {statement call : Node} :
    loneCall? statement = some call ↔
      statement.kind = "expression_statement" ∧
        (statement.namedChildren.filter (fun e => !e.isComment)).head? = some call ∧
        call.kind = "method_invocation" := by
  rw [loneCall?]
  by_cases hk : statement.kind = "expression_statement"
  · generalize statement.namedChildren.filter (fun e => !e.isComment) = es
    rcases es with _ | ⟨e, es⟩
    · simp [hk]
    · by_cases he : e.kind = "method_invocation"
      · simp only [hk, he, beq_self_eq_true, if_true, Option.some.injEq, List.head?_cons, true_and]
        exact ⟨fun h => ⟨h, h ▸ he⟩, fun h => h.1⟩
      · simp only [hk, he, beq_self_eq_true, if_true, beq_iff_eq, if_false, List.head?_cons,
          Option.some.injEq, true_and, reduceCtorEq, false_iff, not_and]
        exact fun h => h ▸ he
  · simp [hk]

/-- Every statement has one view. -/
theorem length_listOfNodes (scope : Scope) (ns : List Node) :
    (listOfNodes src scope ns).length = ns.length := by
  induction ns generalizing scope with
  | nil => rfl
  | cons n ns ih => rw [listOfNodes, List.length_cons, List.length_cons, ih]

/-- The views around a statement: the one of the statement itself is made in the scope that
the statements in front of it leave. -/
theorem listOfNodes_append_cons (scope : Scope) (before : List Node) (n : Node)
    (after : List Node) :
    listOfNodes src scope (before ++ n :: after) =
      listOfNodes src scope before ++ ofNode src (before.foldl (Scope.after src) scope) n ::
        listOfNodes src ((before ++ [n]).foldl (Scope.after src) scope) after := by
  induction before generalizing scope with
  | nil => rfl
  | cons m ms ih =>
    rw [List.cons_append, listOfNodes, ih]
    rfl

/-- A comment declares nothing, so the scope is the same with and without comments. -/
theorem foldl_after_filter_not_comment (scope : Scope) (before : List Node) :
    (before.filter (fun c => !c.isComment)).foldl (Scope.after src) scope =
      before.foldl (Scope.after src) scope := by
  induction before generalizing scope with
  | nil => rfl
  | cons n ns ih =>
    by_cases hn : n.isComment
    · have hkind : n.kind ≠ "local_variable_declaration" := by
        rintro hk
        simp [Node.isComment, Node.commentKinds, hk] at hn
      have hafter : scope.after src n = scope := by simp [Scope.after, hkind]
      rw [List.filter_cons_of_neg (by simp [hn]), List.foldl_cons, hafter]
      exact ih scope
    · rw [List.filter_cons_of_pos (by simp [hn]), List.foldl_cons, List.foldl_cons]
      exact ih _

/-- The number of views of the statements in front of one in a body. -/
def indexAfter (before : List Node) : Nat :=
  (before.filter (fun c => !c.isComment)).length

/-- **The view of a statement of a body**, which is not a comment: it has its index among the
views, and is made in the scope that everything in front of it leaves. -/
theorem getElem?_listOfBody {scope : Scope} {body n : Node} {before after : List Node}
    (h : body.namedChildren = before ++ n :: after) (hn : n.isComment = false) :
    (listOfBody src scope body)[indexAfter before]? =
      some (ofNode src (before.foldl (Scope.after src) scope) n) := by
  have hfilter : body.namedChildren.filter (fun c => !c.isComment) =
      before.filter (fun c => !c.isComment) ++ n :: after.filter (fun c => !c.isComment) := by
    rw [h, List.filter_append, List.filter_cons_of_pos (by simp [hn])]
  rw [listOfBody, hfilter, listOfNodes_append_cons, foldl_after_filter_not_comment,
    indexAfter, ← length_listOfNodes scope, List.getElem?_append_right (Nat.le_refl _),
    Nat.sub_self]
  rfl

/-- Every view is that of a statement, in the scope that those in front leave. -/
theorem mem_listOfNodes {scope : Scope} {ns : List Node} {view : Statement}
    (h : view ∈ listOfNodes src scope ns) :
    ∃ before n after, ns = before ++ n :: after ∧
      view = ofNode src (before.foldl (Scope.after src) scope) n := by
  induction ns generalizing scope with
  | nil => exact absurd h List.not_mem_nil
  | cons n ns ih =>
    rcases List.mem_cons.1 h with rfl | h
    · exact ⟨[], n, ns, rfl, rfl⟩
    · obtain ⟨before, m, after, rfl, rfl⟩ := ih h
      exact ⟨n :: before, m, after, rfl, rfl⟩

/-- **The views of a body are the views of its statements**, comments left out. -/
theorem mem_listOfBody {scope : Scope} {body : Node} {view : Statement} :
    view ∈ listOfBody src scope body ↔
      ∃ before n after, body.namedChildren = before ++ n :: after ∧ n.isComment = false ∧
        view = ofNode src (before.foldl (Scope.after src) scope) n := by
  constructor
  · intro h
    obtain ⟨before, n, after, hsplit, rfl⟩ := mem_listOfNodes h
    -- the comments between `before` and the statement fall on either side of the cut
    obtain ⟨l₁, l₂, hl, hbefore, hrest⟩ := List.filter_eq_append_iff.1 hsplit
    obtain ⟨l₃, l₄, rfl, hnone, hn, -⟩ := List.filter_eq_cons_iff.1 hrest
    have hwith : before = (l₁ ++ l₃).filter (fun c => !c.isComment) := by
      rw [List.filter_append, hbefore, List.filter_eq_nil_iff.2 hnone, List.append_nil]
    refine ⟨l₁ ++ l₃, n, l₄, by rw [hl, List.append_assoc], by simpa using hn, ?_⟩
    rw [hwith, foldl_after_filter_not_comment]
  · rintro ⟨before, n, after, h, hn, rfl⟩
    exact List.mem_of_getElem? (getElem?_listOfBody h hn)

end Statement

end CallbackLint
