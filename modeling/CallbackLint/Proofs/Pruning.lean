import CallbackLint.Declaration.OfNode
import Mathlib.Data.List.Basic
/-!
# What extraction reads of a tree

Most nodes of a tree are looked at only from outside: their kind, their range and their
field count, and what is below them does not. A node is unread in this sense unless its kind
or its field is on one of two short lists (`isUnread`). `prune` cuts off everything below
unread nodes, and the results here say that no function on the way from a tree to the view of
a type can tell: a look-up in a pruned node is the look-up in the node, pruned, and a view
made from a pruned node is the view made from the node.

A type declaration is not among the nodes read everywhere, since a type nested in another is
no part of it. When its own view is made its children are read, so the results are about
`pruneBelow`, which prunes the children of a node and keeps them.
-/

namespace CallbackLint

namespace Node

/-- The kinds of node that are looked into wherever they are met. -/
def readKinds : List String :=
  ["modifiers", "marker_annotation", "annotation", "enum_body_declarations",
    "method_declaration", "field_declaration", "constant_declaration", "formal_parameter",
    "expression_statement", "method_invocation", "local_variable_declaration", "generic_type",
    "import_declaration", "package_declaration"]

/-- The fields under which a node is looked into, whatever its kind. -/
def readFields : List String :=
  ["body", "superclass", "parameters", "type", "declarator", "object"]

/-- Whether nothing below the node is ever read by a look-up that comes from above. -/
def isUnread (n : Node) : Bool :=
  !readKinds.contains n.kind && !readFields.any (fun f => n.field == some f)

/-- The node with other children. -/
def withChildren (cs : List Node) : Node → Node
  | .mk k s e nm f _ => .mk k s e nm f cs

mutual

/-- The tree without what is below its unread nodes. -/
def prune : Node → Node
  | .mk k s e nm f cs =>
    .mk k s e nm f (if (Node.mk k s e nm f cs).isUnread then [] else pruneAll cs)

/-- Some trees without what is below their unread nodes. -/
def pruneAll : List Node → List Node
  | [] => []
  | n :: ns => prune n :: pruneAll ns

end

/-- The node with its children pruned, read or not. -/
def pruneBelow (n : Node) : Node :=
  n.withChildren (n.children.map prune)

variable {n : Node}

/-- Pruning some trees is pruning each of them. -/
theorem pruneAll_eq_map (ns : List Node) : pruneAll ns = ns.map prune := by
  induction ns with
  | nil => rfl
  | cons n ns ih => rw [pruneAll, ih, List.map_cons]

/-- **Pruning a node leaves everything but what is below it**: its kind, its range, whether it is
named, and its field. -/
@[simp] theorem kind_prune (n : Node) : (prune n).kind = n.kind := by
  cases n; rw [prune]; rfl

@[simp] theorem start_prune (n : Node) : (prune n).start = n.start := by
  cases n; rw [prune]; rfl

@[simp] theorem stop_prune (n : Node) : (prune n).stop = n.stop := by
  cases n; rw [prune]; rfl

@[simp] theorem named_prune (n : Node) : (prune n).named = n.named := by
  cases n; rw [prune]; rfl

@[simp] theorem field_prune (n : Node) : (prune n).field = n.field := by
  cases n; rw [prune]; rfl

/-- The same for pruning the children only. -/
@[simp] theorem kind_pruneBelow (n : Node) : (pruneBelow n).kind = n.kind := by cases n; rfl

@[simp] theorem start_pruneBelow (n : Node) : (pruneBelow n).start = n.start := by cases n; rfl

@[simp] theorem stop_pruneBelow (n : Node) : (pruneBelow n).stop = n.stop := by cases n; rfl

/-- All its children are there, each of them pruned. -/
@[simp] theorem children_pruneBelow (n : Node) :
    (pruneBelow n).children = n.children.map prune := by cases n; rfl

/-- A node that is read keeps its children. -/
theorem prune_eq_pruneBelow (h : n.isUnread = false) : prune n = pruneBelow n := by
  obtain ⟨k, s, e, nm, f, cs⟩ := n
  rw [prune, if_neg (by rw [h]; decide), pruneAll_eq_map]
  rfl

/-- Below a node that is not read, pruning leaves nothing, whatever was there. -/
theorem prune_withChildren (h : n.isUnread = true) (cs : List Node) :
    prune (n.withChildren cs) = prune n := by
  obtain ⟨k, s, e, nm, f, cs'⟩ := n
  have h' : (Node.mk k s e nm f cs).isUnread = true := h
  rw [withChildren, prune, prune, if_pos h, if_pos h']

/-- A node is read if its kind is on the list. -/
theorem isUnread_of_kind {k : String} (hk : k ∈ readKinds) (h : n.kind = k) :
    n.isUnread = false := by
  simp [isUnread, h, hk]

/-- A node is read if its field is on the list. -/
theorem isUnread_of_field {f : String} (hf : f ∈ readFields) (h : n.field = some f) :
    n.isUnread = false := by
  simp only [isUnread, Bool.and_eq_false_iff, Bool.not_eq_false', List.any_eq_true]
  exact .inr ⟨f, hf, by simp [h]⟩

/-! ## Look-ups -/

/-- **A look-up in a pruned node is the look-up in the node, pruned.** This one is for the named
children. -/
theorem namedChildren_pruneBelow (n : Node) :
    (pruneBelow n).namedChildren = n.namedChildren.map prune := by
  rw [namedChildren, namedChildren, children_pruneBelow, List.filter_map]
  congr 2
  funext c
  exact named_prune c

/-- The same for the first child in a field. -/
theorem child?_pruneBelow (n : Node) (f : String) :
    (pruneBelow n).child? f = (n.child? f).map prune := by
  rw [child?, child?, children_pruneBelow, List.find?_map]
  congr 2
  funext c
  simp

/-- The same for all children in a field. -/
theorem childrenIn_pruneBelow (n : Node) (f : String) :
    (pruneBelow n).childrenIn f = (n.childrenIn f).map prune := by
  rw [childrenIn, childrenIn, children_pruneBelow, List.filter_map]
  congr 2
  funext c
  simp

/-- The same for the first named child of one of some kinds. -/
theorem firstOf?_pruneBelow (n : Node) (kinds : List String) :
    (pruneBelow n).firstOf? kinds = (n.firstOf? kinds).map prune := by
  rw [firstOf?, firstOf?, namedChildren_pruneBelow, List.find?_map]
  congr 2
  funext c
  simp

/-- Whether there is a child of a kind is a question that pruning leaves alone. -/
theorem hasChild_pruneBelow (n : Node) (kind : String) :
    (pruneBelow n).hasChild kind = n.hasChild kind := by
  rw [hasChild, hasChild, children_pruneBelow, List.any_map]
  congr 1
  funext c
  simp

/-- What is found in a field is in that field. -/
theorem field_of_child? {f : String} {c : Node} (h : n.child? f = some c) : c.field = some f := by
  simpa using List.find?_some h

/-- So is each of several children found there. -/
theorem field_of_mem_childrenIn {f : String} {c : Node} (h : c ∈ n.childrenIn f) :
    c.field = some f := by
  simpa using (List.mem_filter.1 h).2

/-- What is found by its kind is of one of the kinds asked for. -/
theorem kind_of_firstOf? {kinds : List String} {c : Node} (h : n.firstOf? kinds = some c) :
    c.kind ∈ kinds := by
  simpa using List.find?_some h

/-- A child in a field that is read keeps its children. -/
theorem child?_pruneBelow_of_read {f : String} (hf : f ∈ readFields) (n : Node) :
    (pruneBelow n).child? f = (n.child? f).map pruneBelow := by
  rw [child?_pruneBelow]
  rcases h : n.child? f with _ | c
  · rfl
  · rw [Option.map_some, Option.map_some,
      prune_eq_pruneBelow (isUnread_of_field hf (field_of_child? h))]

/-! ## Texts -/

variable (src : Bytes)

/-- **The text of a node is told by its range**, so pruning leaves it alone. -/
@[simp] theorem text_prune (n : Node) : (prune n).text src = n.text src := by
  simp [text]

@[simp] theorem text_pruneBelow (n : Node) : (pruneBelow n).text src = n.text src := by
  simp [text]

/-- Hence also the text without blanks. -/
@[simp] theorem compactText_prune (n : Node) : (prune n).compactText src = n.compactText src := by
  simp [compactText]

@[simp] theorem compactText_pruneBelow (n : Node) :
    (pruneBelow n).compactText src = n.compactText src := by
  simp [compactText]

/-- And the text with single blanks. -/
@[simp] theorem squeezedText_prune (n : Node) :
    (prune n).squeezedText src = n.squeezedText src := by
  simp [squeezedText]

/-- A comment is told by its kind. -/
@[simp] theorem isComment_prune (n : Node) : (prune n).isComment = n.isComment := by
  simp [isComment]

/-- So is a type declaration. -/
@[simp] theorem isTypeDecl_pruneBelow (n : Node) : (pruneBelow n).isTypeDecl = n.isTypeDecl := by
  simp [isTypeDecl]

/-- The text of the name of a node survives pruning. -/
theorem map_text_child?_pruneBelow (n : Node) (f : String) :
    ((pruneBelow n).child? f).map (text src) = (n.child? f).map (text src) := by
  rw [child?_pruneBelow, Option.map_map]
  exact Option.map_congr fun c _ => text_prune src c

/-! ## Declarations of variables -/

/-- A type that is no generic one is taken by its kind and its text. -/
theorem typeName?_prune (n : Node) : (prune n).typeName? src = n.typeName? src := by
  simp [typeName?]

/-- A type is read through its arguments: a generic type is a node that is read, and any
other is taken by its text. -/
theorem declaredType?_prune (n : Node) : (prune n).declaredType? src = n.declaredType? src := by
  rw [declaredType?, declaredType?, kind_prune]
  by_cases hk : n.kind = "generic_type"
  · have hread : n.isUnread = false := isUnread_of_kind (by decide) hk
    simp only [hk, beq_self_eq_true, if_true]
    rw [prune_eq_pruneBelow hread, firstOf?_pruneBelow, Option.bind_map]
    exact Option.bind_congr fun c _ => typeName?_prune src c
  · simp [hk, typeName?_prune]

/-- The type that a declaration gives to its variables is the same. -/
theorem variablesType?_pruneBelow (n : Node) :
    (pruneBelow n).variablesType? src = n.variablesType? src := by
  rw [variablesType?, variablesType?, child?_pruneBelow, Option.bind_map]
  exact Option.bind_congr fun c _ => declaredType?_prune src c

/-- So are the names of the variables: they stand in the declaration itself or in its declarators,
which are read. -/
theorem variableNames_pruneBelow (n : Node) :
    (pruneBelow n).variableNames src = n.variableNames src := by
  rw [variableNames, variableNames, kind_pruneBelow, map_text_child?_pruneBelow,
    childrenIn_pruneBelow, List.filterMap_map]
  split
  · rfl
  · refine List.filterMap_congr fun d hd => ?_
    have hread : d.isUnread = false :=
      isUnread_of_field (by decide) (field_of_mem_childrenIn hd)
    rw [Function.comp_apply, prune_eq_pruneBelow hread, map_text_child?_pruneBelow]

/-- So a declaration that is read introduces the same variables with the same types. -/
theorem introduced_prune (h : n.isUnread = false) :
    (prune n).introduced src = n.introduced src := by
  rw [prune_eq_pruneBelow h, introduced, introduced, variablesType?_pruneBelow,
    variableNames_pruneBelow]

end Node

open Node

variable {src : Bytes} {imports : Imports}

/-- **Declarations that are read** bind the same names when pruned. -/
theorem Bindings.ofDeclarations_map_prune {decls : List Node}
    (h : ∀ d ∈ decls, d.isUnread = false) :
    Bindings.ofDeclarations src (decls.map prune) = Bindings.ofDeclarations src decls := by
  rw [ofDeclarations, ofDeclarations, List.flatMap_map]
  congr 1
  exact List.flatMap_congr fun d hd => introduced_prune src (h d hd)

/-- Filtering by kind comes to the same before and after pruning. -/
theorem filter_kind_map_prune (p : String → Bool) (ns : List Node) :
    (ns.map prune).filter (fun n => p n.kind) = (ns.filter (fun n => p n.kind)).map prune := by
  rw [List.filter_map]
  congr 2
  funext n
  simp

/-- In particular comments are left out before or after, as one likes. -/
theorem filter_not_isComment_map_prune (ns : List Node) :
    (ns.map prune).filter (fun n => !n.isComment) =
      (ns.filter (fun n => !n.isComment)).map prune :=
  filter_kind_map_prune (fun k => !commentKinds.contains k) ns

/-! ## Imports and annotations -/

namespace Imports

/-- The name that a declaration at the head of a file spells is the text of a child. -/
theorem declaredName?_pruneBelow (n : Node) :
    declaredName? src (pruneBelow n) = declaredName? src n := by
  rw [declaredName?, declaredName?, firstOf?_pruneBelow, Option.map_map]
  exact Option.map_congr fun c _ => compactText_prune src c

/-- **One declaration at the head of a file** adds the same to the import table when pruned. -/
theorem add_prune (t : Imports) (n : Node) : add src t (prune n) = add src t n := by
  -- Only two kinds of declaration are looked into, and both are read.
  have hadd : n.isUnread = false → add src t (prune n) = add src t n := by
    intro hread
    rw [prune_eq_pruneBelow hread]
    simp only [add, kind_pruneBelow, declaredName?_pruneBelow, hasChild_pruneBelow]
  by_cases hpackage : n.kind = "package_declaration"
  · exact hadd (isUnread_of_kind (by decide) hpackage)
  · by_cases himport : n.kind = "import_declaration"
    · exact hadd (isUnread_of_kind (by decide) himport)
    · simp [add, hpackage, himport]

/-- So the import table of a file is the same. -/
theorem ofTree_pruneBelow (root : Node) : ofTree src (pruneBelow root) = ofTree src root := by
  rw [ofTree, ofTree, namedChildren_pruneBelow, List.foldl_map]
  congr 1
  funext t n
  exact add_prune t n

end Imports

namespace AnnotationUse

/-- An annotation that is read spells the same name. -/
theorem ofNode_prune {n : Node} (h : n.isUnread = false) :
    ofNode src imports (prune n) = ofNode src imports n := by
  rw [prune_eq_pruneBelow h, ofNode, ofNode, child?_pruneBelow]
  rcases n.child? "name" with _ | c
  · rfl
  · simp

/-- A declaration has the same annotations: its modifiers are read, and so are the annotations in
them. -/
theorem listOfDecl_pruneBelow (n : Node) :
    listOfDecl src imports (pruneBelow n) = listOfDecl src imports n := by
  rw [listOfDecl, listOfDecl, firstOf?_pruneBelow]
  rcases hm : n.firstOf? ["modifiers"] with _ | modifiers
  · rfl
  · have hread : modifiers.isUnread = false := by
      have hkind := kind_of_firstOf? hm
      exact isUnread_of_kind (by decide) (List.mem_singleton.1 hkind)
    simp only [Option.map_some, prune_eq_pruneBelow hread, namedChildren_pruneBelow]
    rw [filter_kind_map_prune (fun k => k == "marker_annotation" || k == "annotation"),
      List.map_map]
    refine List.map_congr_left fun a ha => ofNode_prune ?_
    have hkind : a.kind = "marker_annotation" ∨ a.kind = "annotation" := by
      simpa using (List.mem_filter.1 ha).2
    rcases hkind with hk | hk
    · exact isUnread_of_kind (by decide) hk
    · exact isUnread_of_kind (by decide) hk

end AnnotationUse

/-! ## Calls -/

namespace Scope

/-- The form `this.f` is told by the children of an access. -/
theorem ownField?_pruneBelow (receiver : Node) :
    ownField? (pruneBelow receiver) = (ownField? receiver).map prune := by
  rw [ownField?, ownField?, child?_pruneBelow, child?_pruneBelow]
  rcases receiver.child? "object" with _ | object
  · rfl
  · rcases receiver.child? "field" with _ | member
    · rfl
    · by_cases h : object.kind = "this" <;> simp [h]

/-- A receiver names or has the same type: its kind and its text tell it, and the form `this.f`. -/
theorem receiverType?_pruneBelow (scope : Scope) (receiver : Node) :
    scope.receiverType? src (pruneBelow receiver) = scope.receiverType? src receiver := by
  rw [receiverType?, receiverType?, ownField?_pruneBelow]
  simp only [kind_pruneBelow, compactText_pruneBelow]
  rcases ownField? receiver with _ | member
  · rfl
  · simp

/-- **A call has the same target** when pruned. -/
theorem target?_prune (scope : Scope) (call : Node) :
    scope.target? src (prune call) = scope.target? src call := by
  by_cases hk : call.kind = "method_invocation"
  · have hread : call.isUnread = false := isUnread_of_kind (by decide) hk
    rw [prune_eq_pruneBelow hread, target?, target?, kind_pruneBelow, child?_pruneBelow,
      child?_pruneBelow_of_read (by decide)]
    rcases call.child? "name" with _ | callee
    · rfl
    · rcases call.child? "object" with _ | receiver
      · simp
      · simp [receiverTarget?, hasChild_pruneBelow, receiverType?_pruneBelow]
  · simp [target?, hk]

/-- A statement leaves the same scope behind it. -/
theorem after_prune (scope : Scope) (n : Node) :
    scope.after src (prune n) = scope.after src n := by
  by_cases hk : n.kind = "local_variable_declaration"
  · have hread : n.isUnread = false := isUnread_of_kind (by decide) hk
    have hdecls : Bindings.ofDeclarations src ([n].map prune) = Bindings.ofDeclarations src [n] :=
      Bindings.ofDeclarations_map_prune (by simpa using hread)
    rw [List.map_singleton] at hdecls
    rw [after, after, kind_prune, hdecls]
  · simp [after, hk]

end Scope

/-! ## Statements and methods -/

namespace Statement

/-- The call that makes up a statement makes up the pruned statement, pruned. -/
theorem loneCall?_prune (n : Node) : loneCall? (prune n) = (loneCall? n).map prune := by
  by_cases hk : n.kind = "expression_statement"
  · have hread : n.isUnread = false := isUnread_of_kind (by decide) hk
    rw [prune_eq_pruneBelow hread, loneCall?, loneCall?, kind_pruneBelow,
      namedChildren_pruneBelow, filter_not_isComment_map_prune]
    generalize n.namedChildren.filter (fun c => !c.isComment) = es
    rcases es with _ | ⟨e, es⟩
    · simp [hk]
    · by_cases he : e.kind = "method_invocation" <;> simp [hk, he]
  · simp [loneCall?, hk]

/-- So the view of a statement is the same. -/
theorem ofNode_prune (scope : Scope) (n : Node) :
    ofNode src scope (prune n) = ofNode src scope n := by
  rw [ofNode, ofNode, loneCall?_prune]
  rcases loneCall? n with _ | call
  · simp
  · simp [Scope.target?_prune]

/-- And so are the views of statements in a row, by induction along the scopes they leave. -/
theorem listOfNodes_map_prune (scope : Scope) (ns : List Node) :
    listOfNodes src scope (ns.map prune) = listOfNodes src scope ns := by
  induction ns generalizing scope with
  | nil => rfl
  | cons n ns ih =>
    rw [List.map_cons, listOfNodes, listOfNodes, ofNode_prune, Scope.after_prune, ih]

/-- In particular those of a body. -/
theorem listOfBody_pruneBelow (scope : Scope) (body : Node) :
    listOfBody src scope (pruneBelow body) = listOfBody src scope body := by
  rw [listOfBody, listOfBody, namedChildren_pruneBelow, filter_not_isComment_map_prune,
    listOfNodes_map_prune]

end Statement

/-- A span is made of where the declaration and its body start and stop. -/
theorem Span.ofNode_pruneBelow (n : Node) (body : Option Node) :
    Span.ofNode src (pruneBelow n) (body.map pruneBelow) = Span.ofNode src n body := by
  rcases body with _ | body <;>
    simp [Span.ofNode, Span.snippetOf, startPosition, stopPosition]

namespace MethodDecl

/-- The parameters of a method are the same: each of them is read. -/
theorem parameters_pruneBelow (n : Node) : parameters src (pruneBelow n) = parameters src n := by
  rw [parameters, parameters, child?_pruneBelow_of_read (by decide)]
  rcases n.child? "parameters" with _ | ps
  · rfl
  · simp only [Option.map_some, namedChildren_pruneBelow]
    rw [filter_kind_map_prune (fun k => k == "formal_parameter")]
    refine Bindings.ofDeclarations_map_prune fun p hp => ?_
    have hkind : p.kind = "formal_parameter" := by simpa using (List.mem_filter.1 hp).2
    exact isUnread_of_kind (by decide) hkind

/-- **The view of a method reads nothing below unread nodes.** -/
theorem ofNode?_pruneBelow (typeScope : Scope) (n : Node) :
    ofNode? src typeScope (pruneBelow n) = ofNode? src typeScope n := by
  have hbody : (pruneBelow n).child? "body" = (n.child? "body").map pruneBelow :=
    child?_pruneBelow_of_read (by decide) n
  have hviews : ∀ scope : Scope,
      ((n.child? "body").map pruneBelow).map (Statement.listOfBody src scope) =
        (n.child? "body").map (Statement.listOfBody src scope) := by
    intro scope
    rw [Option.map_map]
    exact Option.map_congr fun body _ => Statement.listOfBody_pruneBelow scope body
  rw [ofNode?, ofNode?, child?_pruneBelow n "name", hbody, hviews, parameters_pruneBelow,
    Span.ofNode_pruneBelow, Option.map_map]
  refine Option.map_congr fun nameNode _ => ?_
  simp only [Function.comp_apply, text_prune]

end MethodDecl

/-! ## Types -/

namespace TypeDecl

/-- The members of a pruned type are its members, pruned: the part of an enumeration that holds
them is read. -/
theorem members_pruneBelow (n : Node) : members (pruneBelow n) = (members n).map prune := by
  rw [members, members, child?_pruneBelow_of_read (by decide)]
  rcases n.child? "body" with _ | body
  · rfl
  · simp only [Option.map_some, namedChildren_pruneBelow]
    rw [List.flatMap_map, List.map_flatMap]
    refine List.flatMap_congr fun c _ => ?_
    by_cases hk : c.kind = "enum_body_declarations"
    · have hread : c.isUnread = false := isUnread_of_kind (by decide) hk
      simp [hk, prune_eq_pruneBelow hread, namedChildren_pruneBelow]
    · simp [hk]

/-- The same for the methods among them. -/
theorem methodNodes_pruneBelow (n : Node) :
    methodNodes (pruneBelow n) = (methodNodes n).map prune := by
  rw [methodNodes, methodNodes, members_pruneBelow,
    filter_kind_map_prune (fun k => k == "method_declaration")]

/-- A method is read. -/
theorem isUnread_of_mem_methodNodes {n m : Node} (h : m ∈ methodNodes n) : m.isUnread = false := by
  have hkind : m.kind = "method_declaration" := by simpa using (List.mem_filter.1 h).2
  exact isUnread_of_kind (by decide) hkind

/-- The fields of a type bind the same names. -/
theorem fields_pruneBelow (n : Node) :
    Bindings.ofDeclarations src (fieldNodes (pruneBelow n)) =
      Bindings.ofDeclarations src (fieldNodes n) := by
  rw [fieldNodes, fieldNodes, members_pruneBelow,
    filter_kind_map_prune (fun k => k == "field_declaration" || k == "constant_declaration")]
  refine Bindings.ofDeclarations_map_prune fun d hd => ?_
  have hkind : d.kind = "field_declaration" ∨ d.kind = "constant_declaration" := by
    simpa using (List.mem_filter.1 hd).2
  rcases hkind with hk | hk
  · exact isUnread_of_kind (by decide) hk
  · exact isUnread_of_kind (by decide) hk

/-- The superclass is the same, and the node it is written in is read. -/
theorem superclass?_pruneBelow (n : Node) :
    superclass? src imports (pruneBelow n) = superclass? src imports n := by
  rw [superclass?, superclass?, child?_pruneBelow_of_read (by decide)]
  rcases n.child? "superclass" with _ | extended
  · rfl
  · simp only [Option.map_some, namedChildren_pruneBelow]
    rcases extended.namedChildren with _ | ⟨t, ts⟩
    · rfl
    · simp [declaredType?_prune]

/-- So a type has the same scope for its methods. -/
theorem scopeOf_pruneBelow (name : String) (n : Node) :
    scopeOf src imports name (pruneBelow n) = scopeOf src imports name n := by
  have hmethods : (methodNodes (pruneBelow n)).filterMap
        (fun m => (m.child? "name").map (Node.text src)) =
      (methodNodes n).filterMap (fun m => (m.child? "name").map (Node.text src)) := by
    rw [methodNodes_pruneBelow, List.filterMap_map]
    refine List.filterMap_congr fun m hm => ?_
    rw [Function.comp_apply, prune_eq_pruneBelow (isUnread_of_mem_methodNodes hm),
      map_text_child?_pruneBelow]
  rw [scopeOf, scopeOf, superclass?_pruneBelow, hmethods, fields_pruneBelow]

/-- **The view of a type reads nothing below unread nodes.** -/
theorem ofNode?_pruneBelow (outer : List String) (n : Node) :
    ofNode? src imports outer (pruneBelow n) = ofNode? src imports outer n := by
  have hmethods : ∀ scope : Scope,
      (methodNodes (pruneBelow n)).filterMap (MethodDecl.ofNode? src scope) =
        (methodNodes n).filterMap (MethodDecl.ofNode? src scope) := by
    intro scope
    rw [methodNodes_pruneBelow, List.filterMap_map]
    refine List.filterMap_congr fun m hm => ?_
    rw [Function.comp_apply, prune_eq_pruneBelow (isUnread_of_mem_methodNodes hm),
      MethodDecl.ofNode?_pruneBelow]
  have hbody : (pruneBelow n).child? "body" = (n.child? "body").map pruneBelow :=
    child?_pruneBelow_of_read (by decide) n
  rw [ofNode?, ofNode?, child?_pruneBelow n "name", hbody, Span.ofNode_pruneBelow,
    AnnotationUse.listOfDecl_pruneBelow, Option.map_map]
  refine Option.map_congr fun nameNode _ => ?_
  simp only [Function.comp_apply, text_prune, hmethods, scopeOf_pruneBelow]

end TypeDecl

end CallbackLint
