import CallbackLint.Proofs.Correspondence
import CallbackLint.Proofs.NestedCode
/-!
# Comments

A comment may stand between any two tokens, so a tree may have a comment among the children of
any of its nodes. Extraction passes over them all: a tree with one comment more corresponds to
the tree without it, node by node, where the children of one node are one more on one side. By
repetition the types of a file and the findings in it do not depend on its comments
(`listOfTree_eq_of_commentsAdded`).

There is one exception. The superclass of a type is read off the first named child of its node,
whatever that is, so a comment must not be put there (`isSuperclassAt`).
-/

namespace CallbackLint

open Relation (ReflGen ReflTransGen)

/-! ## Adding a comment -/

namespace Node

/-- A comment with no role and nothing below it. -/
def isBareComment (n : Node) : Bool :=
  n.isComment && n.named && n.field.isNone && n.children.isEmpty

/-- The tree with `c` as one more child of the node at an address, before its child `i`. -/
def insertChild (c : Node) (i : Nat) : List Nat → Node → Node
  | [], n => n.withChildren (n.children.take i ++ c :: n.children.drop i)
  | j :: js, n => n.withChildren (n.children.modify j (insertChild c i js))

/-- Whether the node at an address is what a type declaration has as its superclass. -/
def isSuperclassAt (root : Node) (place : List Nat) : Bool :=
  (root.at? place.dropLast).any fun type =>
    type.isTypeDecl && place.getLast?.any fun i => type.place? "superclass" == some i

/-- One comment is added, anywhere but in a superclass. -/
def CommentAdded (t u : Node) : Prop :=
  ∃ c i place, c.isBareComment = true ∧ t.isSuperclassAt place = false ∧
    u = insertChild c i place t

/-- The same tree, or the tree with one comment more. -/
def Commented : Node → Node → Prop :=
  ReflGen CommentAdded

variable {n m c : Node} {place : List Nat}

/-- A node with other children is of the same kind, and has the same range and field. -/
@[simp] theorem kind_withChildren (n : Node) (cs : List Node) :
    (n.withChildren cs).kind = n.kind := by cases n; rfl

@[simp] theorem start_withChildren (n : Node) (cs : List Node) :
    (n.withChildren cs).start = n.start := by cases n; rfl

@[simp] theorem stop_withChildren (n : Node) (cs : List Node) :
    (n.withChildren cs).stop = n.stop := by cases n; rfl

@[simp] theorem field_withChildren (n : Node) (cs : List Node) :
    (n.withChildren cs).field = n.field := by cases n; rfl

/-- Of the node itself nothing changes but the children. -/
theorem insertChild_eq_withChildren (c : Node) (i : Nat) (place : List Nat) (n : Node) :
    insertChild c i place n = n.withChildren (insertChild c i place n).children := by
  cases place <;> simp [insertChild]

/-- The place of a child in a role is told by the roles of the children. -/
theorem place?_congr (h : n.children.map field = m.children.map field) (f : String) :
    n.place? f = m.place? f := by
  have hroles : ∀ x : Node, x.place? f = (x.children.map field).findIdx? (· == some f) := by
    intro x
    rw [place?, List.findIdx?_map]
    rfl
  rw [hroles, hroles, h]

/-- One step below a type, the superclass is told by its position. -/
theorem isSuperclassAt_singleton (n : Node) (j : Nat) :
    n.isSuperclassAt [j] = (n.isTypeDecl && n.place? "superclass" == some j) := by
  simp [isSuperclassAt, at?]

/-- A way down that ends in no superclass does not end in one when it starts further down. -/
theorem isSuperclassAt_of_cons {j : Nat} {child : Node} (hj : n.children[j]? = some child)
    (hplace : n.isSuperclassAt (j :: place) = false) : child.isSuperclassAt place = false := by
  rcases place with _ | ⟨k, ks⟩
  · simp [isSuperclassAt]
  · simpa [isSuperclassAt, at?, hj] using hplace

/-- A bare comment is of the kind of a comment. -/
theorem kind_mem_of_isBareComment (hc : c.isBareComment = true) : c.kind ∈ commentKinds := by
  simp only [isBareComment, Bool.and_eq_true] at hc
  simpa [isComment] using hc.1.1.1

/-- It is in no field. -/
theorem field_of_isBareComment (hc : c.isBareComment = true) : c.field = none := by
  simp only [isBareComment, Bool.and_eq_true] at hc
  simpa using hc.1.2

/-- It declares no type. -/
theorem typeCount_of_isBareComment (hc : c.isBareComment = true) : c.typeCount = 0 := by
  have hkind := kind_mem_of_isBareComment hc
  have htype : c.isTypeDecl = false := by
    rw [commentKinds, List.mem_cons, List.mem_singleton] at hkind
    rcases hkind with hk | hk <;> simp [isTypeDecl, typeKinds, hk]
  have hchildren : c.children = [] := by
    simp only [isBareComment, Bool.and_eq_true] at hc
    simpa using hc.2
  rw [typeCount_eq, htype, hchildren]
  rfl

/-- Types are counted tree by tree. -/
theorem typeCountAll_append (ns ms : List Node) :
    typeCountAll (ns ++ ms) = typeCountAll ns + typeCountAll ms := by
  induction ns with
  | nil => rw [List.nil_append, typeCountAll, Nat.zero_add]
  | cons n ns ih => rw [List.cons_append, typeCountAll, typeCountAll, ih, Nat.add_assoc]

/-- A node declares as many types with other children, if these declare as many. -/
theorem typeCount_withChildren {cs : List Node} (h : typeCountAll cs = typeCountAll n.children) :
    (n.withChildren cs).typeCount = n.typeCount := by
  rw [typeCount_eq, typeCount_eq n, isTypeDecl, isTypeDecl, kind_withChildren,
    children_withChildren, h]

/-- A node without a type adds none. -/
theorem typeCount_insertChild (hc : c.typeCount = 0) (i : Nat) (place : List Nat) (n : Node) :
    (insertChild c i place n).typeCount = n.typeCount := by
  induction place generalizing n with
  | nil =>
    refine typeCount_withChildren ?_
    rw [typeCountAll_append, typeCountAll, hc, Nat.zero_add, ← typeCountAll_append,
      List.take_append_drop]
  | cons j js ih =>
    refine typeCount_withChildren (typeCountAll_eq_of_forall₂ ?_).symm
    exact forall₂_modify (fun _ => rfl) fun child _ => (ih child).symm

/-! ## What a comment leaves as it is -/

namespace Commented

/-- Only the children of a node may differ. -/
theorem eq_withChildren (h : Commented n m) : m = n.withChildren m.children := by
  cases h with
  | refl => exact (withChildren_children n).symm
  | single h =>
    obtain ⟨c, i, place, -, -, rfl⟩ := h
    exact insertChild_eq_withChildren c i place n

/-- A comment more does not move the start of a node. -/
theorem start_eq (h : Commented n m) : n.start = m.start := by
  rw [h.eq_withChildren, start_withChildren]

/-- Nor its end. -/
theorem stop_eq (h : Commented n m) : n.stop = m.stop := by
  rw [h.eq_withChildren, stop_withChildren]

/-- So the node has the same text. -/
theorem text_eq (h : Commented n m) (src : Bytes) : n.text src = m.text src := by
  rw [text, text, h.start_eq, h.stop_eq]

/-- **A comment more leaves the head of a node as it is**: its kind, its field, whether it is
named, and the number of types it declares. -/
theorem sameHeads : SameHeads Commented where
  kind_eq h := by rw [eq_withChildren h, kind_withChildren]
  named_eq h := by rw [eq_withChildren h, named_withChildren]
  field_eq h := by rw [eq_withChildren h, field_withChildren]
  typeCount_eq h := by
    cases h with
    | refl => rfl
    | single h =>
      obtain ⟨c, i, place, hc, -, rfl⟩ := h
      exact (typeCount_insertChild (typeCount_of_isBareComment hc) i place _).symm

/-! ## Children -/

/-- Where the comment is further down, the children correspond one to one. -/
theorem children_insertChild {j : Nat} {js : List Nat} (hc : c.isBareComment = true)
    (hplace : n.isSuperclassAt (j :: js) = false) (i : Nat) :
    List.Forall₂ Commented n.children (insertChild c i (j :: js) n).children := by
  rw [insertChild, children_withChildren]
  exact forall₂_modify (fun _ => .refl) fun child hj =>
    .single ⟨c, i, js, hc, isSuperclassAt_of_cons hj hplace, rfl⟩

/-- A list with an item that is filtered out is filtered to the same. -/
theorem filter_insert {α : Type} {p : α → Bool} {x : α} (hx : p x = false) (i : Nat)
    (xs : List α) : (xs.take i ++ x :: xs.drop i).filter p = xs.filter p := by
  rw [List.filter_append, List.filter_cons_of_neg (by simp [hx]), ← List.filter_append,
    List.take_append_drop]

/-- Adding no comment is a way to add comments. -/
theorem forall₂_self (ns : List Node) : List.Forall₂ Commented ns ns :=
  List.forall₂_same.2 fun _ _ => .refl

/-- **Children that are picked by what no comment has** correspond one to one. -/
theorem filter_children (h : Commented n m) {p : Node → Bool}
    (hcomment : ∀ c, c.isBareComment = true → p c = false)
    (hp : ∀ {a b}, Commented a b → p a = p b) :
    List.Forall₂ Commented (n.children.filter p) (m.children.filter p) := by
  cases h with
  | refl => exact forall₂_self _
  | single h =>
    obtain ⟨c, i, place, hc, hplace, rfl⟩ := h
    -- The comment is a child itself, and is not picked, or it is somewhere below a child.
    cases place with
    | nil =>
      rw [insertChild, children_withChildren, filter_insert (hcomment c hc)]
      exact forall₂_self _
    | cons j js =>
      exact List.rel_filter (fun a b hab => Bool.coe_iff_coe.2 (hp hab))
        (children_insertChild hc hplace i)

/-- So the children in a field correspond, since a bare comment is in none. -/
theorem childrenIn (h : Commented n m) (f : String) :
    List.Forall₂ Commented (n.childrenIn f) (m.childrenIn f) :=
  h.filter_children (fun c hc => by simp [field_of_isBareComment hc])
    fun hab => by rw [sameHeads.field_eq hab]

/-- And with them the first child in a field. -/
theorem child (h : Commented n m) (f : String) :
    Option.Rel Commented (n.child? f) (m.child? f) := by
  rw [child?, child?, ← List.head?_filter, ← List.head?_filter]
  exact rel_head? (h.childrenIn f)

/-- So do the named children other than comments. -/
theorem parts (h : Commented n m) : List.Forall₂ Commented n.parts m.parts := by
  rw [Node.parts, Node.parts, namedChildren, namedChildren, List.filter_filter,
    List.filter_filter]
  refine h.filter_children (fun c hc => ?_) fun hab => ?_
  · simp [isComment, kind_mem_of_isBareComment hc]
  · rw [isComment, isComment, sameHeads.kind_eq hab, sameHeads.named_eq hab]

/-- And the named children that declare types. -/
theorem holders (h : Commented n m) : List.Forall₂ Commented n.holders m.holders := by
  rw [Node.holders, Node.holders, namedChildren, namedChildren, List.filter_filter,
    List.filter_filter]
  refine h.filter_children (fun c hc => ?_) fun hab => ?_
  · simp [typeCount_of_isBareComment hc]
  · rw [sameHeads.typeCount_eq hab, sameHeads.named_eq hab]

/-- There is a child of a kind as before, unless it is the kind of a comment. -/
theorem hasChild_eq (h : Commented n m) {k : String} (hk : k ∉ commentKinds) :
    n.hasChild k = m.hasChild k := by
  have hpicked : List.Forall₂ Commented (n.children.filter (fun c => c.kind == k))
      (m.children.filter (fun c => c.kind == k)) := by
    refine h.filter_children (fun c hc => ?_) fun hab => by rw [sameHeads.kind_eq hab]
    have hne : c.kind ≠ k := fun he => hk (he ▸ kind_mem_of_isBareComment hc)
    simp [hne]
  have hany := any_eq_of_forall₂ hpicked (f := fun c => c.kind == k) (g := fun c => c.kind == k)
    fun a b hab => by rw [sameHeads.kind_eq hab]
  simpa [hasChild] using hany

/-! ## The superclass -/

/-- Where the comment is further down, it is no child of the superclass. -/
theorem superclass_insertChild {j : Nat} {js : List Nat} (hc : c.isBareComment = true)
    (hplace : n.isSuperclassAt (j :: js) = false) (htype : n.isTypeDecl = true) (i : Nat) :
    Option.Rel (fun s s' => List.Forall₂ Commented s.children s'.children)
      (n.child? "superclass") ((insertChild c i (j :: js) n).child? "superclass") := by
  have hfields : n.children.map field = (insertChild c i (j :: js) n).children.map field :=
    map_eq_of_forall₂ (children_insertChild hc hplace i) fun a b hab => sameHeads.field_eq hab
  rw [child?_eq_getElem?, child?_eq_getElem?, ← place?_congr hfields, insertChild,
    children_withChildren]
  rcases hk : n.place? "superclass" with _ | k
  · exact .none
  · rw [Option.bind_some, Option.bind_some, List.getElem?_modify]
    rcases hs : n.children[k]? with _ | s
    · exact .none
    · refine .some ?_
      -- The one child that changes is the superclass or another.
      by_cases hjk : j = k
      · subst hjk
        cases js with
        | nil =>
          rw [isSuperclassAt_singleton, htype, hk] at hplace
          exact absurd hplace (by simp)
        | cons l ls =>
          simpa using children_insertChild hc (isSuperclassAt_of_cons hs hplace) i
      · simpa [hjk] using forall₂_self s.children

/-- **The children of the superclass correspond one to one**: it is the one node that has no
comment added to it. -/
theorem superclass (h : Commented n m) (htype : n.isTypeDecl = true) :
    Option.Rel (fun s s' => List.Forall₂ Commented s.children s'.children)
      (n.child? "superclass") (m.child? "superclass") := by
  have hself : ∀ x : Option Node,
      Option.Rel (fun s s' => List.Forall₂ Commented s.children s'.children) x x := by
    rintro (_ | s)
    · exact .none
    · exact .some (forall₂_self s.children)
  cases h with
  | refl => exact hself _
  | single h =>
    obtain ⟨c, i, place, hc, hplace, rfl⟩ := h
    cases place with
    | nil =>
      have hsame : (insertChild c i [] n).child? "superclass" = n.child? "superclass" := by
        rw [child?, child?, ← List.head?_filter, ← List.head?_filter, insertChild,
          children_withChildren, filter_insert (by simp [field_of_isBareComment hc])]
      rw [hsame]
      exact hself _
    | cons j js => exact superclass_insertChild hc hplace htype i

/-! ## Texts and spans -/

/-- The child in a field has the same text. -/
theorem childText?_eq (h : Commented n m) (src : Bytes) (f : String) :
    n.childText? src f = m.childText? src f :=
  map_eq_of_rel (h.child f) fun _ _ hab => hab.text_eq src

/-- A declaration has the same span. -/
theorem span_eq (h : Commented n m) (src : Bytes) :
    Span.ofNode src n (n.child? "body") = Span.ofNode src m (m.child? "body") := by
  have hsnippet : Span.snippetOf src n (n.child? "body") =
      Span.snippetOf src m (m.child? "body") := by
    obtain ⟨hn, hm⟩ | ⟨b, b', hn, hm, hb⟩ := rel_cases (h.child "body")
    · rw [hn, hm, Span.snippetOf, Span.snippetOf, h.text_eq]
    · rw [hn, hm, Span.snippetOf, Span.snippetOf, h.start_eq, hb.start_eq]
  rw [Span.ofNode, Span.ofNode, hsnippet, startPosition, startPosition, stopPosition,
    stopPosition, h.start_eq, h.stop_eq]

/-- **A comment more is a correspondence**, in which nothing differs. -/
theorem correspondence (src : Bytes) : Correspondence .strict src src Commented where
  kind_eq := sameHeads.kind_eq
  compact_eq h := by rw [compactText, compactText, text_eq h]
  name_eq h _ := h.childText?_eq src "name"
  member_eq h _ := h.childText?_eq src "field"
  text h := congrArg Text.squeeze (h.text_eq src)
  span h := h.span_eq src
  child := child
  childrenIn := childrenIn
  parts := parts
  hasChild_eq h _ := hasChild_eq h
  superType h htype := sameHeads.superType (h.superclass htype)
  holders := holders

end Commented

end Node

/-! ## Nothing differs -/

/-- Lists whose items are equal one by one are equal. -/
theorem eq_of_forall₂ {α : Type} {R : α → α → Prop} (hR : ∀ a b, R a b → a = b) {xs ys : List α}
    (h : List.Forall₂ R xs ys) : xs = ys := by
  rw [← List.forall₂_eq_eq_eq]
  exact h.imp hR

/-- Views of statements that are alike with nothing to differ in are the same. -/
theorem Statement.Alike.eq {s s' : Statement} (h : Statement.Alike .strict s s') : s = s' := by
  cases h with
  | call target htext => rw [show _ = _ from htext]
  | other kind htext => rw [show _ = _ from htext]

/-- So are views of methods. -/
theorem MethodDecl.Alike.eq {m m' : MethodDecl} (h : MethodDecl.Alike .strict m m') : m = m' := by
  have hbody : m.body = m'.body := by
    obtain ⟨hm, hm'⟩ | ⟨ss, ss', hm, hm', hss⟩ := rel_cases h.body
    · rw [hm, hm']
    · rw [hm, hm', eq_of_forall₂ (fun _ _ hs => hs.eq) hss]
  obtain ⟨name, body, span⟩ := m
  obtain ⟨name', body', span'⟩ := m'
  rw [MethodDecl.mk.injEq]
  exact ⟨h.name_eq, hbody, h.span⟩

/-- And views of types. -/
theorem TypeDecl.Alike.eq {d d' : TypeDecl} (h : TypeDecl.Alike .strict d d') : d = d' := by
  obtain ⟨name, qualifiedName, annotations, methods, span⟩ := d
  obtain ⟨name', qualifiedName', annotations', methods', span'⟩ := d'
  rw [TypeDecl.mk.injEq]
  exact ⟨h.name_eq, h.qualifiedName_eq, h.annotations_eq,
    eq_of_forall₂ (fun _ _ hm => hm.eq) h.methods, h.span⟩

namespace TypeDecl

open Node

variable {t u : Node}

/-- One comment changes nothing. -/
theorem listOfTree_eq_of_commented (src : Bytes) (h : Commented t u) :
    listOfTree src t = listOfTree src u :=
  eq_of_forall₂ (fun _ _ hd => hd.eq) ((Commented.correspondence src).alike_listOfTree h)

/-- **Comments are invisible**, however many of them are added. -/
theorem listOfTree_eq_of_commentsAdded (h : ReflTransGen CommentAdded t u) (src : Bytes) :
    listOfTree src u = listOfTree src t ∧
    ∀ (c : Contract) (path : Path) (p q : Bool),
      (Rule.forwarding c).run ⟨path, src, u, q⟩ = (Rule.forwarding c).run ⟨path, src, t, p⟩ := by
  -- By induction on the comments that are added, one after the other.
  have htypes : listOfTree src u = listOfTree src t := by
    induction h with
    | refl => rfl
    | tail _ hlast ih => rw [← listOfTree_eq_of_commented src (.single hlast), ih]
  refine ⟨htypes, fun c path p q => ?_⟩
  rw [Forwarding.run_eq_ok_reported, Forwarding.run_eq_ok_reported, Forwarding.violationsIn,
    Forwarding.violationsIn, SourceFile.types, SourceFile.types, htypes]

/-- In a superclass, a comment would be taken for the type. -/
example :
    let extended := Node.mk "superclass" 8 17 true (some "superclass")
      [.mk "type_identifier" 16 17 true none []]
    let type := Node.mk "class_declaration" 0 19 true none [extended]
    let src := Utf8.encode "class A extends B{}"
    superclass? src {} type = some "B" ∧
      superclass? src {} (insertChild (.mk "block_comment" 8 8 true none []) 0 [0] type) =
        none := by
  decide +kernel

end TypeDecl

namespace CommentedCall

/-- A class that forwards, with comments around the call. -/
def src : Bytes :=
  Utf8.encode "class A{void on(){/*a*/AOut/*b*/.on();}}"

/-- The call `AOut/*b*/.on()`. -/
def call : Node :=
  .mk "method_invocation" 23 37 true none
    [.mk "identifier" 23 27 true (some "object") [], .mk "identifier" 33 35 true (some "name") []]

/-- The tree without the comments. -/
def tree : Node :=
  .mk "program" 0 40 true none
    [.mk "class_declaration" 0 40 true none
      [.mk "identifier" 6 7 true (some "name") [],
        .mk "class_body" 7 40 true (some "body")
          [.mk "method_declaration" 8 39 true none
            [.mk "identifier" 13 15 true (some "name") [],
              .mk "block" 17 39 true (some "body")
                [.mk "expression_statement" 23 38 true none [call]]]]]]

def first : Node := .mk "block_comment" 18 23 true none []

def second : Node := .mk "block_comment" 27 32 true none []

/-- Where the statement stands, and the call behind its comment. -/
def statementPlace : List Nat := [0, 1, 0, 1, 0]

def callPlace : List Nat := [0, 1, 0, 1, 0, 1]

/-- The tree with one comment before the call and one inside it. -/
def commented : Node :=
  Node.insertChild second 1 callPlace (Node.insertChild first 0 statementPlace tree)

/-- The comments are added one after the other. -/
theorem commentsAdded : ReflTransGen Node.CommentAdded tree commented :=
  .tail (.single ⟨first, 0, statementPlace, by decide +kernel, by decide +kernel, rfl⟩)
    ⟨second, 1, callPlace, by decide +kernel, by decide +kernel, rfl⟩

end CommentedCall

open CommentedCall TypeDecl in
/-- The call is still the one statement of its method, and still forwards. -/
theorem commentedCall_forwards :
    ReflTransGen Node.CommentAdded tree commented ∧ commented.size = tree.size + 2 ∧
      ((listOfTree src tree).map fun d =>
        d.methods.map fun m => (Contract.mk ["M"] "on" "Out").forwards d m) = [[true]] ∧
      listOfTree src commented = listOfTree src tree :=
  ⟨commentsAdded, by decide +kernel, by decide +kernel,
    (listOfTree_eq_of_commentsAdded commentsAdded src).1⟩

end CallbackLint
