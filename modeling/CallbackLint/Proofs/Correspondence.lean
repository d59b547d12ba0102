import CallbackLint.Proofs.Census
import CallbackLint.Proofs.Pruning
import CallbackLint.Proofs.Verdict
/-!
# Trees that read alike

Extraction asks few questions of a node: what it is, what it spells, which child it has in some
role, what its named children are. A relation between the nodes of two trees is a
`Correspondence` if related nodes answer every such question alike, with related nodes where the
answer is a node. It need not be said how the two trees come about: comments may be moved about,
or the source may be laid out anew.

From the roots down, everything that is read off two corresponding trees is then the same: the
tables of imports, the variables, the targets of calls, and in the end the types, in the same
order (`alike_listOfTree`). What may still differ is the text of statements and the place of
declarations; how far, is a parameter of it all (`Tolerance`).
-/

namespace CallbackLint

/-! ## Views that are alike -/

/-- How far two views may differ: which texts of statements count as the same, and which
spans. -/
structure Tolerance where
  text : String → String → Prop
  span : Span → Span → Prop

namespace Tolerance

/-- Nothing may differ. -/
def strict : Tolerance := ⟨Eq, Eq⟩

/-- Texts may differ in their blanks, and spans are not compared. -/
def spacing : Tolerance := ⟨fun a b => Text.compact a = Text.compact b, fun _ _ => True⟩

end Tolerance

variable {T : Tolerance}

/-- Two statements of one kind, with the same target if they are calls. -/
inductive Statement.Alike (T : Tolerance) : Statement → Statement → Prop
  | call {a b : String} (target : Option Target) :
      T.text a b → Statement.Alike T (.call a target) (.call b target)
  | other (kind : String) {a b : String} :
      T.text a b → Statement.Alike T (.other kind a) (.other kind b)

/-- Two methods of one name with corresponding statements. -/
structure MethodDecl.Alike (T : Tolerance) (m m' : MethodDecl) : Prop where
  name_eq : m.name = m'.name
  body : Option.Rel (List.Forall₂ (Statement.Alike T)) m.body m'.body
  span : T.span m.span m'.span

/-- Two types with the same names and annotations, and with corresponding methods. -/
structure TypeDecl.Alike (T : Tolerance) (d d' : TypeDecl) : Prop where
  name_eq : d.name = d'.name
  qualifiedName_eq : d.qualifiedName = d'.qualifiedName
  annotations_eq : d.annotations = d'.annotations
  methods : List.Forall₂ (MethodDecl.Alike T) d.methods d'.methods
  span : T.span d.span d'.span

/-! ## Questions asked of a node -/

namespace Node

/-- The named children that are no comments. -/
def parts (n : Node) : List Node :=
  n.namedChildren.filter (fun c => !c.isComment)

/-- The named children that hold a type declaration or are one. -/
def holders (n : Node) : List Node :=
  n.namedChildren.filter (fun c => c.typeCount != 0)

/-- The node that a superclass is read from. -/
def superType? (n : Node) : Option Node :=
  (n.child? "superclass").bind (fun s => s.namedChildren.head?)

/-- Whether the name of the node is taken as it is spelled, blanks included. -/
def hasExactName (n : Node) : Bool :=
  n.isTypeDecl ||
    ["method_declaration", "method_invocation", "formal_parameter"].contains n.kind ||
    n.field == some "declarator"

/-- The text of the child in a role. -/
def childText? (src : Bytes) (n : Node) (f : String) : Option String :=
  (n.child? f).map (text src)

end Node

/-- A relation between the nodes of two trees under which everything that extraction asks of a
node has the same answer, or related ones where the answer is a node. -/
structure Correspondence (T : Tolerance) (src src' : Bytes) (R : Node → Node → Prop) : Prop where
  kind_eq {n m : Node} : R n m → n.kind = m.kind
  compact_eq {n m : Node} : R n m → n.compactText src = m.compactText src'
  name_eq {n m : Node} : R n m → n.hasExactName = true →
    n.childText? src "name" = m.childText? src' "name"
  member_eq {n m : Node} : R n m → n.kind = "field_access" →
    n.childText? src "field" = m.childText? src' "field"
  text {n m : Node} : R n m → T.text (n.squeezedText src) (m.squeezedText src')
  span {n m : Node} : R n m →
    T.span (Span.ofNode src n (n.child? "body")) (Span.ofNode src' m (m.child? "body"))
  child {n m : Node} : R n m → ∀ f, Option.Rel R (n.child? f) (m.child? f)
  childrenIn {n m : Node} : R n m → ∀ f, List.Forall₂ R (n.childrenIn f) (m.childrenIn f)
  parts {n m : Node} : R n m → List.Forall₂ R n.parts m.parts
  hasChild_eq {n m : Node} : R n m → ∀ {k}, k ∉ Node.commentKinds → n.hasChild k = m.hasChild k
  superType {n m : Node} : R n m → n.isTypeDecl = true → Option.Rel R n.superType? m.superType?
  holders {n m : Node} : R n m → List.Forall₂ R n.holders m.holders

/-! ## Related answers -/

section Related

variable {α β γ : Type} {R : α → β → Prop}

/-- Related answers are both missing, or both there and related. -/
theorem rel_cases {x : Option α} {y : Option β} (h : Option.Rel R x y) :
    (x = none ∧ y = none) ∨ ∃ a b, x = some a ∧ y = some b ∧ R a b := by
  cases h with
  | none => exact .inl ⟨rfl, rfl⟩
  | some hab => exact .inr ⟨_, _, rfl, rfl, hab⟩

/-- What is made of related answers is the same, if it is the same of related nodes. -/
theorem map_eq_of_rel {x : Option α} {y : Option β} {f : α → γ} {g : β → γ}
    (h : Option.Rel R x y) (hfg : ∀ a b, R a b → f a = g b) : x.map f = y.map g := by
  cases h with
  | none => rfl
  | some hab => exact congrArg some (hfg _ _ hab)

/-- So is what is asked of them further. -/
theorem bind_eq_of_rel {x : Option α} {y : Option β} {f : α → Option γ} {g : β → Option γ}
    (h : Option.Rel R x y) (hfg : ∀ a b, R a b → f a = g b) : x.bind f = y.bind g := by
  cases h with
  | none => rfl
  | some hab => exact hfg _ _ hab

/-- Related answers are still related after a step that keeps nodes related. -/
theorem rel_map {δ : Type} {S : γ → δ → Prop} {x : Option α} {y : Option β} {f : α → γ} {g : β → δ}
    (h : Option.Rel R x y) (hfg : ∀ a b, R a b → S (f a) (g b)) :
    Option.Rel S (x.map f) (y.map g) := by
  cases h with
  | none => exact .none
  | some hab => exact .some (hfg _ _ hab)

/-- The same for lists of related nodes: what is made of each of them. -/
theorem map_eq_of_forall₂ {xs : List α} {ys : List β} {f : α → γ} {g : β → γ}
    (h : List.Forall₂ R xs ys) (hfg : ∀ a b, R a b → f a = g b) : xs.map f = ys.map g := by
  rw [← List.forall₂_eq_eq_eq, List.forall₂_map_left_iff, List.forall₂_map_right_iff]
  exact h.imp hfg

/-- What is made of those of which something is. -/
theorem filterMap_eq_of_forall₂ {xs : List α} {ys : List β} {f : α → Option γ} {g : β → Option γ}
    (h : List.Forall₂ R xs ys) (hfg : ∀ a b, R a b → f a = g b) :
    xs.filterMap f = ys.filterMap g := by
  induction h with
  | nil => rfl
  | cons hab _ ih => rw [List.filterMap_cons, List.filterMap_cons, hfg _ _ hab, ih]

/-- What is made of all of them together. -/
theorem flatMap_eq_of_forall₂ {xs : List α} {ys : List β} {f : α → List γ} {g : β → List γ}
    (h : List.Forall₂ R xs ys) (hfg : ∀ a b, R a b → f a = g b) : xs.flatMap f = ys.flatMap g := by
  rw [List.flatMap_def, List.flatMap_def, map_eq_of_forall₂ h hfg]

/-- And whether one of them has a property. -/
theorem any_eq_of_forall₂ {xs : List α} {ys : List β} {f : α → Bool} {g : β → Bool}
    (h : List.Forall₂ R xs ys) (hfg : ∀ a b, R a b → f a = g b) : xs.any f = ys.any g := by
  induction h with
  | nil => rfl
  | cons hab _ ih => rw [List.any_cons, List.any_cons, hfg _ _ hab, ih]

/-- Related lists have related heads, or none. -/
theorem rel_head? {xs : List α} {ys : List β} (h : List.Forall₂ R xs ys) :
    Option.Rel R xs.head? ys.head? := by
  cases h with
  | nil => exact .none
  | cons hab _ => exact .some hab

/-- Lists are related where they are related position by position. -/
theorem forall₂_of_getElem? {xs : List α} {ys : List β}
    (h : ∀ i : Nat, Option.Rel R xs[i]? ys[i]?) : List.Forall₂ R xs ys := by
  induction xs generalizing ys with
  | nil =>
    cases ys with
    | nil => exact .nil
    | cons y ys => exact nomatch h 0
  | cons x xs ih =>
    cases ys with
    | nil => exact nomatch h 0
    | cons y ys =>
      cases h 0 with
      | some hxy => exact .cons hxy (ih fun i => h (i + 1))

/-- A list is related to itself with one item changed, if that item is related to what it becomes.
-/
theorem forall₂_modify {R : α → α → Prop} {xs : List α} {i : Nat} {f : α → α} (hrefl : ∀ x, R x x)
    (hi : ∀ x, xs[i]? = some x → R x (f x)) : List.Forall₂ R xs (xs.modify i f) := by
  refine forall₂_of_getElem? fun j => ?_
  rw [List.getElem?_modify]
  rcases hj : xs[j]? with _ | x
  · exact .none
  · by_cases hij : i = j
    · subst hij
      simpa using hi x hj
    · simpa [hij] using hrefl x

end Related

namespace Node

/-- Picking children by kind does not see comments. -/
theorem filter_namedChildren {p : String → Bool} (hp : ∀ k ∈ commentKinds, p k = false) (n : Node) :
    n.namedChildren.filter (fun c => p c.kind) = n.parts.filter (fun c => p c.kind) := by
  rw [parts, List.filter_filter]
  refine List.filter_congr fun c _ => ?_
  by_cases hc : c.isComment = true
  · have hpc : p c.kind = false := hp _ (by simpa [isComment] using hc)
    simp [hpc]
  · simp [hc]

end Node

namespace Correspondence

variable {src src' : Bytes} {R : Node → Node → Prop} {n m : Node} {ns ms : List Node}

/-- Related nodes are of one kind, so those of some kinds are related. -/
theorem filter_kind (h : Correspondence T src src' R) (p : String → Bool)
    (hs : List.Forall₂ R ns ms) :
    List.Forall₂ R (ns.filter (fun c => p c.kind)) (ms.filter (fun c => p c.kind)) :=
  List.rel_filter (fun a b hab => by simp only [h.kind_eq hab]) hs

/-- Named children of some kinds correspond, as long as comments are not asked for. -/
theorem filter_namedChildren (h : Correspondence T src src' R) (hnm : R n m) {p : String → Bool}
    (hp : ∀ k ∈ Node.commentKinds, p k = false) :
    List.Forall₂ R (n.namedChildren.filter (fun c => p c.kind))
      (m.namedChildren.filter (fun c => p c.kind)) := by
  rw [Node.filter_namedChildren hp, Node.filter_namedChildren hp]
  exact h.filter_kind p (h.parts hnm)

/-- So does the first of them. -/
theorem firstOf? (h : Correspondence T src src' R) (hnm : R n m) {kinds : List String}
    (hk : ∀ k ∈ Node.commentKinds, kinds.contains k = false) :
    Option.Rel R (n.firstOf? kinds) (m.firstOf? kinds) := by
  rw [Node.firstOf?, Node.firstOf?, ← List.head?_filter, ← List.head?_filter]
  exact rel_head? (h.filter_namedChildren hnm (p := fun k => kinds.contains k) hk)

/-! ## Types, variables and imports -/

/-- A plain type is spelled the same, blanks apart. -/
theorem typeName?_eq (h : Correspondence T src src' R) (hnm : R n m) :
    n.typeName? src = m.typeName? src' := by
  rw [Node.typeName?, Node.typeName?, h.kind_eq hnm, h.compact_eq hnm]

/-- So is a declared type, with or without arguments. -/
theorem declaredType?_eq (h : Correspondence T src src' R) (hnm : R n m) :
    n.declaredType? src = m.declaredType? src' := by
  rw [Node.declaredType?, Node.declaredType?, h.kind_eq hnm, h.typeName?_eq hnm]
  split
  · exact bind_eq_of_rel (h.firstOf? hnm (by decide)) fun a b hab => h.typeName?_eq hab
  · rfl

/-- Declarations give the same type to their variables. -/
theorem variablesType?_eq (h : Correspondence T src src' R) (hnm : R n m) :
    n.variablesType? src = m.variablesType? src' :=
  bind_eq_of_rel (h.child hnm "type") fun _ _ hab => h.declaredType?_eq hab

/-- And they declare variables of the same names. -/
theorem variableNames_eq (h : Correspondence T src src' R) (hnm : R n m) :
    n.variableNames src = m.variableNames src' := by
  rw [Node.variableNames, Node.variableNames, h.kind_eq hnm]
  split
  · rename_i hk
    have hexact : n.hasExactName = true := by
      have hkind : n.kind = "formal_parameter" := by simpa [h.kind_eq hnm] using hk
      simp [Node.hasExactName, hkind]
    exact congrArg Option.toList (h.name_eq hnm hexact)
  · -- A declarator is known by its role, and the name of each is taken as it is spelled.
    have hdeclarators : List.Forall₂ (fun d d' => d.field = some "declarator" ∧ R d d')
        (n.childrenIn "declarator") (m.childrenIn "declarator") :=
      (List.forall₂_and_left _ _).2
        ⟨fun d hd => Node.field_of_mem_childrenIn hd, h.childrenIn hnm "declarator"⟩
    exact filterMap_eq_of_forall₂ hdeclarators fun d d' hd =>
      h.name_eq hd.2 (by simp [Node.hasExactName, hd.1])

/-- So they introduce the same variables. -/
theorem introduced_eq (h : Correspondence T src src' R) (hnm : R n m) :
    n.introduced src = m.introduced src' := by
  rw [Node.introduced, Node.introduced, h.variablesType?_eq hnm, h.variableNames_eq hnm]

/-- **Corresponding declarations bind the same names to the same types.** -/
theorem ofDeclarations_eq (h : Correspondence T src src' R) (hs : List.Forall₂ R ns ms) :
    Bindings.ofDeclarations src ns = Bindings.ofDeclarations src' ms := by
  rw [Bindings.ofDeclarations, Bindings.ofDeclarations,
    flatMap_eq_of_forall₂ hs fun _ _ hab => h.introduced_eq hab]

/-- Declarations at the head of a file spell the same name. -/
theorem declaredName?_eq (h : Correspondence T src src' R) (hnm : R n m) :
    Imports.declaredName? src n = Imports.declaredName? src' m :=
  map_eq_of_rel (h.firstOf? hnm (by decide)) fun _ _ hab => h.compact_eq hab

/-- So one of them adds the same to the import table. -/
theorem add_eq (h : Correspondence T src src' R) (hnm : R n m) (t : Imports) :
    Imports.add src t n = Imports.add src' t m := by
  rw [Imports.add, Imports.add, h.kind_eq hnm, h.declaredName?_eq hnm,
    h.hasChild_eq hnm (by decide), h.hasChild_eq hnm (by decide)]

end Correspondence

/-- A comment binds nothing. -/
theorem Imports.ofTree_eq_parts (src : Bytes) (root : Node) :
    Imports.ofTree src root = root.parts.foldl (Imports.add src) {} := by
  rw [Imports.ofTree, Node.parts, List.foldl_filter]
  congr 1
  funext t c
  by_cases hc : c.isComment = true
  · have hkind : c.kind = "line_comment" ∨ c.kind = "block_comment" := by
      simpa [Node.isComment, Node.commentKinds] using hc
    rcases hkind with hk | hk <;> simp [Imports.add, hc, hk]
  · simp [hc]

namespace Correspondence

variable {src src' : Bytes} {R : Node → Node → Prop} {n m : Node} {ns ms : List Node}

/-- And so do several, one after the other. -/
theorem foldl_add_eq (h : Correspondence T src src' R) (hs : List.Forall₂ R ns ms) (t : Imports) :
    ns.foldl (Imports.add src) t = ms.foldl (Imports.add src') t := by
  induction hs generalizing t with
  | nil => rw [List.foldl_nil, List.foldl_nil]
  | cons hab _ ih => rw [List.foldl_cons, List.foldl_cons, h.add_eq hab, ih]

/-- **The import tables are the same.** -/
theorem ofTree_eq (h : Correspondence T src src' R) (hnm : R n m) :
    Imports.ofTree src n = Imports.ofTree src' m := by
  rw [Imports.ofTree_eq_parts, Imports.ofTree_eq_parts, h.foldl_add_eq (h.parts hnm)]

/-- Annotations spell the same name. -/
theorem annotationUse_eq (h : Correspondence T src src' R) (hnm : R n m) (imports : Imports) :
    AnnotationUse.ofNode src imports n = AnnotationUse.ofNode src' imports m := by
  rw [AnnotationUse.ofNode, AnnotationUse.ofNode]
  obtain ⟨hn, hm⟩ | ⟨a, b, hn, hm, hab⟩ := rel_cases (h.child hnm "name")
  · rw [hn, hm]
  · rw [hn, hm]
    simp only [h.compact_eq hab]

/-- So declarations have the same annotations. -/
theorem annotations_eq (h : Correspondence T src src' R) (hnm : R n m) (imports : Imports) :
    AnnotationUse.listOfDecl src imports n = AnnotationUse.listOfDecl src' imports m := by
  have hmodifiers : Option.Rel R (n.firstOf? ["modifiers"]) (m.firstOf? ["modifiers"]) :=
    h.firstOf? hnm (by decide)
  rw [AnnotationUse.listOfDecl, AnnotationUse.listOfDecl]
  obtain ⟨hn, hm⟩ | ⟨a, b, hn, hm, hab⟩ := rel_cases hmodifiers
  · rw [hn, hm]
  · rw [hn, hm]
    exact map_eq_of_forall₂
      (h.filter_namedChildren hab (p := fun k => k == "marker_annotation" || k == "annotation")
        (by decide))
      fun _ _ huse => h.annotationUse_eq huse imports

end Correspondence

/-! ## Calls and statements -/

/-- The field of the type itself that a receiver reads, by its text. -/
theorem Scope.map_text_ownField? (src : Bytes) (n : Node) :
    (Scope.ownField? n).map (Node.text src) =
      if (n.child? "object").any (fun o => o.kind == "this") then n.childText? src "field"
      else none := by
  rw [Scope.ownField?, Node.childText?]
  rcases n.child? "object" with _ | object
  · rfl
  · rcases n.child? "field" with _ | member
    · simp
    · by_cases hthis : object.kind = "this" <;> simp [hthis]

/-- What an access to a field denotes, by the text of the field. -/
theorem Scope.receiverType?_of_field_access (src : Bytes) (scope : Scope) {n : Node}
    (hn : n.kind = "field_access") :
    scope.receiverType? src n =
      match (Scope.ownField? n).map (Node.text src) with
      | some x => scope.fields.get? x
      | none => Scope.dottedType? (n.compactText src) := by
  rw [Scope.receiverType?]
  rcases Scope.ownField? n with _ | member <;> simp [hn]

namespace Correspondence

variable {src src' : Bytes} {R : Node → Node → Prop} {n m : Node} {ns ms : List Node}

/-- **Receivers denote the same type**, in one scope. -/
theorem receiverType?_eq (h : Correspondence T src src' R) (hnm : R n m) (scope : Scope) :
    scope.receiverType? src n = scope.receiverType? src' m := by
  have hkind := h.kind_eq hnm
  -- Only an access to a field is looked into; any other receiver is taken by its text.
  by_cases haccess : n.kind = "field_access"
  · have hthis : (n.child? "object").any (fun o => o.kind == "this") =
        (m.child? "object").any (fun o => o.kind == "this") := by
      obtain ⟨hn, hm⟩ | ⟨a, b, hn, hm, hab⟩ := rel_cases (h.child hnm "object")
      · rw [hn, hm]
      · rw [hn, hm, Option.any_some, Option.any_some, h.kind_eq hab]
    rw [Scope.receiverType?_of_field_access src scope haccess,
      Scope.receiverType?_of_field_access src' scope (hkind ▸ haccess),
      Scope.map_text_ownField?, Scope.map_text_ownField?, hthis, h.member_eq hnm haccess,
      h.compact_eq hnm]
  · simp [Scope.receiverType?, haccess, ← hkind, h.compact_eq hnm]

/-- **Calls have the same target**, in one scope. -/
theorem target?_eq (h : Correspondence T src src' R) (hnm : R n m) (scope : Scope) :
    scope.target? src n = scope.target? src' m := by
  by_cases hk : n.kind = "method_invocation"
  · have hname := h.name_eq hnm (by simp [Node.hasExactName, hk])
    have hsuper : n.hasChild "super" = m.hasChild "super" := h.hasChild_eq hnm (by decide)
    rw [Scope.target?, Scope.target?, ← h.kind_eq hnm]
    obtain ⟨hn, hm⟩ | ⟨a, b, hn, hm, -⟩ := rel_cases (h.child hnm "name")
    · rw [hn, hm]
    · rw [Node.childText?, Node.childText?, hn, hm, Option.map_some, Option.map_some,
        Option.some.injEq] at hname
      rw [hn, hm]
      simp only [hname]
      obtain ⟨hn, hm⟩ | ⟨r, r', hn, hm, hr⟩ := rel_cases (h.child hnm "object")
      · rw [hn, hm]
      · rw [hn, hm]
        simp only [Scope.receiverTarget?, hsuper, h.kind_eq hr, h.receiverType?_eq hr]
  · have hk' : m.kind ≠ "method_invocation" := h.kind_eq hnm ▸ hk
    simp [Scope.target?, hk, hk']

/-- Statements leave the same scope behind them. -/
theorem after_eq (h : Correspondence T src src' R) (hnm : R n m) (scope : Scope) :
    scope.after src n = scope.after src' m := by
  rw [Scope.after, Scope.after, h.kind_eq hnm, h.ofDeclarations_eq (.cons hnm .nil)]

/-- The calls that make up two statements correspond, or neither is a call. -/
theorem loneCall? (h : Correspondence T src src' R) (hnm : R n m) :
    Option.Rel R (Statement.loneCall? n) (Statement.loneCall? m) := by
  rw [Statement.loneCall?, Statement.loneCall?, ← h.kind_eq hnm]
  split
  · have hparts := h.parts hnm
    rw [Node.parts, Node.parts] at hparts
    generalize n.namedChildren.filter (fun c => !c.isComment) = es at hparts ⊢
    generalize m.namedChildren.filter (fun c => !c.isComment) = es' at hparts ⊢
    cases hparts with
    | nil => exact .none
    | cons hab _ =>
      simp only [h.kind_eq hab]
      split
      · exact .some hab
      · exact .none
  · exact .none

/-- So statements are viewed alike, in one scope. -/
theorem statement_alike (h : Correspondence T src src' R) (hnm : R n m) (scope : Scope) :
    Statement.Alike T (Statement.ofNode src scope n) (Statement.ofNode src' scope m) := by
  rw [Statement.ofNode, Statement.ofNode]
  obtain ⟨hn, hm⟩ | ⟨a, b, hn, hm, hab⟩ := rel_cases (h.loneCall? hnm)
  · rw [hn, hm]
    simp only [h.kind_eq hnm]
    exact .other _ (h.text hnm)
  · rw [hn, hm]
    simp only [h.target?_eq hab]
    exact .call _ (h.text hnm)

/-- The statements of a body, each in the scope that those before it leave. -/
theorem listOfNodes_alike (h : Correspondence T src src' R) (hs : List.Forall₂ R ns ms)
    (scope : Scope) :
    List.Forall₂ (Statement.Alike T) (Statement.listOfNodes src scope ns)
      (Statement.listOfNodes src' scope ms) := by
  induction hs generalizing scope with
  | nil => exact .nil
  | cons hab _ ih =>
    rw [Statement.listOfNodes, Statement.listOfNodes, h.after_eq hab]
    exact .cons (h.statement_alike hab scope) (ih _)

/-! ## Methods and types -/

/-- Methods have the same parameters. -/
theorem parameters_eq (h : Correspondence T src src' R) (hnm : R n m) :
    MethodDecl.parameters src n = MethodDecl.parameters src' m := by
  rw [MethodDecl.parameters, MethodDecl.parameters]
  obtain ⟨hn, hm⟩ | ⟨a, b, hn, hm, hab⟩ := rel_cases (h.child hnm "parameters")
  · rw [hn, hm]
  · rw [hn, hm]
    exact h.ofDeclarations_eq
      (h.filter_namedChildren hab (p := fun k => k == "formal_parameter") (by decide))

/-- **Methods are alike**, in one scope. -/
theorem method_alike (h : Correspondence T src src' R) (hnm : R n m)
    (hk : n.kind = "method_declaration") (scope : Scope) :
    Option.Rel (MethodDecl.Alike T) (MethodDecl.ofNode? src scope n)
      (MethodDecl.ofNode? src' scope m) := by
  have hname := h.name_eq hnm (by simp [Node.hasExactName, hk])
  rw [MethodDecl.ofNode?, MethodDecl.ofNode?, h.parameters_eq hnm]
  obtain ⟨hn, hm⟩ | ⟨a, b, hn, hm, -⟩ := rel_cases (h.child hnm "name")
  · rw [hn, hm]
    exact .none
  · rw [Node.childText?, Node.childText?, hn, hm, Option.map_some, Option.map_some,
      Option.some.injEq] at hname
    rw [hn, hm, Option.map_some, Option.map_some]
    refine .some ⟨hname, ?_, h.span hnm⟩
    exact rel_map (h.child hnm "body") fun body body' hbody => h.listOfNodes_alike (h.parts hbody) _

end Correspondence

namespace TypeDecl

/-- Items that contribute nothing can be left out. -/
theorem flatMap_filter_of_nil {α β : Type} {p : α → Bool} {f : α → List β} {xs : List α}
    (h : ∀ x ∈ xs, p x = false → f x = []) : (xs.filter p).flatMap f = xs.flatMap f := by
  induction xs with
  | nil => rfl
  | cons x xs ih =>
    have hrest := ih fun y hy => h y (List.mem_cons_of_mem _ hy)
    rcases hx : p x with _ | _
    · rw [List.filter_cons_of_neg (by simp [hx]), List.flatMap_cons, h x List.mem_cons_self hx,
        List.nil_append, hrest]
    · rw [List.filter_cons_of_pos hx, List.flatMap_cons, List.flatMap_cons, hrest]

/-- The members of some kinds: a comment is none of them, and holds none. -/
theorem filter_members {p : String → Bool} (hp : ∀ k ∈ Node.commentKinds, p k = false) (n : Node) :
    (members n).filter (fun c => p c.kind) =
      (n.child? "body").toList.flatMap fun body => body.parts.flatMap fun c =>
        if c.kind == "enum_body_declarations" then c.parts.filter (fun c => p c.kind)
        else [c].filter (fun c => p c.kind) := by
  rw [members]
  rcases n.child? "body" with _ | body
  · rfl
  · rw [Option.toList_some, List.flatMap_singleton, Node.parts, flatMap_filter_of_nil,
      List.filter_flatMap]
    · refine List.flatMap_congr fun c _ => ?_
      split
      · exact Node.filter_namedChildren hp c
      · rfl
    · intro c _ hc
      have hkind : c.kind ∈ Node.commentKinds := by simpa [Node.isComment] using hc
      have henum : c.kind ≠ "enum_body_declarations" := by
        intro he
        rw [he] at hkind
        exact absurd hkind (by decide)
      simp [henum, hp _ hkind]

/-- The superclass is the type that is written first in its node. -/
theorem superclass?_eq (src : Bytes) (imports : Imports) (n : Node) :
    superclass? src imports n =
      (n.superType?.bind (Node.declaredType? src)).map imports.qualify := by
  rw [superclass?, Node.superType?]
  rcases n.child? "superclass" with _ | s
  · rfl
  · rcases hs : s.namedChildren with _ | ⟨t, ts⟩ <;> simp [hs]

end TypeDecl

namespace Correspondence

variable {src src' : Bytes} {R : Node → Node → Prop} {n m : Node} {ns ms : List Node}

/-- Members of some kinds correspond, as long as comments are not asked for. -/
theorem filter_members (h : Correspondence T src src' R) (hnm : R n m) {p : String → Bool}
    (hp : ∀ k ∈ Node.commentKinds, p k = false) :
    List.Forall₂ R ((TypeDecl.members n).filter (fun c => p c.kind))
      ((TypeDecl.members m).filter (fun c => p c.kind)) := by
  rw [TypeDecl.filter_members hp, TypeDecl.filter_members hp]
  obtain ⟨hn, hm⟩ | ⟨body, body', hn, hm, hbody⟩ := rel_cases (h.child hnm "body")
  · rw [hn, hm]
    exact .nil
  · rw [hn, hm, Option.toList_some, Option.toList_some, List.flatMap_singleton,
      List.flatMap_singleton]
    refine List.rel_flatMap (h.parts hbody) fun a b hab => ?_
    simp only [h.kind_eq hab]
    split
    · exact h.filter_kind p (h.parts hab)
    · exact h.filter_kind p (.cons hab .nil)

/-- In particular the methods. -/
theorem methodNodes (h : Correspondence T src src' R) (hnm : R n m) :
    List.Forall₂ (fun a b => a.kind = "method_declaration" ∧ R a b) (TypeDecl.methodNodes n)
      (TypeDecl.methodNodes m) := by
  refine (List.forall₂_and_left _ _).2 ⟨fun a ha => ?_, ?_⟩
  · simpa using (List.mem_filter.1 ha).2
  · exact h.filter_members hnm (p := fun k => k == "method_declaration") (by decide)

/-- Types have the same superclass. -/
theorem superclass?_eq (h : Correspondence T src src' R) (hnm : R n m)
    (htype : n.isTypeDecl = true) (imports : Imports) :
    TypeDecl.superclass? src imports n = TypeDecl.superclass? src' imports m := by
  rw [TypeDecl.superclass?_eq, TypeDecl.superclass?_eq,
    bind_eq_of_rel (h.superType hnm htype) fun _ _ hab => h.declaredType?_eq hab]

/-- So they have the same scope for their methods. -/
theorem scopeOf_eq (h : Correspondence T src src' R) (hnm : R n m) (htype : n.isTypeDecl = true)
    (imports : Imports) (name : String) :
    TypeDecl.scopeOf src imports name n = TypeDecl.scopeOf src' imports name m := by
  have hnames := filterMap_eq_of_forall₂ (h.methodNodes hnm)
    (f := fun a => Node.childText? src a "name") (g := fun a => Node.childText? src' a "name")
    fun a b hab => h.name_eq hab.2 (by simp [Node.hasExactName, hab.1])
  have hfields : Bindings.ofDeclarations src (TypeDecl.fieldNodes n) =
      Bindings.ofDeclarations src' (TypeDecl.fieldNodes m) :=
    h.ofDeclarations_eq (h.filter_members hnm
      (p := fun k => k == "field_declaration" || k == "constant_declaration") (by decide))
  simp only [Node.childText?] at hnames
  rw [TypeDecl.scopeOf, TypeDecl.scopeOf, h.superclass?_eq hnm htype, hnames, hfields]

/-- **Types are alike**, under one import table and inside the same types. -/
theorem type_alike (h : Correspondence T src src' R) (hnm : R n m) (htype : n.isTypeDecl = true)
    (imports : Imports) (outer : List String) :
    Option.Rel (TypeDecl.Alike T) (TypeDecl.ofNode? src imports outer n)
      (TypeDecl.ofNode? src' imports outer m) := by
  have hname := h.name_eq hnm (by simp [Node.hasExactName, htype])
  rw [TypeDecl.ofNode?, TypeDecl.ofNode?]
  obtain ⟨hn, hm⟩ | ⟨a, b, hn, hm, -⟩ := rel_cases (h.child hnm "name")
  · rw [hn, hm]
    exact .none
  · rw [Node.childText?, Node.childText?, hn, hm, Option.map_some, Option.map_some,
      Option.some.injEq] at hname
    have hmethods : List.Forall₂ (MethodDecl.Alike T)
        ((TypeDecl.methodNodes n).filterMap
          (MethodDecl.ofNode? src (TypeDecl.scopeOf src' imports (b.text src') m)))
        ((TypeDecl.methodNodes m).filterMap
          (MethodDecl.ofNode? src' (TypeDecl.scopeOf src' imports (b.text src') m))) :=
      List.rel_filterMap (fun a b hab => h.method_alike hab.2 hab.1 _) (h.methodNodes hnm)
    rw [hn, hm, Option.map_some, Option.map_some]
    simp only [hname, h.scopeOf_eq hnm htype]
    exact .some ⟨rfl, rfl, h.annotations_eq hnm imports, hmethods, h.span hnm⟩

/-! ## The walk -/

/-- A type corresponds to a type. -/
theorem isTypeDecl_eq (h : Correspondence T src src' R) (hnm : R n m) :
    n.isTypeDecl = m.isTypeDecl := by
  rw [Node.isTypeDecl, Node.isTypeDecl, h.kind_eq hnm]

/-- What is declared by a node itself is alike, or both declare nothing. -/
theorem declared?_alike (h : Correspondence T src src' R) (hnm : R n m) (imports : Imports)
    (outer : List String) :
    Option.Rel (TypeDecl.Alike T) (TypeDecl.declared? src imports outer n)
      (TypeDecl.declared? src' imports outer m) := by
  rw [TypeDecl.declared?, TypeDecl.declared?, ← h.isTypeDecl_eq hnm]
  split
  · rename_i htype
    exact h.type_alike hnm htype imports outer
  · exact .none

/-- Types of the same name are entered on the way down. -/
theorem ownName?_eq (h : Correspondence T src src' R) (hnm : R n m) :
    TypeDecl.ownName? src n = TypeDecl.ownName? src' m := by
  rw [TypeDecl.ownName?, TypeDecl.ownName?, ← h.isTypeDecl_eq hnm]
  split
  · rename_i htype
    exact h.name_eq hnm (by simp [Node.hasExactName, htype])
  · rfl

end Correspondence

/-- Nodes that are not named can be left out of the walk. -/
theorem TypeDecl.inNodes_filter_named (src : Bytes) (imports : Imports) (outer : List String)
    (ns : List Node) :
    TypeDecl.inNodes src imports outer (ns.filter Node.named) =
      TypeDecl.inNodes src imports outer ns := by
  rw [TypeDecl.inNodes_eq_flatMap, TypeDecl.inNodes_eq_flatMap, List.filter_filter]
  simp only [Bool.and_self]

/-- The walk goes on where there is a type to be found. -/
theorem TypeDecl.below_eq_holders (src : Bytes) (imports : Imports) (outer : List String)
    (n : Node) :
    TypeDecl.below src imports outer n = TypeDecl.inNodes src imports outer n.holders := by
  have htypeless : ∀ c ∈ n.namedChildren, (c.typeCount != 0) = false → c.typeCount = 0 := by
    intro c _ hc
    simpa using hc
  rw [Node.holders, TypeDecl.inNodes_filter htypeless, Node.namedChildren,
    TypeDecl.inNodes_filter_named, TypeDecl.below_eq_inNodes]

/-- The walk goes through named nodes only. -/
theorem Node.named_of_mem_holders {n c : Node} (h : c ∈ n.holders) : c.named = true :=
  (List.mem_filter.1 (List.mem_filter.1 h).1).2

namespace Correspondence

variable {src src' : Bytes} {R : Node → Node → Prop} {n m : Node} {ns ms : List Node}

/-- The walk over sibling nodes, all of them named, when it is known for what is below them. -/
theorem inNodes_alike (h : Correspondence T src src' R) {imports : Imports}
    (hs : List.Forall₂ R ns ms) (hns : ∀ a ∈ ns, a.named = true) (hms : ∀ b ∈ ms, b.named = true)
    (ih : ∀ a ∈ ns, ∀ b outer, R a b → List.Forall₂ (TypeDecl.Alike T)
      (TypeDecl.below src imports outer a) (TypeDecl.below src' imports outer b))
    (outer : List String) :
    List.Forall₂ (TypeDecl.Alike T) (TypeDecl.inNodes src imports outer ns)
      (TypeDecl.inNodes src' imports outer ms) := by
  induction hs with
  | nil => exact .nil
  | @cons a b as bs hab _ ihs =>
    have hrest := ihs (fun c hc => hns c (List.mem_cons_of_mem _ hc))
      (fun c hc => hms c (List.mem_cons_of_mem _ hc)) fun c hc => ih c (List.mem_cons_of_mem _ hc)
    rw [TypeDecl.inNodes_cons, TypeDecl.inNodes_cons, if_pos (hns a List.mem_cons_self),
      if_pos (hms b List.mem_cons_self), h.ownName?_eq hab]
    have hown : List.Forall₂ (TypeDecl.Alike T) (TypeDecl.declared? src imports outer a).toList
        (TypeDecl.declared? src' imports outer b).toList := by
      obtain ⟨ha, hb⟩ | ⟨d, d', ha, hb, hd⟩ := rel_cases (h.declared?_alike hab imports outer)
      · rw [ha, hb]
        exact .nil
      · rw [ha, hb]
        exact .cons hd .nil
    have hbelow := ih a List.mem_cons_self b (outer ++ (TypeDecl.ownName? src' b).toList) hab
    exact List.rel_append (List.rel_append hown hbelow) hrest

/-- **The walk below corresponding nodes** finds types that are alike. -/
theorem below_alike (h : Correspondence T src src' R) (hnm : R n m) (imports : Imports)
    (outer : List String) :
    List.Forall₂ (TypeDecl.Alike T) (TypeDecl.below src imports outer n)
      (TypeDecl.below src' imports outer m) := by
  -- A comment may be on one side only, so the walk is compared where it finds types.
  induction n using Node.inductionOn generalizing m outer with
  | step n ih =>
    rw [TypeDecl.below_eq_holders, TypeDecl.below_eq_holders]
    refine h.inNodes_alike (h.holders hnm) (fun a ha => Node.named_of_mem_holders ha)
      (fun b hb => Node.named_of_mem_holders hb) (fun a ha b outer hab => ?_) outer
    have hchild : a ∈ n.children := (List.mem_filter.1 (List.mem_filter.1 ha).1).1
    exact ih a hchild hab outer

/-- **Corresponding trees declare types that are alike.** -/
theorem alike_listOfTree (h : Correspondence T src src' R) (hnm : R n m) :
    List.Forall₂ (TypeDecl.Alike T) (TypeDecl.listOfTree src n) (TypeDecl.listOfTree src' m) := by
  rw [TypeDecl.listOfTree, TypeDecl.listOfTree, h.ofTree_eq hnm]
  exact h.below_alike hnm _ []

end Correspondence

/-! ## Verdicts -/

namespace TypeDecl.Alike

variable {c : Contract} {d d' : TypeDecl} {m m' : MethodDecl}

/-- Statements that are alike both forward or neither does. -/
theorem isForwarding_eq (h : d.name = d'.name) {s s' : Statement} (hs : Statement.Alike T s s') :
    c.isForwarding d s = c.isForwarding d' s' := by
  cases hs with
  | call target _ =>
    rcases target with _ | t <;> simp [Contract.isForwarding, Contract.companion, h]
  | other kind _ => rfl

/-- So methods that are alike do. -/
theorem forwards_eq (h : d.name = d'.name) (hm : MethodDecl.Alike T m m') :
    c.forwards d m = c.forwards d' m' := by
  rw [Contract.forwards, Contract.forwards]
  obtain ⟨hb, hb'⟩ | ⟨ss, ss', hb, hb', hss⟩ := rel_cases hm.body
  · rw [hb, hb']
  · rw [hb, hb']
    exact any_eq_of_forall₂ hss fun _ _ hs => isForwarding_eq h hs

/-- **Two types that are alike are judged alike**, method by method. -/
theorem judged (h : TypeDecl.Alike T d d') (c : Contract) :
    c.isMarked d = c.isMarked d' ∧
      List.Forall₂ (fun m m' => MethodDecl.Alike T m m' ∧ c.isViolation d m = c.isViolation d' m')
        d.methods d'.methods := by
  have hmarked : c.isMarked d = c.isMarked d' := by
    rw [Contract.isMarked, Contract.isMarked, h.annotations_eq]
  refine ⟨hmarked, h.methods.imp fun m m' hm => ⟨hm, ?_⟩⟩
  rw [Contract.isViolation, Contract.isViolation, hmarked, hm.name_eq, forwards_eq h.name_eq hm]

end TypeDecl.Alike

/-! ## When the children correspond -/

/-- Trees that declare as many types one by one do so together. -/
theorem Node.typeCountAll_eq_of_forall₂ {ns ms : List Node}
    (h : List.Forall₂ (fun a b => a.typeCount = b.typeCount) ns ms) :
    Node.typeCountAll ns = Node.typeCountAll ms := by
  induction h with
  | nil => rfl
  | cons hab _ ih => rw [Node.typeCountAll, Node.typeCountAll, hab, ih]

/-- A relation between nodes of one kind and role, named both or neither, that hold as many type
declarations. -/
structure SameHeads (R : Node → Node → Prop) : Prop where
  kind_eq {n m : Node} : R n m → n.kind = m.kind
  named_eq {n m : Node} : R n m → n.named = m.named
  field_eq {n m : Node} : R n m → n.field = m.field
  typeCount_eq {n m : Node} : R n m → n.typeCount = m.typeCount

namespace SameHeads

variable {R : Node → Node → Prop} {n m : Node}

/-- Where all children correspond, so do those in a field. -/
theorem childrenIn (h : SameHeads R) (hs : List.Forall₂ R n.children m.children) (f : String) :
    List.Forall₂ R (n.childrenIn f) (m.childrenIn f) :=
  List.rel_filter (fun a b hab => by simp only [h.field_eq hab]) hs

/-- And the first of them. -/
theorem child (h : SameHeads R) (hs : List.Forall₂ R n.children m.children) (f : String) :
    Option.Rel R (n.child? f) (m.child? f) := by
  rw [Node.child?, Node.child?, ← List.head?_filter, ← List.head?_filter]
  exact rel_head? (h.childrenIn hs f)

/-- So do the named ones. -/
theorem namedChildren (h : SameHeads R) (hs : List.Forall₂ R n.children m.children) :
    List.Forall₂ R n.namedChildren m.namedChildren :=
  List.rel_filter (fun a b hab => by simp only [h.named_eq hab]) hs

/-- Those that are no comments. -/
theorem parts (h : SameHeads R) (hs : List.Forall₂ R n.children m.children) :
    List.Forall₂ R n.parts m.parts :=
  List.rel_filter (fun a b hab => by simp only [Node.isComment, h.kind_eq hab])
    (h.namedChildren hs)

/-- Those that declare types. -/
theorem holders (h : SameHeads R) (hs : List.Forall₂ R n.children m.children) :
    List.Forall₂ R n.holders m.holders :=
  List.rel_filter (fun a b hab => by simp only [h.typeCount_eq hab]) (h.namedChildren hs)

/-- And there are children of the same kinds. -/
theorem hasChild_eq (h : SameHeads R) (hs : List.Forall₂ R n.children m.children) (k : String) :
    n.hasChild k = m.hasChild k :=
  any_eq_of_forall₂ hs fun _ _ hab => by rw [h.kind_eq hab]

/-- The superclass is read off the children of the node that holds it. -/
theorem superType (h : SameHeads R)
    (hs : Option.Rel (fun s s' => List.Forall₂ R s.children s'.children) (n.child? "superclass")
      (m.child? "superclass")) :
    Option.Rel R n.superType? m.superType? := by
  rw [Node.superType?, Node.superType?]
  obtain ⟨hn, hm⟩ | ⟨s, s', hn, hm, hchildren⟩ := rel_cases hs
  · rw [hn, hm]
    exact .none
  · rw [hn, hm]
    exact rel_head? (h.namedChildren hchildren)

end SameHeads

end CallbackLint
