import CallbackLint.Proofs.Agreement
import CallbackLint.Proofs.Comments
/-!
# The order of members

The members of a type are collected first and used by every one of its methods: the names of the
methods and the types of the fields. Neither of the two depends on the order of the members, as
long as no two fields of one name have types that can be named, because then a field has the one
type that it is given.

So with its members in another order (`MembersReordered`) a type has scopes that answer alike
(`agreesBut_scopeOf`), every method has the view it had, and the same methods are reported
(`views_of_reordering`).
-/

namespace CallbackLint

/-! ## Members in another order -/

namespace Node

/-- The same child of a type body, but perhaps for the order in which a list of declarations, as
it follows the constants of an enumeration, has its own children. -/
def SameUpToOrder (c c' : Node) : Prop :=
  c' = c ∨ c.kind = "enum_body_declarations" ∧
    ∃ cs, c.children.Perm cs ∧ c' = c.withChildren cs

/-- The children of a type body in another order, those inside a list of declarations among
themselves. -/
def MembersReordered (cs ds : List Node) : Prop :=
  ∃ es, cs.Perm es ∧ List.Forall₂ SameUpToOrder es ds

/-- The type with other children of its body. -/
def withMembers (ds : List Node) (type : Node) : Node :=
  type.editChild "body" (fun body => body.withChildren ds)

namespace SameUpToOrder

variable {c c' : Node}

/-- The order inside a part does not change its kind. -/
theorem kind_eq (h : SameUpToOrder c c') : c'.kind = c.kind := by
  obtain rfl | ⟨-, cs, -, rfl⟩ := h
  · rfl
  · rw [kind_withChildren]

/-- Nor whether it is named. -/
theorem named_eq (h : SameUpToOrder c c') : c'.named = c.named := by
  obtain rfl | ⟨-, cs, -, rfl⟩ := h
  · rfl
  · rw [named_withChildren]

/-- What is no part of an enumeration is the same node. -/
theorem eq_of_kind (h : SameUpToOrder c c') (hkind : c.kind ≠ "enum_body_declarations") :
    c' = c := by
  obtain rfl | ⟨henum, -⟩ := h
  · rfl
  · exact absurd henum hkind

/-- The named children are the same, in some order. -/
theorem namedChildren_perm (h : SameUpToOrder c c') :
    c.namedChildren.Perm c'.namedChildren := by
  obtain rfl | ⟨-, cs, hperm, rfl⟩ := h
  · exact .refl _
  · rw [namedChildren, namedChildren, children_withChildren]
    exact hperm.filter _

end SameUpToOrder

namespace MembersReordered

variable {cs ds : List Node}

/-- A test that looks at no more than the kind and whether a node is named. -/
theorem filter (h : MembersReordered cs ds) {p : Node → Bool}
    (hp : ∀ c c', SameUpToOrder c c' → p c = p c') :
    MembersReordered (cs.filter p) (ds.filter p) := by
  obtain ⟨es, hperm, hsame⟩ := h
  refine ⟨es.filter p, hperm.filter p, List.rel_filter ?_ hsame⟩
  intro c c' hc
  exact Bool.coe_iff_coe.2 (hp c c' hc)

/-- Reordered members have reordered named ones. -/
theorem namedOnes (h : MembersReordered cs ds) :
    MembersReordered (cs.filter named) (ds.filter named) :=
  h.filter fun _ _ hc => hc.named_eq.symm

/-- What every child contributes up to order, all of them do. -/
theorem flatMap_perm {β : Type} (h : MembersReordered cs ds) {g : Node → List β}
    (hg : ∀ c c', SameUpToOrder c c' → (g c).Perm (g c')) :
    (cs.flatMap g).Perm (ds.flatMap g) := by
  obtain ⟨es, hperm, hsame⟩ := h
  refine (hperm.flatMap_right g).trans ?_
  clear hperm
  induction hsame with
  | nil => exact .refl _
  | cons hc _ ih =>
    rw [List.flatMap_cons, List.flatMap_cons]
    exact (hg _ _ hc).append ih

/-- Without lists of declarations it is a permutation. -/
theorem perm (h : MembersReordered cs ds) (hkind : ∀ c ∈ cs, c.kind ≠ "enum_body_declarations") :
    cs.Perm ds := by
  obtain ⟨es, hperm, hsame⟩ := h
  have heq : ds = es := by
    replace hkind : ∀ c ∈ es, c.kind ≠ "enum_body_declarations" := fun c hc =>
      hkind c (hperm.mem_iff.2 hc)
    clear hperm
    induction hsame with
    | nil => rfl
    | cons hc _ ih =>
      rw [hc.eq_of_kind (hkind _ List.mem_cons_self),
        ih fun c hc => hkind c (List.mem_cons_of_mem _ hc)]
  rw [heq]
  exact hperm

end MembersReordered

/-! ## What is read off the type itself -/

/-- Where the first node with `q` is edited, the first one with `p` is the same as before or the
edited one. -/
theorem find?_modify_findIdx {edit : Node → Node} {p q : Node → Bool}
    (hp : ∀ c, p (edit c) = p c) (cs : List Node) :
    (cs.modify (cs.findIdx q) edit).find? p = cs.find? p ∨
      ∃ c, cs.find? q = some c ∧ cs.find? p = some c ∧
        (cs.modify (cs.findIdx q) edit).find? p = some (edit c) := by
  induction cs with
  | nil => exact .inl rfl
  | cons c cs ih =>
    rcases hq : q c with _ | _
    · rcases hc : p c with _ | _
      · simpa [List.findIdx_cons, hq, hc] using ih
      · exact .inl (by simp [List.findIdx_cons, hq, hc])
    · rcases hc : p c with _ | _
      · exact .inl (by simp [List.findIdx_cons, hq, hc, hp])
      · exact .inr ⟨c, by simp [hq], by simp [hc], by simp [List.findIdx_cons, hq, hc, hp]⟩

/-- The child that is found by its kind is the one found before, edited if it is the one to edit. -/
theorem firstOf?_editChild {edit : Node → Node} (hkind : ∀ c, (edit c).kind = c.kind)
    (hnamed : ∀ c, (edit c).named = c.named) (kinds : List String) (f : String) (n : Node) :
    (n.editChild f edit).firstOf? kinds = n.firstOf? kinds ∨
      ∃ c, n.child? f = some c ∧ n.firstOf? kinds = some c ∧
        (n.editChild f edit).firstOf? kinds = some (edit c) := by
  simp only [firstOf?, child?, editChild, namedChildren, children_withChildren, List.find?_filter]
  exact find?_modify_findIdx (fun c => by rw [hkind, hnamed]) n.children

section withMembers

variable {type body : Node} {ds : List Node}

/-- Only the child in the field of the body is another. -/
theorem child?_withMembers (ds : List Node) (type : Node) (f : String) :
    (type.withMembers ds).child? f =
      if f = "body" then (type.child? "body").map (fun body => body.withChildren ds) else
        type.child? f :=
  child?_editChild (fun body => body.field_withChildren ds) "body" f type

/-- So a child in any other field is found as before. -/
theorem child?_withMembers_of_ne {f : String} (hf : f ≠ "body") :
    (type.withMembers ds).child? f = type.child? f := by
  rw [child?_withMembers, if_neg hf]

/-- And the body is found with its new children. -/
theorem child?_withMembers_body (hbody : type.child? "body" = some body) :
    (type.withMembers ds).child? "body" = some (body.withChildren ds) := by
  rw [child?_withMembers, if_pos rfl, hbody, Option.map_some]

end withMembers

end Node

/-- **The annotations of a type**: they are the same, unless they are read off the body itself. -/
theorem AnnotationUse.listOfDecl_withMembers (src : Bytes) (imports : Imports)
    {type body : Node} {ds : List Node} (hbody : type.child? "body" = some body)
    (h : Node.MembersReordered body.children ds) :
    (listOfDecl src imports type).Perm (listOfDecl src imports (type.withMembers ds)) ∧
      (type.firstOf? ["modifiers"] ≠ some body →
        listOfDecl src imports (type.withMembers ds) = listOfDecl src imports type) := by
  obtain hsame | ⟨c, hc, hold, hnew⟩ := Node.firstOf?_editChild
    (fun b => b.kind_withChildren ds) (fun b => b.named_withChildren ds) ["modifiers"] "body" type
  · have heq : listOfDecl src imports (type.withMembers ds) = listOfDecl src imports type := by
      rw [listOfDecl, listOfDecl, Node.withMembers, hsame]
    exact ⟨.of_eq heq.symm, fun _ => heq⟩
  · obtain rfl : c = body := Option.some.inj (hc.symm.trans hbody)
    refine ⟨?_, fun hne => absurd hold hne⟩
    rw [listOfDecl, listOfDecl, hold, Node.withMembers, hnew]
    refine List.Perm.map _ ?_
    rw [Node.namedChildren, Node.namedChildren, Node.children_withChildren]
    refine (h.namedOnes.filter fun c c' hc => by rw [hc.kind_eq]).perm fun c hc henum => ?_
    simpa [henum] using (List.mem_filter.1 hc).2

namespace TypeDecl

open Node

variable {src : Bytes} {imports : Imports} {type body : Node} {ds : List Node}

/-! ## What is collected from the members -/

/-- Members are collected from the body. -/
theorem members_of_body (hbody : type.child? "body" = some body) :
    members type = body.namedChildren.flatMap (fun c =>
      if c.kind == "enum_body_declarations" then c.namedChildren else [c]) := by
  rw [members, hbody]

/-- **Reordered members are the members in another order.** -/
theorem members_perm (hbody : type.child? "body" = some body)
    (h : MembersReordered body.children ds) :
    (members type).Perm (members (type.withMembers ds)) := by
  rw [members_of_body hbody, members_of_body (child?_withMembers_body hbody), namedChildren,
    namedChildren, children_withChildren]
  refine h.namedOnes.flatMap_perm fun c c' hc => ?_
  by_cases hkind : c.kind = "enum_body_declarations"
  · rw [hc.kind_eq, if_pos (by simp [hkind]), if_pos (by simp [hkind])]
    exact hc.namedChildren_perm
  · rw [hc.eq_of_kind hkind]

/-- So are the methods. -/
theorem methodNodes_perm (hbody : type.child? "body" = some body)
    (h : MembersReordered body.children ds) :
    (methodNodes type).Perm (methodNodes (type.withMembers ds)) :=
  (members_perm hbody h).filter _

/-- And the fields. -/
theorem fieldNodes_perm (hbody : type.child? "body" = some body)
    (h : MembersReordered body.children ds) :
    (fieldNodes type).Perm (fieldNodes (type.withMembers ds)) :=
  (members_perm hbody h).filter _

/-- **With its members in another order the scope of a type answers alike.** -/
theorem agreesBut_scopeOf (hbody : type.child? "body" = some body)
    (h : MembersReordered body.children ds)
    (hfields : (((fieldNodes type).flatMap (introduced src)).map Prod.fst).Nodup)
    (imports : Imports) (name : String) :
    (scopeOf src imports name type).AgreesBut []
      (scopeOf src imports name (type.withMembers ds)) := by
  refine ⟨rfl, rfl, ?_, fun x => ?_, fun x => ?_, fun _ _ => rfl⟩
  · rw [scopeOf, scopeOf, superclass?, superclass?, child?_withMembers_of_ne (by decide)]
  · exact ((methodNodes_perm hbody h).filterMap _).mem_iff
  · -- a name is given one type at most, so the latest declaration of it is the only one
    have hperm := (fieldNodes_perm hbody h).flatMap_right (introduced src)
    have hfields' := (hperm.map Prod.fst).nodup_iff.1 hfields
    rw [scopeOf, scopeOf, Bindings.ofDeclarations, Bindings.ofDeclarations,
      Bindings.get?_ofList, Bindings.get?_ofList, Bindings.lookup_reverse_of_nodup hfields,
      Bindings.lookup_reverse_of_nodup hfields']
    exact Bindings.lookup_perm hperm hfields x

/-- The span of a type looks at where its body starts, and not into it. -/
theorem span_withMembers (hbody : type.child? "body" = some body) :
    Span.ofNode src (type.withMembers ds) ((type.withMembers ds).child? "body") =
      Span.ofNode src type (type.child? "body") := by
  rw [child?_withMembers_body hbody, hbody]
  simp [Span.ofNode, Span.snippetOf, withMembers, editChild, startPosition, stopPosition]

end TypeDecl

/-! ## Reports -/

namespace Contract

/-- A type is marked by its annotations in whatever order. -/
theorem isMarked_perm {d d' : TypeDecl} (h : d.annotations.Perm d'.annotations) (c : Contract) :
    c.isMarked d = c.isMarked d' :=
  h.any_eq

/-- **Two types that differ in the order of methods and annotations have the same methods
reported**, up to order. -/
theorem violations_perm {d d' : TypeDecl} (hname : d.name = d'.name)
    (hannotations : d.annotations.Perm d'.annotations) (hmethods : d.methods.Perm d'.methods)
    (c : Contract) : (c.violations d).Perm (c.violations d') := by
  have hforwards : ∀ m, c.forwards d m = c.forwards d' m := by
    intro m
    have hstatement : c.isForwarding d = c.isForwarding d' := by
      funext statement
      simp only [isForwarding, companion, hname]
    rw [forwards, forwards, hstatement]
  have hviolation : c.isViolation d = c.isViolation d' := by
    funext m
    rw [isViolation, isViolation, isMarked_perm hannotations, hforwards]
  rw [violations, violations, hviolation]
  exact hmethods.filter _

/-- Every method that is the view of a node can be reported. -/
theorem all_findingFor_violations {src : Bytes} {scope : Scope} {methods : List Node}
    {d : TypeDecl} (hd : d.methods = methods.filterMap (MethodDecl.ofNode? src scope))
    (c : Contract) (path : Path) :
    Checked.all ((c.violations d).map (Forwarding.findingFor path)) =
      .ok ((c.violations d).map (Forwarding.reported path)) := by
  refine Forwarding.all_map_ok fun m hm => ?_
  have hmem : m ∈ d.methods := (List.mem_filter.1 hm).1
  rw [hd] at hmem
  obtain ⟨method, -, hview⟩ := List.mem_filterMap.1 hmem
  exact Forwarding.findingFor_eq_ok hview path

end Contract

open TypeDecl Node in
/-- **The order of members does not matter.** The members of a type with a body are put in another
order, those of an enumeration behind its constants also among themselves, and no two of its fields
with types that can be named have the same name.

Then the type has the name, the full name and the span it had. Its annotations are the same, unless
the body is itself the list of modifiers that they are read off; there they are the same up to
order. Every method has the view it had, and the methods of the type are these views in the order
in which the methods now stand. So the same methods are reported. -/
theorem views_of_reordering (src : Bytes) (imports : Imports) (outer : List String)
    {type body : Node} {d : TypeDecl} {ds : List Node}
    (hd : ofNode? src imports outer type = some d)
    (hbody : type.child? "body" = some body) (h : MembersReordered body.children ds)
    (hfields : (((fieldNodes type).flatMap (introduced src)).map Prod.fst).Nodup) :
    ∃ d', ofNode? src imports outer (type.withMembers ds) = some d' ∧
      d'.name = d.name ∧ d'.qualifiedName = d.qualifiedName ∧ d'.span = d.span ∧
      d.annotations.Perm d'.annotations ∧
      (type.firstOf? ["modifiers"] ≠ some body → d'.annotations = d.annotations) ∧
      (∀ method,
        MethodDecl.ofNode? src (scopeOf src imports d.name (type.withMembers ds)) method =
          MethodDecl.ofNode? src (scopeOf src imports d.name type) method) ∧
      (methodNodes type).Perm (methodNodes (type.withMembers ds)) ∧
      d.methods = (methodNodes type).filterMap
        (MethodDecl.ofNode? src (scopeOf src imports d.name type)) ∧
      d'.methods = (methodNodes (type.withMembers ds)).filterMap
        (MethodDecl.ofNode? src (scopeOf src imports d.name type)) ∧
      ∀ (c : Contract) (path : Path), ∃ fs fs' : List Finding,
        Checked.all ((c.violations d).map (Forwarding.findingFor path)) = .ok fs ∧
        Checked.all ((c.violations d').map (Forwarding.findingFor path)) = .ok fs' ∧
        fs.Perm fs' := by
  obtain ⟨nameNode, hname, rfl⟩ := Option.map_eq_some_iff.1 hd
  have hname' : (type.withMembers ds).child? "name" = some nameNode := by
    rw [child?_withMembers_of_ne (by decide), hname]
  have hview : ∀ method,
      MethodDecl.ofNode? src
          (scopeOf src imports (nameNode.text src) (type.withMembers ds)) method =
        MethodDecl.ofNode? src (scopeOf src imports (nameNode.text src) type) method := by
    intro method
    exact (MethodDecl.ofNode?_eq (agreesBut_scopeOf hbody h hfields imports _) method).symm
  obtain ⟨hannotations, hannotations_eq⟩ :=
    AnnotationUse.listOfDecl_withMembers src imports hbody h
  have hnodes := methodNodes_perm hbody h
  have hmethods : (methodNodes (type.withMembers ds)).filterMap
      (MethodDecl.ofNode? src (scopeOf src imports (nameNode.text src) (type.withMembers ds))) =
        (methodNodes (type.withMembers ds)).filterMap
          (MethodDecl.ofNode? src (scopeOf src imports (nameNode.text src) type)) := by
    rw [funext hview]
  refine ⟨_, Option.map_eq_some_iff.2 ⟨nameNode, hname', rfl⟩, rfl, rfl, span_withMembers hbody,
    hannotations, hannotations_eq, hview, hnodes, rfl, hmethods, fun c path => ?_⟩
  refine ⟨_, _, c.all_findingFor_violations rfl path, c.all_findingFor_violations rfl path,
    (c.violations_perm ?_ ?_ ?_).map _⟩
  · rfl
  · exact hannotations
  · exact (hnodes.filterMap _).trans (.of_eq hmethods.symm)

namespace EnumReordered

/-- An enumeration with a field and two methods behind its constant. -/
def src : Bytes :=
  Utf8.encode "@M enum A{K;B b;void m(){b.go();n();}void n(){}}"

/-- The modifiers, `@M`. -/
def modifiers : Node :=
  .mk "modifiers" 0 2 true none
    [.mk "marker_annotation" 0 2 true none [.mk "identifier" 1 2 true (some "name") []]]

/-- The constant, `K`. -/
def constant : Node :=
  .mk "enum_constant" 10 11 true none [.mk "identifier" 10 11 true (some "name") []]

/-- The field, `B b;`. -/
def fieldDecl : Node :=
  .mk "field_declaration" 12 16 true none
    [.mk "type_identifier" 12 13 true (some "type") [],
      .mk "variable_declarator" 14 15 true (some "declarator")
        [.mk "identifier" 14 15 true (some "name") []]]

/-- The method that calls on the field and calls the other one. -/
def caller : Node :=
  .mk "method_declaration" 16 37 true none
    [.mk "identifier" 21 22 true (some "name") [],
      .mk "block" 24 37 true (some "body")
        [.mk "expression_statement" 25 32 true none
          [.mk "method_invocation" 25 31 true none
            [.mk "identifier" 25 26 true (some "object") [],
              .mk "identifier" 27 29 true (some "name") []]],
        .mk "expression_statement" 32 36 true none
          [.mk "method_invocation" 32 35 true none
            [.mk "identifier" 32 33 true (some "name") []]]]]

/-- The method that is called. -/
def callee : Node :=
  .mk "method_declaration" 37 47 true none
    [.mk "identifier" 42 43 true (some "name") [], .mk "block" 45 47 true (some "body") []]

/-- The declarations behind the constant. -/
def declarations (members : List Node) : Node :=
  .mk "enum_body_declarations" 11 47 true none members

def block : Node :=
  .mk "enum_body" 9 48 true (some "body") [constant, declarations [fieldDecl, caller, callee]]

def type : Node :=
  .mk "enum_declaration" 0 48 true none
    [modifiers, .mk "identifier" 8 9 true (some "name") [], block]

/-- The declarations come first, and the field last among them. -/
def reordered : List Node :=
  [declarations [callee, caller, fieldDecl], constant]

/-- The example moves members within the body and within the part behind the constants. -/
theorem membersReordered : Node.MembersReordered block.children reordered := by
  refine ⟨[declarations [fieldDecl, caller, callee], constant], .swap .., ?_⟩
  refine .cons (.inr ⟨rfl, [callee, caller, fieldDecl], ?_, rfl⟩) (.cons (.inl rfl) .nil)
  exact (List.reverse_perm [fieldDecl, caller, callee]).symm

def callerView : MethodDecl where
  name := "m"
  body := some [.call "b.go();" (some ⟨"B", "go"⟩), .call "n();" (some ⟨"A", "n"⟩)]
  span := ⟨1, 17, some 1, some 38, some "void m()"⟩

def calleeView : MethodDecl where
  name := "n"
  body := some []
  span := ⟨1, 38, some 1, some 48, some "void n()"⟩

def typeView : TypeDecl where
  name := "A"
  qualifiedName := "A"
  annotations := [⟨"M", some "M"⟩]
  methods := [callerView, calleeView]
  span := ⟨1, 1, some 1, some 49, some "@M enum A"⟩

end EnumReordered

open EnumReordered TypeDecl in
/-- The two methods change places and keep their views, although the field and the method that the
calls are resolved by now stand elsewhere. -/
theorem enumReordered_views :
    ofNode? src {} [] type = some typeView ∧ type.child? "body" = some block ∧
      (((fieldNodes type).flatMap (Node.introduced src)).map Prod.fst).Nodup ∧
      type.firstOf? ["modifiers"] ≠ some block ∧
      ∃ d', ofNode? src {} [] (type.withMembers reordered) = some d' ∧
        d'.methods = [calleeView, callerView] ∧ d'.annotations = typeView.annotations := by
  have hview : ofNode? src {} [] type = some typeView := by decide +kernel
  have hbody : type.child? "body" = some block := rfl
  have hfields : (((fieldNodes type).flatMap (Node.introduced src)).map Prod.fst).Nodup := by
    decide +kernel
  have hmodifiers : type.firstOf? ["modifiers"] ≠ some block := by
    intro h
    exact absurd (congrArg (Option.map Node.kind) h) (by decide +kernel)
  obtain ⟨d', hview', -, -, -, -, hannotations, -, -, -, hmethods, -⟩ :=
    views_of_reordering src {} [] hview hbody membersReordered hfields
  refine ⟨hview, hbody, hfields, hmodifiers, d', hview', ?_, hannotations hmodifiers⟩
  rw [hmethods]
  decide +kernel

namespace ModifiersBody

/-- A type whose body is a list of modifiers, with two annotations in it. -/
def src : Bytes :=
  Utf8.encode "class A @M @N"

/-- The annotation at an offset, with a name of one letter. -/
def annotationAt (k : Nat) : Node :=
  .mk "marker_annotation" k (k + 2) true none
    [.mk "identifier" (k + 1) (k + 2) true (some "name") []]

def block : Node :=
  .mk "modifiers" 8 13 true (some "body") [annotationAt 8, annotationAt 11]

def type : Node :=
  .mk "class_declaration" 0 13 true none [.mk "identifier" 6 7 true (some "name") [], block]

end ModifiersBody

open ModifiersBody TypeDecl in
/-- Annotations that are read off the body change places with the members. -/
theorem annotations_of_modifiersBody :
    type.child? "body" = some block ∧ block.children.Perm [annotationAt 11, annotationAt 8] ∧
      (((fieldNodes type).flatMap (Node.introduced src)).map Prod.fst).Nodup ∧
      (ofNode? src {} [] type).map TypeDecl.annotations =
        some [⟨"M", some "M"⟩, ⟨"N", some "N"⟩] ∧
      (ofNode? src {} [] (type.withMembers [annotationAt 11, annotationAt 8])).map
        TypeDecl.annotations = some [⟨"N", some "N"⟩, ⟨"M", some "M"⟩] :=
  ⟨rfl, .swap .., by decide +kernel, by decide +kernel, by decide +kernel⟩

end CallbackLint
