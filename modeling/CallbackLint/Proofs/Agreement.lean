import CallbackLint.Proofs.Visibility
/-!
# Scopes that answer alike

A scope is asked few questions: what it is the scope of, whether a method of some name is
declared, and what a name is bound to. Two scopes that answer them alike give every statement the
same view, in whatever order their bindings were made. Where they differ in the locals of some
names only, a view can differ only if the statement is a call on one of these names
(`ofNode_eq`).

A statement takes two such scopes to two such scopes (`AgreesBut.after`), so the same holds at
every statement of a body (`AgreesBut.foldl_after`).
-/

namespace CallbackLint

namespace Scope

variable {src : Bytes} {names : List String} {s t : Scope}

/-- Two scopes that answer alike, but perhaps for the locals of the given names. -/
structure AgreesBut (names : List String) (s t : Scope) : Prop where
  typeName_eq : s.typeName = t.typeName
  imports_eq : s.imports = t.imports
  superclass_eq : s.superclass = t.superclass
  mem_methods : ∀ x, x ∈ s.methods ↔ x ∈ t.methods
  field_eq : ∀ x, s.fields.get? x = t.fields.get? x
  local_eq : ∀ x, x ∉ names → s.locals.get? x = t.locals.get? x

namespace AgreesBut

theorem refl (names : List String) (s : Scope) : AgreesBut names s s :=
  ⟨rfl, rfl, rfl, fun _ => Iff.rfl, fun _ => rfl, fun _ _ => rfl⟩

/-- The locals of two scopes that agree can be set to the same. -/
theorem withLocals (h : AgreesBut names s t) (locals : Bindings) :
    AgreesBut [] { s with locals := locals } { t with locals := locals } :=
  ⟨h.typeName_eq, h.imports_eq, h.superclass_eq, h.mem_methods, h.field_eq, fun _ _ => rfl⟩

theorem nameType_eq (h : AgreesBut names s t) {x : String} (hx : x ∉ names) :
    s.nameType x = t.nameType x := by
  rw [nameType, nameType, variableType?, variableType?, h.local_eq x hx, h.field_eq, h.imports_eq]

/-- Only a plain name is looked up among the locals. -/
theorem receiverType?_eq (h : AgreesBut names s t) {receiver : Node}
    (hplain : receiver.kind = "identifier" → receiver.compactText src ∉ names) :
    s.receiverType? src receiver = t.receiverType? src receiver := by
  by_cases hk : receiver.kind = "identifier"
  · simp [receiverType?, hk, h.nameType_eq (hplain hk)]
  · simp only [receiverType?, hk, h.typeName_eq, h.superclass_eq, h.field_eq, beq_iff_eq, if_false]

theorem bareTarget?_eq (h : AgreesBut names s t) (method : String) :
    s.bareTarget? method = t.bareTarget? method := by
  have hcontains : s.methods.contains method = t.methods.contains method := by
    rw [Bool.eq_iff_iff, List.contains_iff_mem, List.contains_iff_mem, h.mem_methods]
  rw [bareTarget?, bareTarget?, hcontains, h.typeName_eq, h.imports_eq]

/-- **A call has the same target**, unless it is made on one of the names. -/
theorem target?_eq (h : AgreesBut names s t) {call : Node}
    (hplain : ∀ receiver, call.child? "object" = some receiver → receiver.kind = "identifier" →
      receiver.compactText src ∉ names) :
    s.target? src call = t.target? src call := by
  rw [target?, target?]
  split
  · rcases call.child? "name" with _ | callee
    · rfl
    rcases hobject : call.child? "object" with _ | receiver
    · exact h.bareTarget?_eq _
    · simp only [receiverTarget?, h.receiverType?_eq (hplain receiver hobject)]
  · rfl

/-- **One statement**: what it declares, it declares in both scopes. -/
theorem after (h : AgreesBut names s t) (n : Node) :
    AgreesBut names (s.after src n) (t.after src n) := by
  rw [Scope.after, Scope.after]
  split
  · refine ⟨h.typeName_eq, h.imports_eq, h.superclass_eq, h.mem_methods, h.field_eq, ?_⟩
    intro x hx
    have hdistinct := Bindings.distinct_ofDeclarations src [n]
    rw [Bindings.get?_update _ hdistinct, Bindings.get?_update _ hdistinct, h.local_eq x hx]
  · exact h

/-- **A run of statements.** -/
theorem foldl_after (h : AgreesBut names s t) (ns : List Node) :
    AgreesBut names (ns.foldl (Scope.after src) s) (ns.foldl (Scope.after src) t) := by
  induction ns generalizing s t with
  | nil => exact h
  | cons n ns ih => exact ih (h.after n)

end AgreesBut

end Scope

namespace Statement

variable {src : Bytes} {names : List String} {s t : Scope}

/-- A statement that is a call on a plain name, and the name is among the given ones. -/
def CallsOn (src : Bytes) (names : List String) (n : Node) : Prop :=
  ∃ call receiver, loneCall? n = some call ∧ call.child? "object" = some receiver ∧
    receiver.kind = "identifier" ∧ receiver.compactText src ∈ names

/-- **The view of a statement is the same in both scopes**, unless it is a call on one of the
names. -/
theorem ofNode_eq (h : s.AgreesBut names t) {n : Node} (hn : ¬ CallsOn src names n) :
    ofNode src s n = ofNode src t n := by
  rw [ofNode, ofNode]
  rcases hcall : loneCall? n with _ | call
  · rfl
  · have htarget : s.target? src call = t.target? src call := by
      refine h.target?_eq fun receiver hobject hkind hmem => hn ?_
      exact ⟨call, receiver, hcall, hobject, hkind, hmem⟩
    simp only [htarget]

/-- In scopes that answer alike throughout, statements have the same views. -/
theorem listOfNodes_eq (h : s.AgreesBut [] t) (ns : List Node) :
    listOfNodes src s ns = listOfNodes src t ns := by
  induction ns generalizing s t with
  | nil => rfl
  | cons n ns ih =>
    have hnone : ¬ CallsOn src [] n := by
      rintro ⟨call, receiver, -, -, -, hmem⟩
      exact List.not_mem_nil hmem
    rw [listOfNodes, listOfNodes, ofNode_eq h hnone, ih (h.after n)]

end Statement

/-- A method has the same view in two types whose scopes answer alike. -/
theorem MethodDecl.ofNode?_eq {src : Bytes} {s t : Scope} (h : s.AgreesBut [] t) (n : Node) :
    MethodDecl.ofNode? src s n = MethodDecl.ofNode? src t n := by
  have hbody : ∀ body,
      Statement.listOfBody src { s with locals := MethodDecl.parameters src n } body =
        Statement.listOfBody src { t with locals := MethodDecl.parameters src n } body :=
    fun _ => Statement.listOfNodes_eq (h.withLocals _) _
  rw [MethodDecl.ofNode?, MethodDecl.ofNode?, funext hbody]

end CallbackLint
