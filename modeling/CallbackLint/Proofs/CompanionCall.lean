import CallbackLint.Proofs.ImportTable
import CallbackLint.Proofs.SelfCall
import CallbackLint.Proofs.Shadowing
/-!
# Calling the companion is forwarding

The call that a callback is meant to make names the companion and calls its method of the
callback's name. As long as no variable has the name of the companion, the name stands for a type
that ends in it: the type that is imported under the name, or one of that very name
(`NameDenotes.of_noVariable`). So the call forwards, wherever in the body it stands and whatever
else the file has (`forwards_of_companionCall`).
-/

namespace CallbackLint

/-- Where no declaration is of a name, none gives it a type. -/
theorem NoType.of_notMem {src : Bytes} {decls : List Node} {x : String}
    (h : ∀ d ∈ decls, x ∉ d.variableNames src) : NoType src decls x :=
  fun d hd hx => absurd hx (h d hd)

/-- **A plain name that is no variable stands for a type that ends in it.** -/
theorem Surroundings.NameDenotes.of_noVariable {S : Surroundings}
    (himports : S.imports.BindsBySimpleName) {x : String}
    (hfields : ∀ d ∈ S.type.fieldMembers, x ∉ d.variableNames S.src)
    (hvisible : ∀ d ∈ S.visible, x ∉ d.variableNames S.src) :
    ∃ type, S.NameDenotes x type ∧ Name.simple type = Name.simple x := by
  have hsimple := Imports.simple_getD_types himports x
  rcases hget : S.imports.types.get? x with _ | full
  · exact ⟨x, .written (.of_notMem hvisible) (.of_notMem hfields) hget, rfl⟩
  · rw [hget, Option.getD_some] at hsimple
    exact ⟨full, .imported (.of_notMem hvisible) (.of_notMem hfields) hget, hsimple⟩

namespace ViewedMethod

variable {src : Bytes} {root : Node} (v : ViewedMethod src root)

theorem ofNode?_type : TypeDecl.ofNode? src (Imports.ofTree src root)
    (TypeDecl.outerNames src root v.address) v.type = some v.typeView := by
  have hview := v.hasTypeView
  rw [Forwarding.declaredAt?_eq, v.atAddress] at hview
  exact hview

theorem exists_nameNode : ∃ nameNode, v.type.child? "name" = some nameNode ∧
    nameNode.text src = v.typeView.name := by
  obtain ⟨nameNode, hname, hview⟩ := Option.map_eq_some_iff.1 v.ofNode?_type
  exact ⟨nameNode, hname, by rw [← hview]⟩

/-- A method that forwards by its nodes does so by its view. -/
theorem forwards_iff (c : Contract) : c.forwards v.typeView v.view = true ↔
    Forwarding.Forwards c src (Imports.ofTree src root) v.type v.method := by
  obtain ⟨nameNode, hname, htext⟩ := v.exists_nameNode
  have hview := v.hasView
  rw [← htext] at hview
  exact Forwarding.forwards_iff hname v.ofNode?_type hview

end ViewedMethod

/-- A statement at the top level of a method that calls the callback on the name of the companion,
where neither a field nor a variable that the statement can see has that name. -/
structure CompanionCall {src : Bytes} {root : Node} (c : Contract) (v : ViewedMethod src root)
    extends PlainCall v.method where
  callsCallback : callee.text src = c.callback
  onCompanion : receiver.compactText src = c.companion v.typeView
  noField : ∀ d ∈ v.type.fieldMembers, c.companion v.typeView ∉ d.variableNames src
  noVariable : ∀ d ∈ MethodDecl.visible v.method before,
    c.companion v.typeView ∉ d.variableNames src

namespace CompanionCall

variable {src : Bytes} {root : Node} {c : Contract} {v : ViewedMethod src root}

/-- The statement is a forwarding one: its receiver stands for a type that ends in the name of
the companion, which has no further segments. -/
theorem forwardingStatement (p : CompanionCall c v)
    (hdot : '.' ∉ (c.companion v.typeView).toList) :
    Forwarding.ForwardingStatement c ⟨src, Imports.ofTree src root, v.type, v.typeView.name,
      MethodDecl.visible v.method p.before⟩ p.statement := by
  obtain ⟨hkind, hhead, hcall⟩ := Statement.loneCall?_eq_some_iff.1 p.isCall
  obtain ⟨owner, hdenotes, hsimple⟩ := Surroundings.NameDenotes.of_noVariable
    (S := ⟨src, Imports.ofTree src root, v.type, v.typeView.name,
      MethodDecl.visible v.method p.before⟩)
    (Imports.bindsBySimpleName_ofTree src root) p.noField p.noVariable
  have hname : Forwarding.nameOf? src p.call = some c.callback := by
    rw [Forwarding.nameOf?, p.hasCallee, Option.map_some, p.callsCallback]
  have hcompanion : Name.simple owner = v.typeView.name ++ c.suffix := by
    rw [hsimple, Name.simple_of_notMem hdot, Contract.companion]
  rw [← p.onCompanion] at hdenotes
  exact ⟨hkind, p.call, owner, hhead, hcall, hname,
    .receiver p.hasReceiver (.inr p.isDirect) (.name p.isPlain hdenotes), hcompanion⟩

theorem forwards (p : CompanionCall c v) (hdot : '.' ∉ (c.companion v.typeView).toList) :
    c.forwards v.typeView v.view = true := by
  obtain ⟨nameNode, hname, htext⟩ := v.exists_nameNode
  refine (v.forwards_iff c).2 ⟨v.typeView.name, p.body, p.before, p.statement, p.after, ?_,
    p.hasBody, p.inBody, p.forwardingStatement hdot⟩
  rw [Forwarding.nameOf?, hname, Option.map_some, htext]

end CompanionCall

/-- **Calling the companion is always forwarding.** Every callback with a body that is extracted
from a tree stands in it. Whatever the tree and the contract, a method with such a call in its
body forwards, provided the name of the companion has no dot; so it is none of the methods of its
type that are reported, and the findings in the file are the reports on these. -/
theorem forwards_of_companionCall (c : Contract) (src : Bytes) (root : Node) :
    (∀ d ∈ TypeDecl.listOfTree src root, ∀ m ∈ c.callbacks d, m.body ≠ none →
      ∃ v : ViewedMethod src root, v.typeView = d ∧ v.view = m) ∧
    (∀ v : ViewedMethod src root, '.' ∉ (c.companion v.typeView).toList → CompanionCall c v →
      c.forwards v.typeView v.view = true ∧ v.view ∉ c.violations v.typeView) ∧
    ∀ (path : Path) (errors : Bool), (Rule.forwarding c).run ⟨path, src, root, errors⟩ =
      .ok ((TypeDecl.listOfTree src root).flatMap fun d =>
        (c.violations d).map (Forwarding.reported path)) := by
  refine ⟨fun d hd m hm hbody => ?_, fun v hdot p => ?_, fun path errors => ?_⟩
  · exact ViewedMethod.exists_of_mem hd (List.mem_filter.1 hm).1 hbody
  · have hforwards : c.forwards v.typeView v.view = true := p.forwards hdot
    refine ⟨hforwards, fun hmem => ?_⟩
    have hviolation := (List.mem_filter.1 hmem).2
    rw [Contract.isViolation, hforwards] at hviolation
    exact absurd hviolation (by simp)
  · rw [Forwarding.run_eq_ok_reported, Forwarding.violationsIn, List.map_flatMap]
    rfl

namespace CallsCompanion

/-- A marked class that forwards to an imported companion, behind a local. -/
def src : Bytes :=
  Utf8.encode "import p.AX;@M class A{B b;void cb(){C c=f();AX.cb();}}"

def contract : Contract where
  markers := ["M"]
  callback := "cb"
  suffix := "X"

/-- The import, `import p.AX;`. -/
def companionImport : Node :=
  .mk "import_declaration" 0 12 true none [.mk "scoped_identifier" 7 11 true none []]

/-- The modifiers, `@M`. -/
def modifiers : Node :=
  .mk "modifiers" 12 14 true none
    [.mk "marker_annotation" 12 14 true none [.mk "identifier" 13 14 true (some "name") []]]

/-- The field, `B b;`. -/
def fieldDecl : Node :=
  .mk "field_declaration" 23 27 true none
    [.mk "type_identifier" 23 24 true (some "type") [],
      .mk "variable_declarator" 25 26 true (some "declarator")
        [.mk "identifier" 25 26 true (some "name") []]]

/-- The local, `C c=f();`. -/
def localDecl : Node :=
  .mk "local_variable_declaration" 37 45 true none
    [.mk "type_identifier" 37 38 true (some "type") [],
      .mk "variable_declarator" 39 44 true (some "declarator")
        [.mk "identifier" 39 40 true (some "name") []]]

/-- The call `AX.cb()` and its parts. -/
def receiver : Node := .mk "identifier" 45 47 true (some "object") []

def callee : Node := .mk "identifier" 48 50 true (some "name") []

def call : Node := .mk "method_invocation" 45 52 true none [receiver, callee]

def statement : Node := .mk "expression_statement" 45 53 true none [call]

def body : Node := .mk "block" 36 54 true (some "body") [localDecl, statement]

def method : Node :=
  .mk "method_declaration" 27 54 true none [.mk "identifier" 32 34 true (some "name") [], body]

def type : Node :=
  .mk "class_declaration" 12 55 true none
    [modifiers, .mk "identifier" 21 22 true (some "name") [],
      .mk "class_body" 22 55 true (some "body") [fieldDecl, method]]

def root : Node :=
  .mk "program" 0 55 true none [companionImport, type]

/-- The view of the method: the companion is the imported one. -/
def view : MethodDecl where
  name := "cb"
  body := some [.other "local_variable_declaration" "C c=f();",
    .call "AX.cb();" (some ⟨"p.AX", "cb"⟩)]
  span := ⟨1, 28, some 1, some 55, some "void cb()"⟩

def typeView : TypeDecl where
  name := "A"
  qualifiedName := "A"
  annotations := [⟨"M", some "M"⟩]
  methods := [view]
  span := ⟨1, 13, some 1, some 56, some "@M class A"⟩

def viewed : ViewedMethod src root where
  address := [1]
  type := type
  method := method
  body := body
  typeView := typeView
  view := view
  atAddress := rfl
  hasTypeView := by decide +kernel
  inType := List.mem_singleton_self method
  hasView := by decide +kernel
  hasBody := rfl

def companionCall : CompanionCall contract viewed where
  body := body
  before := [localDecl]
  statement := statement
  after := []
  call := call
  callee := callee
  receiver := receiver
  hasBody := rfl
  inBody := rfl
  isCall := rfl
  hasCallee := rfl
  hasReceiver := rfl
  isPlain := rfl
  isDirect := rfl
  callsCallback := by decide +kernel
  onCompanion := by decide +kernel
  noField := by decide +kernel
  noVariable := by decide +kernel

end CallsCompanion

open CallsCompanion in
/-- The class is marked, and its callback is not reported. -/
theorem importedCompanion_forwards :
    contract.isMarked viewed.typeView = true ∧ viewed.view ∈ contract.callbacks viewed.typeView ∧
      '.' ∉ (contract.companion viewed.typeView).toList ∧
      contract.forwards viewed.typeView viewed.view = true ∧
      viewed.view ∉ contract.violations viewed.typeView := by
  have hdot : '.' ∉ (contract.companion viewed.typeView).toList := by decide +kernel
  obtain ⟨-, hforwards, -⟩ := forwards_of_companionCall contract src root
  exact ⟨by decide +kernel, by decide +kernel, hdot, hforwards viewed hdot companionCall⟩

end CallbackLint
