import CallbackLint.Proofs.Verdict
/-!
# Calling oneself is not forwarding

A call without a receiver, or on `this`, goes to the type it stands in. Inside a callback this
holds of a call of the callback whatever the file imports: the type declares the callback, so
its own method is found before any static import (`CallDenotes.owner_of_isSelfCall`). And no
type is its own companion, as the last segment of a name is never the name with something
behind it (`simple_ne_append`).

So such a statement never makes a callback forward, and a callback forwards exactly when it
does without them (`forwards_withoutSelfCalls`).
-/

namespace CallbackLint

namespace Name

theorem length_lastSegment_le (cs : List Char) : (lastSegment cs).length ≤ cs.length := by
  rw [lastSegment, List.length_reverse]
  have hle := (List.takeWhile_prefix (l := cs.reverse) (· != '.')).length_le
  rwa [List.length_reverse] at hle

/-- The last segment of a name is too short to be the name with something behind it. -/
theorem simple_ne_append (name : String) {suffix : String} (h : suffix ≠ "") :
    simple name ≠ name ++ suffix := by
  intro heq
  have hlists : lastSegment name.toList = name.toList ++ suffix.toList := by
    rw [← String.toList_append, ← heq, simple, String.toList_ofList]
  have hle := length_lastSegment_le name.toList
  have hpos : 0 < suffix.toList.length :=
    List.length_pos_iff.2 fun hnil => h (String.toList_inj.1 (by rw [hnil]; rfl))
  rw [hlists, List.length_append] at hle
  omega

end Name

/-- Every contract that is put together from parts has a suffix. -/
theorem Contract.suffix_ofParts_ne (names : List String) (callback suffix : Option String) :
    (Contract.ofParts names callback suffix).suffix ≠ "" := by
  have hgiven : ∀ given? : Option String, Contract.given ({} : Contract).suffix given? ≠ "" := by
    intro given?
    rcases given? with _ | s
    · decide
    · rw [Contract.given]
      split
      · decide
      · rename_i hs
        simpa using hs
  exact hgiven suffix

namespace Statement

/-- A statement that is a call without a receiver, or a call on `this`. -/
def isSelfCall (n : Node) : Bool :=
  match loneCall? n with
  | some e =>
    match e.child? "object" with
    | some receiver => receiver.kind == "this"
    | none => true
  | none => false

/-- The statements of a body that have a view, one each. -/
def nodesOf (body : Node) : List Node :=
  body.namedChildren.filter (fun c => !c.isComment)

end Statement

namespace Surroundings

variable {S : Surroundings}

/-- **A call to oneself denotes the type around it**, provided the type declares a method of
that name: then no static import is asked. -/
theorem CallDenotes.owner_of_isSelfCall {statement call : Node} {method owner : String}
    (hcall : Statement.loneCall? statement = some call)
    (hself : Statement.isSelfCall statement = true)
    {m n : Node} (hm : m ∈ S.type.methodMembers) (hn : m.child? "name" = some n)
    (htext : n.text S.src = method) (h : S.CallDenotes call method owner) : owner = S.name := by
  simp only [Statement.isSelfCall, hcall] at hself
  cases h with
  | own => rfl
  | imported _ hnone _ => exact absurd htext (hnone m hm n hn)
  | @receiver receiver _ hobj _ hr =>
    have hthis : receiver.kind = "this" := by
      rw [hobj] at hself
      simpa using hself
    -- Every other rule is for receivers of another kind.
    cases hr with
    | self => rfl
    | super hk => exact absurd (hthis.symm.trans hk) (by decide)
    | name hk => exact absurd (hthis.symm.trans hk) (by decide)
    | ownField hown => exact absurd (hthis.symm.trans hown.1) (by decide)
    | dotted hk =>
      rcases hk with hk | hk
      · exact absurd (hthis.symm.trans hk) (by decide)
      · exact absurd (hthis.symm.trans hk) (by decide)

end Surroundings

/-- A method with a body as it stands in a tree, with the views of it and of its type. -/
structure ViewedMethod (src : Bytes) (root : Node) where
  address : List Nat
  type : Node
  method : Node
  body : Node
  typeView : TypeDecl
  view : MethodDecl
  atAddress : Forwarding.typeNodeAt? root address = some type
  hasTypeView : TypeDecl.declaredAt? src root address = some typeView
  inType : method ∈ type.methodMembers
  hasView : MethodDecl.ofNode? src
    (TypeDecl.scopeOf src (Imports.ofTree src root) typeView.name type) method = some view
  hasBody : method.child? "body" = some body

namespace ViewedMethod

variable {src : Bytes} {root : Node} (v : ViewedMethod src root)

/-- The statements of the body. -/
def statements : List Node :=
  Statement.nodesOf v.body

/-- The views of the statements, in the same order. -/
def views : List Statement :=
  v.view.body.getD []

/-- The view of the method without the views of the calls to oneself. -/
def withoutSelfCalls : MethodDecl :=
  { v.view with
    body := some (((v.statements.zip v.views).filter
      fun s => !Statement.isSelfCall s.1).map Prod.snd) }

/-- What can be seen where the body starts. -/
def scope : Scope :=
  { TypeDecl.scopeOf src (Imports.ofTree src root) v.typeView.name v.type with
    locals := MethodDecl.parameters src v.method }

variable {v}

theorem body_view : v.view.body = some (Statement.listOfNodes src v.scope v.statements) := by
  have hview := v.hasView
  obtain ⟨n, -, hn⟩ := Option.map_eq_some_iff.1 hview
  rw [← hn, v.hasBody]
  rfl

theorem views_eq : v.views = Statement.listOfNodes src v.scope v.statements := by
  rw [views, body_view, Option.getD_some]

theorem length_views : v.views.length = v.statements.length := by
  rw [views_eq, Statement.length_listOfNodes]

/-- Every method with a body that is extracted stands somewhere in the tree. -/
theorem exists_of_mem {d : TypeDecl} (hd : d ∈ TypeDecl.listOfTree src root) {m : MethodDecl}
    (hm : m ∈ d.methods) (hbody : m.body ≠ none) :
    ∃ v : ViewedMethod src root, v.typeView = d ∧ v.view = m := by
  rw [TypeDecl.listOfTree_eq_filterMap] at hd
  obtain ⟨address, -, hat⟩ := List.mem_filterMap.1 hd
  have hbind := hat
  rw [Forwarding.declaredAt?_eq] at hbind
  obtain ⟨type, htype, hview⟩ := Option.bind_eq_some_iff.1 hbind
  obtain ⟨nameNode, -, rfl⟩ := Option.map_eq_some_iff.1 hview
  obtain ⟨method, hmethod, hof⟩ := List.mem_filterMap.1 hm
  rw [TypeDecl.methodNodes_eq] at hmethod
  rcases hnode : method.child? "body" with _ | body
  · obtain ⟨n, -, rfl⟩ := Option.map_eq_some_iff.1 hof
    exact absurd (by rw [hnode]; rfl) hbody
  · exact ⟨⟨address, type, method, body, _, m, htype, hat, hmethod, hof, hnode⟩, rfl, rfl⟩

/-- A view stands beside the statement it was made of, in the scope that the statements in front
leave. -/
theorem exists_before_of_mem_zip {scope : Scope} {ns : List Node} {n : Node} {view : Statement}
    (h : (n, view) ∈ ns.zip (Statement.listOfNodes src scope ns)) :
    ∃ before : List Node, view = Statement.ofNode src (before.foldl (Scope.after src) scope) n := by
  induction ns generalizing scope with
  | nil => exact absurd h (by simp [Statement.listOfNodes])
  | cons m ms ih =>
    rw [Statement.listOfNodes, List.zip_cons_cons] at h
    rcases List.mem_cons.1 h with heq | h
    · obtain ⟨rfl, rfl⟩ := Prod.mk.inj heq
      exact ⟨[], rfl⟩
    · obtain ⟨before, rfl⟩ := ih h
      exact ⟨m :: before, rfl⟩

variable {c : Contract}

/-- **A call to oneself in a callback is no forwarding statement.** -/
theorem isForwarding_eq_false (hsuffix : c.suffix ≠ "") (hcallback : v.view.name = c.callback)
    {n : Node} {view : Statement} (hmem : (n, view) ∈ v.statements.zip v.views)
    (hself : Statement.isSelfCall n = true) : c.isForwarding v.typeView view = false := by
  rw [views_eq] at hmem
  obtain ⟨before, rfl⟩ := exists_before_of_mem_zip hmem
  have hfits : Scope.FitsIn ⟨src, Imports.ofTree src root, v.type, v.typeView.name,
      MethodDecl.visible v.method before⟩ (before.foldl (Scope.after src) v.scope) :=
    Scope.Fits.atStatement src _ v.typeView.name v.type v.method before
  obtain ⟨nameNode, hname, hview⟩ := Option.map_eq_some_iff.1 v.hasView
  have htext : nameNode.text src = c.callback := by
    rw [← hcallback, ← hview]
  rw [Bool.eq_false_iff]
  intro hforwarding
  obtain ⟨hkind, call, owner, hhead, hcallKind, -, hdenotes, hcompanion⟩ :=
    (Forwarding.isForwarding_iff hfits rfl).1 hforwarding
  have hcall := Statement.loneCall?_eq_some_iff.2 ⟨hkind, hhead, hcallKind⟩
  have howner : owner = v.typeView.name :=
    hdenotes.owner_of_isSelfCall hcall hself v.inType hname htext
  rw [howner] at hcompanion
  exact Name.simple_ne_append v.typeView.name hsuffix hcompanion

/-- Views that do not forward can be left out. -/
theorem any_map_snd_filter {l : List (Node × Statement)} {drop : Node → Bool}
    {p : Statement → Bool} (h : ∀ s ∈ l, drop s.1 = true → p s.2 = false) :
    ((l.filter fun s => !drop s.1).map Prod.snd).any p = (l.map Prod.snd).any p := by
  rw [List.any_map, List.any_map, Bool.eq_iff_iff, List.any_eq_true, List.any_eq_true]
  constructor
  · rintro ⟨s, hs, hp⟩
    exact ⟨s, (List.mem_filter.1 hs).1, hp⟩
  · rintro ⟨s, hs, hp⟩
    have hkept : drop s.1 = false := by
      rw [Bool.eq_false_iff]
      intro hdrop
      exact absurd hp (by rw [Function.comp_apply, h s hs hdrop]; decide)
    exact ⟨s, List.mem_filter.2 ⟨hs, by rw [hkept]; rfl⟩, hp⟩

end ViewedMethod

/-- **Calling oneself is never forwarding.** A contract that is put together from parts has a
suffix. Under any contract that has one, take a callback with a body; every one that is
extracted from a tree stands in it. None of its statements that is a call without a receiver, or
on `this`, is a forwarding one, and the callback forwards exactly when it does without the views
of these statements. -/
theorem forwards_withoutSelfCalls {c : Contract} (hsuffix : c.suffix ≠ "") (src : Bytes)
    (root : Node) :
    (∀ names callback suffix, (Contract.ofParts names callback suffix).suffix ≠ "") ∧
    (∀ d ∈ TypeDecl.listOfTree src root, ∀ m ∈ c.callbacks d, m.body ≠ none →
      ∃ v : ViewedMethod src root, v.typeView = d ∧ v.view = m) ∧
    ∀ v : ViewedMethod src root, v.view ∈ c.callbacks v.typeView →
      v.views.length = v.statements.length ∧
      (∀ s ∈ v.statements.zip v.views, Statement.isSelfCall s.1 = true →
        c.isForwarding v.typeView s.2 = false) ∧
      c.forwards v.typeView v.withoutSelfCalls = c.forwards v.typeView v.view := by
  refine ⟨Contract.suffix_ofParts_ne, fun d hd m hm hbody => ?_, fun v hv => ?_⟩
  · exact ViewedMethod.exists_of_mem hd (List.mem_filter.1 hm).1 hbody
  · have hcallback : v.view.name = c.callback := by
      simpa using (List.mem_filter.1 hv).2
    have hself : ∀ s ∈ v.statements.zip v.views, Statement.isSelfCall s.1 = true →
        c.isForwarding v.typeView s.2 = false := fun s hs hs' =>
      ViewedMethod.isForwarding_eq_false hsuffix hcallback hs hs'
    refine ⟨ViewedMethod.length_views, hself, ?_⟩
    have hviews : (v.statements.zip v.views).map Prod.snd = v.views :=
      List.map_snd_zip (by rw [ViewedMethod.length_views])
    rw [Contract.forwards, Contract.forwards, ViewedMethod.body_view, ← ViewedMethod.views_eq]
    simp only [ViewedMethod.withoutSelfCalls]
    rw [ViewedMethod.any_map_snd_filter hself, hviews]

namespace CallsItself

/-- A callback that calls itself twice, under a static import of the companion's method, and then
forwards. -/
def src : Bytes :=
  Utf8.encode "import static p.AX.cb;class A{void cb(){cb();this.cb();AX.cb();}}"

def contract : Contract where
  callback := "cb"
  suffix := "X"

/-- The import, `import static p.AX.cb;`. -/
def companionImport : Node :=
  .mk "import_declaration" 0 22 true none
    [.mk "static" 7 13 false none [], .mk "scoped_identifier" 14 21 true none []]

/-- The statement `cb();`. -/
def bareCall : Node :=
  .mk "expression_statement" 40 45 true none
    [.mk "method_invocation" 40 44 true none [.mk "identifier" 40 42 true (some "name") []]]

/-- The statement `this.cb();`. -/
def ownCall : Node :=
  .mk "expression_statement" 45 55 true none
    [.mk "method_invocation" 45 54 true none
      [.mk "this" 45 49 true (some "object") [], .mk "identifier" 50 52 true (some "name") []]]

/-- The statement `AX.cb();`. -/
def companionCall : Node :=
  .mk "expression_statement" 55 63 true none
    [.mk "method_invocation" 55 62 true none
      [.mk "identifier" 55 57 true (some "object") [],
        .mk "identifier" 58 60 true (some "name") []]]

def body : Node :=
  .mk "block" 39 64 true (some "body") [bareCall, ownCall, companionCall]

def method : Node :=
  .mk "method_declaration" 30 64 true none [.mk "identifier" 35 37 true (some "name") [], body]

def type : Node :=
  .mk "class_declaration" 22 65 true none
    [.mk "identifier" 28 29 true (some "name") [],
      .mk "class_body" 29 65 true (some "body") [method]]

def root : Node :=
  .mk "program" 0 65 true none [companionImport, type]

/-- The view of the method: both calls to oneself have the type itself as their target. -/
def view : MethodDecl where
  name := "cb"
  body := some [.call "cb();" (some ⟨"A", "cb"⟩), .call "this.cb();" (some ⟨"A", "cb"⟩),
    .call "AX.cb();" (some ⟨"AX", "cb"⟩)]
  span := ⟨1, 31, some 1, some 65, some "void cb()"⟩

def typeView : TypeDecl where
  name := "A"
  qualifiedName := "A"
  methods := [view]
  span := ⟨1, 23, some 1, some 66, some "class A"⟩

def viewed : ViewedMethod src root where
  address := [1]
  type := type
  method := method
  body := body
  typeView := typeView
  view := view
  atAddress := rfl
  hasTypeView := by decide +kernel
  inType := List.mem_singleton_self method
  hasView := by decide +kernel
  hasBody := rfl

end CallsItself

open CallsItself in
/-- Only the call of the companion is left when the calls to oneself are taken out, and with it
the callback forwards as before. -/
theorem callsItself_leave_forwards :
    contract.suffix ≠ "" ∧ viewed.view ∈ contract.callbacks viewed.typeView ∧
      viewed.withoutSelfCalls.body = some [.call "AX.cb();" (some ⟨"AX", "cb"⟩)] ∧
      contract.forwards viewed.typeView viewed.withoutSelfCalls = true ∧
      contract.forwards viewed.typeView viewed.view = true := by
  have hsuffix : contract.suffix ≠ "" := by decide
  have hcallback : viewed.view ∈ contract.callbacks viewed.typeView := by decide
  have hleft : viewed.withoutSelfCalls.body = some [.call "AX.cb();" (some ⟨"AX", "cb"⟩)] := by
    decide +kernel
  obtain ⟨-, -, hviews⟩ := forwards_withoutSelfCalls hsuffix src root
  obtain ⟨-, -, hsame⟩ := hviews viewed hcallback
  have hforwards : contract.forwards viewed.typeView viewed.view = true := by decide +kernel
  exact ⟨hsuffix, hcallback, hleft, by rw [hsame, hforwards], hforwards⟩

end CallbackLint
