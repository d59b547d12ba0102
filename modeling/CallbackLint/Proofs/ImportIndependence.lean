import CallbackLint.Proofs.Census
import CallbackLint.Proofs.ImportTable
import CallbackLint.Proofs.Verdict
/-!
# Imports never decide whether a callback forwards

Imports feed the superclass of a type, the receivers that are plain names, and the calls
without a receiver. Still they do not matter to whether a callback forwards. The companion is
looked for by its last segment, and the table of a file keeps the last segment of every name; so
a receiver denotes types of one last segment under any two tables
(`ReceiverDenotes.withImports`). A call of the callback without a receiver goes to the type
itself, which declares the callback, before any static import is asked
(`CallDenotes.withImports`).

So two trees that differ in imports alone declare the same types with the same methods, and each
callback forwards in both or in neither (`ForwardsAlike`). What imports do decide is which types
are marked: where the marked types are the same, so are the findings
(`forwardsAlike_of_sameBesidesImports`).
-/

namespace CallbackLint

/-! ## Denotation under two import tables -/

namespace Surroundings

variable {S : Surroundings} {imports : Imports}

/-- The same place under another import table. -/
def withImports (S : Surroundings) (imports : Imports) : Surroundings :=
  { S with imports := imports }

/-- A plain name denotes types of one last segment: it is a variable under both tables or
under none, and else its last segment is that of the name. -/
theorem NameDenotes.withImports (hS : S.imports.BindsBySimpleName)
    (himports : imports.BindsBySimpleName) {x type : String} (h : S.NameDenotes x type) :
    ∃ type', (S.withImports imports).NameDenotes x type' ∧
      Name.simple type' = Name.simple type := by
  -- A name that is no variable denotes what the other table makes of it.
  have hfree : NoType S.src S.visible x → NoType S.src S.type.fieldMembers x →
      (S.withImports imports).NameDenotes x ((imports.types.get? x).getD x) := by
    intro hv hf
    rcases hget : imports.types.get? x with _ | full
    · exact .written hv hf hget
    · exact .imported hv hf hget
  cases h with
  | seen hv => exact ⟨type, .seen hv, rfl⟩
  | field hv hf => exact ⟨type, .field hv hf, rfl⟩
  | imported hv hf hget =>
    refine ⟨_, hfree hv hf, ?_⟩
    have hold := Imports.simple_getD_types hS x
    rw [hget, Option.getD_some] at hold
    rw [Imports.simple_getD_types himports, hold]
  | written hv hf hget =>
    exact ⟨_, hfree hv hf, Imports.simple_getD_types himports x⟩

/-- **A receiver denotes types of one last segment** under any two tables. -/
theorem ReceiverDenotes.withImports (hS : S.imports.BindsBySimpleName)
    (himports : imports.BindsBySimpleName) {receiver : Node} {type : String}
    (h : S.ReceiverDenotes receiver type) :
    ∃ type', (S.withImports imports).ReceiverDenotes receiver type' ∧
      Name.simple type' = Name.simple type := by
  cases h with
  | self hk => exact ⟨_, .self hk, rfl⟩
  | @super extended t written hk hext ht hw =>
    refine ⟨imports.qualify written, .super hk hext ht hw, ?_⟩
    rw [Imports.simple_qualify himports, Imports.simple_qualify hS]
  | name hk hn =>
    obtain ⟨type', hn', hsimple⟩ := hn.withImports hS himports
    exact ⟨type', .name hk hn', hsimple⟩
  | ownField hown hf => exact ⟨type, .ownField hown hf, rfl⟩
  | dotted hk hown hd ht => exact ⟨_, .dotted hk hown hd ht, rfl⟩

/-- **A call of a method that the type declares** denotes types of one last segment: it asks no
static import. -/
theorem CallDenotes.withImports (hS : S.imports.BindsBySimpleName)
    (himports : imports.BindsBySimpleName) {call m n : Node} {method owner : String}
    (hm : m ∈ S.type.methodMembers) (hn : m.child? "name" = some n)
    (htext : n.text S.src = method) (h : S.CallDenotes call method owner) :
    ∃ owner', (S.withImports imports).CallDenotes call method owner' ∧
      Name.simple owner' = Name.simple owner := by
  cases h with
  | own hobj hm' hn' htext' => exact ⟨_, .own hobj hm' hn' htext', rfl⟩
  | imported hobj hnone _ =>
    -- A static import is asked only for a method that the type does not declare.
    exact absurd htext (hnone m hm n hn)
  | receiver hobj hsuper hr =>
    obtain ⟨owner', hr', hsimple⟩ := hr.withImports hS himports
    exact ⟨owner', .receiver hobj hsuper hr', hsimple⟩

end Surroundings

namespace Forwarding

variable {c : Contract} {src : Bytes} {i j : Imports}

/-- A callback that forwards under one table does so under any other. -/
theorem Forwards.withImports (hi : i.BindsBySimpleName) (hj : j.BindsBySimpleName)
    {type method : Node} (hm : method ∈ type.methodMembers)
    (hcallback : nameOf? src method = some c.callback) (h : Forwards c src i type method) :
    Forwards c src j type method := by
  obtain ⟨n, hn, htext⟩ := Option.map_eq_some_iff.1 hcallback
  obtain ⟨name, body, before, statement, after, hname, hbody, hsplit, hkind, call, owner, hhead,
    hcall, hcallee, hdenotes, hcompanion⟩ := h
  obtain ⟨owner', hdenotes', hsimple⟩ :=
    Surroundings.CallDenotes.withImports hi hj hm hn htext hdenotes
  exact ⟨name, body, before, statement, after, hname, hbody, hsplit, hkind, call, owner', hhead,
    hcall, hcallee, hdenotes', hsimple.trans hcompanion⟩

end Forwarding

/-! ## Views under two import tables -/

/-- A method has the same name and the same span in every scope. -/
theorem MethodDecl.ofNode?_rel {src : Bytes} {scope scope' : Scope} {n : Node}
    {R : MethodDecl → MethodDecl → Prop}
    (h : ∀ m m', MethodDecl.ofNode? src scope n = some m →
      MethodDecl.ofNode? src scope' n = some m' → m.name = m'.name → m.span = m'.span → R m m') :
    Option.Rel R (MethodDecl.ofNode? src scope n) (MethodDecl.ofNode? src scope' n) := by
  rcases hname : n.child? "name" with _ | nameNode
  · rw [MethodDecl.ofNode?, MethodDecl.ofNode?, hname]
    exact .none
  · rw [MethodDecl.ofNode?, MethodDecl.ofNode?, hname, Option.map_some, Option.map_some]
    refine .some (h _ _ ?_ ?_ rfl rfl)
    · rw [MethodDecl.ofNode?, hname, Option.map_some]
    · rw [MethodDecl.ofNode?, hname, Option.map_some]

namespace TypeDecl

variable {c : Contract} {src : Bytes} {i j : Imports}

/-- Two views of a type with the same names, spans and methods, in which each callback forwards
in both or in neither. -/
structure ForwardsAlike (c : Contract) (d e : TypeDecl) : Prop where
  name_eq : d.name = e.name
  qualifiedName_eq : d.qualifiedName = e.qualifiedName
  span_eq : d.span = e.span
  methods : List.Forall₂ (fun m m' => m.name = m'.name ∧ m.span = m'.span ∧
    (m.name = c.callback → c.forwards d m = c.forwards e m')) d.methods e.methods

/-- A callback of a type forwards in both views or in neither. -/
theorem forwards_eq_of_imports (hi : i.BindsBySimpleName) (hj : j.BindsBySimpleName)
    {outer : List String} {type method nameNode : Node} {d e : TypeDecl} {m m' : MethodDecl}
    (hname : type.child? "name" = some nameNode) (hd : ofNode? src i outer type = some d)
    (he : ofNode? src j outer type = some e) (hmethod : method ∈ type.methodMembers)
    (hm : MethodDecl.ofNode? src (scopeOf src i (nameNode.text src) type) method = some m)
    (hm' : MethodDecl.ofNode? src (scopeOf src j (nameNode.text src) type) method = some m')
    (hcallback : m.name = c.callback) : c.forwards d m = c.forwards e m' := by
  have hown : Forwarding.nameOf? src method = some c.callback := by
    obtain ⟨n, hn, rfl⟩ := Option.map_eq_some_iff.1 hm
    rw [Forwarding.nameOf?, hn, ← hcallback]
    rfl
  rw [Bool.eq_iff_iff, Forwarding.forwards_iff hname hd hm, Forwarding.forwards_iff hname he hm']
  exact ⟨fun h => h.withImports hi hj hmethod hown, fun h => h.withImports hj hi hmethod hown⟩

theorem forall₂_filterMap_of_rel {α β : Type} {R : β → β → Prop} {f g : α → Option β} {xs : List α}
    (h : ∀ x ∈ xs, Option.Rel R (f x) (g x)) :
    List.Forall₂ R (xs.filterMap f) (xs.filterMap g) := by
  have hsame : List.Forall₂ (fun x y => Option.Rel R (f x) (g y)) xs xs :=
    List.forall₂_same.2 h
  exact List.rel_filterMap (fun _ _ hxy => hxy) hsame

/-- **One type** under two tables with the same package. -/
theorem forwardsAlike_ofNode? (hi : i.BindsBySimpleName) (hj : j.BindsBySimpleName)
    (hpackage : i.package = j.package) (outer : List String) (type : Node) :
    Option.Rel (ForwardsAlike c) (ofNode? src i outer type) (ofNode? src j outer type) := by
  rcases hname : type.child? "name" with _ | nameNode
  · rw [ofNode?, ofNode?, hname]
    exact .none
  rcases hd : ofNode? src i outer type with _ | d
  · rw [ofNode?, hname] at hd
    exact absurd hd (by simp)
  rcases he : ofNode? src j outer type with _ | e
  · rw [ofNode?, hname] at he
    exact absurd he (by simp)
  have hdview := hd
  have heview := he
  rw [ofNode?, hname, Option.map_some, Option.some.injEq] at hdview heview
  have hmethods : List.Forall₂ (fun m m' => m.name = m'.name ∧ m.span = m'.span ∧
      (m.name = c.callback → c.forwards d m = c.forwards e m')) d.methods e.methods := by
    rw [← congrArg TypeDecl.methods hdview, ← congrArg TypeDecl.methods heview]
    refine forall₂_filterMap_of_rel fun method hmethod => ?_
    rw [methodNodes_eq] at hmethod
    refine MethodDecl.ofNode?_rel fun m m' hm hm' hname_eq hspan_eq => ?_
    exact ⟨hname_eq, hspan_eq, forwards_eq_of_imports hi hj hname hd he hmethod hm hm'⟩
  exact .some ⟨by rw [← hdview, ← heview], by rw [← hdview, ← heview, hpackage],
    by rw [← hdview, ← heview], hmethods⟩

/-- **All types below a node** under two tables with the same package. -/
theorem forwardsAlike_below (hi : i.BindsBySimpleName) (hj : j.BindsBySimpleName)
    (hpackage : i.package = j.package) (outer : List String) (n : Node) :
    List.Forall₂ (ForwardsAlike c) (below src i outer n) (below src j outer n) := by
  rw [below_eq_filterMap, below_eq_filterMap]
  refine forall₂_filterMap_of_rel fun address _ => ?_
  rw [declaredBelow?, declaredBelow?]
  split
  · exact .none
  · rcases n.reach? address with _ | m
    · exact .none
    · rw [Option.bind_some, Option.bind_some, declared?, declared?]
      split
      · exact forwardsAlike_ofNode? hi hj hpackage _ m
      · exact .none

/-- The same for a list of sibling nodes. -/
theorem forwardsAlike_inNodes (hi : i.BindsBySimpleName) (hj : j.BindsBySimpleName)
    (hpackage : i.package = j.package) (outer : List String) (ns : List Node) :
    List.Forall₂ (ForwardsAlike c) (inNodes src i outer ns) (inNodes src j outer ns) := by
  have hbelow : List.Forall₂ (ForwardsAlike c) (below src i outer (.mk "" 0 0 true none ns))
      (below src j outer (.mk "" 0 0 true none ns)) :=
    forwardsAlike_below hi hj hpackage outer _
  rwa [below, below] at hbelow

/-- Methods of two such views are judged alike, where the types are both marked or both not. -/
theorem isViolation_eq {d e : TypeDecl} (h : ForwardsAlike c d e)
    (hmarked : c.isMarked d = c.isMarked e) :
    List.Forall₂ (fun m m' => m.span = m'.span ∧ c.isViolation d m = c.isViolation e m')
      d.methods e.methods := by
  refine h.methods.imp fun m m' hm => ⟨hm.2.1, ?_⟩
  obtain ⟨hname, -, hforwards⟩ := hm
  rw [Contract.isViolation, Contract.isViolation, hmarked, ← hname]
  by_cases hcallback : m.name = c.callback
  · rw [hforwards hcallback]
  · have hother : (m.name == c.callback) = false := by simpa using hcallback
    simp [hother]

end TypeDecl

/-! ## Trees that differ in imports -/

namespace Node

/-- Whether the node is an import. -/
def isImport (n : Node) : Bool :=
  n.kind == "import_declaration"

/-- Two roots with the same children but for the imports, and no type inside an import. Of the
roots themselves nothing is asked. -/
structure SameBesidesImports (t u : Node) : Prop where
  rest_eq : t.children.filter (fun c => !c.isImport) = u.children.filter (fun c => !c.isImport)
  left_typeless : ∀ c ∈ t.children, c.isImport = true → c.typeCount = 0
  right_typeless : ∀ c ∈ u.children, c.isImport = true → c.typeCount = 0

variable {t u : Node}

/-- An import sets no package. -/
theorem package_ofTree_filter (src : Bytes) (root : Node) :
    (Imports.ofTree src root).package =
      ((root.children.filter (fun c => !c.isImport)).filter named |>.filterMap
        (Imports.packageName? src)).getLast? := by
  have hkept : root.namedChildren.filterMap (Imports.packageName? src) =
      ((root.children.filter (fun c => !c.isImport)).filter named).filterMap
        (Imports.packageName? src) := by
    rw [List.filter_filter, List.filterMap_filter, namedChildren, List.filterMap_filter]
    refine List.filterMap_congr fun c _ => ?_
    by_cases hc : c.kind = "import_declaration"
    · simp [isImport, hc, Imports.packageName?]
    · simp [isImport, hc]
  rw [Imports.ofTree_eq, hkept]

end Node

namespace TypeDecl

open Node

variable {t u : Node}

/-- The walk passes over imports without types. -/
theorem listOfTree_eq_inNodes_filter {src : Bytes} {root : Node}
    (h : ∀ c ∈ root.children, c.isImport = true → c.typeCount = 0) :
    listOfTree src root =
      inNodes src (Imports.ofTree src root) [] (root.children.filter (fun c => !c.isImport)) := by
  rw [listOfTree, below_eq_inNodes, inNodes_filter]
  intro c hc himport
  exact h c hc (by simpa using himport)

/-- **Imports never decide whether a callback forwards.** -/
theorem forwardsAlike_of_sameBesidesImports (h : t.SameBesidesImports u) (src : Bytes)
    (c : Contract) :
    List.Forall₂ (ForwardsAlike c) (listOfTree src t) (listOfTree src u) ∧
    ∀ (path : Path) (p q : Bool),
      List.Forall₂ (fun d e => c.isMarked d = c.isMarked e) (listOfTree src t)
        (listOfTree src u) →
      (Rule.forwarding c).run ⟨path, src, t, p⟩ = (Rule.forwarding c).run ⟨path, src, u, q⟩ := by
  have hpackage : (Imports.ofTree src t).package = (Imports.ofTree src u).package := by
    rw [package_ofTree_filter, package_ofTree_filter, h.rest_eq]
  have halike : List.Forall₂ (ForwardsAlike c) (listOfTree src t) (listOfTree src u) := by
    rw [listOfTree_eq_inNodes_filter h.left_typeless, listOfTree_eq_inNodes_filter h.right_typeless,
      h.rest_eq]
    exact forwardsAlike_inNodes (Imports.bindsBySimpleName_ofTree src t)
      (Imports.bindsBySimpleName_ofTree src u) hpackage [] _
  refine ⟨halike, fun path p q hmarked => ?_⟩
  have hreported : List.Forall₂ (fun m m' => m.span = m'.span)
      (Forwarding.violationsIn c ⟨path, src, t, p⟩)
      (Forwarding.violationsIn c ⟨path, src, u, q⟩) :=
    Forwarding.forall₂_violationsIn (halike.mp (fun d e => isViolation_eq) hmarked)
  rw [Forwarding.run_eq_ok_reported, Forwarding.run_eq_ok_reported]
  congr 1
  rw [← List.forall₂_eq_eq_eq, List.forall₂_map_left_iff, List.forall₂_map_right_iff]
  exact hreported.imp fun m m' hspan => Forwarding.reported_congr hspan path

end TypeDecl

namespace ImportedCompanion

/-- A class that forwards to a companion with an imported name. -/
def src : Bytes :=
  Utf8.encode "import x.AOut;class A{void on(){AOut.on();}}"

/-- The import, `import x.AOut;`. -/
def importDecl : Node :=
  .mk "import_declaration" 0 14 true none [.mk "scoped_identifier" 7 13 true none []]

/-- The call `AOut.on()`. -/
def call : Node :=
  .mk "method_invocation" 32 41 true none
    [.mk "identifier" 32 36 true (some "object") [], .mk "identifier" 37 39 true (some "name") []]

def type : Node :=
  .mk "class_declaration" 14 44 true none
    [.mk "identifier" 20 21 true (some "name") [],
      .mk "class_body" 21 44 true (some "body")
        [.mk "method_declaration" 22 43 true none
          [.mk "identifier" 27 29 true (some "name") [],
            .mk "block" 31 43 true (some "body")
              [.mk "expression_statement" 32 42 true none [call]]]]]

/-- The file with the import and without it. -/
def tree : Node := .mk "program" 0 44 true none [importDecl, type]

def bare : Node := .mk "program" 0 44 true none [type]

def contract : Contract where
  markers := ["M"]
  callback := "on"
  suffix := "Out"

theorem sameBesidesImports : tree.SameBesidesImports bare where
  rest_eq := rfl
  left_typeless := by decide +kernel
  right_typeless := by decide +kernel

end ImportedCompanion

open ImportedCompanion TypeDecl in
/-- Without the import the callback still forwards, to a type of the same last segment. -/
theorem import_leaves_forwarding :
    tree.SameBesidesImports bare ∧
      (Imports.ofTree src tree).types.get? "AOut" = some "x.AOut" ∧
      (Imports.ofTree src bare).types.get? "AOut" = none ∧
      ((listOfTree src tree).map fun d => d.methods.map (contract.forwards d)) = [[true]] ∧
      List.Forall₂ (ForwardsAlike contract) (listOfTree src tree) (listOfTree src bare) :=
  ⟨sameBesidesImports, by decide +kernel, by decide +kernel, by decide +kernel,
    (forwardsAlike_of_sameBesidesImports sameBesidesImports src contract).1⟩

end CallbackLint
