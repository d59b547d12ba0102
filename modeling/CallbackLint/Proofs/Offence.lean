import CallbackLint.Analysis
import CallbackLint.Proofs.Denotation
import CallbackLint.Proofs.Extraction
import Mathlib.Data.List.Basic
/-!
# What the forwarding rule reports

An offence is a method that the forwarding rule has to report, said without the views that
the rule works on: in terms of the nodes of the tree, the import table, and what calls denote
(`Offends`). The types of a tree are listed by their addresses, and the methods of a type by
theirs below its body, so the offences of a file form a list (`offences`).

The main result is that the rule reports the offences, all of them and nothing else, in that
order (`run_eq_ok_offences`). On the way each part of the verdict is matched with its
counterpart: `isMarked_iff`, `forwards_iff`, `isViolation_iff`.
-/

namespace CallbackLint

namespace Forwarding

variable {c : Contract} {src : Bytes} {imports : Imports}

/-- The text of the name of a declaration or a call. -/
def nameOf? (src : Bytes) (n : Node) : Option String :=
  (n.child? "name").map (Node.text src)

/-- The type declaration with a name at an address below the root, reached through named
nodes. -/
def typeNodeAt? (root : Node) (address : List Nat) : Option Node :=
  if address = [] then none
  else (root.reach? address).filter (fun n => n.isTypeDecl && (n.child? "name").isSome)

/-- The type declarations with a name in a tree, in pre-order. -/
def typeNodes (root : Node) : List Node :=
  root.addresses.filterMap (typeNodeAt? root)

/-- The declaration has a marker among the annotations of its first list of modifiers. -/
def Marked (c : Contract) (src : Bytes) (imports : Imports) (type : Node) : Prop :=
  ∃ modifiers mark name, type.firstOf? ["modifiers"] = some modifiers ∧
    mark ∈ modifiers.namedChildren ∧
    (mark.kind = "marker_annotation" ∨ mark.kind = "annotation") ∧
    mark.child? "name" = some name ∧ imports.qualify (name.compactText src) ∈ c.markers

/-- A statement that is a call of the callback of the companion: its expression, comments
apart, is a call of that name, and the call denotes a method of a type whose last segment is
the name of the companion. -/
def ForwardingStatement (c : Contract) (S : Surroundings) (statement : Node) : Prop :=
  statement.kind = "expression_statement" ∧
    ∃ call owner, (statement.namedChildren.filter (fun e => !e.isComment)).head? = some call ∧
      call.kind = "method_invocation" ∧ nameOf? S.src call = some c.callback ∧
      S.CallDenotes call c.callback owner ∧ Name.simple owner = S.name ++ c.suffix

/-- A method of a type forwards: a statement at the top level of its body does. What the
statement can see are the parameters and the locals declared in front of it. -/
def Forwards (c : Contract) (src : Bytes) (imports : Imports) (type method : Node) : Prop :=
  ∃ name body before statement after, nameOf? src type = some name ∧
    method.child? "body" = some body ∧ body.namedChildren = before ++ statement :: after ∧
    ForwardingStatement c ⟨src, imports, type, name, MethodDecl.visible method before⟩ statement

/-- A callback of a marked type that does not forward. -/
structure Offends (c : Contract) (src : Bytes) (imports : Imports) (type method : Node) :
    Prop where
  marked : Marked c src imports type
  callback : nameOf? src method = some c.callback
  silent : ¬ Forwards c src imports type method

open Classical in
/-- The offences of a file: each type in pre-order with each of its methods that offends, in
order. -/
noncomputable def offences (c : Contract) (file : SourceFile) : List (Node × Node) :=
  (typeNodes file.tree).flatMap fun type =>
    (type.methodMembers.filter fun method =>
      Offends c file.bytes (Imports.ofTree file.bytes file.tree) type method).map (type, ·)

/-- The finding for a method of a file: where it starts and stops, and its head. -/
def report (file : SourceFile) (method : Node) : Finding where
  ruleId := issue.id
  message := message
  severity := issue.severity
  location :=
    { path := file.path
      line := (method.startPosition file.bytes).row + 1
      column := (method.startPosition file.bytes).column + 1
      endLine := some ((method.stopPosition file.bytes).row + 1)
      endColumn := some ((method.stopPosition file.bytes).column + 1)
      snippet := some (Span.snippetOf file.bytes method (method.child? "body")) }

/-! ## The parts of the verdict -/

/-- A type is marked by its annotations exactly when it is by its nodes. -/
theorem isMarked_iff {outer : List String} {type : Node} {d : TypeDecl}
    (hd : TypeDecl.ofNode? src imports outer type = some d) :
    c.isMarked d = true ↔ Marked c src imports type := by
  obtain ⟨nameNode, -, rfl⟩ := Option.map_eq_some_iff.1 hd
  simp only [Contract.isMarked, AnnotationUse.listOfDecl, Marked]
  rcases type.firstOf? ["modifiers"] with _ | modifiers
  · simp
  · simp only [List.any_map, List.any_eq_true, List.mem_filter, Option.some.injEq,
      Function.comp_apply, Bool.or_eq_true, beq_iff_eq]
    constructor
    · rintro ⟨a, ⟨hmem, hkind⟩, h⟩
      rcases hname : a.child? "name" with _ | n
      · simp [AnnotationUse.ofNode, hname] at h
      · refine ⟨modifiers, a, n, rfl, hmem, hkind, hname, ?_⟩
        simpa [AnnotationUse.ofNode, hname] using h
    · rintro ⟨_, a, n, rfl, hmem, hkind, hname, h⟩
      exact ⟨a, ⟨hmem, hkind⟩, by simpa [AnnotationUse.ofNode, hname] using h⟩

/-- A statement forwards by its view exactly when it does by its node, in a scope that fits. -/
theorem isForwarding_iff {S : Surroundings} {scope : Scope} (h : Scope.FitsIn S scope)
    {d : TypeDecl} (hd : d.name = S.name) {statement : Node} :
    c.isForwarding d (Statement.ofNode S.src scope statement) = true ↔
      ForwardingStatement c S statement := by
  constructor
  · intro hf
    rcases hcall : Statement.loneCall? statement with _ | call
    · simp [Statement.ofNode, hcall, Contract.isForwarding] at hf
    · obtain ⟨hkind, hhead, hcallKind⟩ := Statement.loneCall?_eq_some_iff.1 hcall
      rcases htarget : scope.target? S.src call with _ | ⟨owner, method⟩
      · simp [Statement.ofNode, hcall, htarget, Contract.isForwarding] at hf
      · simp only [Statement.ofNode, hcall, htarget, Contract.isForwarding, Target.simpleOwner,
          Contract.companion, hd, Bool.and_eq_true, beq_iff_eq] at hf
        obtain ⟨hcompanion, rfl⟩ := hf
        obtain ⟨-, ⟨n, hn, htext⟩, hdenotes⟩ := (Scope.target?_eq_some_iff h).1 htarget
        exact ⟨hkind, call, owner, hhead, hcallKind, by rw [nameOf?, hn, Option.map_some, htext],
          hdenotes, hcompanion⟩
  · rintro ⟨hkind, call, owner, hhead, hcallKind, hname, hdenotes, hcompanion⟩
    have hcall := Statement.loneCall?_eq_some_iff.2 ⟨hkind, hhead, hcallKind⟩
    have htarget := (Scope.target?_eq_some_iff h).2
      ⟨hcallKind, Option.map_eq_some_iff.1 hname, hdenotes⟩
    simp [Statement.ofNode, hcall, htarget, Contract.isForwarding, Target.simpleOwner,
      Contract.companion, hd, hcompanion]

/-- **A method forwards by its views exactly when it does by its nodes.** -/
theorem forwards_iff {outer : List String} {type method nameNode : Node} {d : TypeDecl}
    {m : MethodDecl} (hname : type.child? "name" = some nameNode)
    (hd : TypeDecl.ofNode? src imports outer type = some d)
    (hm : MethodDecl.ofNode? src (TypeDecl.scopeOf src imports (nameNode.text src) type) method =
      some m) :
    c.forwards d m = true ↔ Forwards c src imports type method := by
  have hdname : d.name = nameNode.text src := by
    rw [TypeDecl.ofNode?, hname] at hd
    rw [← Option.some.inj hd]
  have hscope : ∀ before : List Node, Scope.FitsIn
      ⟨src, imports, type, nameNode.text src, MethodDecl.visible method before⟩ _ :=
    Scope.Fits.atStatement src imports (nameNode.text src) type method
  obtain ⟨mname, -, rfl⟩ := Option.map_eq_some_iff.1 hm
  rw [Contract.forwards]
  rcases hbody : method.child? "body" with _ | body
  · simp [Forwards, hbody]
  · simp only [Option.map_some, List.any_eq_true]
    constructor
    · rintro ⟨view, hview, hf⟩
      obtain ⟨before, statement, after, hsplit, -, rfl⟩ := Statement.mem_listOfBody.1 hview
      exact ⟨nameNode.text src, body, before, statement, after, by rw [nameOf?, hname]; rfl, hbody,
        hsplit, (isForwarding_iff (hscope before) hdname).1 hf⟩
    · rintro ⟨name, body', before, statement, after, hname', hbody', hsplit, hf⟩
      obtain rfl := Option.some.inj (hbody.symm.trans hbody')
      rw [nameOf?, hname, Option.map_some, Option.some.injEq] at hname'
      subst hname'
      -- A forwarding statement is no comment, so it has a view.
      have hcomment : statement.isComment = false := by
        simp [Node.isComment, Node.commentKinds, hf.1]
      exact ⟨_, Statement.mem_listOfBody.2 ⟨before, statement, after, hsplit, hcomment, rfl⟩,
        (isForwarding_iff (hscope before) hdname).2 hf⟩

/-- So a method is to be reported exactly when it offends. -/
theorem isViolation_iff {outer : List String} {type method nameNode : Node} {d : TypeDecl}
    {m : MethodDecl} (hname : type.child? "name" = some nameNode)
    (hd : TypeDecl.ofNode? src imports outer type = some d)
    (hm : MethodDecl.ofNode? src (TypeDecl.scopeOf src imports (nameNode.text src) type) method =
      some m) :
    c.isViolation d m = true ↔ Offends c src imports type method := by
  have hmname : nameOf? src method = some m.name := by
    obtain ⟨n, hn, rfl⟩ := Option.map_eq_some_iff.1 hm
    rw [nameOf?, hn]
    rfl
  rw [Contract.isViolation, Bool.and_eq_true, Bool.and_eq_true, isMarked_iff hd, beq_iff_eq,
    Bool.not_eq_true', ← Bool.not_eq_true, forwards_iff hname hd hm]
  constructor
  · rintro ⟨⟨hmarked, hcallback⟩, hsilent⟩
    exact ⟨hmarked, by rw [hmname, hcallback], hsilent⟩
  · rintro ⟨hmarked, hcallback, hsilent⟩
    rw [hmname, Option.some.injEq] at hcallback
    exact ⟨⟨hmarked, hcallback⟩, hsilent⟩

/-! ## The findings -/

/-- What is counted from one is positive. -/
theorem positive_succ (field : String) (n : Nat) :
    Location.positive field ((n : Int) + 1) = .ok ((n : Int) + 1) := by
  rw [Location.positive, if_neg (by omega)]

/-- A method of a file can always be located: lines and columns are counted from one. -/
theorem findingFor_ofNode? {typeScope : Scope} {file : SourceFile} {method : Node} {m : MethodDecl}
    (hm : MethodDecl.ofNode? file.bytes typeScope method = some m) :
    findingFor file.path m = .ok (report file method) := by
  obtain ⟨n, -, rfl⟩ := Option.map_eq_some_iff.1 hm
  simp only [findingFor, locate, Location.make, Span.ofNode, Position.line, Position.shownColumn,
    Option.map_some, Int.ofNat_eq_natCast, Int.natCast_add, Int.cast_ofNat_Int,
    Location.positive?, positive_succ, Checked.and]
  rfl

/-- Where each part goes through, so does the whole. -/
theorem all_map_ok {α β : Type} {f : α → Checked β} {g : α → β} {xs : List α}
    (h : ∀ x ∈ xs, f x = .ok (g x)) : Checked.all (xs.map f) = .ok (xs.map g) := by
  induction xs with
  | nil => rfl
  | cons x xs ih =>
    have htail := ih fun y hy => h y (List.mem_cons_of_mem _ hy)
    simp only [List.map_cons, h x List.mem_cons_self, Checked.all, htail]

/-- The violations among some methods of a type, located, are the offences among their
nodes. -/
theorem map_findingFor_violations {file : SourceFile} {outer : List String}
    {type nameNode : Node} {d : TypeDecl} (hname : type.child? "name" = some nameNode)
    (hd : TypeDecl.ofNode? file.bytes imports outer type = some d) (methods : List Node)
    [DecidablePred (Offends c file.bytes imports type)] :
    (((methods.filterMap (MethodDecl.ofNode? file.bytes
        (TypeDecl.scopeOf file.bytes imports (nameNode.text file.bytes) type))).filter
          (c.isViolation d)).map (findingFor file.path)) =
      (methods.filter fun m => Offends c file.bytes imports type m).map
        fun m => .ok (report file m) := by
  induction methods with
  | nil => rfl
  | cons method methods ih =>
    rcases hm : MethodDecl.ofNode? file.bytes
      (TypeDecl.scopeOf file.bytes imports (nameNode.text file.bytes) type) method with _ | m
    · -- a method without a name is no callback
      have hnot : ¬ Offends c file.bytes imports type method := by
        intro ho
        have hcallback := ho.callback
        rw [nameOf?, Option.map_eq_none_iff.1 hm] at hcallback
        exact absurd hcallback (by simp)
      rw [List.filterMap_cons_none hm, List.filter_cons_of_neg (by simpa using hnot)]
      exact ih
    · rw [List.filterMap_cons_some hm]
      by_cases ho : Offends c file.bytes imports type method
      · rw [List.filter_cons_of_pos ((isViolation_iff hname hd hm).2 ho),
          List.filter_cons_of_pos (by simpa using ho), List.map_cons, List.map_cons, ih,
          findingFor_ofNode? hm]
      · rw [List.filter_cons_of_neg fun h => ho ((isViolation_iff hname hd hm).1 h),
          List.filter_cons_of_neg (by simpa using ho)]
        exact ih

/-- The view of a type is extracted where its node is listed. -/
theorem declaredAt?_eq (src : Bytes) (root : Node) (address : List Nat) :
    TypeDecl.declaredAt? src root address =
      (typeNodeAt? root address).bind
        (TypeDecl.ofNode? src (Imports.ofTree src root)
          (TypeDecl.outerNames src root address)) := by
  rw [TypeDecl.declaredAt?, TypeDecl.declaredBelow?, typeNodeAt?]
  split
  · rfl
  · rcases root.reach? address with _ | n
    · rfl
    · by_cases htype : n.isTypeDecl
      · rcases hname : n.child? "name" with _ | nameNode <;>
          simp [TypeDecl.declared?, TypeDecl.ofNode?, Option.filter, htype, hname]
      · simp [TypeDecl.declared?, Option.filter, htype]

open Classical in
/-- What is reported at an address: the offences of the type declared there. -/
theorem map_findingFor_declaredAt? (c : Contract) (file : SourceFile) (address : List Nat) :
    ((TypeDecl.declaredAt? file.bytes file.tree address).toList.flatMap c.violations).map
        (findingFor file.path) =
      ((typeNodeAt? file.tree address).toList.flatMap fun type =>
        type.methodMembers.filter fun m =>
          Offends c file.bytes (Imports.ofTree file.bytes file.tree) type m).map
            fun m => .ok (report file m) := by
  rw [declaredAt?_eq]
  rcases htype : typeNodeAt? file.tree address with _ | type
  · rfl
  · have hsome : (type.child? "name").isSome := by
      rw [typeNodeAt?] at htype
      split at htype
      · exact absurd htype (by simp)
      · have hfilter := (Option.filter_eq_some_iff.1 htype).2
        rw [Bool.and_eq_true] at hfilter
        exact hfilter.2
    obtain ⟨nameNode, hname⟩ := Option.isSome_iff_exists.1 hsome
    rw [Option.bind_some]
    rcases hd : TypeDecl.ofNode? file.bytes (Imports.ofTree file.bytes file.tree)
      (TypeDecl.outerNames file.bytes file.tree address) type with _ | d
    · rw [TypeDecl.ofNode?, hname] at hd
      exact absurd hd (by simp)
    · have hmethods : d.methods = type.methodMembers.filterMap
          (MethodDecl.ofNode? file.bytes (TypeDecl.scopeOf file.bytes
            (Imports.ofTree file.bytes file.tree) (nameNode.text file.bytes) type)) := by
        rw [TypeDecl.ofNode?, hname] at hd
        rw [← Option.some.inj hd, ← TypeDecl.methodNodes_eq]
      simp only [Option.toList_some, List.flatMap_singleton, Contract.violations, hmethods]
      exact map_findingFor_violations hname hd _

open Classical in
/-- **The rule reports the offences of a file and nothing else**, one finding for each, type
by type in pre-order and in the order of the methods. -/
theorem run_eq_ok_offences (c : Contract) (file : SourceFile) :
    (Rule.forwarding c).run file = .ok ((offences c file).map fun o => report file o.2) := by
  have hpieces : (violationsIn c file).map (findingFor file.path) =
      ((offences c file).map Prod.snd).map fun m => .ok (report file m) := by
    rw [violationsIn, SourceFile.types, TypeDecl.listOfTree_eq_filterMap, offences, typeNodes,
      List.filterMap_eq_flatMap_toList, List.filterMap_eq_flatMap_toList, List.flatMap_assoc,
      List.flatMap_assoc, List.map_flatMap, List.map_flatMap, List.map_flatMap]
    -- Both sides go through the addresses of the tree, so they are compared at one address.
    refine List.flatMap_congr fun address _ => ?_
    rw [map_findingFor_declaredAt?, List.map_flatMap, List.map_flatMap, List.map_flatMap]
    refine List.flatMap_congr fun type _ => ?_
    rw [List.map_map, List.map_map]
    rfl
  have hrun : (Rule.forwarding c).run file =
      Checked.all ((violationsIn c file).map (findingFor file.path)) := rfl
  rw [hrun, hpieces, all_map_ok fun m _ => rfl, List.map_map]
  rfl

end Forwarding

end CallbackLint
