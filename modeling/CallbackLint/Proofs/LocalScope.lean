import CallbackLint.Proofs.Agreement
import CallbackLint.Proofs.Comments
/-!
# Where a local can be seen

A local is visible from the statement after its declaration on, at the top level of the body that
declares it. So the view of a statement depends on no more than the scope of the type, the
parameters and the locals declared in front of it (`viewIn`).

What a node does to the views of a body is then seen by putting it there
(`views_of_insertion`). The views in front of it stay. Behind it nothing changes either, unless
the node declares locals, and then only calls on a name that it declares can have another view:
before and behind the node the scopes agree but for these names (`agreesBut_after`).
-/

namespace CallbackLint

namespace Scope

variable {src : Bytes}

/-- A statement changes what a scope says of the variables it declares and of nothing else. -/
theorem agreesBut_after (scope : Scope) (n : Node) :
    scope.AgreesBut (n.variableNames src) (scope.after src n) := by
  rw [Scope.after]
  split
  · refine ⟨rfl, rfl, rfl, fun _ => Iff.rfl, fun _ => rfl, ?_⟩
    intro x hx
    have hsilent : n.givenType? src x = none := by
      rw [Node.givenType?, if_neg hx]
    rw [Bindings.get?_update _ (Bindings.distinct_ofDeclarations src [n]),
      Bindings.get?_ofDeclarations]
    simp [hsilent]
  · exact .refl _ scope

/-- Only a declaration of locals changes the scope. -/
theorem after_of_ne {n : Node} (hn : n.kind ≠ "local_variable_declaration") (scope : Scope) :
    scope.after src n = scope := by
  simp [Scope.after, hn]

/-- Of the statements in front only the declarations of locals count. -/
theorem foldl_after_localNodes (scope : Scope) (before : List Node) :
    (MethodDecl.localNodes before).foldl (Scope.after src) scope =
      before.foldl (Scope.after src) scope := by
  induction before generalizing scope with
  | nil => rfl
  | cons n ns ih =>
    by_cases hn : n.kind = "local_variable_declaration"
    · rw [MethodDecl.localNodes, List.filter_cons_of_pos (by simpa using hn)]
      exact ih _
    · rw [MethodDecl.localNodes, List.filter_cons_of_neg (by simpa using hn), List.foldl_cons,
        after_of_ne hn]
      exact ih scope

end Scope

namespace Statement

variable {src : Bytes}

/-- The nodes among the children of a body that have a view. -/
def shown (cs : List Node) : List Node :=
  (cs.filter Node.named).filter (fun c => !c.isComment)

/-- The view of a statement, from what is visible in its type, the parameters of its method and
the declarations of locals in front of it. -/
def viewIn (src : Bytes) (typeScope : Scope) (parameters locals : List Node) (statement : Node) :
    Statement :=
  ofNode src (locals.foldl (Scope.after src)
    { typeScope with locals := Bindings.ofDeclarations src parameters }) statement

theorem shown_append (cs ds : List Node) : shown (cs ++ ds) = shown cs ++ shown ds := by
  rw [shown, List.filter_append, List.filter_append]
  rfl

theorem shown_singleton (n : Node) :
    shown [n] = if n.named && !n.isComment then [n] else [] := by
  cases hnamed : n.named <;> cases hcomment : n.isComment <;> simp [shown, hnamed, hcomment]

/-- A node that has no view declares nothing, and no other node declares more than its variables. -/
theorem agreesBut_shown (scope : Scope) (n : Node) :
    scope.AgreesBut (n.variableNames src) ((shown [n]).foldl (Scope.after src) scope) := by
  rw [shown_singleton]
  split
  · exact scope.agreesBut_after n
  · exact .refl _ scope

/-- So any other node does not, whether it is viewed or not. -/
theorem foldl_after_shown {n : Node} (hn : n.kind ≠ "local_variable_declaration") (scope : Scope) :
    (shown [n]).foldl (Scope.after src) scope = scope := by
  rw [shown_singleton]
  split
  · exact Scope.after_of_ne hn scope
  · rfl

/-- Statements in a row are viewed in two runs, the second in the scope that the first leaves. -/
theorem listOfNodes_append (scope : Scope) (ms ns : List Node) :
    listOfNodes src scope (ms ++ ns) =
      listOfNodes src scope ms ++ listOfNodes src (ms.foldl (Scope.after src) scope) ns := by
  induction ms generalizing scope with
  | nil => rfl
  | cons m ms ih => rw [List.cons_append, listOfNodes, ih, listOfNodes, List.cons_append]; rfl

/-- The views of a body with a cut in it: what is behind the cut is seen in the scope that the
statements in front of it leave. -/
theorem listOfNodes_shown_append (scope : Scope) (cs ds : List Node) :
    listOfNodes src scope (shown (cs ++ ds)) =
      listOfNodes src scope (shown cs) ++
        listOfNodes src ((shown cs).foldl (Scope.after src) scope) (shown ds) := by
  rw [shown_append, listOfNodes_append]

/-- A view is that of the statement at its position. -/
theorem getElem?_listOfNodes (scope : Scope) (ns : List Node) (j : Nat) :
    (listOfNodes src scope ns)[j]? =
      ns[j]?.map (ofNode src ((ns.take j).foldl (Scope.after src) scope)) := by
  induction ns generalizing scope j with
  | nil => rfl
  | cons n ns ih =>
    cases j with
    | zero => rfl
    | succ j => exact ih (scope.after src n) j

/-- **Where two scopes agree but for some names, a view that differs is one of a call on such a
name.** -/
theorem callsOn_of_ne {names : List String} {s t : Scope} (h : s.AgreesBut names t)
    {ns : List Node} {j : Nat} (hne : (listOfNodes src t ns)[j]? ≠ (listOfNodes src s ns)[j]?) :
    ∃ n, ns[j]? = some n ∧ CallsOn src names n := by
  rw [getElem?_listOfNodes, getElem?_listOfNodes] at hne
  rcases hn : ns[j]? with _ | n
  · rw [hn] at hne
    exact absurd rfl hne
  · refine ⟨n, rfl, ?_⟩
    by_contra hcalls
    have hsame : ofNode src ((ns.take j).foldl (Scope.after src) s) n =
        ofNode src ((ns.take j).foldl (Scope.after src) t) n :=
      ofNode_eq (h.foldl_after (ns.take j)) hcalls
    rw [hn, Option.map_some, Option.map_some, hsame] at hne
    exact hne rfl

end Statement

/-! ## A method with one node more in its body -/

namespace MethodDecl

open Statement

variable {src : Bytes} {typeScope : Scope} {method nameNode body : Node}

/-- The method with `n` in its body, before the child `i`. -/
def withInBody (n : Node) (i : Nat) (method : Node) : Node :=
  method.editChild "body" (Node.insertChild n i [])

/-- One more node in the body is seen in the field of the body only. -/
theorem child?_withInBody (n : Node) (i : Nat) (method : Node) (f : String) :
    (withInBody n i method).child? f =
      if f = "body" then (method.child? "body").map (Node.insertChild n i []) else
        method.child? f :=
  Node.child?_editChild (fun c => by rw [Node.insertChild, Node.field_withChildren]) "body" f method

/-- The view of a method with a name and a body. -/
theorem ofNode?_of_body (hname : method.child? "name" = some nameNode)
    (hbody : method.child? "body" = some body) :
    ofNode? src typeScope method =
      some ⟨nameNode.text src,
        some (listOfNodes src { typeScope with locals := parameters src method }
          (shown body.children)),
        Span.ofNode src method (some body)⟩ := by
  rw [ofNode?, hname, hbody]
  rfl

/-- So the method is viewed with one more statement, and as before in everything else. -/
theorem ofNode?_withInBody (hname : method.child? "name" = some nameNode)
    (hbody : method.child? "body" = some body) (n : Node) (i : Nat) :
    ofNode? src typeScope (withInBody n i method) =
      some ⟨nameNode.text src,
        some (listOfNodes src { typeScope with locals := parameters src method }
          (shown (body.children.take i ++ n :: body.children.drop i))),
        Span.ofNode src method (some body)⟩ := by
  have hname' : (withInBody n i method).child? "name" = some nameNode := by
    rw [child?_withInBody, if_neg (by decide), hname]
  have hbody' : (withInBody n i method).child? "body" =
      some (body.withChildren (body.children.take i ++ n :: body.children.drop i)) := by
    rw [child?_withInBody, if_pos rfl, hbody]
    rfl
  have hparameters : parameters src (withInBody n i method) = parameters src method := by
    rw [parameters, parameters, child?_withInBody, if_neg (by decide)]
  have hspan : Span.ofNode src (withInBody n i method)
      (some (body.withChildren (body.children.take i ++ n :: body.children.drop i))) =
        Span.ofNode src method (some body) := by
    simp [Span.ofNode, Span.snippetOf, withInBody, Node.editChild, Node.startPosition,
      Node.stopPosition]
  rw [ofNode?_of_body hname' hbody', hparameters, hspan, Node.children_withChildren]

end MethodDecl

/-- Statements that are added take no forwarding away. -/
theorem Contract.forwards_of_sublist {c : Contract} {d : TypeDecl} {m m' : MethodDecl}
    {old new : List Statement} (hm : m.body = some old) (hm' : m'.body = some new)
    (h : old.Sublist new) (hforwards : c.forwards d m = true) : c.forwards d m' = true := by
  rw [Contract.forwards, hm] at hforwards
  rw [Contract.forwards, hm']
  obtain ⟨statement, hmem, hstatement⟩ := List.any_eq_true.1 hforwards
  exact List.any_eq_true.2 ⟨statement, h.subset hmem, hstatement⟩

open MethodDecl Statement in
/-- **Where a local can be seen.** A node `n` is put into the body of a method, at any place
among its children. Name and span of the method stay, and so do the views in front of `n`
(`early`); `n` itself has a view of its own unless it is a comment or not named (`added`).

* If `n` declares no locals, then the views behind it are the same too. So the views are the old
  ones with at most one between them, and a method that forwards still does.
* In any case a view behind `n` is another one only where its statement is a call on a plain
  name, and `n` declares that name.
* The view of a statement depends on the scope of the type, the parameters and the declarations
  of locals in front of it. -/
theorem views_of_insertion (src : Bytes) (typeScope : Scope) {method nameNode body : Node}
    (hname : method.child? "name" = some nameNode) (hbody : method.child? "body" = some body)
    (n : Node) (i : Nat) :
    ∃ (m m' : MethodDecl) (early added late late' : List Statement),
      ofNode? src typeScope method = some m ∧
      ofNode? src typeScope (withInBody n i method) = some m' ∧
      m'.name = m.name ∧ m'.span = m.span ∧
      m.body = some (early ++ late) ∧ m'.body = some (early ++ added ++ late') ∧
      early.length = (shown (body.children.take i)).length ∧
      late.length = (shown (body.children.drop i)).length ∧ late'.length = late.length ∧
      added.length = (if n.named && !n.isComment then 1 else 0) ∧
      (n.kind ≠ "local_variable_declaration" → late' = late ∧
        ∀ (c : Contract) (d : TypeDecl), c.forwards d m = true → c.forwards d m' = true) ∧
      (∀ j : Nat, late'[j]? ≠ late[j]? → ∃ later, (shown (body.children.drop i))[j]? = some later ∧
        CallsOn src (n.variableNames src) later) ∧
      ∀ before statement after, body.namedChildren = before ++ statement :: after →
        statement.isComment = false →
        (early ++ late)[indexAfter before]? =
          some (viewIn src typeScope (parameterNodes method) (localNodes before) statement) := by
  -- What can be seen at the top of the body, at the cut, and behind the node that is put there.
  let top : Scope := { typeScope with locals := parameters src method }
  let cut : Scope := (shown (body.children.take i)).foldl (Scope.after src) top
  let behind : Scope := (shown [n]).foldl (Scope.after src) cut
  let early := listOfNodes src top (shown (body.children.take i))
  let added := listOfNodes src cut (shown [n])
  let late := listOfNodes src cut (shown (body.children.drop i))
  let late' := listOfNodes src behind (shown (body.children.drop i))
  have hold : listOfNodes src top (shown body.children) = early ++ late := by
    rw [← listOfNodes_shown_append, List.take_append_drop]
  have hnew : listOfNodes src top
      (shown (body.children.take i ++ n :: body.children.drop i)) = early ++ added ++ late' := by
    rw [List.append_cons, listOfNodes_shown_append, listOfNodes_shown_append, shown_append,
      List.foldl_append]
  refine ⟨_, _, early, added, late, late', ofNode?_of_body hname hbody,
    ofNode?_withInBody hname hbody n i, rfl, rfl, congrArg some hold, congrArg some hnew,
    length_listOfNodes _ _, length_listOfNodes _ _, ?_, ?_, fun hn => ?_, fun j hne => ?_,
    fun before statement after hsplit hcomment => ?_⟩
  · rw [length_listOfNodes, length_listOfNodes]
  · rw [length_listOfNodes, shown_singleton]
    split <;> rfl
  · have hbehind : behind = cut := foldl_after_shown hn cut
    have hsame : late' = late :=
      congrArg (fun scope => listOfNodes src scope (shown (body.children.drop i))) hbehind
    refine ⟨hsame, fun c d hforwards => ?_⟩
    refine Contract.forwards_of_sublist (congrArg some hold) (congrArg some hnew) ?_ hforwards
    rw [hsame]
    exact (List.sublist_append_left early added).append_right late
  · exact callsOn_of_ne (agreesBut_shown cut n) hne
  · have hview : (early ++ late)[indexAfter before]? =
        some (ofNode src (before.foldl (Scope.after src) top) statement) := by
      rw [← hold]
      exact getElem?_listOfBody hsplit hcomment
    rw [hview, viewIn, Scope.foldl_after_localNodes, ← parameters_eq]

namespace LocalInserted

/-- A declaration of a local, and a method that calls on its name twice. -/
def src : Bytes :=
  Utf8.encode "C a=f();void m(){a.go();b.go();a.go();}"

/-- The local, `C a=f();`. -/
def localDecl : Node :=
  .mk "local_variable_declaration" 0 8 true none
    [.mk "type_identifier" 0 1 true (some "type") [],
      .mk "variable_declarator" 2 7 true (some "declarator")
        [.mk "identifier" 2 3 true (some "name") []]]

/-- The statement `x.go();` at an offset, for a name `x` of one letter. -/
def callAt (k : Nat) : Node :=
  .mk "expression_statement" k (k + 7) true none
    [.mk "method_invocation" k (k + 6) true none
      [.mk "identifier" k (k + 1) true (some "object") [],
        .mk "identifier" (k + 2) (k + 4) true (some "name") []]]

def nameNode : Node := .mk "identifier" 13 14 true (some "name") []

def block : Node := .mk "block" 16 39 true (some "body") [callAt 17, callAt 24, callAt 31]

def method : Node := .mk "method_declaration" 8 39 true none [nameNode, block]

def typeScope : Scope where
  typeName := "A"

/-- The views of the first statement and of the local behind it. -/
def first : Statement := .call "a.go();" (some ⟨"a", "go"⟩)

def inserted : Statement := .other "local_variable_declaration" "C a=f();"

/-- The views of the other statements, without the local and with it in front of them. -/
def late : List Statement :=
  [.call "b.go();" (some ⟨"b", "go"⟩), .call "a.go();" (some ⟨"a", "go"⟩)]

def late' : List Statement :=
  [.call "b.go();" (some ⟨"b", "go"⟩), .call "a.go();" (some ⟨"C", "go"⟩)]

end LocalInserted

open LocalInserted MethodDecl Statement in
/-- With the local behind the first statement the last one has another view, and it is a call on
the name of the local. -/
theorem localInserted_callsOn :
    method.child? "name" = some nameNode ∧ method.child? "body" = some block ∧
      (ofNode? src typeScope method).bind MethodDecl.body = some ([first] ++ late) ∧
      (ofNode? src typeScope (withInBody localDecl 1 method)).bind MethodDecl.body =
        some ([first] ++ ([inserted] ++ late')) ∧
      late'[1]? ≠ late[1]? ∧ CallsOn src (localDecl.variableNames src) (callAt 31) := by
  have hname : method.child? "name" = some nameNode := rfl
  have hbody : method.child? "body" = some block := rfl
  have hold : (ofNode? src typeScope method).bind MethodDecl.body = some ([first] ++ late) := by
    decide +kernel
  have hnew : (ofNode? src typeScope (withInBody localDecl 1 method)).bind MethodDecl.body =
      some ([first] ++ ([inserted] ++ late')) := by decide +kernel
  have hne : late'[1]? ≠ late[1]? := by decide
  refine ⟨hname, hbody, hold, hnew, hne, ?_⟩
  obtain ⟨m, m', early, added, behind, behind', hm, hm', -, -, hviews, hviews', hearly, -, -,
    hadded, -, hchanged, -⟩ := views_of_insertion src typeScope hname hbody localDecl 1
  rw [hm, Option.bind_some, hviews] at hold
  rw [hm', Option.bind_some, hviews', List.append_assoc] at hnew
  obtain ⟨-, rfl⟩ := List.append_inj (Option.some.inj hold) hearly
  obtain ⟨-, hrest⟩ := List.append_inj (Option.some.inj hnew) hearly
  obtain ⟨-, rfl⟩ := List.append_inj hrest hadded
  obtain ⟨later, hlater, hcalls⟩ := hchanged 1 hne
  obtain rfl : callAt 31 = later := Option.some.inj hlater
  exact hcalls

end CallbackLint
