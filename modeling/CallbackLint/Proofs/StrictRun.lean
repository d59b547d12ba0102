import CallbackLint.Proofs.ImportTable
import CallbackLint.Proofs.Verdict
/-!
# The rule never stops half-way

A run of the forwarding rule takes things that need not be there: the first line of a text, the
first type behind `extends`, the first expression of a statement, the first letter of a name,
what a name is bound to. And it makes locations, which are refused when a line or a column is
below one. Here the rule is run strictly: each of these steps stops the run where there is
nothing to take or where a location is refused (`Stop`), and each is guarded by a test or not
just as the rule does it. The findings go into a sink, one report after the other.

A strict step never stops, and gives what the rule has in its place: one equation for each, from
the letters of a name (`simple_eq_ok`) over the views of a file (`types_eq_ok`) to the reports
(`checkType_eq_ok`). So a strict run comes to an end on every file, with one finding in the sink
for each violation (`check_eq_ok`).
-/

namespace CallbackLint

/-- The lines of a text, as `Text.firstLine` breaks them; a carriage return and a line feed behind
it end one line, and nothing follows the last break. -/
def Text.lines : List Char → List (List Char)
  | [] => []
  | '\r' :: '\n' :: cs => [] :: lines cs
  | c :: cs =>
    if isLineBreak c then [] :: lines cs
    else
      match lines cs with
      | [] => [[c]]
      | l :: ls => (c :: l) :: ls

namespace Strict

/-! ## The run -/

/-- What stops a run. -/
inductive Stop where
  /-- A place that a list does not have. -/
  | noItem
  /-- A name that is not bound. -/
  | noBinding
  /-- A record with fields that are refused. -/
  | refused (faults : List FieldFault)
deriving Repr, DecidableEq

variable {α β : Type}

/-- The first item of a list. -/
def firstItem : List α → Except Stop α
  | a :: _ => .ok a
  | [] => .error .noItem

/-- The last item of a list. -/
def lastItem (xs : List α) : Except Stop α :=
  match xs.getLast? with
  | some a => .ok a
  | none => .error .noItem

/-- What a name is bound to. -/
def binding (b : Bindings) (name : String) : Except Stop String :=
  match b.get? name with
  | some value => .ok value
  | none => .error .noBinding

/-- A record that is made. -/
def record : Checked α → Except Stop α
  | .ok a => .ok a
  | .error faults => .error (.refused faults)

/-- A name cut at its last dot, in one piece when there is none. -/
def cut (name : String) : List String :=
  if Name.isQualified name then [Name.qualifier name, Name.simple name] else [name]

/-- The last segment of a name. -/
def simple (name : String) : Except Stop String :=
  lastItem (cut name)

/-- Whether a segment is spelled like a type. -/
def isTypeLike (segment : String) : Except Stop Bool :=
  if segment.toList.isEmpty then .ok false
  else do
    let c ← firstItem segment.toList
    return 'A' ≤ c && c ≤ 'Z'

/-- The type that a dotted text names. -/
def dottedType? (text : String) : Except Stop (Option String) :=
  if Name.isDotted text then do
    let last ← simple text
    let typeLike ← isTypeLike last
    return if typeLike then some text else none
  else .ok none

/-- The import table after one more declaration; an imported type is bound under the last segment
of its name. -/
def addImport (src : Bytes) (t : Imports) (n : Node) : Except Stop Imports :=
  if n.kind == "import_declaration" && !n.hasChild "asterisk" && !n.hasChild "static" then
    match Imports.declaredName? src n with
    | some name => do
      let key ← simple name
      return { t with types := t.types.put key name }
    | none => .ok t
  else .ok (t.add src n)

/-- The import table of a file. -/
def imports (src : Bytes) (root : Node) : Except Stop Imports :=
  root.namedChildren.foldlM (addImport src) {}

/-- The declared type of a variable. -/
def variableType? (scope : Scope) (name : String) : Except Stop (Option String) :=
  if (scope.locals.get? name).isSome then do
    let type ← binding scope.locals name
    return some type
  else .ok (scope.fields.get? name)

/-- The type that a plain name stands for. -/
def nameType (scope : Scope) (name : String) : Except Stop String := do
  match ← variableType? scope name with
  | some type => return type
  | none =>
    if (scope.imports.types.get? name).isSome then binding scope.imports.types name
    else return name

/-- The type of a receiver. -/
def receiverType? (src : Bytes) (scope : Scope) (receiver : Node) :
    Except Stop (Option String) :=
  if receiver.kind == "this" then .ok (some scope.typeName)
  else if receiver.kind == "super" then .ok scope.superclass
  else if receiver.kind == "identifier" then do
    let type ← nameType scope (receiver.compactText src)
    return some type
  else if receiver.kind == "field_access" then
    match Scope.ownField? receiver with
    | some member => .ok (scope.fields.get? (member.text src))
    | none => dottedType? (receiver.compactText src)
  else if receiver.kind == "scoped_identifier" then dottedType? (receiver.compactText src)
  else .ok none

/-- The target of a call. Nothing is taken from a list for a call without a receiver. -/
def target? (src : Bytes) (scope : Scope) (call : Node) : Except Stop (Option Target) :=
  if call.kind == "method_invocation" then
    match call.child? "name" with
    | none => .ok none
    | some nameNode =>
      match call.child? "object" with
      | none => .ok (scope.bareTarget? (nameNode.text src))
      | some receiver =>
        if receiver.kind != "super" && call.hasChild "super" then .ok none
        else do
          let owner ← receiverType? src scope receiver
          return owner.map fun type => ⟨type, nameNode.text src⟩
  else .ok none

/-- The call that makes up a statement; the first expression is looked at, then taken. -/
def loneCall? (n : Node) : Except Stop (Option Node) :=
  let expressions := n.namedChildren.filter (fun c => !c.isComment)
  if n.kind == "expression_statement" && !expressions.isEmpty then do
    let e ← firstItem expressions
    if e.kind == "method_invocation" then
      let call ← firstItem expressions
      return some call
    else return none
  else .ok none

/-- The view of a statement. -/
def statement (src : Bytes) (scope : Scope) (n : Node) : Except Stop Statement := do
  match ← loneCall? n with
  | some e =>
    let target ← target? src scope e
    return .call (n.squeezedText src) target
  | none => return .other n.kind (n.squeezedText src)

/-- The views of some statements. -/
def statements (src : Bytes) (scope : Scope) : List Node → Except Stop (List Statement)
  | [] => .ok []
  | n :: ns => do
    let view ← statement src scope n
    let views ← statements src (scope.after src n) ns
    return view :: views

/-- The first line of a text, which is taken where the text is not empty. -/
def firstLine (s : String) : Except Stop String :=
  if s.toList.isEmpty then .ok ""
  else do
    let line ← firstItem (Text.lines s.toList)
    return String.ofList line

/-- The span of a declaration. -/
def span (src : Bytes) (n : Node) : Option Node → Except Stop Span
  | some body => .ok (Span.ofNode src n (some body))
  | none => do
    let line ← firstLine (n.text src)
    return { Span.ofNode src n none with snippet := some (Text.squeeze line) }

/-- The views of the statements of a body, if there is one. -/
def body (src : Bytes) (scope : Scope) : Option Node → Except Stop (Option (List Statement))
  | some b => do
    let views ← statements src scope (b.namedChildren.filter (fun c => !c.isComment))
    return some views
  | none => .ok none

/-- The view of a method. -/
def method? (src : Bytes) (typeScope : Scope) (n : Node) : Except Stop (Option MethodDecl) :=
  match n.child? "name" with
  | none => .ok none
  | some nameNode => do
    let views ← body src { typeScope with locals := MethodDecl.parameters src n }
      (n.child? "body")
    let place ← span src n (n.child? "body")
    return some { name := nameNode.text src, body := views, span := place }

/-- The declared superclass: the first of the nodes behind `extends`, where there are any. -/
def superclass? (src : Bytes) (imports : Imports) (n : Node) : Except Stop (Option String) :=
  match n.child? "superclass" with
  | some extended =>
    if extended.namedChildren.isEmpty then .ok none
    else do
      let type ← firstItem extended.namedChildren
      return (type.declaredType? src).map imports.qualify
  | none => .ok none

/-- The view of a type. -/
def type? (src : Bytes) (imports : Imports) (outer : List String) (n : Node) :
    Except Stop (Option TypeDecl) :=
  match n.child? "name" with
  | none => .ok none
  | some nameNode => do
    let name := nameNode.text src
    let superclass ← superclass? src imports n
    let scope := { TypeDecl.scopeOf src imports name n with superclass := superclass }
    let methods ← (TypeDecl.methodNodes n).mapM (method? src scope)
    let place ← span src n (n.child? "body")
    return some
      { name := name
        qualifiedName := TypeDecl.qualifiedNameOf imports.package outer name
        annotations := AnnotationUse.listOfDecl src imports n
        methods := methods.filterMap id
        span := place }

mutual

/-- The types below a node. -/
def below (src : Bytes) (imports : Imports) (outer : List String) :
    Node → Except Stop (List TypeDecl)
  | .mk _ _ _ _ _ cs => inNodes src imports outer cs

/-- The types that some sibling nodes declare, or nodes below them. -/
def inNodes (src : Bytes) (imports : Imports) (outer : List String) :
    List Node → Except Stop (List TypeDecl)
  | [] => .ok []
  | n :: ns => do
    let first ←
      if n.named then
        if n.isTypeDecl then do
          match ← type? src imports outer n with
          | some d =>
            let inner ← below src imports (outer ++ [d.name]) n
            .ok (d :: inner)
          | none => below src imports outer n
        else below src imports outer n
      else .ok []
    let rest ← inNodes src imports outer ns
    return first ++ rest

end

/-- The types that a file declares. -/
def types (file : SourceFile) : Except Stop (List TypeDecl) := do
  let table ← imports file.bytes file.tree
  below file.bytes table [] file.tree

/-- Whether a statement is a call of the companion's callback. -/
def isForwarding (c : Contract) (d : TypeDecl) : Statement → Except Stop Bool
  | .call _ (some t) => do
    let owner ← simple t.owner
    return owner == c.companion d && t.name == c.callback
  | _ => .ok false

/-- Whether a method forwards to the companion: the statements are asked until one does. -/
def forwards (c : Contract) (d : TypeDecl) (m : MethodDecl) : Except Stop Bool :=
  match m.body with
  | some views => views.anyM (isForwarding c d)
  | none => .ok false

/-- The number of violations so far, and the sink they are in. -/
abbrev Tally := Nat × Sink

/-- A violation is counted, located and reported. -/
def report (path : Path) (tally : Tally) (m : MethodDecl) : Except Stop Tally := do
  let location ← record (Forwarding.locate path m)
  return (tally.1 + 1, (tally.2.report Forwarding.issue location Forwarding.message).2)

/-- One callback of a type. -/
def checkMethod (c : Contract) (path : Path) (d : TypeDecl) (tally : Tally) (m : MethodDecl) :
    Except Stop Tally := do
  let forwarding ← forwards c d m
  if forwarding then return tally else report path tally m

/-- The callbacks of a type, which are asked only where the type is marked. -/
def checkType (c : Contract) (path : Path) (tally : Tally) (d : TypeDecl) : Except Stop Tally :=
  if c.isMarked d then (c.callbacks d).foldlM (checkMethod c path d) tally else .ok tally

/-- The types of a file: the number of violations, and the sink with all of them reported. -/
def check (c : Contract) (file : SourceFile) (sink : Sink) : Except Stop Tally := do
  let ds ← types file
  ds.foldlM (checkType c file.path) (0, sink)

/-- The findings of a run over a file. -/
def run (c : Contract) (file : SourceFile) : Except Stop (List Finding) := do
  let tally ← check c file {}
  return tally.2.findings

/-! ## No step stops -/

/-- A run goes on with what the step before it found. -/
@[simp] theorem ok_bind (a : α) (f : α → Except Stop β) : (Except.ok a >>= f) = f a := rfl

@[simp] theorem pure_eq_ok (a : α) : (pure a : Except Stop α) = .ok a := rfl

/-- The first item can be taken where there is one. -/
theorem firstItem_eq_ok {xs : List α} {a : α} (h : xs.head? = some a) : firstItem xs = .ok a := by
  obtain ⟨ys, rfl⟩ := List.head?_eq_some_iff.1 h
  rfl

/-- A name can be looked up where it is bound. -/
theorem binding_eq_ok {b : Bindings} {name value : String} (h : b.get? name = some value) :
    binding b name = .ok value := by
  rw [binding, h]

/-- **No stop at any item, no stop in the list**, for a step made at each item. -/
theorem mapM_eq_ok {f : α → Except Stop β} {g : α → β} (h : ∀ a, f a = .ok (g a)) (xs : List α) :
    xs.mapM f = .ok (xs.map g) := by
  induction xs with
  | nil => rfl
  | cons x xs ih => simp [List.mapM_cons, h, ih]

/-- The same for steps that each start from what the last one left. -/
theorem foldlM_eq_ok {f : β → α → Except Stop β} {g : β → α → β} {xs : List α}
    (h : ∀ a ∈ xs, ∀ b, f b a = .ok (g b a)) (b : β) : xs.foldlM f b = .ok (xs.foldl g b) := by
  induction xs generalizing b with
  | nil => rfl
  | cons x xs ih =>
    have hrest := ih fun a ha => h a (List.mem_cons_of_mem x ha)
    rw [List.foldlM_cons, h x List.mem_cons_self, ok_bind, hrest, List.foldl_cons]

/-- The same for a question that is asked until one item says yes. -/
theorem anyM_eq_ok {f : α → Except Stop Bool} {g : α → Bool} (h : ∀ a, f a = .ok (g a))
    (xs : List α) : xs.anyM f = .ok (xs.any g) := by
  induction xs with
  | nil => rfl
  | cons x xs ih =>
    rw [List.anyM, h, ok_bind, List.any_cons]
    cases g x with
    | true => rfl
    | false => simpa using ih

/-! ### Names -/

/-- A name that is cut at its last dot has a last piece, cut or not. -/
theorem simple_eq_ok (name : String) : simple name = .ok (Name.simple name) := by
  rw [simple, cut]
  by_cases h : Name.isQualified name = true
  · rw [if_pos h]
    rfl
  · have hdot : '.' ∉ name.toList := by simpa [Name.isQualified] using h
    rw [if_neg h, Name.simple, Name.lastSegment_of_notMem hdot, String.ofList_toList]
    rfl

/-- The first character is asked for only where the segment is not empty. -/
theorem isTypeLike_eq_ok (name : String) :
    isTypeLike (Name.simple name) = .ok (Name.isTypeLike name) := by
  rw [isTypeLike, Name.isTypeLike, Name.simple, String.toList_ofList]
  rcases Name.lastSegment name.toList with _ | ⟨c, cs⟩
  · rfl
  · rfl

/-- So a dotted text is read without a stop. -/
theorem dottedType?_eq_ok (text : String) : dottedType? text = .ok (Scope.dottedType? text) := by
  rw [dottedType?, Scope.dottedType?]
  by_cases h : Name.isDotted text = true
  · simp [h, simple_eq_ok, isTypeLike_eq_ok]
  · simp [h]

/-- And an import is added without one. -/
theorem addImport_eq_ok (src : Bytes) (t : Imports) (n : Node) :
    addImport src t n = .ok (t.add src n) := by
  rw [addImport]
  split
  · rename_i htype
    simp only [Bool.and_eq_true, beq_iff_eq, Bool.not_eq_true'] at htype
    obtain ⟨⟨hkind, hstar⟩, hstatic⟩ := htype
    rcases h : Imports.declaredName? src n with _ | name
    · simp [Imports.add, hkind, h]
    · simp [Imports.add, hkind, h, hstar, hstatic, simple_eq_ok, Imports.addType]
  · rfl

/-- So the whole import table is. -/
theorem imports_eq_ok (src : Bytes) (root : Node) :
    imports src root = .ok (Imports.ofTree src root) :=
  foldlM_eq_ok (fun n _ t => addImport_eq_ok src t n) {}

/-! ### Calls -/

/-- The tables of the locals and of the fields are only asked for names they bind. -/
theorem variableType?_eq_ok (scope : Scope) (name : String) :
    variableType? scope name = .ok (scope.variableType? name) := by
  rw [variableType?, Scope.variableType?]
  rcases h : scope.locals.get? name with _ | type
  · rfl
  · simp [binding_eq_ok h]

/-- And so is the table of imported types. -/
theorem nameType_eq_ok (scope : Scope) (name : String) :
    nameType scope name = .ok (scope.nameType name) := by
  rw [nameType, Scope.nameType, variableType?_eq_ok, ok_bind]
  rcases scope.variableType? name with _ | type
  · rcases h : scope.imports.types.get? name with _ | full
    · rfl
    · simp [binding_eq_ok h]
  · rfl

/-- So the type of a receiver is found without a stop. -/
theorem receiverType?_eq_ok (src : Bytes) (scope : Scope) (receiver : Node) :
    receiverType? src scope receiver = .ok (scope.receiverType? src receiver) := by
  rw [receiverType?, Scope.receiverType?, nameType_eq_ok, dottedType?_eq_ok, ok_bind, pure_eq_ok]
  -- Both are the same cascade of kinds, so they are compared branch by branch.
  split
  · rfl
  split
  · rfl
  split
  · rfl
  split
  · rcases Scope.ownField? receiver with _ | member <;> rfl
  split <;> rfl

/-- And with it the target of a call. -/
theorem target?_eq_ok (src : Bytes) (scope : Scope) (call : Node) :
    target? src scope call = .ok (scope.target? src call) := by
  rw [target?, Scope.target?]
  split
  · rcases call.child? "name" with _ | nameNode
    · rfl
    rcases call.child? "object" with _ | receiver
    · rfl
    simp only [receiverType?_eq_ok, ok_bind, pure_eq_ok, Scope.receiverTarget?]
    split <;> rfl
  · rfl

/-! ### Views -/

/-- The first expression of a statement is only asked for where there is one. -/
theorem loneCall?_eq_ok (n : Node) : loneCall? n = .ok (Statement.loneCall? n) := by
  rw [loneCall?, Statement.loneCall?]
  generalize n.namedChildren.filter (fun c => !c.isComment) = expressions
  by_cases hkind : n.kind = "expression_statement"
  · rcases expressions with _ | ⟨e, es⟩
    · simp [hkind]
    · by_cases he : e.kind = "method_invocation" <;> simp [hkind, he, firstItem]
  · simp [hkind]

/-- So a statement is viewed without a stop. -/
theorem statement_eq_ok (src : Bytes) (scope : Scope) (n : Node) :
    statement src scope n = .ok (Statement.ofNode src scope n) := by
  rw [statement, Statement.ofNode, loneCall?_eq_ok, ok_bind]
  rcases Statement.loneCall? n with _ | e
  · rfl
  · simp [target?_eq_ok]

/-- And so are statements in a row, by induction along the scopes they leave. -/
theorem statements_eq_ok (src : Bytes) (scope : Scope) (ns : List Node) :
    statements src scope ns = .ok (Statement.listOfNodes src scope ns) := by
  induction ns generalizing scope with
  | nil => rfl
  | cons n ns ih => simp [statements, Statement.listOfNodes, statement_eq_ok, ih]

/-- A text that is not empty has a first line: what stands in front of the first break. -/
theorem head?_lines {cs : List Char} (h : cs ≠ []) :
    (Text.lines cs).head? = some (cs.takeWhile fun c => !Text.isLineBreak c) := by
  fun_induction Text.lines cs with
  | case1 => exact absurd rfl h
  | case2 cs ih => rfl
  | case3 c cs hcs hbreak ih => simp [hbreak]
  | case4 c cs _ hbreak hnil ih =>
    -- Without a further line nothing follows.
    have hcs : cs = [] := by
      by_contra hne
      exact absurd (ih hne) (by simp [hnil])
    simp [hcs, hbreak]
  | case5 c cs _ hbreak l ls hcons ih =>
    have hne : cs ≠ [] := by
      rintro rfl
      exact absurd hcons (by simp [Text.lines])
    have hl : l = cs.takeWhile fun c => !Text.isLineBreak c := by
      have hhead := ih hne
      rw [hcons] at hhead
      exact Option.some.inj hhead
    simp [hl, hbreak]

/-- The first line of a text is only asked for where the text has lines. -/
theorem firstLine_eq_ok (s : String) : firstLine s = .ok (Text.firstLine s) := by
  rw [firstLine, Text.firstLine]
  rcases hs : s.toList with _ | ⟨c, cs⟩
  · rfl
  · rw [firstItem_eq_ok (head?_lines (List.cons_ne_nil c cs))]
    rfl

/-- So a span is taken without a stop, whether or not there is a body. -/
theorem span_eq_ok (src : Bytes) (n : Node) (body? : Option Node) :
    span src n body? = .ok (Span.ofNode src n body?) := by
  rcases body? with _ | body
  · rw [span, firstLine_eq_ok]
    rfl
  · rfl

/-- A body is read without a stop, if there is one. -/
theorem body_eq_ok (src : Bytes) (scope : Scope) (body? : Option Node) :
    body src scope body? = .ok (body?.map (Statement.listOfBody src scope)) := by
  rcases body? with _ | b
  · rfl
  · rw [body, statements_eq_ok]
    rfl

/-- **The view of a method** is made without a stop. -/
theorem method?_eq_ok (src : Bytes) (typeScope : Scope) (n : Node) :
    method? src typeScope n = .ok (MethodDecl.ofNode? src typeScope n) := by
  rw [method?, MethodDecl.ofNode?]
  rcases n.child? "name" with _ | nameNode
  · rfl
  · simp [body_eq_ok, span_eq_ok]

/-- The superclass is only asked for its first named child where it has one. -/
theorem superclass?_eq_ok (src : Bytes) (imports : Imports) (n : Node) :
    superclass? src imports n = .ok (TypeDecl.superclass? src imports n) := by
  rw [superclass?, TypeDecl.superclass?]
  rcases n.child? "superclass" with _ | extended
  · rfl
  · rcases h : extended.namedChildren with _ | ⟨type, rest⟩ <;> simp [h, firstItem]

/-- **The view of a type** is made without a stop. -/
theorem type?_eq_ok (src : Bytes) (imports : Imports) (outer : List String) (n : Node) :
    type? src imports outer n = .ok (TypeDecl.ofNode? src imports outer n) := by
  rw [type?, TypeDecl.ofNode?]
  rcases n.child? "name" with _ | nameNode
  · rfl
  · simp only [superclass?_eq_ok, ok_bind, mapM_eq_ok (method?_eq_ok src _), span_eq_ok,
      pure_eq_ok, List.filterMap_map]
    rfl

/-- What a strict walk finds at one of some sibling nodes, when it does not stop below it. -/
theorem inNodes_cons_eq_ok {src : Bytes} {imports : Imports} {outer : List String} {n : Node}
    {ns : List Node}
    (hbelow : ∀ outer, below src imports outer n = .ok (TypeDecl.below src imports outer n))
    (hrest : inNodes src imports outer ns = .ok (TypeDecl.inNodes src imports outer ns)) :
    inNodes src imports outer (n :: ns) =
      .ok (TypeDecl.inNodes src imports outer (n :: ns)) := by
  rw [inNodes, TypeDecl.inNodes, hrest]
  by_cases hnamed : n.named = true
  · by_cases htype : n.isTypeDecl = true
    · rcases h : TypeDecl.ofNode? src imports outer n with _ | d <;>
        simp [hnamed, htype, type?_eq_ok, h, hbelow]
    · simp [hnamed, htype, hbelow]
  · simp [hnamed]

/-- So the walk below a node goes through. -/
theorem below_eq_ok (src : Bytes) (imports : Imports) (outer : List String) (n : Node) :
    below src imports outer n = .ok (TypeDecl.below src imports outer n) := by
  induction n using Node.inductionOn generalizing outer with
  | step n ih =>
    obtain ⟨kind, start, stop, named, field, children⟩ := n
    rw [below, TypeDecl.below]
    have hchildren : ∀ c ∈ children, ∀ outer,
        below src imports outer c = .ok (TypeDecl.below src imports outer c) :=
      fun c hc outer => ih c hc outer
    clear ih
    induction children with
    | nil => rfl
    | cons c cs ihcs =>
      exact inNodes_cons_eq_ok (hchildren c List.mem_cons_self)
        (ihcs fun c' hc' => hchildren c' (List.mem_cons_of_mem _ hc'))

/-- And with it the walk through a file. -/
theorem types_eq_ok (file : SourceFile) : types file = .ok file.types := by
  rw [types, imports_eq_ok, ok_bind, below_eq_ok]
  rfl

/-! ### Reports -/

/-- Whether a method forwards is decided without a stop. -/
theorem forwards_eq_ok (c : Contract) (d : TypeDecl) (m : MethodDecl) :
    forwards c d m = .ok (c.forwards d m) := by
  have hstatement : ∀ s, isForwarding c d s = .ok (c.isForwarding d s) := by
    intro s
    rcases s with ⟨text, _ | t⟩ | ⟨kind, text⟩
    · rfl
    · simp [isForwarding, simple_eq_ok, Contract.isForwarding, Target.simpleOwner]
    · rfl
  rw [forwards, Contract.forwards]
  rcases m.body with _ | views
  · rfl
  · exact anyM_eq_ok hstatement views

/-- The tally with some more violations counted and reported. -/
def Tally.counting (path : Path) (tally : Tally) (ms : List MethodDecl) : Tally :=
  (tally.1 + ms.length, tally.2.extend (ms.map (Forwarding.reported path)))

/-- Nothing to report leaves the tally as it is. -/
theorem Tally.counting_nil (path : Path) (tally : Tally) : tally.counting path [] = tally := by
  simp [Tally.counting, Sink.extend]

/-- Some methods reported and then others are all of them reported. -/
theorem Tally.counting_append (path : Path) (tally : Tally) (ms ms' : List MethodDecl) :
    (tally.counting path ms).counting path ms' = tally.counting path (ms ++ ms') := by
  simp [Tally.counting, Sink.extend, Nat.add_assoc]

/-- One step after the other, each with the violations it adds. -/
theorem Tally.foldl_counting (path : Path) (tally : Tally) (xs : List α)
    (added : α → List MethodDecl) :
    xs.foldl (fun t x => Tally.counting path t (added x)) tally =
      tally.counting path (xs.flatMap added) := by
  induction xs generalizing tally with
  | nil => rw [List.flatMap_nil, Tally.counting_nil, List.foldl_nil]
  | cons x xs ih => rw [List.foldl_cons, ih, Tally.counting_append, List.flatMap_cons]

/-- **A violation is reported**: the location of a method is not refused. -/
theorem report_eq_ok {src : Bytes} {scope : Scope} {n : Node} {m : MethodDecl}
    (hm : MethodDecl.ofNode? src scope n = some m) (path : Path) (tally : Tally) :
    report path tally m = .ok (tally.counting path [m]) := by
  have hfound := Forwarding.findingFor_eq_ok hm path
  rw [Forwarding.findingFor] at hfound
  rw [report]
  rcases hlocation : Forwarding.locate path m with location | faults
  · rw [hlocation] at hfound
    have heq : Forwarding.issue.found location Forwarding.message = Forwarding.reported path m :=
      Checked.ok.inj hfound
    rw [record, ok_bind, pure_eq_ok, Sink.report, heq]
    rfl
  · rw [hlocation] at hfound
    exact absurd hfound (by simp)

/-- The violations among the methods of a marked type are its callbacks that do not forward. -/
theorem flatMap_callbacks {c : Contract} {d : TypeDecl} (hmarked : c.isMarked d = true) :
    ((c.callbacks d).flatMap fun m => if c.forwards d m then [] else [m]) = c.violations d := by
  rw [Contract.callbacks, Contract.violations]
  induction d.methods with
  | nil => rfl
  | cons m ms ih =>
    by_cases hname : m.name = c.callback
    · by_cases hforwards : c.forwards d m = true <;>
        simp [Contract.isViolation, hmarked, hname, hforwards, ih]
    · simp [Contract.isViolation, hname, ih]

/-- **One type**: its violations are counted and reported, nothing else. -/
theorem checkType_eq_ok (c : Contract) {file : SourceFile} {d : TypeDecl} (hd : d ∈ file.types)
    (tally : Tally) :
    checkType c file.path tally d = .ok (tally.counting file.path (c.violations d)) := by
  have hmethod : ∀ m ∈ c.callbacks d, ∀ tally, checkMethod c file.path d tally m =
      .ok (tally.counting file.path (if c.forwards d m then [] else [m])) := by
    intro m hm tally
    obtain ⟨scope, n, hn⟩ :=
      Forwarding.exists_node_of_mem_methods hd (List.mem_filter.1 hm).1
    rw [checkMethod, forwards_eq_ok, ok_bind]
    split
    · rw [Tally.counting_nil]
      rfl
    · exact report_eq_ok hn file.path tally
  rw [checkType]
  split
  · rename_i hmarked
    rw [foldlM_eq_ok hmethod, Tally.foldl_counting, flatMap_callbacks hmarked]
  · rename_i hmarked
    have hnone : c.violations d = [] := by
      rw [Contract.violations, List.filter_eq_nil_iff]
      intro m _
      simp [Contract.isViolation, hmarked]
    rw [hnone, Tally.counting_nil]

/-- **A whole file**: all its violations are counted, and as many findings are in the sink. -/
theorem check_eq_ok (c : Contract) (file : SourceFile) (sink : Sink) :
    check c file sink = .ok ((Forwarding.violationsIn c file).length,
      sink.extend ((Forwarding.violationsIn c file).map (Forwarding.reported file.path))) := by
  rw [check, types_eq_ok, ok_bind, foldlM_eq_ok fun d hd tally => checkType_eq_ok c hd tally,
    Tally.foldl_counting, Tally.counting, Nat.zero_add]
  rfl

end Strict

/-- A location whose lines and columns are all given and counted from one. -/
structure Location.CountsFromOne (l : Location) : Prop where
  line : 1 ≤ l.line
  column : 1 ≤ l.column
  endLine : ∃ n, l.endLine = some n ∧ 1 ≤ n
  endColumn : ∃ n, l.endColumn = some n ∧ 1 ≤ n

/-- Lines and columns of a node are one more than its rows and columns. -/
theorem Forwarding.countsFromOne_reported {src : Bytes} {scope : Scope} {n : Node} {m : MethodDecl}
    (hm : MethodDecl.ofNode? src scope n = some m) (path : Path) :
    (reported path m).location.CountsFromOne := by
  have hpos : ∀ k : Nat, (1 : Int) ≤ Int.ofNat (k + 1) := by
    intro k
    simp only [Int.ofNat_eq_natCast]
    omega
  obtain ⟨nameNode, -, rfl⟩ := Option.map_eq_some_iff.1 hm
  exact ⟨hpos _, hpos _, ⟨_, rfl, hpos _⟩, ⟨_, rfl, hpos _⟩⟩

/-- **The rule never stops half-way.** On every file, whatever its bytes and its tree, a strict
run under any contract comes to an end, with the findings that the rule has. A check into a sink
counts the violations of the file and leaves one finding for each of them in the sink, behind
those that were there; and every line and every column of these findings is at least one. -/
theorem Strict.run_never_stops (c : Contract) (file : SourceFile) :
    ∃ fs, Strict.run c file = .ok fs ∧ (Rule.forwarding c).run file = .ok fs ∧
      (∀ sink, Strict.check c file sink =
        .ok ((Forwarding.violationsIn c file).length, sink.extend fs)) ∧
      fs.length = (Forwarding.violationsIn c file).length ∧
      ∀ f ∈ fs, f.location.CountsFromOne := by
  refine ⟨(Forwarding.violationsIn c file).map (Forwarding.reported file.path), ?_,
    Forwarding.run_eq_ok_reported c file, Strict.check_eq_ok c file, List.length_map _, ?_⟩
  · rw [Strict.run, Strict.check_eq_ok]
    rfl
  · intro f hf
    obtain ⟨m, hm, rfl⟩ := List.mem_map.1 hf
    obtain ⟨d, hd, hm⟩ := List.mem_flatMap.1 hm
    obtain ⟨scope, n, hn⟩ := Forwarding.exists_node_of_mem_methods hd (List.mem_filter.1 hm).1
    exact Forwarding.countsFromOne_reported hn file.path

end CallbackLint
