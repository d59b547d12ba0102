import CallbackLint.Proofs.StrictRun
import CallbackLint.Proofs.Words
/-!
# The texts of a view

Two sorts of text are shown of a declaration: an excerpt of its source, which is what stands in
front of its body or else its first line, and the texts of its statements. Each of them is the
normal form of the source it stands for (`Text.NormalForm`): it has the same words, its only
blanks are single spaces between them, and it is one line. This holds node by node
(`Span.shows_ofNode`, `Statement.shows_ofNode`), and so of every view of every file,
whatever its tree is like (`texts_in_normalForm`).
-/

namespace CallbackLint

open Text

namespace Text

/-- A text as it is shown: the words of `source` with single spaces between them, in one line. -/
structure NormalForm (source : List Char) (s : String) : Prop where
  isSqueezed : IsSqueezed s.toList
  words_eq : words s.toList = words source
  isOneLine : ∀ c ∈ s.toList, isLineBreak c = false

/-- **Squeezing brings a text to its normal form.** -/
theorem normalForm_squeeze (s : String) : NormalForm s.toList (squeeze s) where
  isSqueezed := isSqueezed_squeeze s
  words_eq := words_squeeze s
  isOneLine := (isSqueezed_squeeze s).isLineBreak_eq_false

/-- The first line is the first of the lines, and empty where there is none. -/
theorem toList_firstLine (s : String) : (firstLine s).toList = (lines s.toList).head?.getD [] := by
  rw [firstLine, String.toList_ofList]
  by_cases hs : s.toList = []
  · rw [hs]
    rfl
  · rw [Strict.head?_lines hs, Option.getD_some]

end Text

/-! ## Excerpts -/

namespace Span

/-- The part of the source that the excerpt of a declaration shows: what stands in front of the
body, or the first of its lines. -/
def excerpted (src : Bytes) (n : Node) : Option Node → List Char
  | some body => (Utf8.decode (Bytes.slice src n.start body.start)).toList
  | none => (lines (n.text src).toList).head?.getD []

/-- So an excerpt is the normal form of the part that it shows. -/
theorem normalForm_snippetOf (src : Bytes) (n : Node) (body : Option Node) :
    NormalForm (excerpted src n body) (snippetOf src n body) := by
  rcases body with _ | body
  · have h := normalForm_squeeze (firstLine (n.text src))
    rwa [toList_firstLine] at h
  · exact normalForm_squeeze _

/-- The span shows a declaration with the given body by a text in normal form. -/
def Shows (src : Bytes) (n : Node) (body : Option Node) (span : Span) : Prop :=
  ∃ s, span.snippet = some s ∧ NormalForm (excerpted src n body) s

/-- And a span has such an excerpt. -/
theorem shows_ofNode (src : Bytes) (n : Node) (body : Option Node) :
    Shows src n body (ofNode src n body) :=
  ⟨_, rfl, normalForm_snippetOf src n body⟩

end Span

/-! ## Statements -/

namespace Statement

/-- The text of a statement. -/
def text : Statement → String
  | .call text _ => text
  | .other _ text => text

/-- The view shows a statement by a text in normal form. -/
def Shows (src : Bytes) (n : Node) (view : Statement) : Prop :=
  NormalForm (n.text src).toList view.text

/-- A statement is viewed with its text in normal form, whether or not it is a call. -/
theorem shows_ofNode (src : Bytes) (scope : Scope) (n : Node) :
    Shows src n (ofNode src scope n) := by
  have htext : (ofNode src scope n).text = squeeze (n.text src) := by
    rw [ofNode]
    split <;> rfl
  rw [Shows, htext]
  exact normalForm_squeeze _

/-- The scope that a statement is viewed in has no part in its text. -/
theorem forall₂_shows (src : Bytes) (scope : Scope) (ns : List Node) :
    List.Forall₂ (Shows src) ns (listOfNodes src scope ns) := by
  induction ns generalizing scope with
  | nil => exact .nil
  | cons n ns ih => exact .cons (shows_ofNode src scope n) (ih (scope.after src n))

end Statement

/-! ## Declarations -/

/-- The view shows a method by texts in normal form: an excerpt, and one text for each statement
of the body. -/
structure MethodDecl.Shows (src : Bytes) (n : Node) (m : MethodDecl) : Prop where
  span : m.span.Shows src n (n.child? "body")
  body : Option.Rel
    (fun body views => List.Forall₂ (Statement.Shows src)
      (body.namedChildren.filter (fun c => !c.isComment)) views)
    (n.child? "body") m.body

/-- The view shows a type by texts in normal form: an excerpt, and the texts of its methods. -/
structure TypeDecl.Shows (src : Bytes) (n : Node) (d : TypeDecl) : Prop where
  span : d.span.Shows src n (n.child? "body")
  methods : ∀ m ∈ d.methods, ∃ method ∈ methodNodes n, m.Shows src method

/-- So a method is shown with its excerpt and its statements in normal form. -/
theorem MethodDecl.shows_of_ofNode? {src : Bytes} {scope : Scope} {n : Node} {m : MethodDecl}
    (h : ofNode? src scope n = some m) : m.Shows src n := by
  obtain ⟨nameNode, -, rfl⟩ := Option.map_eq_some_iff.1 h
  refine ⟨Span.shows_ofNode src n _, ?_⟩
  rcases n.child? "body" with _ | body
  · exact .none
  · exact .some (Statement.forall₂_shows src _ _)

/-- And a type with its excerpt and its methods. -/
theorem TypeDecl.shows_of_ofNode? {src : Bytes} {imports : Imports} {outer : List String}
    {n : Node} {d : TypeDecl} (h : ofNode? src imports outer n = some d) : d.Shows src n := by
  obtain ⟨nameNode, -, rfl⟩ := Option.map_eq_some_iff.1 h
  refine ⟨Span.shows_ofNode src n _, fun m hm => ?_⟩
  obtain ⟨method, hmethod, hview⟩ := List.mem_filterMap.1 hm
  exact ⟨method, hmethod, MethodDecl.shows_of_ofNode? hview⟩

/-- **Normal forms.** Squeezing a text gives its normal form, and does no more when repeated.
Compacting it leaves no blanks, does no more when repeated, goes part by part, and is squeezing
with the spaces taken out. So every text in a view of a file is a normal form: that of what its
declaration shows, or of a statement. -/
theorem texts_in_normalForm :
    (∀ t : String, NormalForm t.toList (squeeze t) ∧ squeeze (squeeze t) = squeeze t) ∧
    (∀ t : String, (∀ c ∈ (compact t).toList, isBlank c = false) ∧
      compact (compact t) = compact t ∧ compact t = withoutSpaces (squeeze t)) ∧
    (∀ s t : String, compact (s ++ t) = compact s ++ compact t) ∧
    ∀ (file : SourceFile), ∀ d ∈ file.types,
      ∃ address n, Forwarding.typeNodeAt? file.tree address = some n ∧ d.Shows file.bytes n := by
  refine ⟨fun t => ⟨normalForm_squeeze t, squeeze_squeeze t⟩, fun t => ?_, compact_append, ?_⟩
  · have hblank := isBlank_compact t
    exact ⟨hblank, compact_of_forall hblank, compact_eq_withoutSpaces t⟩
  · intro file d hd
    rw [SourceFile.types, TypeDecl.listOfTree_eq_filterMap] at hd
    obtain ⟨address, -, hat⟩ := List.mem_filterMap.1 hd
    rw [Forwarding.declaredAt?_eq] at hat
    obtain ⟨n, hn, hview⟩ := Option.bind_eq_some_iff.1 hat
    exact ⟨address, n, hn, TypeDecl.shows_of_ofNode? hview⟩

namespace SpreadOut

/-- A class over several lines, with a method that ends in a line separator and a call with a
line feed in it. -/
def src : Bytes :=
  Utf8.encode "class A\n \x7bint\tm( )\u2028;void k()\x7bx .\n go( ) ;\x7d\x7d"

def call : Node :=
  .mk "method_invocation" 31 41 true none
    [.mk "identifier" 31 32 true (some "object") [], .mk "identifier" 36 38 true (some "name") []]

def type : Node :=
  .mk "class_declaration" 0 45 true none
    [.mk "identifier" 6 7 true (some "name") [],
      .mk "class_body" 9 45 true (some "body")
        [.mk "method_declaration" 10 22 true none [.mk "identifier" 14 15 true (some "name") []],
          .mk "method_declaration" 22 44 true none
            [.mk "identifier" 27 28 true (some "name") [],
              .mk "block" 30 44 true (some "body")
                [.mk "expression_statement" 31 43 true none [call]]]]]

def file : SourceFile where
  path := Path.ofString "A.java"
  bytes := src
  tree := .mk "program" 0 45 true none [type]

def noBody : MethodDecl where
  name := "m"
  body := none
  span := { line := 2, column := 3, endLine := some 2, endColumn := some 15, snippet := "int m( )" }

def withBody : MethodDecl where
  name := "k"
  body := some [.call "x . go( ) ;" (some ⟨"x", "go"⟩)]
  span :=
    { line := 2, column := 15, endLine := some 3, endColumn := some 10, snippet := "void k()" }

def view : TypeDecl where
  name := "A"
  qualifiedName := "A"
  methods := [noBody, withBody]
  span := { line := 1, column := 1, endLine := some 3, endColumn := some 11, snippet := "class A" }

end SpreadOut

open SpreadOut in
/-- The view of the class has one-line texts only, and the excerpt of the method without a body
stops at the line separator. -/
theorem spreadOut_shown :
    file.types = [view] ∧ view ∈ file.types ∧
      (∃ address n, Forwarding.typeNodeAt? file.tree address = some n ∧
        view.Shows file.bytes n) ∧
      NormalForm "int\tm( )".toList "int m( )" ∧ compact "int\tm( )" = "intm()" := by
  have htypes : file.types = [view] := by decide +kernel
  have hview : view ∈ file.types := by
    rw [htypes]
    exact List.mem_singleton.2 rfl
  obtain ⟨hsqueeze, hcompact, -, hshown⟩ := texts_in_normalForm
  have hnormal := (hsqueeze "int\tm( )").1
  rw [show squeeze "int\tm( )" = "int m( )" by decide +kernel] at hnormal
  refine ⟨htypes, hview, hshown file view hview, hnormal, ?_⟩
  rw [(hcompact "int\tm( )").2.2]
  decide +kernel

end CallbackLint
