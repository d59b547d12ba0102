import CallbackLint.Proofs.Correspondence
import CallbackLint.Proofs.Words
/-!
# A new layout

Laying a source out anew changes the blanks between its tokens, and with them every byte offset,
but not the shape of its tree. Two trees over two sources are then equal node by node up to
blanks (`Node.Reformatted`), where names of declarations and calls, which hold no blank, stay as
they are. Names of types, of packages and of annotations are not among them: a dotted name may be
broken over lines, and is always read without its blanks.

Such trees correspond, so they declare the same types up to spans and the blanks in statements,
and the findings differ in their places only (`verdict_of_reformatted`).
-/

namespace CallbackLint

/-! ## Trees that differ in their layout -/

namespace Node

/-- Two nodes of one kind, role and spelling up to blanks, and with the same name where that is
taken as it is spelled. -/
structure SameHead (src src' : Bytes) (n m : Node) : Prop where
  kind_eq : n.kind = m.kind
  named_eq : n.named = m.named
  field_eq : n.field = m.field
  compact_eq : n.compactText src = m.compactText src'
  name_eq : n.hasExactName = true → n.childText? src "name" = m.childText? src' "name"
  member_eq : n.kind = "field_access" → n.childText? src "field" = m.childText? src' "field"

/-- Two trees of one shape, over two sources, whose nodes differ in blanks only. -/
def Reformatted (src src' : Bytes) (t u : Node) : Prop :=
  ∀ address, Option.Rel (SameHead src src') (t.at? address) (u.at? address)

variable {src src' : Bytes} {n m t u : Node}

instance : Decidable (SameHead src src' n m) :=
  decidable_of_iff
    (n.kind = m.kind ∧ n.named = m.named ∧ n.field = m.field ∧
      n.compactText src = m.compactText src' ∧
      (n.hasExactName = true → n.childText? src "name" = m.childText? src' "name") ∧
      (n.kind = "field_access" → n.childText? src "field" = m.childText? src' "field"))
    ⟨fun ⟨hkind, hnamed, hfield, hcompact, hname, hmember⟩ =>
        ⟨hkind, hnamed, hfield, hcompact, hname, hmember⟩,
      fun h => ⟨h.kind_eq, h.named_eq, h.field_eq, h.compact_eq, h.name_eq, h.member_eq⟩⟩

instance {x y : Option Node} : Decidable (Option.Rel (SameHead src src') x y) :=
  match x, y with
  | none, none => isTrue .none
  | some _, some _ => decidable_of_iff _ ⟨.some, fun | .some h => h⟩
  | none, some _ => isFalse nofun
  | some _, none => isFalse nofun

/-- Only the addresses of the two trees matter. -/
theorem reformatted_iff_addresses :
    Reformatted src src' t u ↔ ∀ address ∈ t.addresses ++ u.addresses,
      Option.Rel (SameHead src src') (t.at? address) (u.at? address) := by
  refine ⟨fun h address _ => h address, fun h address => ?_⟩
  by_cases hmem : address ∈ t.addresses ++ u.addresses
  · exact h address hmem
  · rw [List.mem_append, mem_addresses, mem_addresses, not_or, Option.not_isSome_iff_eq_none,
      Option.not_isSome_iff_eq_none] at hmem
    rw [hmem.1, hmem.2]
    exact .none

instance : Decidable (Reformatted src src' t u) :=
  decidable_of_iff _ reformatted_iff_addresses.symm

namespace Reformatted

/-- The two nodes themselves answer alike. -/
theorem head (h : Reformatted src src' n m) : SameHead src src' n m := by
  cases h [] with
  | some hhead => exact hhead

/-- Their children differ in layout only, one by one. -/
theorem children (h : Reformatted src src' n m) :
    List.Forall₂ (Reformatted src src') n.children m.children := by
  refine forall₂_of_getElem? fun i => ?_
  have hi := h [i]
  rw [at?_singleton, at?_singleton] at hi
  obtain ⟨hn, hm⟩ | ⟨a, b, hn, hm, -⟩ := rel_cases hi
  · rw [hn, hm]
    exact .none
  · rw [hn, hm]
    refine .some fun address => ?_
    simpa [at?, hn, hm] using h (i :: address)

/-- Layout does not change how many types are declared. -/
theorem typeCount_eq (h : Reformatted src src' n m) : n.typeCount = m.typeCount := by
  induction n using inductionOn generalizing m with
  | step n ih =>
    have hchildren : List.Forall₂ (fun a b => a ∈ n.children ∧ Reformatted src src' a b)
        n.children m.children :=
      (List.forall₂_and_left _ _).2 ⟨fun _ ha => ha, h.children⟩
    have hbelow : typeCountAll n.children = typeCountAll m.children :=
      typeCountAll_eq_of_forall₂ (hchildren.imp fun a b hab => ih a hab.1 hab.2)
    rw [Node.typeCount_eq, Node.typeCount_eq, isTypeDecl, isTypeDecl, h.head.kind_eq, hbelow]

/-- So the heads of nodes are the same, position by position. -/
theorem sameHeads (src src' : Bytes) : SameHeads (Reformatted src src') where
  kind_eq h := h.head.kind_eq
  named_eq h := h.head.named_eq
  field_eq h := h.head.field_eq
  typeCount_eq h := h.typeCount_eq

/-- And the superclass is written in nodes that differ in layout only. -/
theorem superType (h : Reformatted src src' n m) :
    Option.Rel (Reformatted src src') n.superType? m.superType? := by
  refine (sameHeads src src').superType ?_
  obtain ⟨hn, hm⟩ | ⟨a, b, hn, hm, hab⟩ :=
    rel_cases ((sameHeads src src').child h.children "superclass")
  · rw [hn, hm]
    exact .none
  · rw [hn, hm]
    exact .some hab.children

/-- **A new layout is a correspondence.** -/
theorem correspondence (src src' : Bytes) :
    Correspondence .spacing src src' (Reformatted src src') where
  kind_eq h := h.head.kind_eq
  compact_eq h := h.head.compact_eq
  name_eq h := h.head.name_eq
  member_eq h := h.head.member_eq
  text {n m} h := by
    have hcompact := h.head.compact_eq
    rw [compactText, compactText] at hcompact
    simp only [Tolerance.spacing, squeezedText, Text.compact_squeeze, hcompact]
  span _ := trivial
  child h := (sameHeads src src').child h.children
  childrenIn h := (sameHeads src src').childrenIn h.children
  parts h := (sameHeads src src').parts h.children
  hasChild_eq h _ _ := (sameHeads src src').hasChild_eq h.children _
  superType h _ := h.superType
  holders h := (sameHeads src src').holders h.children

end Reformatted

end Node

/-! ## Findings -/

/-- Two findings of one rule that say the same, each at its place. -/
structure Finding.SaysAlike (f g : Finding) : Prop where
  ruleId_eq : f.ruleId = g.ruleId
  message_eq : f.message = g.message
  severity_eq : f.severity = g.severity

namespace Forwarding

variable {file file' : SourceFile}

/-- **A new layout does not change the verdict.** -/
theorem verdict_of_reformatted
    (h : Node.Reformatted file.bytes file'.bytes file.tree file'.tree) (c : Contract) :
    List.Forall₂ (TypeDecl.Alike .spacing) file.types file'.types ∧
    List.Forall₂ (MethodDecl.Alike .spacing) (violationsIn c file) (violationsIn c file') ∧
    ∃ fs fs', (Rule.forwarding c).run file = .ok fs ∧ (Rule.forwarding c).run file' = .ok fs' ∧
      List.Forall₂ Finding.SaysAlike fs fs' := by
  have htypes : List.Forall₂ (TypeDecl.Alike .spacing) file.types file'.types :=
    (Node.Reformatted.correspondence file.bytes file'.bytes).alike_listOfTree h
  have hmethods : List.Forall₂ (MethodDecl.Alike .spacing) (violationsIn c file)
      (violationsIn c file') :=
    forall₂_violationsIn (htypes.imp fun d d' hd => (hd.judged c).2)
  refine ⟨htypes, hmethods, _, _, run_eq_ok_reported c file, run_eq_ok_reported c file', ?_⟩
  rw [List.forall₂_map_left_iff, List.forall₂_map_right_iff]
  exact hmethods.imp fun m m' _ => ⟨rfl, rfl, rfl⟩

end Forwarding

namespace BrokenName

/-- A class on one line, and laid out anew with the name of its annotation broken in two. -/
def src : Bytes := Utf8.encode "@x.M class A{void on(){}}"

def src' : Bytes := Utf8.encode "@x .\nM class A { void on() { } }"

def tree : Node :=
  .mk "program" 0 25 true none
    [.mk "class_declaration" 0 25 true none
      [.mk "modifiers" 0 4 true none
          [.mk "marker_annotation" 0 4 true none
            [.mk "scoped_identifier" 1 4 true (some "name") []]],
        .mk "identifier" 11 12 true (some "name") [],
        .mk "class_body" 12 25 true (some "body")
          [.mk "method_declaration" 13 24 true none
            [.mk "identifier" 18 20 true (some "name") [],
              .mk "block" 22 24 true (some "body") []]]]]

def tree' : Node :=
  .mk "program" 0 32 true none
    [.mk "class_declaration" 0 32 true none
      [.mk "modifiers" 0 6 true none
          [.mk "marker_annotation" 0 6 true none
            [.mk "scoped_identifier" 1 6 true (some "name") []]],
        .mk "identifier" 13 14 true (some "name") [],
        .mk "class_body" 15 32 true (some "body")
          [.mk "method_declaration" 17 30 true none
            [.mk "identifier" 22 24 true (some "name") [],
              .mk "block" 27 30 true (some "body") []]]]]

def contract : Contract where
  markers := ["x.M"]
  callback := "on"
  suffix := "Out"

def file : SourceFile := ⟨Path.ofString "A.java", src, tree, false⟩

def file' : SourceFile := ⟨Path.ofString "A.java", src', tree', false⟩

end BrokenName

open BrokenName in
/-- The annotation marks the class in both layouts, and the method is reported in both, each time
on its line. -/
theorem brokenName_reported :
    Node.Reformatted src src' tree tree' ∧
      (Forwarding.violationsIn contract file).map (·.span.line) = [1] ∧
      (Forwarding.violationsIn contract file').map (·.span.line) = [2] ∧
      ∃ fs fs', (Rule.forwarding contract).run file = .ok fs ∧
        (Rule.forwarding contract).run file' = .ok fs' ∧ List.Forall₂ Finding.SaysAlike fs fs' := by
  have hlayout : Node.Reformatted src src' tree tree' := by decide +kernel
  exact ⟨hlayout, by decide +kernel, by decide +kernel,
    (@Forwarding.verdict_of_reformatted file file' hlayout contract).2.2⟩

end CallbackLint
