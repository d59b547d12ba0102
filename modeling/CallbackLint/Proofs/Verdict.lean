import CallbackLint.Proofs.Offence
import Mathlib.Data.List.Forall2
/-!
# From views to findings

The last step from the view of a file to the findings in it. Every method of a file can be
located, so the rule always answers, with one finding for each method that is to be reported
(`run_eq_ok_reported`), and of the method only its span goes into the finding. Two files are
therefore compared by comparing the methods to be reported, which correspond where the methods
of the types do and each pair of them is judged alike (`forall₂_violationsIn`).
-/

namespace CallbackLint

namespace Forwarding

variable {c : Contract}

/-- The finding for a method of the file at `path`. -/
def reported (path : Path) (m : MethodDecl) : Finding where
  ruleId := issue.id
  message := message
  severity := issue.severity
  location :=
    { path := path
      line := m.span.line
      column := m.span.column
      endLine := m.span.endLine.map Int.ofNat
      endColumn := m.span.endColumn.map Int.ofNat
      snippet := m.span.snippet }

/-- A method of a type of a file is the view of a method of a type of the tree. -/
theorem exists_methodNode_of_mem_methods {file : SourceFile} {d : TypeDecl} (hd : d ∈ file.types)
    {m : MethodDecl} (hm : m ∈ d.methods) :
    ∃ type ∈ typeNodes file.tree, ∃ method ∈ type.methodMembers, ∃ scope,
      MethodDecl.ofNode? file.bytes scope method = some m := by
  rw [SourceFile.types, TypeDecl.listOfTree_eq_filterMap] at hd
  obtain ⟨address, haddress, hat⟩ := List.mem_filterMap.1 hd
  rw [declaredAt?_eq] at hat
  obtain ⟨type, htype, hview⟩ := Option.bind_eq_some_iff.1 hat
  obtain ⟨nameNode, -, rfl⟩ := Option.map_eq_some_iff.1 hview
  obtain ⟨method, hmem, hmethod⟩ := List.mem_filterMap.1 hm
  rw [TypeDecl.methodNodes_eq] at hmem
  exact ⟨type, List.mem_filterMap.2 ⟨address, haddress, htype⟩, method, hmem, _, hmethod⟩

theorem exists_node_of_mem_methods {file : SourceFile} {d : TypeDecl} (hd : d ∈ file.types)
    {m : MethodDecl} (hm : m ∈ d.methods) :
    ∃ scope method, MethodDecl.ofNode? file.bytes scope method = some m := by
  obtain ⟨-, -, method, -, scope, hmethod⟩ := exists_methodNode_of_mem_methods hd hm
  exact ⟨scope, method, hmethod⟩

/-- Such a method can be located. -/
theorem findingFor_eq_ok {src : Bytes} {scope : Scope} {method : Node} {m : MethodDecl}
    (hm : MethodDecl.ofNode? src scope method = some m) (path : Path) :
    findingFor path m = .ok (reported path m) := by
  have hfound : findingFor path m = .ok (report ⟨path, src, method, false⟩ method) :=
    @findingFor_ofNode? scope ⟨path, src, method, false⟩ method m hm
  rw [hfound]
  obtain ⟨nameNode, -, rfl⟩ := Option.map_eq_some_iff.1 hm
  rfl

/-- **The rule always answers**, with the findings for the methods to be reported. -/
theorem run_eq_ok_reported (c : Contract) (file : SourceFile) :
    (Rule.forwarding c).run file = .ok ((violationsIn c file).map (reported file.path)) := by
  refine all_map_ok fun m hm => ?_
  obtain ⟨d, hd, hm⟩ := List.mem_flatMap.1 hm
  obtain ⟨scope, method, hmethod⟩ := exists_node_of_mem_methods hd (List.mem_filter.1 hm).1
  exact findingFor_eq_ok hmethod file.path

theorem reported_congr {m m' : MethodDecl} (h : m.span = m'.span) (path : Path) :
    reported path m = reported path m' := by
  rw [reported, reported, h]

/-- **Methods to be reported correspond** in two files whose types do, with methods that are
judged alike pair by pair. -/
theorem forall₂_violationsIn {file file' : SourceFile} {R : MethodDecl → MethodDecl → Prop}
    (h : List.Forall₂ (fun d d' => List.Forall₂
      (fun m m' => R m m' ∧ c.isViolation d m = c.isViolation d' m') d.methods d'.methods)
      file.types file'.types) :
    List.Forall₂ R (violationsIn c file) (violationsIn c file') := by
  have htype : ∀ d d', List.Forall₂
      (fun m m' => R m m' ∧ c.isViolation d m = c.isViolation d' m') d.methods d'.methods →
        List.Forall₂ R (c.violations d) (c.violations d') := by
    intro d d' hmethods
    have hkept : List.Forall₂ (fun m m' => R m m' ∧ c.isViolation d m = c.isViolation d' m')
        (c.violations d) (c.violations d') :=
      List.rel_filter (fun _ _ hm => Bool.coe_iff_coe.2 hm.2) hmethods
    exact hkept.imp fun _ _ hm => hm.1
  exact List.rel_flatMap h fun d d' hd => htype d d' hd

end Forwarding

end CallbackLint
