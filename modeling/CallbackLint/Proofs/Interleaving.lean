import CallbackLint.Proofs.ReportOrder
/-!
# Batches that come in interleaved

Files that are analysed side by side hand over their batches in turns that nobody controls:
each file keeps the order of its own batches, and between files any order is possible
(`Interleaves`). As long as no two files report findings in the same file, the order between
them does not show: in each file the findings come in as they would one file after the other
(`Interleaves.inFile_eq`), and that is all a report depends on (`Interleaves.reportsAlike`).
-/

namespace CallbackLint

namespace Analysis

/-- One list of batches made of several by taking, again and again, the next batch of one of
them. -/
inductive Interleaves : List (List (List Finding)) → List (List Finding) → Prop where
  | done {sources : List (List (List Finding))} (h : ∀ source ∈ sources, source = []) :
      Interleaves sources []
  | next {before after : List (List (List Finding))} {rest merged : List (List Finding)}
      {batch : List Finding} (h : Interleaves (before ++ rest :: after) merged) :
      Interleaves (before ++ (batch :: rest) :: after) (batch :: merged)

/-- Two lists of batches have no file in common. -/
def Apart (xs ys : List (List Finding)) : Prop :=
  ∀ f ∈ xs.flatten, ∀ g ∈ ys.flatten, f.file ≠ g.file

variable {sources : List (List (List Finding))} {merged : List (List Finding)}

/-- One source after the other is one way to take turns. The sources in front are those that
are used up. -/
theorem Interleaves.inTurn (front sources : List (List (List Finding)))
    (hfront : ∀ source ∈ front, source = []) :
    Interleaves (front ++ sources) sources.flatten := by
  induction sources generalizing front with
  | nil => exact .done (by simpa using hfront)
  | cons source sources ih =>
    induction source with
    | nil =>
      have hfront' : ∀ source ∈ front ++ [[]], source = [] := by
        intro source hs
        rcases List.mem_append.1 hs with hs | hs
        · exact hfront source hs
        · exact List.mem_singleton.1 hs
      have h := ih (front ++ [[]]) hfront'
      rwa [List.append_assoc] at h
    | cons batch rest ihrest => exact .next ihrest

/-- No batch is lost, added or repeated. -/
theorem Interleaves.perm (h : Interleaves sources merged) : merged.Perm sources.flatten := by
  induction h with
  | done h => rw [List.flatten_eq_nil_iff.2 h]
  | @next before after rest merged batch _ ih =>
    rw [List.flatten_append, List.flatten_cons] at ih ⊢
    exact (ih.cons batch).trans (List.perm_middle.symm)

/-- What one source contributes stays in its order. -/
theorem Interleaves.flatten_sublist (h : Interleaves sources merged)
    {source : List (List Finding)} (hs : source ∈ sources) :
    source.flatten.Sublist merged.flatten := by
  induction h generalizing source with
  | done hnil => rw [hnil source hs]
  | @next before after rest merged batch _ ih =>
    rw [List.flatten_cons]
    rcases List.mem_append.1 hs with hs | hs
    · exact (ih (List.mem_append_left _ hs)).trans (List.sublist_append_right _ _)
    · rcases List.mem_cons.1 hs with rfl | hs
      · have hrest := ih (List.mem_append_right _ List.mem_cons_self)
        exact List.Sublist.append (List.Sublist.refl batch) hrest
      · have hmem := List.mem_append_right before (List.mem_cons_of_mem rest hs)
        exact (ih hmem).trans (List.sublist_append_right _ _)

theorem inFile_append (file : String) (fs gs : List Finding) :
    Report.inFile file (fs ++ gs) = Report.inFile file fs ++ Report.inFile file gs :=
  List.filter_append fs gs

/-- What is left after the next batch of one is still apart. -/
theorem pairwise_apart_of_next {before after : List (List (List Finding))}
    {rest : List (List Finding)} {batch : List Finding}
    (h : (before ++ (batch :: rest) :: after).Pairwise Apart) :
    (before ++ rest :: after).Pairwise Apart := by
  rw [List.pairwise_append, List.pairwise_cons] at h ⊢
  obtain ⟨hbefore, ⟨hnext, hafter⟩, hbetween⟩ := h
  refine ⟨hbefore, ⟨fun source hs f hf => ?_, hafter⟩, fun source hs other ho => ?_⟩
  · exact hnext source hs f (List.mem_append_right _ hf)
  · rcases List.mem_cons.1 ho with rfl | ho
    · intro f hf g hg
      exact hbetween source hs _ List.mem_cons_self f hf g (List.mem_append_right _ hg)
    · exact hbetween source hs other (List.mem_cons_of_mem _ ho)

/-- A batch has no findings in a file, or what it is apart from has none. -/
theorem inFile_eq_nil_or {before : List (List (List Finding))} {rest : List (List Finding)}
    {batch : List Finding} (h : ∀ source ∈ before, Apart source (batch :: rest)) (file : String) :
    Report.inFile file batch = [] ∨ Report.inFile file before.flatten.flatten = [] := by
  by_cases hbatch : Report.inFile file batch = []
  · exact .inl hbatch
  · refine .inr (List.filter_eq_nil_iff.2 fun f hf hfile => ?_)
    obtain ⟨g, hg⟩ := List.exists_mem_of_ne_nil _ hbatch
    obtain ⟨hmem, hgfile⟩ := List.mem_filter.1 hg
    obtain ⟨other, hother, hf⟩ := List.mem_flatten.1 hf
    obtain ⟨source, hsource, hother⟩ := List.mem_flatten.1 hother
    refine h source hsource f (List.mem_flatten_of_mem hother hf) g
      (List.mem_append_left _ hmem) ?_
    rw [beq_iff_eq.1 hfile, beq_iff_eq.1 hgfile]

/-- **In each file the findings come in as if there were no turns.** A batch that comes in
early moves in front of those of other files only, which have nothing in its file. -/
theorem Interleaves.inFile_eq (h : Interleaves sources merged) (hapart : sources.Pairwise Apart)
    (file : String) :
    Report.inFile file merged.flatten = Report.inFile file sources.flatten.flatten := by
  induction h with
  | done h => rw [List.flatten_eq_nil_iff.2 h]
  | @next before after rest merged batch _ ih =>
    have hbefore : ∀ source ∈ before, Apart source (batch :: rest) := fun source hs =>
      (List.pairwise_append.1 hapart).2.2 source hs _ List.mem_cons_self
    have hrest := ih (pairwise_apart_of_next hapart)
    simp only [List.flatten_append, List.flatten_cons, inFile_append] at hrest ⊢
    rw [hrest]
    -- The batch and what stands in front of it may change places, as one of them is empty.
    rcases inFile_eq_nil_or hbefore file with hnil | hnil <;> simp [hnil]

/-- Hence a report on what came in is the report on the sources one after the other. -/
theorem Interleaves.reportsAlike (h : Interleaves sources merged)
    (hapart : sources.Pairwise Apart) : ReportsAlike merged.flatten sources.flatten.flatten :=
  .of_inFile_eq (h.inFile_eq hapart)

end Analysis

end CallbackLint
