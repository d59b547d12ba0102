import CallbackLint.CommandLine.Run
import Mathlib.Data.List.Lex
import Mathlib.Data.Prod.Lex
import Mathlib.Data.String.Basic
/-!
# What a report depends on

A report sorts its findings by a key, and the sort is stable. So the order in which findings
come in counts only among findings with the same key, and these are in one file: two lists
that have the same findings in each file, in the same order, are sorted into the same list
(`sorted_eq`). Everything else that is reported is a count, or asks whether there is a finding
of some sort. Hence all reports on the two lists agree (`ReportsAlike.of_inFile_eq`).
-/

namespace CallbackLint

/-! ## Stable sorting -/

namespace StableSort

variable {α κ : Type*} [LinearOrder κ] {key : α → κ} {le : α → α → Bool}

/-- A list in the order of a key is determined by its elements for each value of the key, in
their order. -/
theorem eq_of_filter_key_eq {l m : List α} (hl : l.Pairwise (key · ≤ key ·))
    (hm : m.Pairwise (key · ≤ key ·))
    (h : ∀ k, l.filter (fun a => key a = k) = m.filter (fun a => key a = k)) : l = m := by
  induction l generalizing m with
  | nil =>
    rcases m with _ | ⟨b, m⟩
    · rfl
    · exact absurd (h (key b)) (by simp)
  | cons a l ih =>
    rcases m with _ | ⟨b, m⟩
    · exact absurd (h (key a)) (by simp)
    · have hab : key a ≤ key b := by
        have hmem : b ∈ (a :: l).filter (fun c => key c = key b) := by
          rw [h (key b)]
          simp
        rcases List.mem_cons.1 (List.mem_filter.1 hmem).1 with rfl | hb
        · exact le_rfl
        · exact List.rel_of_pairwise_cons hl hb
      have hba : key b ≤ key a := by
        have hmem : a ∈ (b :: m).filter (fun c => key c = key a) := by
          rw [← h (key a)]
          simp
        rcases List.mem_cons.1 (List.mem_filter.1 hmem).1 with rfl | ha
        · exact le_rfl
        · exact List.rel_of_pairwise_cons hm ha
      -- The heads have the same key, so they head the same group.
      have heq : a = b := by
        have hgroup := h (key a)
        rw [List.filter_cons_of_pos (by simp),
          List.filter_cons_of_pos (by simpa using le_antisymm hba hab)] at hgroup
        exact (List.cons.inj hgroup).1
      subst heq
      refine congrArg (a :: ·) (ih hl.of_cons hm.of_cons fun k => ?_)
      have hgroup := h k
      rw [List.filter_cons, List.filter_cons] at hgroup
      split at hgroup
      · exact (List.cons.inj hgroup).2
      · exact hgroup

/-- Comparing by a key is transitive. -/
theorem trans_of_key (hle : ∀ a b, le a b = true ↔ key a ≤ key b) (a b c : α)
    (hab : le a b = true) (hbc : le b c = true) : le a c = true :=
  (hle a c).2 (((hle a b).1 hab).trans ((hle b c).1 hbc))

/-- And it is total. -/
theorem total_of_key (hle : ∀ a b, le a b = true ↔ key a ≤ key b) (a b : α) :
    (le a b || le b a) = true := by
  rw [Bool.or_eq_true, hle, hle]
  exact le_total (key a) (key b)

/-- So sorting brings a list into the order of the key. -/
theorem pairwise_key_mergeSort (hle : ∀ a b, le a b = true ↔ key a ≤ key b) (l : List α) :
    (l.mergeSort le).Pairwise (key · ≤ key ·) :=
  (List.pairwise_mergeSort (trans_of_key hle) (total_of_key hle) l).imp
    fun {a b} hab => (hle a b).1 hab

/-- Sorting keeps the order among the elements with one value of the key. -/
theorem filter_key_mergeSort (hle : ∀ a b, le a b = true ↔ key a ≤ key b) (l : List α) (k : κ) :
    (l.mergeSort le).filter (fun a => key a = k) = l.filter (fun a => key a = k) := by
  have hgroup : (l.filter (fun a => key a = k)).Pairwise (fun a b => le a b = true) := by
    refine List.pairwise_of_forall_mem_list fun a ha b hb => (hle a b).2 ?_
    have hka : key a = k := by simpa using (List.mem_filter.1 ha).2
    have hkb : key b = k := by simpa using (List.mem_filter.1 hb).2
    rw [hka, hkb]
  have hsub : (l.filter (fun a => key a = k)).Sublist
      ((l.mergeSort le).filter (fun a => key a = k)) := by
    have h := (List.sublist_mergeSort (trans_of_key hle) (total_of_key hle) hgroup
      List.filter_sublist).filter (fun a => decide (key a = k))
    rwa [List.filter_filter, funext fun a => Bool.and_self _] at h
  have hlength := ((List.mergeSort_perm l le).filter (fun a => decide (key a = k))).length_eq
  exact (hsub.eq_of_length hlength.symm).symm

/-- **A stable sort depends on the order of its input within each value of the key only.** -/
theorem mergeSort_eq (hle : ∀ a b, le a b = true ↔ key a ≤ key b) {l m : List α}
    (h : ∀ k, l.filter (fun a => key a = k) = m.filter (fun a => key a = k)) :
    l.mergeSort le = m.mergeSort le := by
  refine eq_of_filter_key_eq (pairwise_key_mergeSort hle l) (pairwise_key_mergeSort hle m)
    fun k => ?_
  rw [filter_key_mergeSort hle, filter_key_mergeSort hle, h k]

end StableSort

namespace Finding

/-- What decides the place of a finding in a report. -/
def sortKey (f : Finding) : String ×ₗ Int ×ₗ Int ×ₗ String :=
  toLex (f.file, toLex (f.location.line, toLex (f.location.column, f.ruleId)))

/-- **Findings are compared by their key**: path, line, column and rule, the first difference
deciding. -/
theorem notAfter_iff (f g : Finding) : notAfter f g = true ↔ f.sortKey ≤ g.sortKey := by
  simp only [notAfter, sortKey, Prod.Lex.toLex_le_toLex]
  by_cases hfile : f.file = g.file
  · by_cases hline : f.location.line = g.location.line
    · by_cases hcolumn : f.location.column = g.location.column
      · simp [hfile, hline, hcolumn]
      · simp [hfile, hline, hcolumn]
    · simp [hfile, hline]
  · simp [hfile]

/-- Lists that have the same findings in each file, in the same order, are sorted into the
same list. -/
theorem sorted_eq {fs gs : List Finding}
    (h : ∀ file, Report.inFile file fs = Report.inFile file gs) : sorted fs = sorted gs := by
  refine StableSort.mergeSort_eq notAfter_iff fun k => ?_
  -- The findings with one key are in one file, the first component of the key.
  have hgroup : ∀ hs : List Finding, hs.filter (fun f => decide (f.sortKey = k)) =
      (Report.inFile (ofLex k).1 hs).filter (fun f => decide (f.sortKey = k)) := by
    intro hs
    rw [Report.inFile, List.filter_filter]
    refine List.filter_congr fun f _ => ?_
    by_cases hk : f.sortKey = k
    · subst hk
      simp [sortKey]
    · simp [hk]
  rw [hgroup fs, hgroup gs, h]

/-- And they are the same up to order. -/
theorem perm_of_inFile_eq {fs gs : List Finding}
    (h : ∀ file, Report.inFile file fs = Report.inFile file gs) : fs.Perm gs := by
  have hsorted : (sorted fs).Perm (sorted gs) := by rw [sorted_eq h]
  exact ((List.mergeSort_perm fs notAfter).symm.trans hsorted).trans
    (List.mergeSort_perm gs notAfter)

end Finding

/-! ## Reports -/

/-- Two lists of findings that nobody can tell apart by what is reported of them: the lines of
the plain report, the prints of the console report, and the status to exit with. -/
structure ReportsAlike (fs gs : List Finding) : Prop where
  perm : fs.Perm gs
  plainLines : Report.plainLines fs = Report.plainLines gs
  plain : Report.plain fs = Report.plain gs
  prints : ∀ analyzed verbose issues,
    Report.prints fs analyzed verbose issues = Report.prints gs analyzed verbose issues
  exitStatus : CommandLine.Request.exitStatus fs = CommandLine.Request.exitStatus gs

namespace Report

variable {fs gs : List Finding}

/-- The closing panel counts, so it does not see the order. -/
theorem summaryPanel_of_perm (h : fs.Perm gs) : summaryPanel fs = summaryPanel gs := by
  have hcount : ∀ severity, severityCount fs severity = severityCount gs severity :=
    fun severity => (h.filter (isSeverity severity)).length_eq
  have hpart : severityPart? fs = severityPart? gs := by
    funext severity
    rw [severityPart?, severityPart?, hcount]
  rw [summaryPanel, summaryPanel, totalPart, totalPart, hpart, h.length_eq]

/-- The table of all files asks for the findings of each file. -/
theorem fileSummary_of_inFile_eq (h : ∀ file, inFile file fs = inFile file gs)
    (analyzed : List String) : fileSummary fs analyzed = fileSummary gs analyzed := by
  have hcount : countIn fs = countIn gs := by
    funext file
    rw [countIn, countIn, h]
  have hrow : fileRow fs = fileRow gs := by
    funext file
    rw [fileRow, fileRow, hcount]
  rw [fileSummary, fileSummary, fileTable, fileTable, summaryOrder, summaryOrder, hcount, hrow]

/-- So the plain report is the same. -/
theorem plainLines_of_inFile_eq (h : ∀ file, inFile file fs = inFile file gs) :
    plainLines fs = plainLines gs := by
  rw [plainLines, plainLines, Finding.sorted_eq h, (Finding.perm_of_inFile_eq h).isEmpty_eq]

/-- And the console report is. -/
theorem prints_of_inFile_eq (h : ∀ file, inFile file fs = inFile file gs) (analyzed : List Path)
    (verbose : Bool) (issues : List Issue) :
    prints fs analyzed verbose issues = prints gs analyzed verbose issues := by
  have hperm := Finding.perm_of_inFile_eq h
  rw [prints, prints, Finding.sorted_eq h, hperm.isEmpty_eq, fileSummary_of_inFile_eq h,
    summaryPanel_of_perm hperm]

end Report

/-- **Reports depend on the findings of each file only**, in the order of that file. -/
theorem ReportsAlike.of_inFile_eq {fs gs : List Finding}
    (h : ∀ file, Report.inFile file fs = Report.inFile file gs) : ReportsAlike fs gs where
  perm := Finding.perm_of_inFile_eq h
  plainLines := Report.plainLines_of_inFile_eq h
  plain := by rw [Report.plain, Report.plain, Report.plainLines_of_inFile_eq h]
  prints := Report.prints_of_inFile_eq h
  exitStatus := by
    rw [CommandLine.Request.exitStatus, CommandLine.Request.exitStatus,
      (Finding.perm_of_inFile_eq h).any_eq]

end CallbackLint
