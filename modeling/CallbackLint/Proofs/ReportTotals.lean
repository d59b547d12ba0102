import CallbackLint.Proofs.PathText
import CallbackLint.Proofs.ReportOrder
import Mathlib.Algebra.BigOperators.Group.List.Basic
import Mathlib.Algebra.GroupWithZero.Nat
import Mathlib.Data.List.Nodup
/-!
# The parts of a report agree

A console report counts the same findings four times over: in the tables of the files, in the
table of all files analysed, in the total and by severity. Here the frames of a report, its
panels and tables, are read as an `Outline`, and the numbers in it are shown to be the numbers
of the findings: none is lost and none is shown twice (`Outline.Accounts`). The status to exit
with is the one that the closing panel suggests.
-/

namespace CallbackLint

/-! ## Groups -/

namespace Grouping

variable {α κ : Type*}

/-- Dropping repetitions keeps the order. -/
theorem eraseDups_sublist [BEq α] (l : List α) : l.eraseDups.Sublist l := by
  match l with
  | [] => exact List.Sublist.refl []
  | a :: l =>
    rw [List.eraseDups_cons]
    exact ((eraseDups_sublist _).trans List.filter_sublist).cons_cons a
termination_by l.length
decreasing_by exact Nat.lt_succ_of_le (List.length_filter_le _ _)

/-- And leaves no repetition. -/
theorem nodup_eraseDups [BEq α] [LawfulBEq α] (l : List α) : l.eraseDups.Nodup := by
  match l with
  | [] => exact List.nodup_nil
  | a :: l =>
    rw [List.eraseDups_cons, List.nodup_cons, List.mem_eraseDups, List.mem_filter]
    exact ⟨by simp, nodup_eraseDups _⟩
termination_by l.length
decreasing_by exact Nat.lt_succ_of_le (List.length_filter_le _ _)

/-- A list that is empty but for one of the indices contributes at that index. -/
theorem flatMap_ite_eq [DecidableEq κ] {keys : List κ} (hnodup : keys.Nodup) (k : κ) (l : List α) :
    keys.flatMap (fun j => if j = k then l else []) = if k ∈ keys then l else [] := by
  induction keys with
  | nil => rfl
  | cons j keys ih =>
    obtain ⟨hj, hnodup⟩ := List.nodup_cons.1 hnodup
    rw [List.flatMap_cons, ih hnodup]
    by_cases hjk : j = k
    · subst hjk
      simp [hj]
    · have hkj : k ≠ j := fun h => hjk h.symm
      simp [hjk, hkj]

variable [LinearOrder κ] {key : α → κ}

/-- The keys of a list in the order of the keys, each once, ascend. -/
theorem pairwise_lt_eraseDups {l : List α} (hl : l.Pairwise (key · ≤ key ·)) :
    (l.map key).eraseDups.Pairwise (· < ·) := by
  have hle : (l.map key).eraseDups.Pairwise (· ≤ ·) :=
    (List.pairwise_map.2 hl).sublist (eraseDups_sublist _)
  have hne : (l.map key).eraseDups.Pairwise (· ≠ ·) := nodup_eraseDups _
  exact (hle.and hne).imp fun h => lt_of_le_of_ne h.1 h.2

/-- **The groups of a list in the order of the keys, one after the other, are the list.** -/
theorem flatMap_filter_eraseDups {l : List α} (hl : l.Pairwise (key · ≤ key ·)) :
    (l.map key).eraseDups.flatMap (fun k => l.filter (fun a => key a = k)) = l := by
  have hlt := pairwise_lt_eraseDups hl
  refine StableSort.eq_of_filter_key_eq ?_ hl fun k => ?_
  · rw [List.pairwise_flatMap]
    refine ⟨fun k _ => ?_, hlt.imp fun {j k} hjk a ha b hb => ?_⟩
    · refine List.pairwise_of_forall_mem_list fun a ha b hb => ?_
      have hka : key a = k := by simpa using (List.mem_filter.1 ha).2
      have hkb : key b = k := by simpa using (List.mem_filter.1 hb).2
      rw [hka, hkb]
    · have hka : key a = j := by simpa using (List.mem_filter.1 ha).2
      have hkb : key b = k := by simpa using (List.mem_filter.1 hb).2
      rw [hka, hkb]
      exact hjk.le
  · -- Of the groups only that of `k` has elements with the key `k`.
    have hgroup : ∀ j, (l.filter (fun a => key a = j)).filter (fun a => key a = k) =
        if j = k then l.filter (fun a => key a = k) else [] := by
      intro j
      rw [List.filter_filter]
      by_cases hjk : j = k
      · simp [hjk]
      · rw [if_neg hjk, List.filter_eq_nil_iff]
        intro a _ ha
        simp only [Bool.and_eq_true, decide_eq_true_eq] at ha
        exact hjk (ha.2.symm.trans ha.1)
    rw [List.filter_flatMap, funext hgroup, flatMap_ite_eq (nodup_eraseDups _)]
    by_cases hk : k ∈ (l.map key).eraseDups
    · rw [if_pos hk]
    · rw [if_neg hk, eq_comm, List.filter_eq_nil_iff]
      intro a ha hak
      rw [List.mem_eraseDups] at hk
      exact hk (List.mem_map.2 ⟨a, ha, by simpa using hak⟩)

end Grouping

namespace Report

/-! ## The texts of the closing panel -/

/-- The severities that the closing panel counts. -/
def severities : List String :=
  ["error", "warning", "info"]

/-- The text that shows a number of findings of a severity. -/
def partText (severity : String) (n : Nat) : String :=
  "[" ++ severityStyle severity ++ "]" ++ toString n ++ " " ++ severity ++ "[/]"

/-- The text that shows a number of findings in all. -/
def totalText (n : Nat) : String :=
  "[bold]" ++ toString n ++ " finding" ++ (if n == 1 then "" else "s") ++ "[/bold]"

/-- The texts between the bars of a text in which every bar has a blank on either side. -/
def barred (text : String) : List String :=
  ((' ' :: text.toList ++ [' ']).splitOn '|').map fun piece => String.ofList (piece.drop 1).dropLast

/-- With a blank at either end, texts joined by bars and blanks are padded texts joined by bars. -/
theorem padded_intercalate {ls : List (List Char)} (hls : ls ≠ []) :
    ' ' :: [' ', '|', ' '].intercalate ls ++ [' '] =
      ['|'].intercalate (ls.map fun l => ' ' :: l ++ [' ']) := by
  induction ls with
  | nil => exact absurd rfl hls
  | cons l ls ih =>
    rcases ls with _ | ⟨m, ls⟩
    · simp
    · rw [List.intercalate_cons_cons, List.map_cons, List.map_cons, List.intercalate_cons_cons,
        ← List.map_cons (f := fun l => ' ' :: l ++ [' ']), ← ih (List.cons_ne_nil m ls)]
      simp

/-- Texts without bars are read back from their join. -/
theorem barred_intercalate {texts : List String} (hne : texts ≠ [])
    (hbar : ∀ t ∈ texts, '|' ∉ t.toList) : barred (" | ".intercalate texts) = texts := by
  have hmap : texts.map String.toList ≠ [] := by simpa using hne
  rw [barred, String.toList_intercalate, show " | ".toList = [' ', '|', ' '] from rfl,
    padded_intercalate hmap, List.splitOn_intercalate _ _ (by simpa using hne)]
  · simp [Function.comp_def]
  · intro l hl
    simp only [List.map_map, List.mem_map, Function.comp_apply] at hl
    obtain ⟨t, ht, rfl⟩ := hl
    simpa using hbar t ht

/-- A text without its digits. -/
def withoutDigits (text : String) : String :=
  String.ofList (text.toList.filter fun c => !c.isDigit)

theorem withoutDigits_append (s t : String) :
    withoutDigits (s ++ t) = withoutDigits s ++ withoutDigits t := by
  simp [withoutDigits]

/-- A number is all digits. -/
theorem withoutDigits_toString (n : Nat) : withoutDigits (toString n) = "" := by
  have hdigits : ∀ c ∈ Nat.toDigits 10 n, c.isDigit := fun c hc =>
    Nat.isDigit_of_mem_toDigits (by decide) (by decide) hc
  simpa [withoutDigits, Nat.toString_eq_repr] using hdigits

/-- A number is told by its digits. -/
theorem toString_injective {m n : Nat} (h : toString m = toString n) : m = n := by
  rw [Nat.toString_eq_repr, Nat.toString_eq_repr, ← String.toList_inj, Nat.toList_repr,
    Nat.toList_repr] at h
  rw [← @Nat.ofDigitChars_ten_toDigits m, h, Nat.ofDigitChars_ten_toDigits]

/-- So a part is the same without digits, whatever its number. -/
theorem withoutDigits_partText (severity : String) (n : Nat) :
    withoutDigits (partText severity n) = withoutDigits (partText severity 0) := by
  simp only [partText, withoutDigits_append, withoutDigits_toString]

/-- And the total is so but for its plural. -/
theorem withoutDigits_totalText (n : Nat) :
    withoutDigits (totalText n) = withoutDigits (totalText 0) ∨
      withoutDigits (totalText n) = withoutDigits (totalText 1) := by
  by_cases hn : n = 1
  · exact .inr (by rw [hn])
  · left
    simp only [totalText, withoutDigits_append, withoutDigits_toString, beq_eq_false_iff_ne.2 hn]
    rfl

/-- **A part is told by its text**: its severity by what is left without the number, and then
the number by what is between the two ends. -/
theorem partText_inj {s t : String} (hs : s ∈ severities) (ht : t ∈ severities) {m n : Nat} :
    partText s m = partText t n ↔ s = t ∧ m = n := by
  have hfixed : ∀ s ∈ severities, ∀ t ∈ severities,
      withoutDigits (partText s 0) = withoutDigits (partText t 0) → s = t := by
    decide +kernel
  constructor
  · intro h
    have hst : s = t := by
      refine hfixed s hs t ht ?_
      rw [← withoutDigits_partText s m, h, withoutDigits_partText]
    subst hst
    refine ⟨rfl, toString_injective ?_⟩
    simpa [partText] using h
  · rintro ⟨rfl, rfl⟩
    rfl

/-- No part looks like the total. -/
theorem partText_ne_totalText {severity : String} (hs : severity ∈ severities) (m n : Nat) :
    partText severity m ≠ totalText n := by
  have hfixed : ∀ s ∈ severities, withoutDigits (partText s 0) ≠ withoutDigits (totalText 0) ∧
      withoutDigits (partText s 0) ≠ withoutDigits (totalText 1) := by decide +kernel
  intro h
  have hm := withoutDigits_partText severity m
  rw [h] at hm
  rcases withoutDigits_totalText n with hn | hn
  · exact (hfixed severity hs).1 (hm.symm.trans hn)
  · exact (hfixed severity hs).2 (hm.symm.trans hn)

/-- A bar in a text is still there without the digits. -/
theorem bar_mem_withoutDigits {text : String} (h : '|' ∈ text.toList) :
    '|' ∈ (withoutDigits text).toList := by
  rw [withoutDigits, String.toList_ofList, List.mem_filter]
  exact ⟨h, by decide⟩

/-- There is no bar in a part. -/
theorem bar_notMem_partText {severity : String} (hs : severity ∈ severities) (n : Nat) :
    '|' ∉ (partText severity n).toList := by
  have hfixed : ∀ s ∈ severities, '|' ∉ (withoutDigits (partText s 0)).toList := by
    decide +kernel
  intro h
  have hbar := bar_mem_withoutDigits h
  rw [withoutDigits_partText] at hbar
  exact hfixed severity hs hbar

/-- Nor in the total. -/
theorem bar_notMem_totalText (n : Nat) : '|' ∉ (totalText n).toList := by
  intro h
  have hbar := bar_mem_withoutDigits h
  rcases withoutDigits_totalText n with hn | hn
  · rw [hn] at hbar
    exact absurd hbar (by decide)
  · rw [hn] at hbar
    exact absurd hbar (by decide)

/-- The texts in the closing panel of a report on some findings. -/
def closingTexts (fs : List Finding) : List String :=
  totalText fs.length :: severities.filterMap (severityPart? fs)

/-- A part is shown exactly where there is something to count. -/
theorem severityPart?_eq_some_iff {fs : List Finding} {severity text : String} :
    severityPart? fs severity = some text ↔
      severityCount fs severity ≠ 0 ∧ partText severity (severityCount fs severity) = text := by
  rw [severityPart?]
  by_cases hcount : severityCount fs severity = 0
  · simp [hcount]
  · simp [hcount, partText]

/-- **What the closing panel says of a severity**: nothing when no finding has it, and else the
number of the findings that do. -/
theorem partText_mem_closingTexts {fs : List Finding} {severity : String}
    (hs : severity ∈ severities) (n : Nat) :
    partText severity n ∈ closingTexts fs ↔
      (∃ f ∈ fs, Text.lower f.severity = severity) ∧
        n = fs.countP (fun f => Text.lower f.severity = severity) := by
  have hcount : severityCount fs severity =
      fs.countP (fun f => Text.lower f.severity = severity) := by
    rw [severityCount, List.countP_eq_length_filter]
    rfl
  have hpos : severityCount fs severity ≠ 0 ↔ ∃ f ∈ fs, Text.lower f.severity = severity := by
    rw [hcount, ← Nat.pos_iff_ne_zero, List.countP_pos_iff]
    simp
  rw [closingTexts, List.mem_cons, or_iff_right (partText_ne_totalText hs n _), List.mem_filterMap,
    ← hpos, ← hcount]
  constructor
  · rintro ⟨t, ht, hpart⟩
    obtain ⟨hne, htext⟩ := severityPart?_eq_some_iff.1 hpart
    obtain ⟨rfl, hn⟩ := (partText_inj ht hs).1 htext
    exact ⟨hne, hn.symm⟩
  · rintro ⟨hne, rfl⟩
    exact ⟨severity, hs, severityPart?_eq_some_iff.2 ⟨hne, rfl⟩⟩

/-- So the texts of the closing panel are read back between its bars. -/
theorem barred_closingTexts (fs : List Finding) :
    barred (" | ".intercalate (closingTexts fs)) = closingTexts fs := by
  refine barred_intercalate (List.cons_ne_nil _ _) fun text htext => ?_
  rcases List.mem_cons.1 htext with rfl | hpart
  · exact bar_notMem_totalText _
  · obtain ⟨severity, hs, hsome⟩ := List.mem_filterMap.1 hpart
    rw [← (severityPart?_eq_some_iff.1 hsome).2]
    exact bar_notMem_partText hs _

/-! ## The frames of a report -/

/-- The panels and tables among some prints. -/
def frames (ps : List Print) : List Print :=
  ps.filter fun
    | .panel _ | .table _ => true
    | .blank | .line _ => false

/-- How the table of files marks a file: as failed, with the number of its findings, or as
passed. -/
inductive Mark where
  | failed (count : Nat)
  | passed
deriving Repr, DecidableEq

namespace Mark

/-- The number that the mark adds to the findings in all files. -/
def count : Mark → Nat
  | .failed n => n
  | .passed => 0

/-- The row of a file with its mark. -/
def row (file : String) : Mark → List Cell
  | .failed n => [.markup file, .styled "FAIL" "bold red", .markup (toString n)]
  | .passed => [.markup file, .styled "OK" "bold green", .markup "0"]

end Mark

/-- What the frames of a report are made of. -/
structure Outline where
  /-- The files that have a panel and a table of their own, in this order. -/
  files : List String
  /-- The findings in the table of a file, one for each row. -/
  rows : String → List Finding
  /-- The rows of the table of all files. -/
  summary : List (String × Mark)
  /-- The text of the closing panel. -/
  closing : String

namespace Outline

variable (o : Outline)

/-- The panel over the table of a file, with its path, in which no tag takes effect. -/
def headPanel (file : String) : Panel where
  content := .markup ("[bold cyan]" ++ Markup.escape file ++ "[/bold cyan]")
  borderStyle := "blue"
  box := .simpleHead

/-- What the row of a finding shows: its place, its severity in capitals, the rule and what the
rule says. -/
def cells (f : Finding) : List Cell :=
  [.markup (toString f.location.line), .markup (toString f.location.column),
    .styled (Text.upper f.severity) (severityStyle f.severity),
    .styled ("[" ++ f.ruleId ++ "]") "dim", .markup f.message]

/-- The table of a file, with one row for each of its findings. -/
def table (file : String) : Table :=
  { findingTable [] with rows := (o.rows file).map cells }

/-- The panel with the table of all files. -/
def summaryPanel : Panel where
  content := .table { fileTable [] [] with rows := o.summary.map fun entry => entry.2.row entry.1 }
  borderStyle := "cyan"
  box := .rounded

/-- The closing panel. -/
def closingPanel : Panel where
  content := .markup o.closing
  title := some "Summary"
  borderStyle := "yellow"
  box := .rounded

/-- The frames that an outline describes. -/
def frames : List Print :=
  o.files.flatMap (fun file => [.panel (headPanel file), .table (o.table file)]) ++
    (if o.summary.isEmpty then [] else [.panel o.summaryPanel]) ++ [.panel o.closingPanel]

/-- The mark that the tables of the files call for. -/
def markOf (file : String) : Mark :=
  if file ∈ o.files then .failed (o.rows file).length else .passed

/-- An outline whose parts account for the same findings. -/
structure Accounts (fs : List Finding) (analyzed : List Path) : Prop where
  /-- Every file has its panel and its table once, and they are in order. -/
  files_ascend : o.files.Pairwise (· < ·)
  mem_files_iff : ∀ file, file ∈ o.files ↔ ∃ f ∈ fs, f.file = file
  rows_inFile : ∀ file ∈ o.files, ∀ f ∈ o.rows file, f.file = file
  /-- The rows of all tables are the findings, in the order of a report. -/
  rows_perm : (o.files.flatMap o.rows).Perm fs
  rows_sorted : (o.files.flatMap o.rows).Pairwise (Finding.sortKey · ≤ Finding.sortKey ·)
  /-- So what the tables show, row by row, is what is to be shown of the findings. -/
  cells_perm : (o.files.flatMap fun file => (o.table file).rows).Perm (fs.map cells)
  /-- Every file that was analysed has one row, with the mark that its own table calls for. -/
  summary_perm : o.summary.Perm (analyzed.map fun p => (p.toString, o.markOf p.toString))
  total : (barred o.closing).head? = some (totalText fs.length)
  part_iff : ∀ severity ∈ severities, ∀ n, partText severity n ∈ barred o.closing ↔
    (∃ f ∈ fs, Text.lower f.severity = severity) ∧
      n = fs.countP (fun f => Text.lower f.severity = severity)
  /-- Where the files that were analysed are different and have all findings among them, the
  numbers of the failed ones add up to the total. -/
  sum_summary : (∀ p ∈ analyzed, p.Normal) → analyzed.Nodup →
    (∀ f ∈ fs, f.location.path ∈ analyzed) →
      (o.summary.map fun entry => entry.2.count).sum = fs.length

variable {o} {fs : List Finding}

/-- Marks add up to the findings when the files are all there and each is there once. -/
theorem sum_count_markOf {files : List String} (hfiles : o.files.Nodup)
    (hrows : (o.files.flatMap o.rows).Perm fs) (hnodup : files.Nodup) (hsub : o.files ⊆ files) :
    (files.map fun file => (o.markOf file).count).sum = fs.length := by
  have hcount : ∀ file, (o.markOf file).count =
      if file ∈ o.files then (o.rows file).length else 0 := by
    intro file
    rw [markOf]
    split <;> rfl
  have hfailed : (files.filter fun file => decide (file ∈ o.files)).Perm o.files := by
    rw [List.perm_ext_iff_of_nodup (hnodup.filter _) hfiles]
    intro file
    simp only [List.mem_filter, decide_eq_true_eq]
    exact ⟨And.right, fun h => ⟨hsub h, h⟩⟩
  calc (files.map fun file => (o.markOf file).count).sum
      = ((files.filter fun file => decide (file ∈ o.files)).map fun file =>
          (o.rows file).length).sum := by
        rw [funext hcount, List.sum_map_ite]
        simp
    _ = (o.files.map fun file => (o.rows file).length).sum :=
        (hfailed.map fun file => (o.rows file).length).sum_eq
    _ = fs.length := by rw [← hrows.length_eq, List.length_flatMap]

end Outline

variable (fs : List Finding) (analyzed : List Path)

/-- **A report is in the order of the sort key.** -/
theorem sorted_pairwise_sortKey :
    (Finding.sorted fs).Pairwise (Finding.sortKey · ≤ Finding.sortKey ·) :=
  StableSort.pairwise_key_mergeSort Finding.notAfter_iff fs

/-- In particular it goes file by file. -/
theorem sorted_pairwise_file : (Finding.sorted fs).Pairwise (Finding.file · ≤ Finding.file ·) := by
  refine (sorted_pairwise_sortKey fs).imp fun {f g} h => ?_
  rw [Finding.sortKey, Finding.sortKey, Prod.Lex.toLex_le_toLex] at h
  rcases h with hlt | ⟨heq, -⟩
  · exact hlt.le
  · exact heq.le

/-- **Sorting loses no finding and repeats none.** -/
theorem perm_sorted : (Finding.sorted fs).Perm fs :=
  List.mergeSort_perm fs Finding.notAfter

/-- The files of a report are those that have a finding. -/
theorem mem_filesOf_iff {file : String} :
    file ∈ filesOf (Finding.sorted fs) ↔ ∃ f ∈ fs, f.file = file := by
  rw [filesOf, List.mem_eraseDups, List.mem_map]
  exact exists_congr fun f => and_congr_left fun _ => (perm_sorted fs).mem_iff

/-- The findings of these files, file by file, are the report. -/
theorem flatMap_inFile_filesOf :
    (filesOf (Finding.sorted fs)).flatMap (fun file => inFile file (Finding.sorted fs)) =
      Finding.sorted fs :=
  Grouping.flatMap_filter_eraseDups (sorted_pairwise_file fs)

/-- The mark of a file, by the number of its findings. -/
def markIn (file : String) : Mark :=
  if countIn fs file = 0 then .passed else .failed (countIn fs file)

/-- The outline of the report on some findings and the files that were analysed. -/
def outlineOf : Outline where
  files := filesOf (Finding.sorted fs)
  rows := fun file => inFile file (Finding.sorted fs)
  summary := (summaryOrder fs (analyzed.map Path.toString)).map fun file => (file, markIn fs file)
  closing := " | ".intercalate (closingTexts fs)

theorem frames_append (ps qs : List Print) : frames (ps ++ qs) = frames ps ++ frames qs :=
  List.filter_append ps qs

theorem frames_flatMap {α : Type*} (l : List α) (ps : α → List Print) :
    frames (l.flatMap ps) = l.flatMap fun a => frames (ps a) :=
  List.filter_flatMap

/-- Excerpts are lines and no frames. -/
theorem frames_snippetPrints : frames (snippetPrints fs) = [] := by
  rw [snippetPrints]
  split
  · rfl
  · simp [frames]

/-- So are explanations. -/
theorem frames_explanationPrints (issues : List Issue) :
    frames (explanationPrints issues fs) = [] := by
  rw [explanationPrints, frames_append, List.append_eq_nil_iff]
  constructor
  · simp only [frames, List.filter_eq_nil_iff, List.mem_filterMap, Option.map_eq_some_iff]
    rintro _ ⟨_, _, _, _, rfl⟩
    simp
  · split <;> rfl

/-- **The frames for one file** are the panel with its path and a table with one row for each of
the findings in it. -/
theorem frames_filePrints (verbose : Bool) (issues : List Issue) (file : String) :
    frames (filePrints verbose issues file fs) =
      [.panel (Outline.headPanel file),
        .table { findingTable [] with rows := fs.map Outline.cells }] := by
  rw [filePrints, frames_append, frames_append, frames_snippetPrints]
  cases verbose with
  | false => rfl
  | true =>
    rw [if_pos rfl, frames_explanationPrints]
    rfl

/-- The row of a file in the table of all files shows its mark. -/
theorem fileRow_eq (file : String) : fileRow fs file = (markIn fs file).row file := by
  rw [fileRow, markIn]
  by_cases hcount : countIn fs file = 0
  · simp [hcount, Mark.row]
  · simp [hcount, Mark.row]

/-- The table of all files has each of them once: those that failed and those that passed. -/
theorem perm_summaryOrder (files : List String) : (summaryOrder fs files).Perm files := by
  refine ((List.mergeSort_perm _ _).append (List.mergeSort_perm _ _)).trans ?_
  have hpassed : (files.filter fun p => countIn fs p == 0) =
      files.filter fun p => !(countIn fs p != 0) :=
    List.filter_congr fun p _ => (Bool.not_not _).symm
  rw [hpassed]
  exact List.filter_append_perm _ files

/-- **The frames of a report are those of its outline.** -/
theorem frames_prints (hfs : fs ≠ []) (verbose : Bool) (issues : List Issue) :
    frames (prints fs analyzed verbose issues) = (outlineOf fs analyzed).frames := by
  have hsummary : (outlineOf fs analyzed).summary.isEmpty =
      (analyzed.map Path.toString).isEmpty := by
    rw [outlineOf, List.isEmpty_map, (perm_summaryOrder fs _).isEmpty_eq]
  have hrows : (summaryOrder fs (analyzed.map Path.toString)).map (fileRow fs) =
      (outlineOf fs analyzed).summary.map fun entry => entry.2.row entry.1 := by
    rw [outlineOf, List.map_map, funext (fileRow_eq fs)]
    rfl
  have hlength : (fs.length == 0) = false := by simpa using hfs
  rw [prints, if_neg (by simpa using hfs), frames_append, frames_append, frames_flatMap,
    Outline.frames, hsummary]
  simp only [frames_filePrints]
  refine congr (congrArg _ (congrArg _ ?_)) ?_
  · split
    · rfl
    · simp only [fileSummary, fileTable, hrows]
      rfl
  · simp only [summaryPanel, hlength]
    rfl

/-- A file without findings is none of the files of the report. -/
theorem countIn_eq_zero_iff {file : String} :
    countIn fs file = 0 ↔ file ∉ filesOf (Finding.sorted fs) := by
  rw [mem_filesOf_iff, countIn, inFile, List.length_eq_zero_iff, List.filter_eq_nil_iff]
  simp

/-- The number that a file is marked with is that of the rows in its table. -/
theorem markOf_outlineOf (file : String) :
    (outlineOf fs analyzed).markOf file = markIn fs file := by
  have hrows : ((outlineOf fs analyzed).rows file).length = countIn fs file :=
    ((perm_sorted fs).filter _).length_eq
  have hmem : file ∈ (outlineOf fs analyzed).files ↔ countIn fs file ≠ 0 :=
    (not_congr (countIn_eq_zero_iff fs)).trans not_not |>.symm
  rw [Outline.markOf, hrows, markIn]
  simp only [hmem, ne_eq, ite_not]

/-- **The outline of a report accounts for the findings.** -/
theorem accounts_outlineOf : (outlineOf fs analyzed).Accounts fs analyzed := by
  have hascend : (outlineOf fs analyzed).files.Pairwise (· < ·) :=
    Grouping.pairwise_lt_eraseDups (sorted_pairwise_file fs)
  have hflat : (outlineOf fs analyzed).files.flatMap (outlineOf fs analyzed).rows =
      Finding.sorted fs := flatMap_inFile_filesOf fs
  have hperm : ((outlineOf fs analyzed).files.flatMap (outlineOf fs analyzed).rows).Perm fs := by
    rw [hflat]
    exact perm_sorted fs
  have hcells : ((outlineOf fs analyzed).files.flatMap fun file =>
      ((outlineOf fs analyzed).table file).rows).Perm (fs.map Outline.cells) := by
    have hmap := hperm.map Outline.cells
    rwa [List.map_flatMap] at hmap
  have hsummary : (outlineOf fs analyzed).summary.Perm
      (analyzed.map fun p => (p.toString, (outlineOf fs analyzed).markOf p.toString)) := by
    simp only [markOf_outlineOf]
    have h := (perm_summaryOrder fs (analyzed.map Path.toString)).map fun file =>
      (file, markIn fs file)
    rwa [List.map_map] at h
  have hclosing : barred (outlineOf fs analyzed).closing = closingTexts fs :=
    barred_closingTexts fs
  refine
    { files_ascend := hascend
      mem_files_iff := fun file => mem_filesOf_iff fs
      rows_inFile := fun file _ f hf => by simpa using (List.mem_filter.1 hf).2
      rows_perm := hperm
      rows_sorted := by rw [hflat]; exact sorted_pairwise_sortKey fs
      cells_perm := hcells
      summary_perm := hsummary
      total := by rw [hclosing]; rfl
      part_iff := fun severity hs n => by rw [hclosing]; exact partText_mem_closingTexts hs n
      sum_summary := ?_ }
  intro hnormal hnodup hall
  -- Different paths have different texts, so every file is counted once.
  have htexts : (analyzed.map Path.toString).Nodup :=
    List.Nodup.map_on (fun p hp q hq h => Path.eq_of_toString_eq (hnormal p hp) (hnormal q hq) h)
      hnodup
  have hsub : (outlineOf fs analyzed).files ⊆ analyzed.map Path.toString := by
    intro file hfile
    obtain ⟨f, hf, rfl⟩ := (mem_filesOf_iff fs).1 hfile
    exact List.mem_map_of_mem (hall f hf)
  have hfiles : (outlineOf fs analyzed).files.Nodup := hascend.imp fun h => h.ne
  rw [(hsummary.map fun entry => entry.2.count).sum_eq, List.map_map,
    ← Outline.sum_count_markOf hfiles hperm htexts hsub, List.map_map]
  rfl

/-- Whether some prints show, in a closing panel, a number of findings of a severity. -/
def ShowsPart (severity : String) (ps : List Print) : Prop :=
  ∃ panel text n, .panel panel ∈ ps ∧ panel.title = some "Summary" ∧
    panel.content = .markup text ∧ partText severity n ∈ barred text

variable {fs analyzed}

/-- No panel is lost among the frames. -/
theorem panel_mem_frames {ps : List Print} {panel : Panel} :
    .panel panel ∈ frames ps ↔ .panel panel ∈ ps := by
  simp [frames]

/-- A report on nothing has no closing panel. -/
theorem not_showsPart_prints_nil (severity : String) (verbose : Bool) (issues : List Issue) :
    ¬ ShowsPart severity (prints [] analyzed verbose issues) := by
  rintro ⟨panel, text, n, hpanel, htitle, -, -⟩
  rw [prints, if_pos List.isEmpty_nil] at hpanel
  split at hpanel
  · obtain rfl : panel = cleanPanel := by simpa using hpanel
    exact absurd htitle (by decide)
  · simp only [fileSummary, List.mem_cons, List.not_mem_nil, or_false, reduceCtorEq, false_or,
      Print.panel.injEq] at hpanel
    subst hpanel
    exact absurd htitle (by simp)

/-- The only frame with the title of the closing panel is the closing panel. -/
theorem Outline.eq_closingPanel {o : Outline} {panel : Panel} (h : .panel panel ∈ o.frames)
    (htitle : panel.title = some "Summary") : panel = o.closingPanel := by
  simp only [Outline.frames, List.mem_append, List.mem_flatMap, List.mem_cons, List.not_mem_nil,
    or_false, Print.panel.injEq, reduceCtorEq] at h
  rcases h with (⟨file, -, rfl⟩ | hsummary) | hclosing
  · exact absurd htitle (by simp [headPanel])
  · split at hsummary
    · exact absurd hsummary List.not_mem_nil
    · obtain rfl : panel = o.summaryPanel := by simpa using hsummary
      exact absurd htitle (by simp [Outline.summaryPanel])
  · exact hclosing

/-- **A report shows a number for a severity** exactly when a finding has it. -/
theorem showsPart_prints_iff {severity : String} (hs : severity ∈ severities) (verbose : Bool)
    (issues : List Issue) : ShowsPart severity (prints fs analyzed verbose issues) ↔
      ∃ f ∈ fs, Text.lower f.severity = severity := by
  by_cases hfs : fs = []
  · subst hfs
    simpa using not_showsPart_prints_nil severity verbose issues
  · have hframes := frames_prints fs analyzed hfs verbose issues
    have hpart := (accounts_outlineOf fs analyzed).part_iff severity hs
    constructor
    · rintro ⟨panel, text, n, hpanel, htitle, hcontent, htext⟩
      rw [← panel_mem_frames, hframes] at hpanel
      obtain rfl := Outline.eq_closingPanel hpanel htitle
      obtain rfl : (outlineOf fs analyzed).closing = text := Content.markup.inj hcontent
      exact ((hpart n).1 htext).1
    · intro hfound
      have htext := (hpart _).2 ⟨hfound, rfl⟩
      refine ⟨(outlineOf fs analyzed).closingPanel, _, _, ?_, rfl, rfl, htext⟩
      rw [← panel_mem_frames, hframes]
      exact List.mem_append_right _ (List.mem_singleton_self _)

end Report

namespace CommandLine

namespace Request

/-- A run fails exactly when one of the findings is an error. -/
theorem exitStatus_eq_one_iff (fs : List Finding) :
    exitStatus fs = 1 ↔ ∃ f ∈ fs, Text.lower f.severity = "error" := by
  have hany : fs.any (Report.isSeverity "error") = true ↔
      ∃ f ∈ fs, Text.lower f.severity = "error" := by
    simp [Report.isSeverity]
  rw [exitStatus, ← hany]
  split <;> simp_all

/-- Plain or not, the report does not matter to how a run exits. -/
@[simp] theorem outcomeOf_exit (r : Request) (files : List Path) (fs : List Finding) :
    (r.outcomeOf files fs).exit = exitStatus fs := by
  rw [outcomeOf]
  split <;> rfl

/-- **A run fails exactly when its report shows errors.** -/
theorem exit_eq_one_iff_showsPart {r : Request} (hplain : r.plain = false) {path : Path}
    {target : Option Entry} {outcome : Outcome} (hrun : r.run path target = .ok outcome) :
    outcome.exit = 1 ↔ Report.ShowsPart "error" outcome.prints := by
  rw [run] at hrun
  split at hrun
  · cases hrun
  · obtain rfl := Except.ok.inj hrun
    rw [outcomeOf_exit, exitStatus_eq_one_iff, outcomeOf, if_neg (by simp [hplain])]
    exact (Report.showsPart_prints_iff (by decide) _ _).symm

end Request

end CommandLine

open Report CommandLine in
/-- **A report accounts for its findings.** The frames of a report on some findings are those
of an outline whose parts agree: no finding is lost and none is shown twice, and the numbers by
file, in all and by severity are the numbers of the findings. A run that prints such a report
exits with one exactly when the report shows a number of errors. -/
theorem report_accounts_for_findings :
    (∀ (fs : List Finding) (analyzed : List Path) (verbose : Bool) (issues : List Issue), fs ≠ [] →
      ∃ o : Outline, frames (prints fs analyzed verbose issues) = o.frames ∧
        o.Accounts fs analyzed) ∧
    ∀ (r : Request) (path : Path) (target : Option Entry) (outcome : Outcome), r.plain = false →
      r.run path target = .ok outcome →
        (outcome.exit = 1 ↔ ShowsPart "error" outcome.prints) := by
  refine ⟨fun fs analyzed verbose issues hfs => ?_, fun r path target outcome hplain hrun => ?_⟩
  · exact ⟨outlineOf fs analyzed, frames_prints fs analyzed hfs verbose issues,
      accounts_outlineOf fs analyzed⟩
  · exact Request.exit_eq_one_iff_showsPart hplain hrun

namespace MixedReport

/-- A finding at the start of a line. -/
def finding (file : String) (line : Int) (severity : String) : Finding where
  ruleId := "rule"
  message := "message"
  location := { path := Path.ofString file, line := line, column := 1 }
  severity := severity

/-- Three findings in two files, the severities not all in lower case. -/
def findings : List Finding :=
  [finding "b/B.java" 3 "ERROR", finding "A.java" 7 "warning", finding "b/B.java" 2 "Error"]

/-- Three files, one of them without findings. -/
def analyzed : List Path :=
  ["A.java", "b/B.java", "C.java"].map Path.ofString

/-- A class that has to forward and does not. -/
def source : Bytes :=
  "@RuntimePermissions class A{void onRequestPermissionsResult(){}}".toUTF8.toList

/-- The request to analyse the file with that class. -/
def request : CommandLine.Request where
  target := "A.java"

end MixedReport

open Report CommandLine MixedReport in
/-- Two files with findings and one without, whose numbers add up to three; and a run on one
file that fails and shows the error. -/
theorem mixedReport_accounts :
    (∃ o : Outline, frames (prints findings analyzed true []) = o.frames ∧
      o.Accounts findings analyzed ∧ (o.summary.map fun entry => entry.2.count).sum = 3) ∧
    ∃ outcome, request.run (Path.ofString "A.java") (some (.file "A.java" source)) = .ok outcome ∧
      outcome.exit = 1 ∧ ShowsPart "error" outcome.prints := by
  obtain ⟨haccounts, hexit⟩ := report_accounts_for_findings
  refine ⟨?_, ?_⟩
  · obtain ⟨o, hframes, ho⟩ := haccounts findings analyzed true [] (by simp [findings])
    refine ⟨o, hframes, ho, ho.sum_summary (fun p hp => ?_) (by decide) (by decide)⟩
    obtain ⟨text, -, rfl⟩ := List.mem_map.1 hp
    exact Path.normal_ofString text
  · have hread : (Entry.file "A.java" source).read? [] = some source := by
      simp [Entry.read?, Entry.find?, Entry.reach?, Entry.lookup]
    have hrun : request.run (Path.ofString "A.java") (some (.file "A.java" source)) =
        .ok (request.outcomeOf [Path.ofString "A.java"] (Analysis.findings request.rules
          [some (SourceFile.parse (Path.ofString "A.java") source)])) := by
      have hfile : Request.fileAt (Path.ofString "A.java") (.file "A.java" source) [] =
          some (SourceFile.parse (Path.ofString "A.java") source) := by
        rw [Request.fileAt, hread]
        rfl
      rw [← hfile]
      rfl
    have hone : (request.outcomeOf [Path.ofString "A.java"] (Analysis.findings request.rules
        [some (SourceFile.parse (Path.ofString "A.java") source)])).exit = 1 := by
      rw [Request.outcomeOf_exit]
      decide +kernel
    exact ⟨_, hrun, hone, (hexit _ _ _ _ rfl hrun).1 hone⟩

end CallbackLint
