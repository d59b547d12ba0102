import CallbackLint.Proofs.Interleaving
import CallbackLint.Proofs.PathText
import Mathlib.Logic.Relation
/-!
# Files analysed side by side

With more than one job a pool of workers shares the files. A free worker takes the next file
that waits, runs the rules over it in order, and hands each batch to the sink as a whole; it
is free again when no rule is left. `Pool.Step` is one such move, and which of the possible
moves comes next is left open.

Every run of the pool comes to an end (`Pool.exists_run_done`), and what is in the sink then
is an interleaving of the batches of the files (`Pool.interleaves_of_run`). So, for files with
different paths, what is reported does not depend on the number of jobs or on the moves
(`returns_reportsAlike`).
-/

namespace CallbackLint

namespace Pool

open Analysis

/-- A file that was taken: one that could not be read, or one that was read with the rules
that still have to run over it. -/
inductive Task where
  | unreadable
  | readable (file : SourceFile) (rules : List Rule)

namespace Task

/-- A file when it is taken. -/
def start (rules : List Rule) : Option SourceFile → Task
  | some file => .readable file rules
  | none => .unreadable

/-- The rules that still have to run. -/
def left : Task → List Rule
  | .unreadable => []
  | .readable _ rules => rules

/-- The batches that are still to come. -/
def owed : Task → List (List Finding)
  | .unreadable => []
  | .readable file rules => rules.filterMap (batch? file)

/-- At its start a task owes all its batches. -/
theorem owed_start (rules : List Rule) (file : Option SourceFile) :
    (start rules file).owed = batches rules file := by
  cases file <;> rfl

/-- It has one rule to run for each, at most. -/
theorem length_left_start_le (rules : List Rule) (file : Option SourceFile) :
    (start rules file).left.length ≤ rules.length := by
  cases file with
  | none => exact Nat.zero_le _
  | some file => exact Nat.le_refl _

/-- Nothing is to come when no rule is left. -/
theorem owed_of_left_eq_nil {t : Task} (h : t.left = []) : t.owed = [] := by
  cases t with
  | unreadable => rfl
  | readable file rules =>
    obtain rfl : rules = [] := h
    rfl

/-- When a rule is left, it is a next one for a file that was read. -/
theorem exists_of_left_ne_nil {t : Task} (h : t.left ≠ []) :
    ∃ file rule rest, t = .readable file (rule :: rest) := by
  cases t with
  | unreadable => exact absurd rfl h
  | readable file rules =>
    obtain ⟨rule, rest, rfl⟩ := List.exists_cons_of_ne_nil (show rules ≠ [] from h)
    exact ⟨file, rule, rest, rfl⟩

end Task

/-- The files that were taken, those that wait, and the findings so far. -/
structure State where
  taken : List Task
  waiting : List (Option SourceFile)
  sink : Sink

namespace State

/-- The pool before the first move. -/
def start (files : List (Option SourceFile)) : State := ⟨[], files, {}⟩

/-- No file waits and no rule is left to run. -/
def Done (s : State) : Prop :=
  s.waiting = [] ∧ ∀ t ∈ s.taken, t.left = []

/-- The batches that are still to come, file by file. -/
def owed (rules : List Rule) (s : State) : List (List (List Finding)) :=
  s.taken.map Task.owed ++ s.waiting.map (batches rules)

end State

/-- The sink after a rule ran over a file; a rule that fails leaves it as it is. -/
def handOver (sink : Sink) (file : SourceFile) (rule : Rule) : Sink :=
  match batch? file rule with
  | some batch => sink.extend batch
  | none => sink

/-- A move of a pool with so many workers: a file is taken while fewer tasks are busy, or a
rule runs over a file that was taken. -/
inductive Step (rules : List Rule) (workers : Nat) : State → State → Prop where
  | take {taken : List Task} {file : Option SourceFile} {waiting : List (Option SourceFile)}
      {sink : Sink} (hfree : taken.countP (fun t => !t.left.isEmpty) < workers) :
      Step rules workers ⟨taken, file :: waiting, sink⟩
        ⟨taken ++ [Task.start rules file], waiting, sink⟩
  | run {before after : List Task} {file : SourceFile} {rule : Rule} {rest : List Rule}
      {waiting : List (Option SourceFile)} {sink : Sink} :
      Step rules workers ⟨before ++ .readable file (rule :: rest) :: after, waiting, sink⟩
        ⟨before ++ .readable file rest :: after, waiting, handOver sink file rule⟩

/-- A run of the pool: any number of moves. -/
abbrev Run (rules : List Rule) (workers : Nat) : State → State → Prop :=
  Relation.ReflTransGen (Step rules workers)

variable {rules : List Rule} {workers : Nat} {s t : State}

/-! ## What comes in -/

/-- One move keeps the account: what it puts in the sink is the next batch of one file, and
nothing else that was to come is touched. -/
theorem Step.interleaves (h : Step rules workers s t) {merged : List (List Finding)}
    (hmerged : Interleaves (t.owed rules) merged) :
    ∃ merged', Interleaves (s.owed rules) merged' ∧
      s.sink.findings ++ merged'.flatten = t.sink.findings ++ merged.flatten := by
  cases h with
  | @take taken file waiting sink _ =>
    -- The file moves from those that wait to those taken, and owes the same batches.
    refine ⟨merged, ?_, rfl⟩
    simpa [State.owed, Task.owed_start] using hmerged
  | @run before after file rule rest waiting sink =>
    rcases hbatch : batch? file rule with _ | batch
    · refine ⟨merged, ?_, by simp [handOver, hbatch]⟩
      simpa [State.owed, Task.owed, hbatch] using hmerged
    · refine ⟨batch :: merged, ?_, by simp [handOver, hbatch, Sink.extend]⟩
      simp only [State.owed, Task.owed, List.map_append, List.map_cons,
        List.append_assoc, List.cons_append, List.filterMap_cons_some hbatch] at hmerged ⊢
      exact .next hmerged

/-- **What is in the sink after a whole run is an interleaving of what was to come.** -/
theorem interleaves_of_run (h : Run rules workers s t) (hdone : t.Done) :
    ∃ merged, Interleaves (s.owed rules) merged ∧
      t.sink.findings = s.sink.findings ++ merged.flatten := by
  induction h using Relation.ReflTransGen.head_induction_on with
  | refl =>
    obtain ⟨hwaiting, htaken⟩ := hdone
    refine ⟨[], .done fun source hs => ?_, by simp⟩
    rw [State.owed, hwaiting, List.map_nil, List.append_nil] at hs
    obtain ⟨task, htask, rfl⟩ := List.mem_map.1 hs
    exact Task.owed_of_left_eq_nil (htaken task htask)
  | head hstep _ ih =>
    obtain ⟨merged, hmerged, hsink⟩ := ih
    obtain ⟨merged', hmerged', hsink'⟩ := hstep.interleaves hmerged
    exact ⟨merged', hmerged', by rw [hsink, hsink']⟩

/-! ## Every run comes to an end -/

/-- What is left to do, counted so that every move counts. -/
def State.work (rules : List Rule) (s : State) : Nat :=
  (s.taken.flatMap Task.left).length + s.waiting.length * (rules.length + 1)

/-- **Every step leaves less to be done.** -/
theorem Step.work_lt (h : Step rules workers s t) : t.work rules < s.work rules := by
  cases h with
  | @take taken file waiting sink _ =>
    have hstart := Task.length_left_start_le rules file
    simp only [State.work, List.flatMap_append, List.flatMap_singleton, List.length_append,
      List.length_cons, Nat.add_mul, Nat.one_mul]
    omega
  | @run before after file rule rest waiting sink =>
    simp only [State.work, List.flatMap_append, List.flatMap_cons, List.length_append, Task.left,
      List.length_cons]
    omega

/-- As long as the pool is not done it has a move: a rule to run, or, when all workers are
free, a file to take. -/
theorem exists_step (rules : List Rule) (hworkers : 0 < workers) (hdone : ¬ s.Done) :
    ∃ t, Step rules workers s t := by
  obtain ⟨taken, waiting, sink⟩ := s
  by_cases hbusy : ∃ t ∈ taken, t.left ≠ []
  · obtain ⟨task, htask, hleft⟩ := hbusy
    obtain ⟨file, rule, rest, rfl⟩ := Task.exists_of_left_ne_nil hleft
    obtain ⟨before, after, rfl⟩ := List.append_of_mem htask
    exact ⟨_, .run⟩
  · have hidle : ∀ t ∈ taken, t.left = [] := fun t ht => by
      by_contra hleft
      exact hbusy ⟨t, ht, hleft⟩
    -- No task is busy, so there is a free worker whatever their number.
    have hfree : taken.countP (fun t => !t.left.isEmpty) = 0 :=
      List.countP_eq_zero.2 fun t ht => by simp [hidle t ht]
    cases waiting with
    | nil => exact absurd ⟨rfl, hidle⟩ hdone
    | cons file waiting => exact ⟨_, .take (by omega)⟩

/-- **A pool with a worker finishes**, from every state. -/
theorem exists_run_done (rules : List Rule) (hworkers : 0 < workers) (s : State) :
    ∃ t, Run rules workers s t ∧ t.Done := by
  induction hwork : s.work rules using Nat.strong_induction_on generalizing s with
  | _ k ih =>
    by_cases hdone : s.Done
    · exact ⟨s, .refl, hdone⟩
    · obtain ⟨s', hstep⟩ := exists_step rules hworkers hdone
      have hlt := hstep.work_lt
      obtain ⟨t, hrun, ht⟩ := ih (s'.work rules) (by omega) s' rfl
      exact ⟨t, .head hstep hrun, ht⟩

end Pool

namespace Analysis

/-- What the analysis of some files may return with a number of jobs: with one job the
findings file after file, with more whatever a pool with that many workers ends with. -/
def Returns (jobs : Int) (rules : List Rule) (files : List (Option SourceFile))
    (fs : List Finding) : Prop :=
  if jobs ≤ 1 then fs = findings rules files
  else ∃ t, Pool.Run rules jobs.toNat (Pool.State.start files) t ∧ t.Done ∧ t.sink.findings = fs

/-- The findings of one rule in one file: none when the file cannot be read, and none when the
rule fails. -/
def contribution (file : Option SourceFile) (rule : Rule) : List Finding :=
  match file with
  | some file =>
    match rule.run file with
    | .ok fs => fs
    | .error _ => []
  | none => []

/-- The batches are what the rules answered on a file that was read. -/
theorem mem_batches {rules : List Rule} {file? : Option SourceFile} {batch : List Finding} :
    batch ∈ batches rules file? ↔
      ∃ file, file? = some file ∧ ∃ rule ∈ rules, rule.run file = .ok batch := by
  cases file? with
  | none => simp [batches]
  | some file =>
    have hbatch : ∀ rule : Rule, batch? file rule = some batch ↔ rule.run file = .ok batch := by
      intro rule
      rw [batch?]
      split <;> simp_all
    simp [batches, hbatch]

/-- The batches of a file are what its rules contribute. -/
theorem flatten_batches (rules : List Rule) (file : Option SourceFile) :
    (batches rules file).flatten = rules.flatMap (contribution file) := by
  cases file with
  | none => simp [batches, contribution]
  | some file =>
    induction rules with
    | nil => rfl
    | cons rule rules ih =>
      rw [List.flatMap_cons, ← ih]
      rcases hrun : rule.run file with es | fs <;> simp [batches, batch?, contribution, hrun]

/-- The sink holds what it held and then the batches. -/
theorem findings_foldl_extend (sink : Sink) (bs : List (List Finding)) :
    (bs.foldl Sink.extend sink).findings = sink.findings ++ bs.flatten := by
  induction bs generalizing sink with
  | nil => simp
  | cons b bs ih => rw [List.foldl_cons, ih, Sink.extend, List.flatten_cons, List.append_assoc]

/-- One file after the other, the batches come in as they are listed. -/
theorem findings_eq_flatten (rules : List Rule) (files : List (Option SourceFile)) :
    findings rules files = (files.map (batches rules)).flatten.flatten := by
  have hrun : ∀ sink : Sink, (files.foldl (addFile rules) sink).findings =
      sink.findings ++ (files.map (batches rules)).flatten.flatten := by
    induction files with
    | nil => simp
    | cons file files ih =>
      intro sink
      rw [List.foldl_cons, ih, addFile, findings_foldl_extend]
      simp
  exact hrun {}

/-- **The findings of one job** are, file by file and rule by rule, what did not fail. -/
theorem findings_eq_flatMap (rules : List Rule) (files : List (Option SourceFile)) :
    findings rules files = files.flatMap fun file => rules.flatMap (contribution file) := by
  rw [findings_eq_flatten, List.flatten_flatten, List.map_map, List.flatMap_def]
  congr 2
  funext file
  exact flatten_batches rules file

/-- **With any number of jobs, what is returned is an interleaving of the batches.** -/
theorem Returns.interleaves {jobs : Int} {rules : List Rule} {files : List (Option SourceFile)}
    {fs : List Finding} (h : Returns jobs rules files fs) :
    ∃ merged, Interleaves (files.map (batches rules)) merged ∧ fs = merged.flatten := by
  unfold Returns at h
  split at h
  · refine ⟨(files.map (batches rules)).flatten, ?_, by rw [h, findings_eq_flatten]⟩
    exact Interleaves.inTurn [] _ (by simp)
  · obtain ⟨t, hrun, hdone, rfl⟩ := h
    obtain ⟨merged, hmerged, hsink⟩ := Pool.interleaves_of_run hrun hdone
    exact ⟨merged, hmerged, by simpa [Pool.State.start] using hsink⟩

/-- Some run comes to its end. -/
theorem exists_returns (jobs : Int) (rules : List Rule) (files : List (Option SourceFile)) :
    ∃ fs, Returns jobs rules files fs := by
  by_cases hjobs : jobs ≤ 1
  · exact ⟨findings rules files, by rw [Returns, if_pos hjobs]⟩
  · have hworkers : 0 < jobs.toNat := by omega
    obtain ⟨t, hrun, hdone⟩ := Pool.exists_run_done rules hworkers (Pool.State.start files)
    exact ⟨t.sink.findings, by rw [Returns, if_neg hjobs]; exact ⟨t, hrun, hdone, rfl⟩⟩

/-- A batch that came in is in one piece among the findings. -/
theorem Interleaves.infix_of_mem {sources : List (List (List Finding))}
    {merged : List (List Finding)} (h : Interleaves sources merged)
    {source : List (List Finding)} {batch : List Finding} (hs : source ∈ sources)
    (hb : batch ∈ source) : batch <:+: merged.flatten := by
  have hmem : batch ∈ merged := h.perm.mem_iff.2 (List.mem_flatten_of_mem hs hb)
  obtain ⟨before, after, rfl⟩ := List.append_of_mem hmem
  exact ⟨before.flatten, after.flatten, by simp⟩

/-- The batches of files with different paths have no file in common, provided that rules
report in the file they looked at. -/
theorem pairwise_apart {rules : List Rule} {paths : List Path} {load : Path → Option SourceFile}
    (hdistinct : paths.Nodup) (hread : ∀ p ∈ paths, ∃ text, Path.ofString text = p)
    (hown : ∀ p ∈ paths, ∀ file, load p = some file → ∀ rule ∈ rules, ∀ fs,
      rule.run file = .ok fs → ∀ f ∈ fs, f.location.path = p) :
    ((paths.map load).map (batches rules)).Pairwise Apart := by
  have hfile : ∀ p ∈ paths, ∀ f ∈ (batches rules (load p)).flatten, f.file = p.toString := by
    intro p hp f hf
    obtain ⟨batch, hbatch, hf⟩ := List.mem_flatten.1 hf
    obtain ⟨file, hload, rule, hrule, hrun⟩ := mem_batches.1 hbatch
    rw [Finding.file, hown p hp file hload rule hrule batch hrun f hf]
  rw [List.pairwise_map, List.pairwise_map]
  refine hdistinct.imp_of_mem fun {p q} hp hq hne f hf g hg heq => hne ?_
  rw [hfile p hp f hf, hfile q hq g hg] at heq
  obtain ⟨text, rfl⟩ := hread p hp
  obtain ⟨text', rfl⟩ := hread q hq
  exact Path.eq_of_toString_eq (Path.normal_ofString text) (Path.normal_ofString text') heq

/-- **Analysing files side by side reports what analysing them one by one reports.** Take files
with different paths, some of them perhaps unreadable, and rules that may fail and otherwise
report in the file they looked at. Some findings are always returned. Those of one job are, file
by file and rule by rule, what did not fail. With any number of jobs, and for any interleaving
of the batches, the findings are these up to order, each batch in one piece, and all reports
on them are the same. -/
theorem returns_reportsAlike (jobs : Int) {rules : List Rule} {paths : List Path}
    {load : Path → Option SourceFile} (hdistinct : paths.Nodup)
    (hread : ∀ p ∈ paths, ∃ text, Path.ofString text = p)
    (hown : ∀ p ∈ paths, ∀ file, load p = some file → ∀ rule ∈ rules, ∀ fs,
      rule.run file = .ok fs → ∀ f ∈ fs, f.location.path = p) :
    (∃ fs, Returns jobs rules (paths.map load) fs) ∧
    (∀ fs, Returns 1 rules (paths.map load) fs ↔
      fs = paths.flatMap fun p => rules.flatMap (contribution (load p))) ∧
    ∀ fs, (Returns jobs rules (paths.map load) fs ∨
        ∃ merged, Interleaves ((paths.map load).map (batches rules)) merged ∧
          fs = merged.flatten) →
      (∀ serial, Returns 1 rules (paths.map load) serial → ReportsAlike fs serial) ∧
      ∀ p ∈ paths, ∀ file, load p = some file → ∀ rule ∈ rules, ∀ batch,
        rule.run file = .ok batch → batch <:+: fs := by
  have hserial : ∀ fs, Returns 1 rules (paths.map load) fs ↔
      fs = findings rules (paths.map load) := fun fs => by rw [Returns, if_pos (by decide)]
  refine ⟨exists_returns jobs rules _, fun fs => ?_, fun fs hfs => ?_⟩
  · rw [hserial, findings_eq_flatMap, List.flatMap_map]
  · obtain ⟨merged, hmerged, rfl⟩ : ∃ merged,
        Interleaves ((paths.map load).map (batches rules)) merged ∧ fs = merged.flatten :=
      hfs.elim Returns.interleaves id
    refine ⟨fun serial hs => ?_, fun p hp file hload rule hrule batch hrun => ?_⟩
    · rw [(hserial serial).1 hs, findings_eq_flatten]
      exact hmerged.reportsAlike (pairwise_apart hdistinct hread hown)
    · exact hmerged.infix_of_mem (List.mem_map_of_mem (List.mem_map_of_mem hp))
        (mem_batches.2 ⟨file, hload, rule, hrule, hrun⟩)

end Analysis

namespace ThreeFiles

open Analysis

/-- A finding at the start of a file. -/
def note (path : Path) (message : String) : Finding where
  ruleId := "note"
  message := message
  location := { path := path, line := 1, column := 1 }

/-- A rule that has one thing to say about every file. -/
def noting (message : String) : Rule where
  issue := Forwarding.issue
  contract := {}
  run := fun file => .ok [note file.path message]

/-- A rule that fails on every file. -/
def failing : Rule where
  issue := Forwarding.issue
  contract := {}
  run := fun _ => .error []

def rules : List Rule := [noting "first", failing, noting "second"]

def b : Path := Path.ofString "b.java"

def a : Path := Path.ofString "a.java"

def lost : Path := Path.ofString "lost.java"

/-- A file without contents. -/
def blank (path : Path) : SourceFile :=
  ⟨path, [], .mk "program" 0 0 true none [], false⟩

/-- All files are without contents but for one that cannot be read. -/
def load (path : Path) : Option SourceFile :=
  if path = lost then none else some (blank path)

theorem batches_b : batches rules (load b) = [[note b "first"], [note b "second"]] := by
  rw [load, if_neg (by decide +kernel)]
  rfl

theorem batches_lost : batches rules (load lost) = [] := by
  rw [load, if_pos rfl]
  rfl

theorem batches_a : batches rules (load a) = [[note a "first"], [note a "second"]] := by
  rw [load, if_neg (by decide +kernel)]
  rfl

/-- The rules report in the file they look at. -/
theorem path_of_run {path : Path} {file : SourceFile} (hload : load path = some file)
    {rule : Rule} (hrule : rule ∈ rules) {fs : List Finding} (hrun : rule.run file = .ok fs) :
    ∀ f ∈ fs, f.location.path = path := by
  have hfile : file = blank path := by
    unfold load at hload
    split at hload
    · cases hload
    · exact (Option.some.inj hload).symm
  subst hfile
  simp only [rules, List.mem_cons, List.not_mem_nil, or_false] at hrule
  rcases hrule with rfl | rfl | rfl
  · cases hrun
    simp [note, blank]
  · cases hrun
  · cases hrun
    simp [note, blank]

end ThreeFiles

open ThreeFiles Analysis in
/-- Two rules that report at one place, a rule that fails and a file that cannot be read: the
batches of one file come in before and after those of another, and the report is that of one
file after the other. -/
theorem threeFiles_reportsAlike :
    [b, lost, a].Nodup ∧
      (∃ fs, Returns 2 rules ([b, lost, a].map load) fs) ∧
      Returns 1 rules ([b, lost, a].map load)
        [note b "first", note b "second", note a "first", note a "second"] ∧
      ReportsAlike [note a "first", note b "first", note b "second", note a "second"]
        [note b "first", note b "second", note a "first", note a "second"] := by
  have hdistinct : [b, lost, a].Nodup := by decide +kernel
  have hread : ∀ p ∈ [b, lost, a], ∃ text, Path.ofString text = p := by
    simp only [List.mem_cons, List.not_mem_nil, or_false]
    rintro p (rfl | rfl | rfl) <;> exact ⟨_, rfl⟩
  obtain ⟨hreturns, hserial, hlike⟩ := returns_reportsAlike 2 hdistinct hread
    fun p _ file hload rule hrule fs hrun => path_of_run hload hrule hrun
  have hone : Returns 1 rules ([b, lost, a].map load)
      [note b "first", note b "second", note a "first", note a "second"] := by
    rw [hserial]
    simp [← flatten_batches, batches_b, batches_lost, batches_a]
  have hmerged : Interleaves (([b, lost, a].map load).map (batches rules))
      [[note a "first"], [note b "first"], [note b "second"], [note a "second"]] := by
    simp only [List.map_cons, List.map_nil, batches_b, batches_lost, batches_a]
    exact @Interleaves.next [_, _] [] _ _ _ (@Interleaves.next [] [_, _] _ _ _
      (@Interleaves.next [] [_, _] _ _ _ (@Interleaves.next [_, _] [] _ _ _ (.done (by simp)))))
  exact ⟨hdistinct, hreturns, hone, (hlike _ (.inr ⟨_, hmerged, rfl⟩)).1 _ hone⟩

end CallbackLint
