import CallbackLint.Finding.Record
import CallbackLint.Finding.Sink
import CallbackLint.Proofs.Pool
/-!
# One sink for several workers

Several workers report into one sink, each with operations of its own, and nothing fixes whose
turn is next. An operation touches the content once, under a lock, so it is one move
(`Sink.Run.act`). What an extension adds is read from somewhere else before that, item by item,
and others may act between two items (`Sink.Run.read`); a run in which none of them does is a
run of whole operations.

The sink only grows (`Sink.appendOnly_of_run`): in the end it holds what the workers added,
taken in turns, each batch in one piece; a snapshot is what was there when it was taken, and
everything later starts with it; and an operation that fails has added nothing.
-/

namespace CallbackLint

namespace Sink

/-- What a worker can ask of a sink. -/
inductive Op where
  /-- Report an issue. The message comes from outside, and a finding is only made of text. -/
  | report (issue : Issue) (location : Location) (message : Loose)
  /-- Add a batch: the findings that were read already, and the items still to read, the first
  of which that is no finding stops the reading. -/
  | extend (taken : List Finding) (items : List (Checked Finding))
  /-- Copy the content. -/
  | snapshot
  /-- Count the content. -/
  | size

/-- What a sink answers. -/
inductive Answer where
  | reported (finding : Finding)
  | extended
  | snapshot (findings : List Finding)
  | size (n : Nat)
  | refused (faults : List FieldFault)

/-- The answer to an operation, and the sink after it. -/
def perform (sink : Sink) : Op → Answer × Sink
  | .report issue location message =>
    match Fields.readValue "message" Loose.asText message with
    | .ok text =>
      (.reported (sink.report issue location text).1, (sink.report issue location text).2)
    | .error faults => (.refused faults, sink)
  | .extend taken items =>
    match Checked.all items with
    | .ok rest => (.extended, sink.extend (taken ++ rest))
    | .error faults => (.refused faults, sink)
  | .snapshot => (.snapshot sink.findings, sink)
  | .size => (.size sink.size, sink)

namespace Op

/-- What an operation contributes to the content: the finding of a report, a batch as a whole,
and nothing when it fails. -/
def added : Op → List Finding
  | .report issue location (.text message) => [issue.found location message]
  | .extend taken items =>
    match Checked.all items with
    | .ok rest => taken ++ rest
    | .error _ => []
  | _ => []

/-- A report without a text for its message, or an extension by something that is no finding
at some point. -/
def Fails : Op → Prop
  | .report _ _ message => ∀ text, message ≠ .text text
  | .extend _ items => ∃ faults, .error faults ∈ items
  | .snapshot => False
  | .size => False

end Op

/-- An operation that was performed: by which worker, the sink before it, the answer, and the
sink after it. -/
structure Event where
  worker : Nat
  op : Op
  before : Sink
  answer : Answer
  after : Sink

/-- The event of a worker that performs an operation. -/
def eventOf (sink : Sink) (worker : Nat) (op : Op) : Event where
  worker := worker
  op := op
  before := sink
  answer := (sink.perform op).1
  after := (sink.perform op).2

/-- A run of some workers, each with the operations it has left, that takes a sink through some
events to its final state. -/
inductive Run : List (List Op) → Sink → List Event → Sink → Prop where
  /-- Nothing is left to do. -/
  | done {workers : List (List Op)} {sink : Sink} (h : ∀ ops ∈ workers, ops = []) :
      Run workers sink [] sink
  /-- A worker reads the next item of the batch that it is about to add. -/
  | read {front back : List (List Op)} {rest : List Op} {taken : List Finding} {f : Finding}
      {items : List (Checked Finding)} {sink final : Sink} {events : List Event}
      (h : Run (front ++ (.extend (taken ++ [f]) items :: rest) :: back) sink events final) :
      Run (front ++ (.extend taken (.ok f :: items) :: rest) :: back) sink events final
  /-- A worker performs its next operation. -/
  | act {front back : List (List Op)} {rest : List Op} {op : Op} {sink final : Sink}
      {events : List Event} (h : Run (front ++ rest :: back) (sink.perform op).2 events final) :
      Run (front ++ (op :: rest) :: back) sink (sink.eventOf front.length op :: events) final

/-! ## One operation -/

theorem exists_error_mem_of_all {items : List (Checked Finding)} {faults : List FieldFault}
    (h : Checked.all items = .error faults) : ∃ faults, .error faults ∈ items := by
  induction items with
  | nil => cases h
  | cons item items ih =>
    cases item with
    | error es => exact ⟨es, List.mem_cons_self⟩
    | ok f =>
      rcases hall : Checked.all items with rest | es
      · simp [Checked.all, hall] at h
      · obtain ⟨es', hmem⟩ := ih (by simpa [Checked.all, hall] using h)
        exact ⟨es', List.mem_cons_of_mem _ hmem⟩

theorem error_notMem_of_all {items : List (Checked Finding)} {rest : List Finding}
    (h : Checked.all items = .ok rest) (faults : List FieldFault) : .error faults ∉ items := by
  induction items generalizing rest with
  | nil => exact List.not_mem_nil
  | cons item items ih =>
    cases item with
    | error es => cases h
    | ok f =>
      rcases hall : Checked.all items with more | es
      · have hmore := ih hall
        simpa using hmore
      · simp [Checked.all, hall] at h

/-- The operations that fail are those that are refused. -/
theorem fails_iff_refused (sink : Sink) (op : Op) :
    op.Fails ↔ ∃ faults, (sink.perform op).1 = .refused faults := by
  cases op with
  | report issue location message =>
    cases message <;> simp [Op.Fails, perform, Fields.readValue, Loose.asText, Checked.refuse]
  | extend taken items =>
    rcases hall : Checked.all items with rest | faults
    · simp [Op.Fails, perform, hall, error_notMem_of_all hall]
    · simpa [Op.Fails, perform, hall] using exists_error_mem_of_all hall
  | snapshot => simp [Op.Fails, perform]
  | size => simp [Op.Fails, perform]

/-- **An operation that fails leaves the sink as it was.** -/
theorem perform_of_fails {op : Op} (h : op.Fails) (sink : Sink) : (sink.perform op).2 = sink := by
  cases op with
  | report issue location message =>
    cases message with
    | text s => exact absurd rfl (h s)
    | _ => rfl
  | extend taken items =>
    obtain ⟨faults, hmem⟩ := h
    rcases hall : Checked.all items with rest | es
    · exact absurd hmem (error_notMem_of_all hall faults)
    · simp [perform, hall]
  | snapshot => exact absurd h not_false
  | size => exact absurd h not_false

/-- **One operation puts what it contributes at the end** and touches nothing else. -/
theorem findings_perform (sink : Sink) (op : Op) :
    (sink.perform op).2.findings = sink.findings ++ op.added := by
  cases op with
  | report issue location message =>
    cases message <;>
      simp [perform, Op.added, Fields.readValue, Loose.asText, Checked.refuse, report, Sink.extend]
  | extend taken items =>
    rcases hall : Checked.all items with rest | faults <;>
      simp [perform, Op.added, hall, Sink.extend]
  | snapshot => simp [perform, Op.added]
  | size => simp [perform, Op.added]

/-- Reading an item in advance changes nothing about a batch. -/
theorem Op.added_read (taken : List Finding) (f : Finding) (items : List (Checked Finding)) :
    (Op.extend taken (.ok f :: items)).added = (Op.extend (taken ++ [f]) items).added := by
  rcases hall : Checked.all items with rest | faults <;> simp [Op.added, Checked.all, hall]

/-! ## A whole run -/

variable {workers : List (List Op)} {sink final : Sink} {events : List Event}

/-- What is added in a run comes in behind what was there. -/
theorem Run.findings_eq (h : Run workers sink events final) :
    final.findings = sink.findings ++ (events.map fun e => e.op.added).flatten := by
  induction h with
  | done h => simp
  | read h ih => exact ih
  | act h ih =>
    rw [ih, findings_perform]
    simp [eventOf]

/-- The contributions come in as the workers take turns. -/
theorem Run.interleaves (h : Run workers sink events final) :
    Analysis.Interleaves (workers.map (List.map Op.added)) (events.map fun e => e.op.added) := by
  induction h with
  | @done workers sink h =>
    refine .done fun source hs => ?_
    obtain ⟨ops, hops, rfl⟩ := List.mem_map.1 hs
    rw [h ops hops, List.map_nil]
  | read h ih => simpa [Op.added_read] using ih
  | act h ih =>
    simp only [List.map_append, List.map_cons, eventOf] at ih ⊢
    exact .next ih

/-- Nothing is lost in a run, and nothing comes in twice. -/
theorem Run.perm_findings (h : Run workers sink events final) :
    final.findings.Perm (sink.findings ++ workers.flatten.flatMap Op.added) := by
  have hflat := h.interleaves.perm.flatten
  rw [← List.map_flatten, ← List.flatMap_def] at hflat
  rw [h.findings_eq]
  exact hflat.append_left _

/-- What one worker adds stays in its order. -/
theorem Run.added_sublist (h : Run workers sink events final) {ops : List Op}
    (hops : ops ∈ workers) : (ops.flatMap Op.added).Sublist final.findings := by
  have hsub := h.interleaves.flatten_sublist (List.mem_map_of_mem hops)
  rw [h.findings_eq, List.flatMap_def]
  exact hsub.trans (List.sublist_append_right _ _)

/-- What one operation adds is in one piece. -/
theorem Run.added_infix (h : Run workers sink events final) {ops : List Op} {op : Op}
    (hops : ops ∈ workers) (hop : op ∈ ops) : op.added <:+: final.findings := by
  have hpiece := h.interleaves.infix_of_mem (List.mem_map_of_mem hops) (List.mem_map_of_mem hop)
  rw [h.findings_eq]
  exact hpiece.trans (List.suffix_append _ _).isInfix

/-- Every event of a run is that of its operation on the sink that the events before it left. -/
theorem Run.event (h : Run workers sink events final) {front back : List Event} {e : Event}
    (hsplit : events = front ++ e :: back) :
    e = e.before.eventOf e.worker e.op ∧
      e.before.findings = sink.findings ++ (front.map fun e => e.op.added).flatten := by
  induction h generalizing front with
  | done h => simp at hsplit
  | read h ih => exact ih hsplit
  | @act before after rest op sink final events h ih =>
    cases front with
    | nil =>
      obtain ⟨rfl, rfl⟩ := List.cons.inj hsplit
      exact ⟨rfl, by simp [eventOf]⟩
    | cons first front =>
      obtain ⟨rfl, hrest⟩ := List.cons.inj hsplit
      obtain ⟨hevent, hbefore⟩ := ih hrest
      refine ⟨hevent, ?_⟩
      rw [hbefore, findings_perform]
      simp [eventOf]

theorem Run.event_of_mem (h : Run workers sink events final) {e : Event} (he : e ∈ events) :
    e = e.before.eventOf e.worker e.op := by
  obtain ⟨front, back, hsplit⟩ := List.append_of_mem he
  exact (h.event hsplit).1

/-- What was there before an event is there in the end, and in front. -/
theorem Run.before_prefix (h : Run workers sink events final) {e : Event} (he : e ∈ events) :
    e.before.findings <+: final.findings := by
  obtain ⟨front, back, hsplit⟩ := List.append_of_mem he
  rw [(h.event hsplit).2, h.findings_eq, hsplit, List.map_append, List.flatten_append,
    ← List.append_assoc]
  exact List.prefix_append _ _

/-- What was there before an event is there before every later one, and in front. -/
theorem Run.pairwise_before (h : Run workers sink events final) :
    events.Pairwise fun e later => e.before.findings <+: later.before.findings := by
  induction h with
  | done h => exact List.Pairwise.nil
  | read h ih => exact ih
  | @act before after rest op sink final events h ih =>
    refine List.pairwise_cons.2 ⟨fun later hlater => ?_, ih⟩
    obtain ⟨front, back, hsplit⟩ := List.append_of_mem hlater
    rw [(h.event hsplit).2, findings_perform, List.append_assoc]
    exact List.prefix_append _ _

/-- One worker after the other is one way to take turns. The workers in front are those that
are done. -/
theorem exists_run_behind (front workers : List (List Op)) (hfront : ∀ ops ∈ front, ops = [])
    (sink : Sink) : ∃ events final, Run (front ++ workers) sink events final := by
  induction workers generalizing front sink with
  | nil => exact ⟨[], sink, .done (by simpa using hfront)⟩
  | cons ops workers ih =>
    induction ops generalizing sink with
    | nil =>
      have hfront' : ∀ ops ∈ front ++ [[]], ops = [] := by
        intro ops hops
        rcases List.mem_append.1 hops with hops | hops
        · exact hfront ops hops
        · exact List.mem_singleton.1 hops
      obtain ⟨events, final, h⟩ := ih (front ++ [[]]) hfront' sink
      rw [List.append_assoc] at h
      exact ⟨events, final, h⟩
    | cons op rest ihrest =>
      obtain ⟨events, final, h⟩ := ihrest (sink.perform op).2
      exact ⟨_, final, .act h⟩

/-- What some workers with their operations may do to a sink: from its content at first,
through the events, to the content in the end. -/
structure AppendOnly (workers : List (List Op)) (sink : Sink) (events : List Event)
    (final : Sink) : Prop where
  /-- The content is what was there, and behind it the contributions of the workers, taken in
  turns and each in one piece. -/
  shuffle : ∃ batches, Analysis.Interleaves (workers.map (List.map Op.added)) batches ∧
    final.findings = sink.findings ++ batches.flatten
  /-- Nothing is lost and nothing comes in twice. -/
  perm : final.findings.Perm (sink.findings ++ workers.flatten.flatMap Op.added)
  /-- What one worker adds stays in its order. -/
  order : ∀ ops ∈ workers, (ops.flatMap Op.added).Sublist final.findings
  /-- A batch is in one piece. -/
  piece : ∀ ops ∈ workers, ∀ op ∈ ops, op.added <:+: final.findings
  /-- A snapshot is what was there and what the events before it added. -/
  snapshot : ∀ front e back, events = front ++ e :: back → e.op = .snapshot →
    e.answer = .snapshot (sink.findings ++ front.flatMap fun e => e.op.added)
  /-- A later snapshot starts with it. -/
  later : events.Pairwise fun e e' => ∀ fs gs, e.answer = .snapshot fs →
    e'.answer = .snapshot gs → fs <+: gs
  /-- The content in the end starts with it. -/
  last : ∀ e ∈ events, ∀ fs, e.answer = .snapshot fs → fs <+: final.findings
  /-- The size is the length of the snapshot that would be taken in its place. -/
  size : ∀ e ∈ events, e.op = .size →
    ∃ fs, (e.before.perform .snapshot).1 = .snapshot fs ∧ e.answer = .size fs.length
  /-- An operation is refused exactly when it fails, and then leaves the sink as it was. -/
  refused : ∀ e ∈ events, (e.op.Fails ↔ ∃ faults, e.answer = .refused faults) ∧
    (e.op.Fails → e.after = e.before)

/-- Only a snapshot is answered by one, with the content. -/
theorem eq_findings_of_answer {e : Event} {fs : List Finding}
    (he : e = e.before.eventOf e.worker e.op) (h : e.answer = .snapshot fs) :
    fs = e.before.findings := by
  rw [he] at h
  cases hop : e.op with
  | report issue location message =>
    cases message <;> simp [eventOf, hop, perform, Fields.readValue, Loose.asText,
      Checked.refuse] at h
  | extend taken items =>
    rcases hall : Checked.all items with rest | faults <;>
      simp [eventOf, hop, perform, hall] at h
  | snapshot =>
    simpa [eventOf, hop, perform] using h.symm
  | size => simp [eventOf, hop, perform] at h

/-- **A shared sink only grows.** Whatever operations some workers have, they can be performed
in turn, and in whatever turns they are performed, the content in the end, the snapshots, the
sizes and the refusals are as they should be. -/
theorem appendOnly_of_run (workers : List (List Op)) (sink : Sink) :
    (∃ events final, Run workers sink events final) ∧
      ∀ events final, Run workers sink events final → AppendOnly workers sink events final := by
  refine ⟨exists_run_behind [] workers (by simp) sink, fun events final h => ?_⟩
  exact
    { shuffle := ⟨_, h.interleaves, h.findings_eq⟩
      perm := h.perm_findings
      order := fun ops hops => h.added_sublist hops
      piece := fun ops hops op hop => h.added_infix hops hop
      snapshot := fun front e back hsplit hop => by
        obtain ⟨hevent, hbefore⟩ := h.event hsplit
        rw [hevent, hop, List.flatMap_def, ← hbefore]
        rfl
      later := h.pairwise_before.imp_of_mem fun he he' hle fs gs hfs hgs => by
        rw [eq_findings_of_answer (h.event_of_mem he) hfs,
          eq_findings_of_answer (h.event_of_mem he') hgs]
        exact hle
      last := fun e he fs hfs => by
        rw [eq_findings_of_answer (h.event_of_mem he) hfs]
        exact h.before_prefix he
      size := fun e he hop => by
        refine ⟨e.before.findings, rfl, ?_⟩
        rw [h.event_of_mem he, hop]
        rfl
      refused := fun e he => by
        have hevent := h.event_of_mem he
        rw [hevent]
        exact ⟨fails_iff_refused _ _, fun hfails => perform_of_fails hfails _⟩ }

end Sink

namespace TwoWorkers

open Sink

def issue : Issue where
  id := "note"
  brief := "brief"
  explanation := "explanation"
  severity := "warning"

/-- The start of a line in a file. -/
def place (file : String) (line : Int) : Location where
  path := Path.ofString file
  line := line
  column := 1

/-- A finding in the second file. -/
def found (line : Int) : Finding :=
  issue.found (place "B.java" line) "batch"

/-- It reports, takes a snapshot, and reports again without a text. -/
def first : List Op :=
  [.report issue (place "A.java" 1) (.text "single"), .snapshot,
    .report issue (place "A.java" 2) .null]

/-- It adds a batch whose second item is no finding, adds a batch of two, and asks for the
size. -/
def second : List Op :=
  [.extend [] [.ok (found 1), .error [⟨["rule_id"], .missing⟩]],
    .extend [] [.ok (found 2), .ok (found 3)], .size]

end TwoWorkers

open TwoWorkers Sink in
/-- Two workers, one of which acts while the other is in the middle of a batch: two operations
are refused, and the batch that is not comes in as one piece behind the report. -/
theorem twoWorkers_appendOnly : ∃ events final, Run [first, second] {} events final ∧
    AppendOnly [first, second] {} events final ∧ events.length = 6 ∧
    final.findings = [issue.found (place "A.java" 1) "single", found 2, found 3] := by
  have hrun : Run [first, second] {} _ _ :=
    @Run.read [_] [] _ _ _ _ _ _ _ (@Run.act [] [_] _ _ _ _ _ (@Run.act [_] [] _ _ _ _ _
      (@Run.read [_] [] _ _ _ _ _ _ _ (@Run.act [] [_] _ _ _ _ _ (@Run.act [] [_] _ _ _ _ _
        (@Run.act [_] [] _ _ _ _ _ (@Run.act [_] [] _ _ _ _ _ (.done (by simp)))))))))
  exact ⟨_, _, hrun, (appendOnly_of_run _ _).2 _ _ hrun, rfl, rfl⟩

end CallbackLint
