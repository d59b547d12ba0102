import CallbackLint.Proofs.Correspondence
import CallbackLint.Proofs.ReportOrder
import Mathlib.Data.List.DropRight
import Mathlib.Order.Monotone.Basic
/-!
# Places and offsets

A place is counted in lines and columns, and findings are sorted by it; what it stands for is a
byte offset. One more byte moves a place to the next column, or behind a line feed to the first
column of the next line (`ofOffset_succ`). Everything about places comes from this step, by
induction on the offset: the row counts line feeds and the column the bytes since the last of
them, places come in the order of their offsets (`shown_lt_shown_iff`), and the start of the line
and the column give the offset back (`exists_lineStart`).

The forwarding rule lists the types of a file in pre-order, so a method behind a nested type is
found before those inside it. In a report the methods stand by their first bytes all the same
(`sorted_map_report`).
-/

namespace CallbackLint

/-! ## Places -/

namespace Position

variable {src : Bytes} {o : Nat}

/-- The place behind one more byte, or behind nothing where the file has ended. -/
def behind (p : Position) (byte : Option UInt8) : Position :=
  if byte = some 0x0A then ⟨p.row + 1, 0⟩ else ⟨p.row, p.column + 1⟩

@[simp] theorem ofOffset_zero (src : Bytes) : ofOffset src 0 = ⟨0, 0⟩ := by
  cases src <;> rfl

/-- One more byte is the last one counted, wherever the count started. -/
theorem advance_succ (p : Position) (src : Bytes) (o : Nat) :
    advance p src (o + 1) = (advance p src o).behind src[o]? := by
  induction src generalizing p o with
  | nil =>
    cases o with
    | zero => rfl
    | succ o => simp [advance, behind, Nat.add_assoc]
  | cons b bs ih =>
    cases o with
    | zero => simp [advance, behind]
    | succ o =>
      rw [advance, advance, List.getElem?_cons_succ]
      split
      · exact ih _ o
      · exact ih _ o

/-- **One step**: the place of an offset from the place of the offset before. -/
theorem ofOffset_succ (src : Bytes) (o : Nat) :
    ofOffset src (o + 1) = (ofOffset src o).behind src[o]? :=
  advance_succ _ src o

/-- **The row counts line feeds.** -/
theorem row_ofOffset (src : Bytes) (o : Nat) :
    (ofOffset src o).row = (src.take o).count 0x0A := by
  induction o with
  | zero => simp
  | succ o ih =>
    rw [ofOffset_succ, List.take_add_one, List.count_append, ← ih, behind]
    split
    · rename_i hbyte
      rw [hbyte]
      rfl
    · rename_i hbyte
      have hnone : src[o]?.toList.count 0x0A = 0 := by
        rw [List.count_eq_zero, Option.mem_toList]
        exact hbyte
      rw [hnone]
      rfl

/-- **The column counts bytes since the last line feed**, and goes on past the end of the source. -/
theorem column_ofOffset (src : Bytes) (o : Nat) :
    (ofOffset src o).column =
      ((src.take o).rtakeWhile (· != 0x0A)).length + (o - src.length) := by
  induction o with
  | zero => simp
  | succ o ih =>
    rw [ofOffset_succ, List.take_add_one]
    rcases hbyte : src[o]? with _ | b
    · -- Past the end there is nothing more to take, and the column goes on counting.
      have hlength := List.getElem?_eq_none_iff.1 hbyte
      rw [behind, if_neg (by simp), ih, Option.toList_none, List.append_nil]
      dsimp only
      omega
    · have hlength := (List.getElem?_eq_some_iff.1 hbyte).1
      rw [Option.toList_some]
      by_cases hb : b = 0x0A
      · rw [behind, if_pos (by rw [hb]), List.rtakeWhile_concat_neg _ _ _ (by simp [hb])]
        dsimp only [List.length_nil]
        omega
      · rw [behind, if_neg (by simpa using hb), ih,
          List.rtakeWhile_concat_pos _ _ _ (by simpa using hb), List.length_append,
          List.length_singleton]
        dsimp only
        omega

/-- The place as it is shown, in the order in which places are compared: by line and then by
column. -/
def shown (p : Position) : ℤ ×ₗ ℤ := toLex ((p.line : ℤ), (p.shownColumn : ℤ))

/-- Every byte moves the place on. -/
theorem shown_lt_behind (p : Position) (byte : Option UInt8) : p.shown < (p.behind byte).shown := by
  rw [behind, shown, shown, Prod.Lex.toLex_lt_toLex]
  split
  · left
    dsimp only [line]
    omega
  · right
    dsimp only [line, shownColumn]
    omega

/-- **Places come in the order of their offsets.** -/
theorem shown_lt_shown_iff {o o' : Nat} :
    (ofOffset src o).shown < (ofOffset src o').shown ↔ o < o' := by
  have hmono : StrictMono fun o => (ofOffset src o).shown := by
    refine strictMono_nat_of_lt_succ fun o => ?_
    rw [ofOffset_succ]
    exact shown_lt_behind _ _
  exact hmono.lt_iff_lt

/-- The same with equality. -/
theorem shown_le_shown_iff {o o' : Nat} :
    (ofOffset src o).shown ≤ (ofOffset src o').shown ↔ o ≤ o' := by
  rw [← not_lt, shown_lt_shown_iff, not_lt]

/-- So a place is that of one offset. -/
theorem eq_of_shown_eq {o o' : Nat} (h : (ofOffset src o).shown = (ofOffset src o').shown) :
    o = o' :=
  le_antisymm (shown_le_shown_iff.1 h.le) (shown_le_shown_iff.1 h.ge)

/-! ## Starts of lines -/

/-- The offsets at which lines start: the first byte, and each byte behind a line feed. -/
def lineStarts (src : Bytes) : List Nat := 0 :: (src.idxsOf 0x0A).map (· + 1)

/-- A line feed is numbered by the line feeds in front of it. -/
theorem getElem?_idxsOf_count (h : src[o]? = some 0x0A) :
    (src.idxsOf 0x0A)[(src.take o).count 0x0A]? = some o := by
  obtain ⟨hlt, hget⟩ := List.getElem?_eq_some_iff.1 h
  have hsplit : src = src.take o ++ 0x0A :: src.drop (o + 1) := by
    rw [← hget, ← List.drop_eq_getElem_cons hlt, List.take_append_drop]
  have hidxs : src.idxsOf 0x0A =
      (src.take o).idxsOf 0x0A ++ o :: (src.drop (o + 1)).idxsOf 0x0A (o + 1) := by
    conv_lhs => rw [hsplit]
    rw [List.idxsOf_append, List.length_take_of_le hlt.le, List.idxsOf_cons]
    simp
  rw [hidxs, ← List.length_idxsOf, List.getElem?_append_right le_rfl, Nat.sub_self,
    List.getElem?_cons_zero]

/-- **An offset is the start of its line and the column together.** -/
theorem exists_lineStart (src : Bytes) (o : Nat) :
    ∃ start, (lineStarts src)[(ofOffset src o).row]? = some start ∧
      start + (ofOffset src o).column = o := by
  induction o with
  | zero =>
    rw [ofOffset_zero]
    exact ⟨0, rfl, rfl⟩
  | succ o ih =>
    rw [ofOffset_succ, behind]
    split
    · rename_i hbyte
      refine ⟨o + 1, ?_, rfl⟩
      rw [row_ofOffset, lineStarts, List.getElem?_cons_succ, List.getElem?_map,
        getElem?_idxsOf_count hbyte, Option.map_some]
    · obtain ⟨start, hstart, hsum⟩ := ih
      exact ⟨start, hstart, by dsimp only; omega⟩

/-- What the places of a source tell of its offsets. -/
structure FollowOffsets (src : Bytes) : Prop where
  /-- The row counts the line feeds in front of the offset. -/
  row_eq : ∀ o, (ofOffset src o).row = (src.take o).count 0x0A
  /-- The column counts the bytes since the last of them, also past the end of the source. -/
  column_eq : ∀ o, (ofOffset src o).column =
    ((src.take o).rtakeWhile (· != 0x0A)).length + (o - src.length)
  lt : ∀ o o', o < o' → (ofOffset src o).shown < (ofOffset src o').shown
  offset_eq : ∀ o, ∃ start, (lineStarts src)[(ofOffset src o).line - 1]? = some start ∧
    start + (ofOffset src o).shownColumn - 1 = o
  start_le_stop : ∀ n : Node, n.start ≤ n.stop →
    (n.startPosition src).shown ≤ (n.stopPosition src).shown

/-- It is so for every source. -/
theorem followOffsets (src : Bytes) : FollowOffsets src where
  row_eq := row_ofOffset src
  column_eq := column_ofOffset src
  lt _ _ h := shown_lt_shown_iff.2 h
  offset_eq := exists_lineStart src
  start_le_stop _ h := shown_le_shown_iff.2 h

end Position

/-! ## Methods in a report -/

namespace Location

/-- Where a location starts. -/
def first (l : Location) : ℤ ×ₗ ℤ := toLex (l.line, l.column)

/-- Where it ends, if that is known. -/
def last? (l : Location) : Option (ℤ ×ₗ ℤ) :=
  l.endLine.bind fun line => l.endColumn.map fun column => toLex (line, column)

end Location

namespace Forwarding

variable {file : SourceFile} {m n : Node}

/-- A finding starts at the place of the first byte of its method. -/
theorem first_report (file : SourceFile) (m : Node) :
    (report file m).location.first = (Position.ofOffset file.bytes m.start).shown := rfl

/-- And ends at that of the byte behind it. -/
theorem last?_report (file : SourceFile) (m : Node) :
    (report file m).location.last? = some (Position.ofOffset file.bytes m.stop).shown := rfl

/-- So two findings in a file come in the order of the first bytes. -/
theorem first_report_le_iff :
    (report file m).location.first ≤ (report file n).location.first ↔ m.start ≤ n.start := by
  rw [first_report, first_report, Position.shown_le_shown_iff]

/-- In one file and for one rule, a report compares findings by the first bytes of the
methods. -/
theorem notAfter_report (file : SourceFile) (m n : Node) :
    Finding.notAfter (report file m) (report file n) = decide (m.start ≤ n.start) := by
  rw [Bool.eq_iff_iff, Finding.notAfter_iff, decide_eq_true_iff, ← @first_report_le_iff file]
  simp only [Finding.sortKey, Finding.file, Location.first, Prod.Lex.toLex_le_toLex, report]
  simp only [lt_self_iff_false, Std.le_refl, and_true, true_and, false_or]
  omega

/-- Methods by their first bytes. -/
def byStart (methods : List Node) : List Node :=
  methods.mergeSort fun m n => decide (m.start ≤ n.start)

/-- **Findings are sorted as their methods are by their first bytes.** -/
theorem sorted_map_report (file : SourceFile) (methods : List Node) :
    Finding.sorted (methods.map (report file)) = (byStart methods).map (report file) :=
  (List.map_mergeSort fun m _ n _ => (notAfter_report file m n).symm).symm

/-- Sorted so, the first bytes ascend. -/
theorem pairwise_byStart (methods : List Node) :
    (byStart methods).Pairwise (fun m n => m.start ≤ n.start) :=
  @StableSort.pairwise_key_mergeSort _ _ _ Node.start _ (fun _ _ => decide_eq_true_iff) methods

/-- The findings of a file keep this order among those of other files and rules. -/
theorem pairwise_start_sorted (file : SourceFile) (fs : List Finding) :
    (Finding.sorted fs).Pairwise fun f g => ∀ m n,
      f = report file m → g = report file n → m.start ≤ n.start := by
  refine (StableSort.pairwise_key_mergeSort Finding.notAfter_iff fs).imp ?_
  rintro f g hle m n rfl rfl
  rwa [← Finding.notAfter_iff, notAfter_report, decide_eq_true_iff] at hle

/-- The node is a method of a type of the tree, and the declaration is what is seen of it. -/
structure ViewedFrom (file : SourceFile) (m : MethodDecl) (method : Node) : Prop where
  isMethod : ∃ type ∈ typeNodes file.tree, method ∈ type.methodMembers
  isView : ∃ scope, MethodDecl.ofNode? file.bytes scope method = some m

/-- What is reported of a view is what is reported of its node. -/
theorem ViewedFrom.reported_eq {m : MethodDecl} {method : Node} (h : ViewedFrom file m method) :
    reported file.path m = report file method := by
  obtain ⟨scope, hview⟩ := h.isView
  exact Checked.ok.inj ((findingFor_eq_ok hview file.path).symm.trans (findingFor_ofNode? hview))

/-- Every method to be reported is the view of a node. -/
theorem exists_viewedFrom {c : Contract} {m : MethodDecl} (h : m ∈ violationsIn c file) :
    ∃ method, ViewedFrom file m method := by
  obtain ⟨d, hd, hm⟩ := List.mem_flatMap.1 h
  obtain ⟨type, htype, method, hmethod, hview⟩ :=
    exists_methodNode_of_mem_methods hd (List.mem_filter.1 hm).1
  exact ⟨method, ⟨type, htype, hmethod⟩, hview⟩

/-- Where each item has a partner, there is a list of partners. -/
theorem exists_forall₂ {α β : Type} {R : α → β → Prop} {xs : List α} (h : ∀ x ∈ xs, ∃ y, R x y) :
    ∃ ys, List.Forall₂ R xs ys := by
  induction xs with
  | nil => exact ⟨[], .nil⟩
  | cons x xs ih =>
    obtain ⟨y, hy⟩ := h x List.mem_cons_self
    obtain ⟨ys, hys⟩ := ih fun z hz => h z (List.mem_cons_of_mem x hz)
    exact ⟨y :: ys, .cons hy hys⟩

/-- What a report on some methods of a file tells of their offsets. -/
structure ListsByOffset (file : SourceFile) (methods : List Node) : Prop where
  sorted_eq : Finding.sorted (methods.map (report file)) = (byStart methods).map (report file)
  ascending : (byStart methods).Pairwise fun m n => m.start ≤ n.start
  /-- Findings in one place are for methods with the same first byte. -/
  apart : ∀ m ∈ methods, ∀ n ∈ methods,
    (report file m).location.first = (report file n).location.first → m.start = n.start
  /-- A method that does not end before it starts is not said to. -/
  first_le_last : ∀ m ∈ methods, m.start ≤ m.stop → ∃ last,
    (report file m).location.last? = some last ∧ (report file m).location.first ≤ last

/-- It is so for any methods. -/
theorem listsByOffset (file : SourceFile) (methods : List Node) : ListsByOffset file methods where
  sorted_eq := sorted_map_report file methods
  ascending := pairwise_byStart methods
  apart _ _ _ _ h := Position.eq_of_shown_eq h
  first_le_last m _ h := ⟨_, last?_report file m, Position.shown_le_shown_iff.2 h⟩

/-- **Findings stand in the order of the bytes.** Places follow the offsets of a source. The rule
reports, one by one, the nodes of the methods it has to report, and these are listed by their
first bytes: in a report of their own, and in any report that has some of them among other
findings. -/
theorem findings_by_offset :
    (∀ src, Position.FollowOffsets src) ∧
    (∀ (c : Contract) (file : SourceFile), ∃ methods : List Node,
      List.Forall₂ (ViewedFrom file) (violationsIn c file) methods ∧
      (Rule.forwarding c).run file = .ok (methods.map (report file)) ∧
      ListsByOffset file methods) ∧
    ∀ (file : SourceFile) (fs : List Finding), (Finding.sorted fs).Pairwise fun f g => ∀ m n,
      f = report file m → g = report file n → m.start ≤ n.start := by
  refine ⟨Position.followOffsets, fun c file => ?_, pairwise_start_sorted⟩
  obtain ⟨methods, hmethods⟩ := exists_forall₂ fun m hm => exists_viewedFrom (c := c) hm
  refine ⟨methods, hmethods, ?_, listsByOffset file methods⟩
  rw [run_eq_ok_reported, map_eq_of_forall₂ hmethods fun _ _ h => h.reported_eq]

end Forwarding

namespace MethodBehindType

/-- A marked class with a callback in the second line, behind a nested class with one of its
own. -/
def src : Bytes :=
  Utf8.encode "@M class A\x7b@M class B\x7bvoid on()\x7b\x7d\x7d\nvoid on()\x7b\x7d\x7d"

def mark (start : Nat) : Node :=
  .mk "modifiers" start (start + 2) true none
    [.mk "marker_annotation" start (start + 2) true none
      [.mk "identifier" (start + 1) (start + 2) true (some "name") []]]

/-- A callback with nothing in it. -/
def callback (start : Nat) : Node :=
  .mk "method_declaration" start (start + 11) true none
    [.mk "identifier" (start + 5) (start + 7) true (some "name") [],
      .mk "block" (start + 9) (start + 11) true (some "body") []]

def inner : Node :=
  .mk "class_declaration" 11 34 true none
    [mark 11, .mk "identifier" 20 21 true (some "name") [],
      .mk "class_body" 21 34 true (some "body") [callback 22]]

def outer : Node :=
  .mk "class_declaration" 0 47 true none
    [mark 0, .mk "identifier" 9 10 true (some "name") [],
      .mk "class_body" 10 47 true (some "body") [inner, callback 35]]

def file : SourceFile where
  path := Path.ofString "A.java"
  bytes := src
  tree := .mk "program" 0 47 true none [outer]

def contract : Contract where
  markers := ["M"]
  callback := "on"
  suffix := "Out"

/-- Both callbacks are to be reported, the one behind the nested class first. -/
theorem violationsIn_eq : Forwarding.violationsIn contract file =
    [{ name := "on", body := some [], span := ⟨2, 1, some 2, some 12, some "void on()"⟩ },
      { name := "on", body := some [], span := ⟨1, 23, some 1, some 34, some "void on()"⟩ }] := by
  decide +kernel

end MethodBehindType

open MethodBehindType Forwarding in
/-- The method behind the nested class is found before the one inside, and listed after it. -/
theorem methodBehindType_listed :
    (Position.ofOffset src 34).shown < (Position.ofOffset src 35).shown ∧
      (∃ start, (Position.lineStarts src)[1]? = some start ∧ start + 1 - 1 = 35) ∧
      ∃ methods, (Rule.forwarding contract).run file = .ok (methods.map (report file)) ∧
        methods.map (report file) = [report file (callback 35), report file (callback 22)] ∧
        Finding.sorted (methods.map (report file)) =
          [report file (callback 22), report file (callback 35)] ∧
        Finding.sorted (methods.map (report file)) = (byStart methods).map (report file) := by
  obtain ⟨hplaces, hrule, -⟩ := findings_by_offset
  obtain ⟨methods, -, hrun, hlists⟩ := hrule contract file
  have hfound : methods.map (report file) =
      [report file (callback 35), report file (callback 22)] := by
    rw [run_eq_ok_reported, violationsIn_eq] at hrun
    rw [← Checked.ok.inj hrun]
    decide +kernel
  have hlisted : byStart [callback 35, callback 22] = [callback 22, callback 35] := by
    simp [byStart, List.mergeSort, callback, Node.start]
  refine ⟨(hplaces src).lt 34 35 (by decide), (hplaces src).offset_eq 35, methods, hrun, hfound,
    ?_, hlists.sorted_eq⟩
  have hsorted := sorted_map_report file [callback 35, callback 22]
  rw [hlisted] at hsorted
  rw [hfound]
  exact hsorted

end CallbackLint
