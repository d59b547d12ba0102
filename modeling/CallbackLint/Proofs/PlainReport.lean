import CallbackLint.Proofs.ReportTotals
import CallbackLint.Proofs.Verdict
/-!
# Reading a plain report back

A line of the plain report is a path, a line and a column with colons between them, and then what
is said. The path is any text, and may itself end in what looks like a line and a column. But a
number has no colon in it, so where two lines say the same, the last colons in front of that
divide them in the same way (`placeText_inj`): the lines are equal only if the places are.

When the report is written, terminal sequences are taken out. No such sequence runs over a colon
(`sequenceLength_append_colon`), so what is taken out is taken out of a path or of what is said
(`dropSequences_plainLine`), and a report that was written is read back as well, up to such
sequences in its paths.
-/

namespace CallbackLint

/-! ## Texts in parts -/

namespace Text

variable {c : Char} {xs ys : List Char}

/-- The first `c` divides a text in one way. -/
theorem append_cons_inj_left {back back' : List Char} (hxs : c ∉ xs) (hys : c ∉ ys)
    (h : xs ++ c :: back = ys ++ c :: back') : xs = ys ∧ back = back' := by
  induction xs generalizing ys with
  | nil =>
    rcases ys with _ | ⟨y, ys⟩
    · exact ⟨rfl, (List.cons.inj h).2⟩
    · exact absurd List.mem_cons_self ((List.cons.inj h).1 ▸ hys)
  | cons x xs ih =>
    rcases ys with _ | ⟨y, ys⟩
    · exact absurd List.mem_cons_self ((List.cons.inj h).1 ▸ hxs)
    · obtain ⟨rfl, hrest⟩ := List.cons.inj h
      obtain ⟨rfl, hback⟩ := ih (fun hc => hxs (List.mem_cons_of_mem x hc))
        (fun hc => hys (List.mem_cons_of_mem x hc)) hrest
      exact ⟨rfl, hback⟩

/-- The last `c` divides a text in one way. -/
theorem append_cons_inj_right {front front' : List Char} (hxs : c ∉ xs) (hys : c ∉ ys)
    (h : front ++ c :: xs = front' ++ c :: ys) : front = front' ∧ xs = ys := by
  have hreverse : xs.reverse ++ c :: front.reverse = ys.reverse ++ c :: front'.reverse := by
    simpa using congrArg List.reverse h
  obtain ⟨hxy, hfront⟩ := append_cons_inj_left (by simpa using hxs) (by simpa using hys) hreverse
  exact ⟨List.reverse_inj.1 hfront, List.reverse_inj.1 hxy⟩

/-- Lines that each end in a line feed are told by the text they make up. -/
theorem eq_of_flatMap_lines {ls ms : List (List Char)} (hls : ∀ l ∈ ls, '\n' ∉ l)
    (hms : ∀ m ∈ ms, '\n' ∉ m)
    (h : ls.flatMap (· ++ ['\n']) = ms.flatMap (· ++ ['\n'])) : ls = ms := by
  induction ls generalizing ms with
  | nil =>
    rcases ms with _ | ⟨m, ms⟩
    · rfl
    · exact absurd h (by simp)
  | cons l ls ih =>
    rcases ms with _ | ⟨m, ms⟩
    · exact absurd h (by simp)
    · rw [List.forall_mem_cons] at hls hms
      simp only [List.flatMap_cons, List.append_assoc, List.singleton_append] at h
      obtain ⟨rfl, hrest⟩ := append_cons_inj_left hls.1 hms.1 h
      rw [ih hls.2 hms.2 hrest]

theorem isDigit_of_mem_repr {n : Nat} (h : c ∈ n.repr.toList) : c.isDigit = true := by
  rw [Nat.toList_repr] at h
  exact Nat.isDigit_of_mem_toDigits (by decide) (by decide) h

/-- The text of a number is made of digits, behind a sign or not. -/
theorem isDigit_or_eq_minus_of_mem {n : Int} (h : c ∈ (toString n).toList) :
    c.isDigit = true ∨ c = '-' := by
  rw [Int.toString_eq_repr, Int.repr_eq_if] at h
  split at h
  · exact .inl (isDigit_of_mem_repr h)
  · rw [String.toList_append, List.mem_append] at h
    rcases h with hminus | hdigit
    · exact .inr (by simpa using hminus)
    · exact .inl (isDigit_of_mem_repr hdigit)

theorem notMem_toString (hdigit : c.isDigit = false) (hminus : c ≠ '-') (n : Int) :
    c ∉ (toString n).toList := by
  intro h
  rcases isDigit_or_eq_minus_of_mem h with hd | hm
  · exact absurd hd (by simp [hdigit])
  · exact hminus hm

/-- **A number is told by its text**, its sign included. -/
theorem int_eq_of_toString_eq {m n : Int} (h : toString m = toString n) : m = n := by
  have hminus : ∀ a b : Nat, a.repr ≠ "-" ++ b.repr := by
    intro a b hab
    have hmem : '-' ∈ a.repr.toList := by
      rw [hab, String.toList_append]
      exact List.mem_append_left _ (by decide)
    exact absurd (isDigit_of_mem_repr hmem) (by decide)
  rw [Int.toString_eq_repr, Int.toString_eq_repr, Int.repr_eq_if, Int.repr_eq_if] at h
  split at h <;> rename_i hm <;> split at h <;> rename_i hn
  · have heq : m.toNat = n.toNat := Report.toString_injective h
    omega
  · exact absurd h (hminus _ _)
  · exact absurd h.symm (hminus _ _)
  · have hrest : (-m).toNat.repr = (-n).toNat.repr := by simpa using h
    have heq : (-m).toNat = (-n).toNat := Report.toString_injective hrest
    omega

/-! ## Terminal sequences -/

/-- A sequence lies inside the text. -/
theorem sequenceLength_le (cs : List Char) : sequenceLength cs ≤ cs.length := by
  unfold sequenceLength
  split
  · rename_i rest
    split
    · rename_i d ds hrest
      split
      · have hlength := congrArg List.length
          (List.takeWhile_append_dropWhile (p := isParameter) (l := rest))
        rw [List.length_append, hrest, List.length_cons] at hlength
        rw [List.length_cons]
        omega
      · exact Nat.zero_le _
    · exact Nat.zero_le _
  · exact Nat.zero_le _

/-- **No sequence runs over a colon**, which is neither a parameter nor a letter. -/
theorem sequenceLength_append_colon (cs rest : List Char) :
    sequenceLength (cs ++ ':' :: rest) = sequenceLength cs := by
  have hcolon : isParameter ':' = false := by decide
  rcases cs with _ | ⟨d, ds⟩
  · rfl
  by_cases hd : d = '['
  · subst hd
    rw [List.cons_append, sequenceLength, sequenceLength, List.dropWhile_append]
    rcases hdrop : ds.dropWhile isParameter with _ | ⟨e, es⟩
    · -- Only parameters are left, and the colon ends them.
      have halpha : ':'.isAlpha = false := by decide
      simp [hcolon, halpha]
    · have hlength : (ds.takeWhile isParameter).length ≠ ds.length := by
        intro heq
        have hsum := congrArg List.length
          (List.takeWhile_append_dropWhile (p := isParameter) (l := ds))
        rw [List.length_append, hdrop, List.length_cons] at hsum
        omega
      simp [List.takeWhile_append, hlength]
  · simp [sequenceLength, hd]

/-- A colon divides a text for sequences: they are taken out in front of it and behind it. -/
theorem dropSequences_append_colon {cs : List Char} {skipped : Nat} (h : skipped ≤ cs.length)
    (rest : List Char) :
    dropSequences skipped (cs ++ ':' :: rest) =
      dropSequences skipped cs ++ ':' :: dropSequences 0 rest := by
  induction cs generalizing skipped with
  | nil =>
    obtain rfl : skipped = 0 := by simpa using h
    rfl
  | cons d ds ih =>
    rcases skipped with _ | n
    · simp only [List.cons_append, dropSequences, sequenceLength_append_colon]
      split
      · exact ih (sequenceLength_le ds)
      · rw [ih (Nat.zero_le _), List.cons_append]
    · exact ih (Nat.le_of_succ_le_succ h)

/-- Without an escape character there is nothing to take out. -/
theorem dropSequences_of_notMem {cs : List Char} (h : '\x1b' ∉ cs) : dropSequences 0 cs = cs := by
  induction cs with
  | nil => rfl
  | cons d ds ih =>
    obtain ⟨hd, hds⟩ := List.ne_and_not_mem_of_not_mem_cons h
    have hne : (d == '\x1b') = false := by simpa using fun he => hd he.symm
    rw [dropSequences, hne, Bool.false_and, if_neg (by simp), ih hds]

/-- Nothing is put in. -/
theorem dropSequences_sublist (skipped : Nat) (cs : List Char) :
    (dropSequences skipped cs).Sublist cs := by
  induction cs generalizing skipped with
  | nil => exact .slnil
  | cons d ds ih =>
    rcases skipped with _ | n
    · rw [dropSequences]
      split
      · exact (ih _).cons d
      · exact (ih 0).cons_cons d
    · exact (ih n).cons d

end Text

/-! ## Places -/

namespace Report

/-- A place as a line of the report starts with it. -/
def placeText (path : List Char) (line column : Int) : List Char :=
  path ++ ':' :: (toString line).toList ++ ':' :: (toString column).toList

/-- **A place is told by its text**, from the right: the column stands behind the last colon, and
the line behind the one before. -/
theorem placeText_inj {path path' : List Char} {line column line' column' : Int}
    (h : placeText path line column = placeText path' line' column') :
    path = path' ∧ line = line' ∧ column = column' := by
  have hcolon : ∀ n : Int, ':' ∉ (toString n).toList := Text.notMem_toString (by decide) (by decide)
  have hnumber : ∀ m n : Int, (toString m).toList = (toString n).toList → m = n :=
    fun m n hmn => Text.int_eq_of_toString_eq (String.toList_inj.1 hmn)
  obtain ⟨hfront, hcolumn⟩ := Text.append_cons_inj_right (hcolon column) (hcolon column') h
  obtain ⟨hpath, hline⟩ := Text.append_cons_inj_right (hcolon line) (hcolon line') hfront
  exact ⟨hpath, hnumber _ _ hline, hnumber _ _ hcolumn⟩

/-- What a line says behind the place. -/
def saying (f : Finding) : String :=
  " " ++ Text.upper f.severity ++ " [" ++ f.ruleId ++ "] " ++ f.message

theorem toList_plainLine (f : Finding) :
    (plainLine f).toList = placeText f.file.toList f.location.line f.location.column ++
      ':' :: (saying f).toList := by
  simp [plainLine, placeText, saying, String.toList_append]

/-- In a line sequences are taken out of the path and of what is said, and nowhere else. -/
theorem dropSequences_plainLine (f : Finding) :
    Text.dropSequences 0 (plainLine f).toList =
      placeText (Text.dropSequences 0 f.file.toList) f.location.line f.location.column ++
        ':' :: Text.dropSequences 0 (saying f).toList := by
  have hescape : ∀ n : Int, Text.dropSequences 0 (toString n).toList = (toString n).toList :=
    fun n => Text.dropSequences_of_notMem (Text.notMem_toString (by decide) (by decide) n)
  rw [toList_plainLine, Text.dropSequences_append_colon (Nat.zero_le _), placeText,
    Text.dropSequences_append_colon (Nat.zero_le _),
    Text.dropSequences_append_colon (Nat.zero_le _), hescape, hescape, placeText]

/-- The line of a report without findings has no colon, so it is the line of no finding. -/
theorem dropSequences_plainLine_ne (f : Finding) :
    Text.dropSequences 0 (plainLine f).toList ≠ Text.dropSequences 0 "No findings.".toList := by
  intro h
  have hcolon : ':' ∈ Text.dropSequences 0 (plainLine f).toList := by
    rw [dropSequences_plainLine]
    exact List.mem_append_right _ List.mem_cons_self
  rw [h] at hcolon
  exact absurd hcolon (by decide)

theorem plainLine_ne (f : Finding) : plainLine f ≠ "No findings." := by
  intro h
  exact dropSequences_plainLine_ne f (by rw [h])

/-! ## Reports -/

/-- The place that a line of the report shows. -/
def placeOf (f : Finding) : String × Int × Int :=
  (f.file, f.location.line, f.location.column)

/-- The place that is left of it when the line is written. -/
def writtenPlace (f : Finding) : String × Int × Int :=
  (Text.withoutSequences f.file, f.location.line, f.location.column)

variable {f g : Finding} {fs gs : List Finding}

/-- **A line tells the place**, where it is known what it says. -/
theorem placeOf_eq_of_plainLine_eq (hsaying : saying f = saying g)
    (h : plainLine f = plainLine g) : placeOf f = placeOf g := by
  rw [← String.toList_inj, toList_plainLine, toList_plainLine, hsaying] at h
  obtain ⟨hpath, hline, hcolumn⟩ := placeText_inj (List.append_cancel_right h)
  rw [placeOf, placeOf, String.toList_inj.1 hpath, hline, hcolumn]

/-- **A line that was written tells the place**, up to terminal sequences in the path. -/
theorem writtenPlace_eq_of_dropSequences_eq (hsaying : saying f = saying g)
    (h : Text.dropSequences 0 (plainLine f).toList = Text.dropSequences 0 (plainLine g).toList) :
    writtenPlace f = writtenPlace g := by
  rw [dropSequences_plainLine, dropSequences_plainLine, hsaying] at h
  obtain ⟨hpath, hline, hcolumn⟩ := placeText_inj (List.append_cancel_right h)
  rw [writtenPlace, writtenPlace, Text.withoutSequences, hpath, hline, hcolumn]
  rfl

/-- Lists that are equal through one function are equal through another that it decides. -/
theorem map_eq_of_map_eq {α β γ : Type} {r : α → β} {k : α → γ} {l m : List α}
    (hr : ∀ a ∈ l, ∀ b ∈ m, r a = r b → k a = k b) (h : l.map r = m.map r) :
    l.map k = m.map k := by
  induction l generalizing m with
  | nil =>
    rcases m with _ | ⟨b, m⟩
    · rfl
    · exact absurd h (by simp)
  | cons a l ih =>
    rcases m with _ | ⟨b, m⟩
    · exact absurd h (by simp)
    · obtain ⟨hab, hrest⟩ := List.cons.inj h
      have hk : k a = k b := hr a List.mem_cons_self b List.mem_cons_self hab
      rw [List.map_cons, List.map_cons, hk, ih (fun x hx y hy =>
        hr x (List.mem_cons_of_mem a hx) y (List.mem_cons_of_mem b hy)) hrest]

/-- **The lines of a report decide what each of them decides**, in the order of the report. The
report without findings has a line of its own. -/
theorem map_sorted_eq_of_plainLines {β γ : Type} {r : String → β} {k : Finding → γ}
    (hr : ∀ f ∈ fs, ∀ g ∈ gs, r (plainLine f) = r (plainLine g) → k f = k g)
    (hnone : ∀ f, r (plainLine f) ≠ r "No findings.")
    (h : (plainLines fs).map r = (plainLines gs).map r) :
    (Finding.sorted fs).map k = (Finding.sorted gs).map k := by
  have hempty : ∀ hs : List Finding,
      ((Finding.sorted hs).map plainLine).map r ≠ ["No findings."].map r := by
    intro hs heq
    rcases hsorted : Finding.sorted hs with _ | ⟨f, rest⟩
    · rw [hsorted] at heq
      exact absurd heq (by simp)
    · rw [hsorted] at heq
      exact hnone f (List.cons.inj heq).1
  rw [plainLines, plainLines] at h
  by_cases hfs : fs.isEmpty = true
  · by_cases hgs : gs.isEmpty = true
    · rw [List.isEmpty_iff.1 hfs, List.isEmpty_iff.1 hgs]
    · rw [if_pos hfs, if_neg hgs] at h
      exact absurd h.symm (hempty gs)
  · by_cases hgs : gs.isEmpty = true
    · rw [if_neg hfs, if_pos hgs] at h
      exact absurd h (hempty fs)
    · rw [if_neg hfs, if_neg hgs, List.map_map, List.map_map] at h
      refine map_eq_of_map_eq (fun f hf g hg => ?_) h
      exact hr f (List.mem_mergeSort.1 hf) g (List.mem_mergeSort.1 hg)

/-- A finding of the forwarding rule, under some contract and in some file. -/
def IsForwardingFinding (f : Finding) : Prop :=
  ∃ c file found, (Rule.forwarding c).run file = .ok found ∧ f ∈ found

/-- All of them say the same. -/
theorem saying_of_isForwardingFinding (h : IsForwardingFinding f) :
    saying f = " " ++ Text.upper Forwarding.issue.severity ++ " [" ++ Forwarding.issue.id ++ "] " ++
      Forwarding.message := by
  obtain ⟨c, file, found, hrun, hf⟩ := h
  rw [Forwarding.run_eq_ok_reported] at hrun
  rw [← Checked.ok.inj hrun] at hf
  obtain ⟨m, -, rfl⟩ := List.mem_map.1 hf
  rfl

theorem saying_eq_of_isForwardingFinding (hf : IsForwardingFinding f)
    (hg : IsForwardingFinding g) : saying f = saying g := by
  rw [saying_of_isForwardingFinding hf, saying_of_isForwardingFinding hg]

/-- The report as it is written, line by line. -/
theorem toList_plain (fs : List Finding) :
    (plain fs).toList =
      ((plainLines fs).map fun l => Text.dropSequences 0 l.toList).flatMap (· ++ ['\n']) := by
  rw [plain, String.toList_join, List.flatMap_map, List.flatMap_map]
  simp [Text.withoutSequences, String.toList_append]

/-- A line has a line feed in it only where the path has. -/
theorem lineFeed_notMem_plainLine (h : IsForwardingFinding f) (hpath : '\n' ∉ f.file.toList) :
    '\n' ∉ (plainLine f).toList := by
  have hnumber : ∀ n : Int, '\n' ∉ (toString n).toList :=
    Text.notMem_toString (by decide) (by decide)
  have hsaying : '\n' ∉ (saying f).toList := by
    rw [saying_of_isForwardingFinding h]
    decide +kernel
  rw [toList_plainLine, placeText]
  simp only [List.mem_append, List.mem_cons, not_or]
  exact ⟨⟨⟨hpath, by decide, hnumber _⟩, by decide, hnumber _⟩, by decide, hsaying⟩

theorem lineFeed_notMem_written (h : ∀ f ∈ fs, IsForwardingFinding f ∧ '\n' ∉ f.file.toList) :
    ∀ l ∈ (plainLines fs).map (fun l => Text.dropSequences 0 l.toList), '\n' ∉ l := by
  have hlines : ∀ l ∈ plainLines fs, '\n' ∉ l.toList := by
    intro l hl
    rw [plainLines] at hl
    split at hl
    · rw [List.mem_singleton.1 hl]
      decide
    · obtain ⟨f, hf, rfl⟩ := List.mem_map.1 hl
      obtain ⟨hforwarding, hpath⟩ := h f (List.mem_mergeSort.1 hf)
      exact lineFeed_notMem_plainLine hforwarding hpath
  intro l hl
  obtain ⟨line, hline, rfl⟩ := List.mem_map.1 hl
  exact fun hmem => hlines line hline ((Text.dropSequences_sublist 0 line.toList).subset hmem)

/-- What sorted findings have in common, unsorted ones have in common up to order. -/
theorem perm_map_of_map_sorted_eq {γ : Type} {k : Finding → γ}
    (h : (Finding.sorted fs).map k = (Finding.sorted gs).map k) : (fs.map k).Perm (gs.map k) := by
  have hfs : ((Finding.sorted fs).map k).Perm (fs.map k) := (perm_sorted fs).map k
  have hgs : ((Finding.sorted gs).map k).Perm (gs.map k) := (perm_sorted gs).map k
  rw [h] at hfs
  exact hfs.symm.trans hgs

/-- **A plain report is read back.** Two lines that say the same are equal only if they show the
same path, line and column, whatever the path is like. So the lines of a report on findings of
the forwarding rule determine, in the order of the report, where these are. The report as it is
written does too, but for terminal sequences in paths, where no path has a line feed in it. The
order of the report is that of the sort key, and every finding is there as often as it was
found. -/
theorem plainLines_determine_places :
    (∀ f g : Finding, Text.upper f.severity = Text.upper g.severity → f.ruleId = g.ruleId →
      f.message = g.message → plainLine f = plainLine g →
        f.file = g.file ∧ f.location.line = g.location.line ∧
          f.location.column = g.location.column) ∧
    (∀ fs gs : List Finding, (∀ f ∈ fs ++ gs, IsForwardingFinding f) →
      plainLines fs = plainLines gs →
        (Finding.sorted fs).map placeOf = (Finding.sorted gs).map placeOf ∧
          (fs.map placeOf).Perm (gs.map placeOf)) ∧
    (∀ fs gs : List Finding, (∀ f ∈ fs ++ gs, IsForwardingFinding f ∧ '\n' ∉ f.file.toList) →
      plain fs = plain gs →
        (Finding.sorted fs).map writtenPlace = (Finding.sorted gs).map writtenPlace ∧
          (fs.map writtenPlace).Perm (gs.map writtenPlace)) ∧
    ∀ fs : List Finding, (Finding.sorted fs).Perm fs ∧
      (Finding.sorted fs).Pairwise (Finding.sortKey · ≤ Finding.sortKey ·) := by
  refine ⟨fun f g hseverity hrule hmessage h => ?_, fun fs gs hforwarding h => ?_,
    fun fs gs hforwarding h => ?_, fun fs => ⟨perm_sorted fs, sorted_pairwise_sortKey fs⟩⟩
  · have hsaying : saying f = saying g := by rw [saying, saying, hseverity, hrule, hmessage]
    simpa [placeOf] using placeOf_eq_of_plainLine_eq hsaying h
  · rw [List.forall_mem_append] at hforwarding
    have hsorted : (Finding.sorted fs).map placeOf = (Finding.sorted gs).map placeOf := by
      refine map_sorted_eq_of_plainLines (r := id) (fun f hf g hg heq => ?_) plainLine_ne
        (congrArg _ h)
      exact placeOf_eq_of_plainLine_eq
        (saying_eq_of_isForwardingFinding (hforwarding.1 f hf) (hforwarding.2 g hg)) heq
    exact ⟨hsorted, perm_map_of_map_sorted_eq hsorted⟩
  · rw [List.forall_mem_append] at hforwarding
    rw [← String.toList_inj, toList_plain, toList_plain] at h
    have hlines := Text.eq_of_flatMap_lines (lineFeed_notMem_written hforwarding.1)
      (lineFeed_notMem_written hforwarding.2) h
    have hsorted : (Finding.sorted fs).map writtenPlace = (Finding.sorted gs).map writtenPlace := by
      refine map_sorted_eq_of_plainLines (r := fun l => Text.dropSequences 0 l.toList)
        (fun f hf g hg heq => ?_) dropSequences_plainLine_ne hlines
      exact writtenPlace_eq_of_dropSequences_eq
        (saying_eq_of_isForwardingFinding (hforwarding.1 f hf).1 (hforwarding.2 g hg).1) heq
    exact ⟨hsorted, perm_map_of_map_sorted_eq hsorted⟩

end Report

namespace LookalikePaths

/-- A marked class with a callback that does nothing. -/
def src : Bytes := Utf8.encode "@M class A{void on(){}}"

def tree : Node :=
  .mk "program" 0 23 true none
    [.mk "class_declaration" 0 23 true none
      [.mk "modifiers" 0 2 true none
          [.mk "marker_annotation" 0 2 true none [.mk "identifier" 1 2 true (some "name") []]],
        .mk "identifier" 9 10 true (some "name") [],
        .mk "class_body" 10 23 true (some "body")
          [.mk "method_declaration" 11 22 true none
            [.mk "identifier" 16 18 true (some "name") [],
              .mk "block" 20 22 true (some "body") []]]]]

def contract : Contract where
  markers := ["M"]
  callback := "on"
  suffix := "Out"

/-- The class in the file at a path. -/
def file (path : String) : SourceFile := ⟨Path.ofString path, src, tree, false⟩

/-- The finding in that file. -/
def found (path : String) : Finding where
  ruleId := Forwarding.issue.id
  message := Forwarding.message
  severity := "error"
  location :=
    { path := Path.ofString path
      line := 1
      column := 12
      endLine := some 1
      endColumn := some 23
      snippet := some "void on()" }

theorem isForwardingFinding_found (path : String) : Report.IsForwardingFinding (found path) := by
  have hmethods : (TypeDecl.listOfTree src tree).flatMap contract.violations =
      [{ name := "on", body := some [],
         span := ⟨1, 12, some 1, some 23, some "void on()"⟩ }] := by decide +kernel
  have hviolations : Forwarding.violationsIn contract (file path) = _ := hmethods
  refine ⟨contract, file path, _, Forwarding.run_eq_ok_reported contract (file path), ?_⟩
  rw [hviolations, List.map_singleton, List.mem_singleton]
  rfl

/-- One path looks like the other with a line and a column. -/
def fs : List Finding := [found "x:1:12", found "x"]

def gs : List Finding := [found "x", found "x:1:12"]

theorem file_found : (found "x:1:12").file = "x:1:12" ∧ (found "x").file = "x" := by
  decide +kernel

theorem inFile_eq (file : String) : Report.inFile file fs = Report.inFile file gs := by
  obtain ⟨hlong, hshort⟩ := file_found
  have hone : ((found "x:1:12").file == file) = false ∨ ((found "x").file == file) = false := by
    rw [hlong, hshort]
    by_cases hfile : file = "x"
    · exact .inl (by rw [hfile]; decide)
    · exact .inr (by simpa using fun he => hfile he.symm)
  rcases hone with h | h <;> simp [Report.inFile, fs, gs, List.filter_cons, h]

theorem plainLines_eq : Report.plainLines fs = Report.plainLines gs :=
  Report.plainLines_of_inFile_eq inFile_eq

theorem isForwardingFinding_and_notMem : ∀ f ∈ fs ++ gs,
    Report.IsForwardingFinding f ∧ '\n' ∉ f.file.toList := by
  have hlong : Report.IsForwardingFinding (found "x:1:12") ∧
      '\n' ∉ (found "x:1:12").file.toList :=
    ⟨isForwardingFinding_found _, by rw [file_found.1]; decide⟩
  have hshort : Report.IsForwardingFinding (found "x") ∧ '\n' ∉ (found "x").file.toList :=
    ⟨isForwardingFinding_found _, by rw [file_found.2]; decide⟩
  intro f hf
  simp only [fs, gs, List.cons_append, List.nil_append, List.mem_cons, List.not_mem_nil,
    or_false] at hf
  rcases hf with rfl | rfl | rfl | rfl
  exacts [hlong, hshort, hshort, hlong]

end LookalikePaths

open LookalikePaths Report in
/-- The two orders give one report, and so the same places, with both paths among them; and the
lines for the two paths are different, although one path goes on like the line of the other. -/
theorem lookalikePaths_told_apart :
    (∀ f ∈ fs ++ gs, IsForwardingFinding f ∧ '\n' ∉ f.file.toList) ∧
      plainLines fs = plainLines gs ∧ plain fs = plain gs ∧
      (Finding.sorted fs).map placeOf = (Finding.sorted gs).map placeOf ∧
      (Finding.sorted fs).map writtenPlace = (Finding.sorted gs).map writtenPlace ∧
      [("x:1:12", 1, 12), ("x", 1, 12)].Perm ((Finding.sorted fs).map placeOf) ∧
      plainLine (found "x:1:12") ≠ plainLine (found "x") := by
  obtain ⟨hline, hlines, hwritten, hsorted⟩ := plainLines_determine_places
  have hplain : plain fs = plain gs := by rw [plain, plain, plainLines_eq]
  have hplaces := hlines fs gs (fun f hf => (isForwardingFinding_and_notMem f hf).1) plainLines_eq
  have hshown : fs.map placeOf = [("x:1:12", 1, 12), ("x", 1, 12)] := by decide +kernel
  refine ⟨isForwardingFinding_and_notMem, plainLines_eq, hplain, hplaces.1,
    (hwritten fs gs isForwardingFinding_and_notMem hplain).1, ?_, fun h => ?_⟩
  · rw [← hshown]
    exact ((hsorted fs).1.map placeOf).symm
  · have hfile := (hline (found "x:1:12") (found "x") rfl rfl rfl h).1
    rw [file_found.1, file_found.2] at hfile
    exact absurd hfile (by decide)

end CallbackLint
