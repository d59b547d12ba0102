import CallbackLint.Proofs.ReportTotals
/-!
# Text and markup in a report

A report puts texts from outside, such as paths and messages, into markup. Escaping a text
leaves no tag in it that takes effect (`Markup.tags_escape`), and leaves the text as it is
exactly when there is nothing in it to be mistaken (`Markup.escape_eq_self_iff`).

The path over the findings of a file and the excerpts are escaped. The messages, the paths in
the table of all files, and the rules and explanations are put in as they are. So a report is
the one in which every text is escaped (`Report.printsWith Markup.escape`) exactly when there is
nothing to be mistaken in any of these (`Report.prints_eq_escaped_iff`).
-/

namespace CallbackLint

/-! ## What escaping does to a text -/

namespace Markup

/-- The tags that take effect in the rest of a markup, where `slashes` backslashes were read: an
odd number of them in front of a bracket makes it a character. -/
def tagsFrom (slashes : Nat) : List Char → List (List Char)
  | [] => []
  | c :: cs =>
    if c == '\\' then tagsFrom (slashes + 1) cs
    else if c == '[' && opensTag cs && slashes % 2 == 0 then
      cs.takeWhile (· != ']') :: tagsFrom 0 cs
    else tagsFrom 0 cs

/-- The tags that take effect in a markup, without their brackets. -/
def tags (s : String) : List String :=
  (tagsFrom 0 s.toList).map String.ofList

/-- A text with nothing in it that markup could take for something else: no bracket opens a tag,
and there is no single backslash at the end. -/
structure IsPlain (s : String) : Prop where
  noTag : ∀ front back, s.toList = front ++ '[' :: back → opensTag back = false
  noSlash : ∀ front, s.toList = front ++ ['\\'] → front.getLast? = some '\\'

/-- A backslash is kept back until it is known what follows. -/
theorem escapeFrom_slash (k : Nat) (cs : List Char) :
    escapeFrom k ('\\' :: cs) = escapeFrom (k + 1) cs := by
  simp [escapeFrom]

/-- In front of a tag the backslashes are doubled, with one more for the bracket. -/
theorem escapeFrom_tag (k : Nat) {cs : List Char} (h : opensTag cs = true) :
    escapeFrom k ('[' :: cs) = List.replicate (2 * k + 1) '\\' ++ '[' :: escapeFrom 0 cs := by
  simp [escapeFrom, h]

/-- In front of anything else they stand as they were. -/
theorem escapeFrom_other (k : Nat) {c : Char} {cs : List Char} (hc : c ≠ '\\')
    (h : ¬ (c = '[' ∧ opensTag cs = true)) :
    escapeFrom k (c :: cs) = List.replicate k '\\' ++ c :: escapeFrom 0 cs := by
  simp [escapeFrom, hc, h]

/-- The three ways for escaping to go on, as an induction. -/
theorem escapeFrom_induction {P : Nat → List Char → Prop} (hnil : ∀ k, P k [])
    (hslash : ∀ k cs, P (k + 1) cs → P k ('\\' :: cs))
    (htag : ∀ k cs, opensTag cs = true → P 0 cs → P k ('[' :: cs))
    (hother : ∀ k c cs, c ≠ '\\' → ¬ (c = '[' ∧ opensTag cs = true) → P 0 cs → P k (c :: cs))
    (k : Nat) (cs : List Char) : P k cs := by
  induction cs generalizing k with
  | nil => exact hnil k
  | cons c cs ih =>
    by_cases hc : c = '\\'
    · subst hc
      exact hslash k cs (ih (k + 1))
    · by_cases h : c = '[' ∧ opensTag cs = true
      · obtain ⟨rfl, hopens⟩ := h
        exact htag k cs hopens (ih 0)
      · exact hother k c cs hc h (ih 0)

theorem replicate_append_slash (k : Nat) (cs : List Char) :
    List.replicate k '\\' ++ '\\' :: cs = List.replicate (k + 1) '\\' ++ cs := by
  rw [List.replicate_succ', List.append_assoc, List.singleton_append]

/-- Escaping puts characters in and takes none away. -/
theorem sublist_escapeFrom (k : Nat) (cs : List Char) :
    (List.replicate k '\\' ++ cs).Sublist (escapeFrom k cs) := by
  induction k, cs using escapeFrom_induction with
  | hnil k => simp [escapeFrom]
  | hslash k cs ih =>
    rw [escapeFrom_slash, replicate_append_slash]
    exact ih
  | htag k cs hopens ih =>
    rw [escapeFrom_tag k hopens]
    have hle : k ≤ 2 * k + 1 := by omega
    exact (List.replicate_sublist_replicate '\\' |>.2 hle).append (ih.cons_cons '[')
  | hother k c cs hc h ih =>
    rw [escapeFrom_other k hc h]
    exact (List.Sublist.refl _).append (ih.cons_cons c)

/-- The backslashes that were read are the first to be written. -/
theorem replicate_prefix_escapeFrom (k : Nat) (cs : List Char) :
    List.replicate k '\\' <+: escapeFrom k cs := by
  induction k, cs using escapeFrom_induction with
  | hnil k => simp [escapeFrom]
  | hslash k cs ih =>
    rw [escapeFrom_slash]
    rw [List.replicate_succ'] at ih
    exact (List.prefix_append _ _).trans ih
  | htag k cs hopens ih =>
    have hsplit : 2 * k + 1 = k + (k + 1) := by omega
    rw [escapeFrom_tag k hopens, hsplit, ← List.replicate_append_replicate, List.append_assoc]
    exact List.prefix_append _ _
  | hother k c cs hc h ih =>
    rw [escapeFrom_other k hc h]
    exact List.prefix_append _ _

/-- A text is left as it is when none of its brackets opens a tag. -/
theorem escapeFrom_eq_iff (k : Nat) (cs : List Char) :
    escapeFrom k cs = List.replicate k '\\' ++ cs ↔
      ∀ front back, cs = front ++ '[' :: back → opensTag back = false := by
  induction k, cs using escapeFrom_induction with
  | hnil k => simp [escapeFrom]
  | hslash k cs ih =>
    rw [escapeFrom_slash, replicate_append_slash, ih]
    constructor
    · intro h front back hsplit
      rcases front with _ | ⟨d, front⟩
      · cases hsplit
      · exact h front back (List.cons.inj hsplit).2
    · exact fun h front back hsplit => h ('\\' :: front) back (by rw [hsplit]; rfl)
  | htag k cs hopens ih =>
    -- The backslash in front of the tag makes the text longer.
    constructor
    · intro heq
      have hlength := congrArg List.length heq
      have hle := (sublist_escapeFrom 0 cs).length_le
      rw [List.replicate_zero, List.nil_append] at hle
      rw [escapeFrom_tag k hopens, List.length_append, List.length_replicate, List.length_cons,
        List.length_append, List.length_replicate, List.length_cons] at hlength
      omega
    · intro h
      have hclosed := h [] cs rfl
      rw [hopens] at hclosed
      cases hclosed
  | hother k c cs hc hnot ih =>
    have hcons : escapeFrom 0 cs = cs ↔
        ∀ front back, cs = front ++ '[' :: back → opensTag back = false := by
      simpa using ih
    rw [escapeFrom_other k hc hnot, List.append_cancel_left_eq, List.cons.injEq,
      and_iff_right rfl, hcons]
    constructor
    · intro h front back hsplit
      rcases front with _ | ⟨d, front⟩
      · obtain ⟨rfl, rfl⟩ := List.cons.inj hsplit
        simpa using hnot
      · exact h front back (List.cons.inj hsplit).2
    · exact fun h front back hsplit => h (c :: front) back (by rw [hsplit]; rfl)

/-- At the end at most one backslash is added. -/
theorem guardEnd_cases (cs : List Char) :
    guardEnd cs = cs ∨ guardEnd cs = cs ++ ['\\'] := by
  unfold guardEnd
  split
  · exact .inl rfl
  · exact .inr rfl
  · exact .inl rfl

/-- The end of a text is left as it is when it is not a single backslash. -/
theorem guardEnd_eq_self_iff (cs : List Char) :
    guardEnd cs = cs ↔ ∀ front, cs = front ++ ['\\'] → front.getLast? = some '\\' := by
  rcases List.eq_nil_or_concat' cs with rfl | ⟨front, c, rfl⟩
  · simp [guardEnd]
  · by_cases hc : c = '\\'
    · subst hc
      have hfront : (∀ other, front ++ ['\\'] = other ++ ['\\'] → other.getLast? = some '\\') ↔
          front.getLast? = some '\\' := by
        constructor
        · exact fun h => h front rfl
        · intro h other heq
          rwa [← List.append_cancel_right heq]
      rw [hfront]
      rcases List.eq_nil_or_concat' front with rfl | ⟨before, d, rfl⟩
      · simp [guardEnd]
      · by_cases hd : d = '\\' <;> simp [guardEnd, hd]
    · simp [guardEnd, hc]

/-- Escaping takes nothing away. -/
theorem sublist_escape (s : String) : s.toList.Sublist (escape s).toList := by
  have hinner : s.toList.Sublist (escapeFrom 0 s.toList) := sublist_escapeFrom 0 s.toList
  rw [escape, String.toList_ofList]
  rcases guardEnd_cases (escapeFrom 0 s.toList) with hend | hend
  · rwa [hend]
  · rw [hend]
    exact hinner.trans (List.sublist_append_left _ _)

/-- So it never makes a text shorter. -/
theorem length_le_length_escape (s : String) : s.length ≤ (escape s).length := by
  rw [← String.length_toList, ← String.length_toList]
  exact (sublist_escape s).length_le

/-- And where it makes it no longer, it leaves it as it is. -/
theorem escape_eq_self_of_length {s : String} (h : (escape s).length = s.length) :
    escape s = s := by
  have hlength : s.toList.length = (escape s).toList.length := by
    rw [String.length_toList, String.length_toList, h]
  exact (String.toList_inj.1 ((sublist_escape s).eq_of_length hlength)).symm

/-- **Only a text with nothing to be mistaken in it is left as it is.** -/
theorem escape_eq_self_iff (s : String) : escape s = s ↔ IsPlain s := by
  have hsame : escape s = s ↔ guardEnd (escapeFrom 0 s.toList) = s.toList := by
    rw [← String.toList_inj, escape, String.toList_ofList]
  have hinner := (sublist_escapeFrom 0 s.toList).length_le
  have htags := escapeFrom_eq_iff 0 s.toList
  rw [List.replicate_zero, List.nil_append] at hinner htags
  rw [hsame]
  constructor
  · intro h
    rcases guardEnd_cases (escapeFrom 0 s.toList) with hend | hend
    · have heq : escapeFrom 0 s.toList = s.toList := hend.symm.trans h
      exact ⟨htags.1 heq, (guardEnd_eq_self_iff s.toList).1 (by rw [heq] at h; exact h)⟩
    · have hlength := congrArg List.length (hend.symm.trans h)
      rw [List.length_append, List.length_singleton] at hlength
      omega
  · intro h
    rw [htags.2 h.noTag]
    exact (guardEnd_eq_self_iff s.toList).2 h.noSlash

/-! ## No tag is left -/

/-- Backslashes in front are only counted. -/
theorem tagsFrom_replicate (k n : Nat) (cs : List Char) :
    tagsFrom k (List.replicate n '\\' ++ cs) = tagsFrom (k + n) cs := by
  induction n generalizing k with
  | zero => rfl
  | succ n ih =>
    rw [List.replicate_succ, List.cons_append, tagsFrom, if_pos (by rfl), ih]
    congr 1
    omega

/-- A backslash neither closes a tag nor opens one. -/
theorem closes_replicate (n : Nat) (cs : List Char) :
    closes (List.replicate n '\\' ++ cs) = closes cs := by
  induction n with
  | zero => rfl
  | succ n ih =>
    rw [List.replicate_succ, List.cons_append, closes, if_neg (by decide), if_neg (by decide), ih]

/-- Backslashes do not matter to where a bracket closes. -/
theorem closes_escapeFrom (k : Nat) (cs : List Char) : closes (escapeFrom k cs) = closes cs := by
  induction k, cs using escapeFrom_induction with
  | hnil k => simpa [escapeFrom] using closes_replicate k []
  | hslash k cs ih =>
    rw [escapeFrom_slash, ih, closes, if_neg (by decide), if_neg (by decide)]
  | htag k cs hopens ih =>
    rw [escapeFrom_tag k hopens, closes_replicate]
    rfl
  | hother k c cs hc h ih =>
    rw [escapeFrom_other k hc h, closes_replicate, closes, closes, ih]

/-- Nor does escaping what follows make a bracket open a tag. -/
theorem opensTag_escapeFrom (cs : List Char) : opensTag (escapeFrom 0 cs) = opensTag cs := by
  have hslash : isTagStart '\\' = false := by decide
  have hbracket : isTagStart '[' = false := by decide
  rcases cs with _ | ⟨c, cs⟩
  · rfl
  · by_cases hc : c = '\\'
    · subst hc
      -- What comes first is a backslash before and after.
      obtain ⟨rest, hrest⟩ := replicate_prefix_escapeFrom 1 cs
      rw [escapeFrom_slash, Nat.zero_add, ← hrest]
      simp [opensTag, hslash]
    · by_cases h : c = '[' ∧ opensTag cs = true
      · obtain ⟨rfl, hopens⟩ := h
        rw [escapeFrom_tag 0 hopens, opensTag, hbracket]
        simp [opensTag, hslash]
      · rw [escapeFrom_other 0 hc h, List.replicate_zero, List.nil_append, opensTag, opensTag,
          closes_escapeFrom]

/-- Nor does one at the end. -/
theorem closes_append_slash (cs : List Char) : closes (cs ++ ['\\']) = closes cs := by
  induction cs with
  | nil => rfl
  | cons c cs ih => rw [List.cons_append, closes, closes, ih]

/-- So it opens no tag either. -/
theorem opensTag_append_slash (cs : List Char) : opensTag (cs ++ ['\\']) = opensTag cs := by
  rcases cs with _ | ⟨c, cs⟩
  · rfl
  · rw [List.cons_append, opensTag, opensTag, closes_append_slash]

/-- A backslash at the end makes no tag. -/
theorem tagsFrom_append_slash (k : Nat) (cs : List Char) (h : tagsFrom k cs = []) :
    tagsFrom k (cs ++ ['\\']) = [] := by
  induction cs generalizing k with
  | nil => rfl
  | cons c cs ih =>
    rw [tagsFrom] at h
    rw [List.cons_append, tagsFrom, opensTag_append_slash]
    split at h
    · rename_i hc
      rw [if_pos hc]
      exact ih _ h
    · rename_i hc
      rw [if_neg hc]
      split at h
      · cases h
      · rename_i htag
        rw [if_neg htag]
        exact ih _ h

/-- **An escaped text has no tags**, whatever backslashes were kept back. -/
theorem tagsFrom_escapeFrom (k : Nat) (cs : List Char) : tagsFrom 0 (escapeFrom k cs) = [] := by
  induction k, cs using escapeFrom_induction with
  | hnil k => simpa [escapeFrom, tagsFrom] using tagsFrom_replicate 0 k []
  | hslash k cs ih => rw [escapeFrom_slash, ih]
  | htag k cs hopens ih =>
    -- An odd number of backslashes stands in front of the bracket.
    rw [escapeFrom_tag k hopens, tagsFrom_replicate, tagsFrom, if_neg (by decide),
      if_neg (by simp), ih]
  | hother k c cs hc h ih =>
    have hno : (c == '[' && opensTag (escapeFrom 0 cs)) = false := by
      rw [opensTag_escapeFrom]
      simpa using h
    rw [escapeFrom_other k hc h, tagsFrom_replicate, tagsFrom, if_neg (by simpa using hc),
      if_neg (by simp [hno]), ih]

/-- **In an escaped text no tag takes effect.** -/
theorem tags_escape (s : String) : tags (escape s) = [] := by
  have hinner := tagsFrom_escapeFrom 0 s.toList
  rw [tags, escape, String.toList_ofList, List.map_eq_nil_iff]
  rcases guardEnd_cases (escapeFrom 0 s.toList) with hend | hend
  · rw [hend, hinner]
  · rw [hend]
    exact tagsFrom_append_slash 0 _ hinner

example : tags "a [red]b[/red] \\[c]" = ["red", "/red"] := by decide +kernel

end Markup

/-! ## A report with every text put in by one function -/

namespace Report

section Put

variable (put : String → String)

/-- The row for one finding, with the message put in. -/
def findingRowWith (f : Finding) : List Cell :=
  [.markup (toString f.location.line), .markup (toString f.location.column),
    .styled (Text.upper f.severity) (severityStyle f.severity),
    .styled ("[" ++ f.ruleId ++ "]") "dim", .markup (put f.message)]

def findingTableWith (fs : List Finding) : Table :=
  { findingTable fs with rows := fs.map (findingRowWith put) }

/-- The rules among some findings that have an explanation, each once, with the explanation. -/
def explained (issues : List Issue) (fs : List Finding) : List (String × String) :=
  (fs.map Finding.ruleId).eraseDups.filterMap fun r =>
    (explanation? issues r).map fun explanation => (r, explanation)

/-- The line with the explanation of a rule, both put in. -/
def explanationLineWith (ruleId explanation : String) : String :=
  "  [dim][Fix][/dim] [" ++ put ruleId ++ "] " ++ put explanation

def explanationPrintsWith (issues : List Issue) (fs : List Finding) : List Print :=
  (explained issues fs).map (fun e => Print.line (explanationLineWith put e.1 e.2)) ++
    (if (fs.map Finding.ruleId).eraseDups.isEmpty then [] else [.blank])

/-- All prints for one file. The path over them and the excerpts are escaped as it is. -/
def filePrintsWith (verbose : Bool) (issues : List Issue) (file : String) (fs : List Finding) :
    List Print :=
  [.blank, .panel (filePanel file), .table (findingTableWith put fs)] ++ snippetPrints fs ++
    (if verbose then explanationPrintsWith put issues fs else [])

/-- The row of one analysed file, with the path put in. -/
def fileRowWith (fs : List Finding) (file : String) : List Cell :=
  if countIn fs file == 0 then [.markup (put file), .styled "OK" "bold green", .markup "0"]
  else [.markup (put file), .styled "FAIL" "bold red", .markup (toString (countIn fs file))]

def fileSummaryWith (fs : List Finding) (analyzed : List String) : List Print :=
  [.blank, .panel
    { content := .table { fileTable fs analyzed with
        rows := (summaryOrder fs analyzed).map (fileRowWith put fs) }
      borderStyle := "cyan"
      box := .rounded }]

/-- The report in which every text from outside that stands in markup is put in by `put`, but
for the paths over the findings and the excerpts, which are escaped. -/
def printsWith (fs : List Finding) (analyzed : List Path) (verbose : Bool)
    (issues : List Issue) : List Print :=
  let files := analyzed.map Path.toString
  if fs.isEmpty then
    if files.isEmpty then [.panel cleanPanel] else fileSummaryWith put [] files
  else
    let sorted := Finding.sorted fs
    (filesOf sorted).flatMap (fun p => filePrintsWith put verbose issues p (inFile p sorted)) ++
      (if files.isEmpty then [] else fileSummaryWith put fs files) ++
      [.blank, .panel (summaryPanel fs)]

end Put

/-- With texts put in as they are, the explanations are those of the report. -/
theorem explanationPrintsWith_id (issues : List Issue) (fs : List Finding) :
    explanationPrintsWith id issues fs = explanationPrints issues fs := by
  simp only [explanationPrintsWith, explanationPrints, explained, List.map_filterMap,
    Option.map_map, Function.comp_def]
  rfl

/-- A report puts these texts in as they are. -/
theorem printsWith_id (fs : List Finding) (analyzed : List Path) (verbose : Bool)
    (issues : List Issue) : printsWith id fs analyzed verbose issues =
      prints fs analyzed verbose issues := by
  have hfile : ∀ file gs, filePrintsWith id verbose issues file gs =
      filePrints verbose issues file gs := by
    intro file gs
    rw [filePrintsWith, explanationPrintsWith_id]
    rfl
  simp only [printsWith, prints, hfile]
  rfl

/-! ## Where escaping would make a difference -/

/-- The texts that the prints for some findings put in as they are: the messages and, where they
are asked for, the rules with an explanation and the explanations. -/
def insertedIn (verbose : Bool) (issues : List Issue) (fs : List Finding) : List String :=
  fs.map Finding.message ++
    (if verbose then (explained issues fs).flatMap fun e => [e.1, e.2] else [])

/-- The texts that a report puts in as they are, the paths of the files analysed among them. -/
def insertedTexts (fs : List Finding) (analyzed : List Path) (verbose : Bool)
    (issues : List Issue) : List String :=
  insertedIn verbose issues fs ++ analyzed.map Path.toString

variable {issues : List Issue} {verbose : Bool}

/-- The rules that are explained are those of the findings that have an explanation. -/
theorem mem_explained_iff {fs : List Finding} {e : String × String} :
    e ∈ explained issues fs ↔
      ∃ f ∈ fs, f.ruleId = e.1 ∧ explanation? issues f.ruleId = some e.2 := by
  simp only [explained, List.mem_filterMap, List.mem_eraseDups, List.mem_map,
    Option.map_eq_some_iff]
  constructor
  · rintro ⟨_, ⟨f, hf, rfl⟩, explanation, hexpl, rfl⟩
    exact ⟨f, hf, rfl, hexpl⟩
  · rintro ⟨f, hf, hrule, hexpl⟩
    exact ⟨f.ruleId, ⟨f, hf, rfl⟩, e.2, hexpl, by rw [hrule]⟩

/-- Each of these texts comes from one of the findings, whichever findings are beside it. -/
theorem mem_insertedIn_iff {fs : List Finding} {t : String} :
    t ∈ insertedIn verbose issues fs ↔ ∃ f ∈ fs, t ∈ insertedIn verbose issues [f] := by
  have hexpl : (∃ e ∈ explained issues fs, t = e.1 ∨ t = e.2) ↔
      ∃ f ∈ fs, ∃ e ∈ explained issues [f], t = e.1 ∨ t = e.2 := by
    simp only [mem_explained_iff, List.mem_singleton, exists_eq_left]
    constructor
    · rintro ⟨e, ⟨f, hf, he⟩, ht⟩
      exact ⟨f, hf, e, he, ht⟩
    · rintro ⟨f, hf, e, he, ht⟩
      exact ⟨e, ⟨f, hf, he⟩, ht⟩
  cases verbose with
  | false => simp [insertedIn, eq_comm]
  | true =>
    simp only [insertedIn, if_true, List.mem_append, List.mem_map, List.mem_flatMap,
      List.mem_cons, List.not_mem_nil, or_false, hexpl, exists_eq_left]
    constructor
    · rintro (⟨f, hf, ht⟩ | ⟨f, hf, ht⟩)
      · exact ⟨f, hf, .inl ht⟩
      · exact ⟨f, hf, .inr ht⟩
    · rintro ⟨f, hf, ht | ht⟩
      · exact .inl ⟨f, hf, ht⟩
      · exact .inr ⟨f, hf, ht⟩

/-- The groups by file put in what all the findings put in. -/
theorem exists_mem_insertedIn_inFile_iff {fs : List Finding} {t : String} :
    (∃ file ∈ filesOf (Finding.sorted fs),
        t ∈ insertedIn verbose issues (inFile file (Finding.sorted fs))) ↔
      t ∈ insertedIn verbose issues fs := by
  have hgroups : ∀ f, (∃ file ∈ filesOf (Finding.sorted fs), f ∈ inFile file (Finding.sorted fs)) ↔
      f ∈ fs := by
    intro f
    rw [← List.mem_flatMap, flatMap_inFile_filesOf, (perm_sorted fs).mem_iff]
  rw [mem_insertedIn_iff]
  constructor
  · rintro ⟨file, hfile, ht⟩
    obtain ⟨f, hf, ht⟩ := mem_insertedIn_iff.1 ht
    exact ⟨f, (hgroups f).1 ⟨file, hfile, hf⟩, ht⟩
  · rintro ⟨f, hf, ht⟩
    obtain ⟨file, hfile, hf⟩ := (hgroups f).2 hf
    exact ⟨file, hfile, mem_insertedIn_iff.2 ⟨f, hf, ht⟩⟩

/-- Lists of equal lengths, one after the other, are the same only one by one. -/
theorem flatMap_eq_flatMap_iff {α β : Type*} {f g : α → List β}
    (hlength : ∀ a, (f a).length = (g a).length) (l : List α) :
    l.flatMap f = l.flatMap g ↔ ∀ a ∈ l, f a = g a := by
  induction l with
  | nil => simp
  | cons a l ih =>
    rw [List.flatMap_cons, List.flatMap_cons, List.forall_mem_cons, ← ih]
    constructor
    · intro h
      exact List.append_inj h (hlength a)
    · rintro ⟨ha, hl⟩
      rw [ha, hl]

/-- Escaping would change the row of a finding exactly by its message. -/
theorem findingRowWith_eq_iff (f : Finding) :
    findingRowWith id f = findingRowWith Markup.escape f ↔ Markup.IsPlain f.message := by
  rw [← Markup.escape_eq_self_iff, eq_comm]
  simp [findingRowWith]

/-- And the row of a file by its path. -/
theorem fileRowWith_eq_iff (fs : List Finding) (file : String) :
    fileRowWith id fs file = fileRowWith Markup.escape fs file ↔ Markup.IsPlain file := by
  rw [← Markup.escape_eq_self_iff, eq_comm, fileRowWith, fileRowWith]
  split <;> simp

/-- Escaping only makes a text longer, so in a line with two of them neither can stand in for
the other. -/
theorem explanationLineWith_eq_iff (ruleId explanation : String) :
    explanationLineWith id ruleId explanation =
        explanationLineWith Markup.escape ruleId explanation ↔
      Markup.IsPlain ruleId ∧ Markup.IsPlain explanation := by
  rw [← Markup.escape_eq_self_iff, ← Markup.escape_eq_self_iff]
  unfold explanationLineWith
  constructor
  · intro h
    have hlength := congrArg String.length h
    simp only [id_eq, String.length_append] at hlength
    have hrule := Markup.length_le_length_escape ruleId
    have hexpl := Markup.length_le_length_escape explanation
    exact ⟨Markup.escape_eq_self_of_length (by omega), Markup.escape_eq_self_of_length (by omega)⟩
  · rintro ⟨hrule, hexpl⟩
    rw [hrule, hexpl, id_eq, id_eq]

/-- And explanations by the rule or by what is said of it. -/
theorem explanationPrintsWith_eq_iff (fs : List Finding) :
    explanationPrintsWith id issues fs = explanationPrintsWith Markup.escape issues fs ↔
      ∀ e ∈ explained issues fs, Markup.IsPlain e.1 ∧ Markup.IsPlain e.2 := by
  rw [explanationPrintsWith, explanationPrintsWith, List.append_cancel_right_eq,
    List.map_inj_left]
  simp only [Print.line.injEq, explanationLineWith_eq_iff]

/-- There are as many prints for a file, however texts are put in. -/
theorem length_filePrintsWith (put : String → String) (file : String) (fs : List Finding) :
    (filePrintsWith put verbose issues file fs).length =
      (filePrintsWith id verbose issues file fs).length := by
  cases verbose <;> simp [filePrintsWith, explanationPrintsWith]

/-- The prints for one file are the escaped ones when there is nothing to be mistaken in what
they put in. -/
theorem filePrintsWith_eq_iff (file : String) (fs : List Finding) :
    filePrintsWith id verbose issues file fs =
        filePrintsWith Markup.escape verbose issues file fs ↔
      ∀ t ∈ insertedIn verbose issues fs, Markup.IsPlain t := by
  have htable : findingTableWith id fs = findingTableWith Markup.escape fs ↔
      ∀ f ∈ fs, Markup.IsPlain f.message := by
    simp only [findingTableWith, Table.mk.injEq, true_and, List.map_inj_left,
      findingRowWith_eq_iff]
  cases verbose with
  | false => simp [filePrintsWith, insertedIn, htable]
  | true =>
    have hpairs : (∀ t ∈ (explained issues fs).flatMap fun e => [e.1, e.2], Markup.IsPlain t) ↔
        ∀ e ∈ explained issues fs, Markup.IsPlain e.1 ∧ Markup.IsPlain e.2 := by
      rw [List.forall_mem_flatMap]
      exact forall₂_congr fun e _ => by simp
    simp only [filePrintsWith, if_true, List.cons_append, List.nil_append, List.cons.injEq,
      true_and, Print.table.injEq, htable, List.append_cancel_left_eq,
      explanationPrintsWith_eq_iff, insertedIn, List.forall_mem_append, List.forall_mem_map,
      hpairs]

/-- The table of all files is the escaped one when there is nothing to be mistaken in a path. -/
theorem fileSummaryWith_eq_iff (fs : List Finding) (files : List String) :
    fileSummaryWith id fs files = fileSummaryWith Markup.escape fs files ↔
      ∀ file ∈ files, Markup.IsPlain file := by
  have hrows : (summaryOrder fs files).map (fileRowWith id fs) =
        (summaryOrder fs files).map (fileRowWith Markup.escape fs) ↔
      ∀ file ∈ files, Markup.IsPlain file := by
    rw [List.map_inj_left]
    simp only [fileRowWith_eq_iff, (perm_summaryOrder fs files).mem_iff]
  rw [← hrows]
  simp [fileSummaryWith]

/-- The findings of all files, one file after the other. -/
theorem flatMap_filePrintsWith_eq_iff (fs : List Finding) :
    (filesOf (Finding.sorted fs)).flatMap
          (fun p => filePrintsWith id verbose issues p (inFile p (Finding.sorted fs))) =
        (filesOf (Finding.sorted fs)).flatMap
          (fun p => filePrintsWith Markup.escape verbose issues p
            (inFile p (Finding.sorted fs))) ↔
      ∀ t ∈ insertedIn verbose issues fs, Markup.IsPlain t := by
  rw [flatMap_eq_flatMap_iff fun p => (length_filePrintsWith Markup.escape p _).symm]
  simp only [filePrintsWith_eq_iff]
  constructor
  · intro h t ht
    obtain ⟨file, hfile, ht⟩ := exists_mem_insertedIn_inFile_iff.2 ht
    exact h file hfile t ht
  · intro h file hfile t ht
    exact h t (exists_mem_insertedIn_inFile_iff.1 ⟨file, hfile, ht⟩)

/-- **A report is the escaped one exactly when there is nothing to be mistaken in what it puts in
as it is.** And it is worth escaping: no tag in an escaped text takes effect. -/
theorem prints_eq_escaped_iff (fs : List Finding) (analyzed : List Path) (verbose : Bool)
    (issues : List Issue) :
    (prints fs analyzed verbose issues = printsWith Markup.escape fs analyzed verbose issues ↔
        ∀ t ∈ insertedTexts fs analyzed verbose issues, Markup.IsPlain t) ∧
      ∀ t, Markup.tags (Markup.escape t) = [] := by
  refine ⟨?_, Markup.tags_escape⟩
  have hfound := @flatMap_filePrintsWith_eq_iff issues verbose fs
  have hsummary := fileSummaryWith_eq_iff fs (analyzed.map Path.toString)
  rw [← printsWith_id, insertedTexts, List.forall_mem_append, ← hfound]
  by_cases hfiles : analyzed = []
  · subst hfiles
    by_cases hfs : fs = []
    · simp [printsWith, hfs, filesOf, Finding.sorted]
    · simp [printsWith, hfs]
  · rw [← hsummary]
    by_cases hfs : fs = []
    · simp [printsWith, hfs, hfiles, filesOf, Finding.sorted]
    · simp only [printsWith, List.isEmpty_iff, List.map_eq_nil_iff, hfs, hfiles, if_false,
        List.append_cancel_right_eq]
      constructor
      · intro h
        exact List.append_inj' h rfl
      · rintro ⟨heq, hrows⟩
        rw [heq, hrows]

end Report

end CallbackLint
