import CallbackLint.Proofs.Relisting
import Mathlib.Data.List.Sort
/-!
# The files that a walk collects

What a walk has to collect is told by look-ups in the file tree: a Java file that passes, below
folders that can be listed and are not ignored (`Wanted`). What it does collect is told by the
folders it comes through (`Shows`). The two are compared one step down at a time: a file is wanted
from a folder exactly if it is wanted from the folder on the way to it (`Wanted.up`,
`Wanted.down`).

The collected list is strictly ascending, so it is fixed by the files in it
(`exists_collect_ofFilter`). What does not matter to look-up therefore does not matter to the list
either, and that gives the rest of the main statement (`collect_exactly`): the order in which
folders list their entries does not count, and a folder that cannot be listed hides the files below
it and no others.
-/

namespace CallbackLint

namespace Walk

open Entry

variable {ignored : List String} {passes : Place → Bool}

/-- The walk that ignores folders of some names, keeps the files that pass, and follows no
links. -/
def ofFilter (ignored : List String) (passes : Place → Bool) : Walk where
  ignored := ignored
  keep p := .ok (passes p)

/-- A file that a walk from the folder at `start` has to collect. -/
structure Wanted (ignored : List String) (passes : Place → Bool) (fs : Entry) (start p : Place) :
    Prop where
  /-- It is a file, by the ending of its name a Java file. -/
  isJava : ∃ name content, fs.lookup p = some (.file name content) ∧
    Text.lower (Path.suffixOf name) = ".java"
  passed : passes p = true
  inside : start <+: p
  /-- The name of the folder that the walk starts from is not looked at. -/
  startListable : ∃ name, fs.ListableAt start name
  /-- What lies between is a folder, not a link to one, which is listable and not ignored. -/
  between : ∀ mid, start <+: mid → mid <+: p → mid ≠ start → mid ≠ p →
    ∃ name, fs.ListableAt mid name ∧ name ∉ ignored

/-! ## One folder -/

/-- The Java files that can be reached from a folder, by the names on the way: listable folders
show their files, and what the folders in them show unless these are ignored. -/
inductive Shows (ignored : List String) : Entry → Place → Prop
  | file {name n : String} {content : Bytes} {es : List Entry} :
      .file n content ∈ es → Path.isJavaName n = true → Shows ignored (.folder name true es) [n]
  | folder {name n : String} {listable : Bool} {es ds : List Entry} {rest : Place} :
      .folder n listable ds ∈ es → n ∉ ignored → Shows ignored (.folder n listable ds) rest →
      Shows ignored (.folder name true es) (n :: rest)

/-- What one entry of the folder at `place` contributes. -/
def listed (ignored : List String) (passes : Place → Bool) (place : Place) : Entry → List Place
  | .folder n listable es =>
    if ignored.contains n then []
    else (ofFilter ignored passes).below (place ++ [n]) (.folder n listable es)
  | .file n _ =>
    if Path.isJavaName n && passes (place ++ [n]) then [place ++ [n]] else []
  | .link _ _ => []
  | .special _ => []

/-- A filter that always answers makes every entry count, whatever stands in front of it. -/
theorem among_ofFilter (place : Place) (es : List Entry) :
    (ofFilter ignored passes).among place es = es.flatMap (listed ignored passes place) := by
  induction es with
  | nil => rw [among, List.flatMap_nil]
  | cons e es ih =>
    rw [List.flatMap_cons, ← ih]
    cases e with
    | folder n listable ds =>
      rw [among, listed]
      by_cases hn : n ∈ ignored <;> simp [ignores, ofFilter, hn]
    | file n content =>
      rw [among, listed]
      by_cases hjava : Path.isJavaName n = true
      · by_cases hpass : passes (place ++ [n]) = true <;> simp [ofFilter, hjava, hpass]
      · simp [hjava]
    | link n target => rw [among, listed, List.nil_append]
    | special n => rw [among, listed, List.nil_append]

theorem mem_listed_iff {place p : Place} {e : Entry} :
    p ∈ listed ignored passes place e ↔
      (∃ n content, e = .file n content ∧ Path.isJavaName n = true ∧
        passes (place ++ [n]) = true ∧ p = place ++ [n]) ∨
      ∃ n listable es, e = .folder n listable es ∧ n ∉ ignored ∧
        p ∈ (ofFilter ignored passes).below (place ++ [n]) e := by
  cases e with
  | folder n listable es => by_cases hn : n ∈ ignored <;> simp [listed, hn]
  | file n content => simp [listed, and_assoc]
  | link n target => simp [listed]
  | special n => simp [listed]

/-- **A walk finds what the folders show**, as far as it passes the filter. -/
theorem mem_below_ofFilter {e : Entry} (he : e.DistinctNames) {place p : Place} :
    p ∈ (ofFilter ignored passes).below place e ↔
      ∃ rest, p = place ++ rest ∧ Shows ignored e rest ∧ passes p = true := by
  induction he generalizing place p with
  | folder name listable hnodup hdistinct ih =>
    rename_i es
    rw [below]
    cases listable with
    | false =>
      simp only [Bool.false_eq_true, if_false, List.not_mem_nil, false_iff]
      rintro ⟨rest, -, ⟨⟩, -⟩
    | true =>
      rw [if_pos rfl, among_ofFilter, List.mem_flatMap]
      constructor
      · rintro ⟨d, hd, hp⟩
        obtain ⟨n, content, rfl, hjava, hpass, rfl⟩ | ⟨n, l, ds, rfl, hn, hp⟩ :=
          mem_listed_iff.1 hp
        · exact ⟨[n], rfl, .file hd hjava, hpass⟩
        · obtain ⟨rest, rfl, hshows, hpass⟩ := (ih _ hd).1 hp
          exact ⟨n :: rest, by simp, .folder hd hn hshows, hpass⟩
      · rintro ⟨rest, rfl, hshows, hpass⟩
        cases hshows with
        | file hd hjava => exact ⟨_, hd, mem_listed_iff.2 (.inl ⟨_, _, rfl, hjava, hpass, rfl⟩)⟩
        | folder hd hn hshows =>
          refine ⟨_, hd, mem_listed_iff.2 (.inr ⟨_, _, _, rfl, hn, ?_⟩)⟩
          exact (ih _ hd).2 ⟨_, by simp, hshows, hpass⟩
  | _ =>
    simp only [below, List.not_mem_nil, false_iff]
    rintro ⟨rest, -, ⟨⟩, -⟩

/-- What an entry contributes lies at the place of the entry or below it. -/
theorem prefix_of_mem_listed {place p : Place} {e : Entry} (he : e.DistinctNames)
    (h : p ∈ listed ignored passes place e) : place ++ [e.name] <+: p := by
  obtain ⟨n, content, rfl, -, -, rfl⟩ | ⟨n, l, ds, rfl, -, hp⟩ := mem_listed_iff.1 h
  · exact List.prefix_rfl
  · obtain ⟨rest, rfl, -⟩ := (mem_below_ofFilter he).1 hp
    exact List.prefix_append ..

/-- **No file is found twice.** -/
theorem nodup_below {e : Entry} (he : e.DistinctNames) (place : Place) :
    ((ofFilter ignored passes).below place e).Nodup := by
  induction he generalizing place with
  | folder name listable hnodup hdistinct ih =>
    rename_i es
    rw [below]
    split
    · rw [among_ofFilter, List.nodup_flatMap]
      constructor
      · intro d hd
        cases d with
        | folder n l ds =>
          rw [listed]
          split
          · exact List.nodup_nil
          · exact ih _ hd (place ++ [n])
        | file n content =>
          rw [listed]
          split
          · exact List.nodup_singleton _
          · exact List.nodup_nil
        | link n target => exact List.nodup_nil
        | special n => exact List.nodup_nil
      · -- files of two entries differ in the name of the entry
        refine (List.pairwise_map.1 hnodup).imp_of_mem fun {d d'} hd hd' hne p hp hp' => hne ?_
        have hprefix := prefix_of_mem_listed (hdistinct d hd) hp
        have hprefix' := prefix_of_mem_listed (hdistinct d' hd') hp'
        have hsame := List.prefix_of_prefix_length_le hprefix hprefix' (by simp)
        simpa using hsame
    · exact List.nodup_nil
  | _ =>
    rw [below]
    exact List.nodup_nil

/-! ## One step down -/

section Steps

variable {fs e : Entry} {es : List Entry} {start p rest : Place} {name n : String}
  {listable : Bool}

/-- The entries of the folder at a place are found one name further. -/
theorem lookup_child_iff (hstart : fs.lookup start = some (.folder name listable es))
    (hnodup : (es.map Entry.name).Nodup) :
    fs.lookup (start ++ [n]) = some e ↔ e ∈ es ∧ e.name = n := by
  have hchild : fs.lookup (start ++ [n]) = named? es n := by
    rw [lookup_append, hstart, Option.bind_some, Entry.lookup, entries]
    rcases named? es n with _ | d <;> rfl
  rw [hchild]
  constructor
  · exact fun h => ⟨mem_of_named? h, name_of_named? h⟩
  · rintro ⟨hmem, rfl⟩
    exact named?_of_mem hnodup hmem

theorem eq_of_listableAt (h : fs.ListableAt (start ++ [n]) name) : name = n := by
  obtain ⟨es, hes⟩ := h
  simpa [Entry.name, eq_comm] using getLast?_of_lookup hes (by simp)

theorem length_lt_of_prefix {mid : Place} (h : start <+: mid) (hne : mid ≠ start) :
    start.length < mid.length :=
  lt_of_le_of_ne h.length_le fun hlength => hne (h.eq_of_length hlength).symm

namespace Wanted

/-- A file that is wanted from a folder is wanted from the folder around it. -/
theorem up (h : Wanted ignored passes fs (start ++ [n]) p)
    (hstart : ∃ name, fs.ListableAt start name) (hn : n ∉ ignored) :
    Wanted ignored passes fs start p where
  isJava := h.isJava
  passed := h.passed
  inside := (List.prefix_append start [n]).trans h.inside
  startListable := hstart
  between mid hmid hp hne hne' := by
    by_cases hfirst : mid = start ++ [n]
    · subst hfirst
      obtain ⟨m, hlistable⟩ := h.startListable
      obtain rfl := eq_of_listableAt hlistable
      exact ⟨m, hlistable, hn⟩
    · have hlength := length_lt_of_prefix hmid hne
      have hbelow : start ++ [n] <+: mid :=
        List.prefix_of_prefix_length_le h.inside hp
          (by rw [List.length_append, List.length_singleton]; exact hlength)
      exact h.between mid hbelow hp hfirst hne'

/-- A wanted file further down is wanted from the folder on the way to it. -/
theorem down (h : Wanted ignored passes fs start p) (hin : start ++ [n] <+: p)
    (hne : start ++ [n] ≠ p) : n ∉ ignored ∧ Wanted ignored passes fs (start ++ [n]) p := by
  obtain ⟨m, hlistable, hm⟩ :=
    h.between (start ++ [n]) (List.prefix_append start [n]) hin (by simp) hne
  obtain rfl := eq_of_listableAt hlistable
  refine ⟨hm, h.isJava, h.passed, hin, ⟨m, hlistable⟩, fun mid hmid hp hfirst hne' => ?_⟩
  refine h.between mid ((List.prefix_append start [m]).trans hmid) hp ?_ hne'
  rintro rfl
  simpa using hmid.length_le

end Wanted

/-- **What is shown is wanted**, if it passes. -/
theorem Shows.wanted (h : Shows ignored e rest) (he : e.DistinctNames)
    (hstart : fs.lookup start = some e) (hpass : passes (start ++ rest) = true) :
    Wanted ignored passes fs start (start ++ rest) := by
  induction h generalizing start with
  | file hmem hjava =>
    rename_i name n content es
    cases he with
    | folder _ _ hnodup hdistinct =>
    have hfile : fs.lookup (start ++ [n]) = some (.file n content) :=
      (lookup_child_iff hstart hnodup).2 ⟨hmem, rfl⟩
    refine ⟨⟨n, content, hfile, beq_iff_eq.1 hjava⟩, hpass, List.prefix_append ..,
      ⟨name, es, hstart⟩, fun mid hmid hp hne hne' => ?_⟩
    -- no place lies between a folder and a file in it
    have hlower := length_lt_of_prefix hmid hne
    have hupper := length_lt_of_prefix hp hne'.symm
    rw [List.length_append, List.length_singleton] at hupper
    omega
  | folder hmem hn hshows ih =>
    rename_i name n l es ds rest
    cases he with
    | folder _ _ hnodup hdistinct =>
    have hnext : fs.lookup (start ++ [n]) = some (.folder n l ds) :=
      (lookup_child_iff hstart hnodup).2 ⟨hmem, rfl⟩
    rw [List.append_cons] at hpass ⊢
    exact (ih (hdistinct _ hmem) hnext hpass).up ⟨name, es, hstart⟩ hn

/-- **What is wanted is shown.** -/
theorem Wanted.shows (h : Wanted ignored passes fs start (start ++ rest))
    (he : e.DistinctNames) (hstart : fs.lookup start = some e) : Shows ignored e rest := by
  induction rest generalizing start e with
  | nil =>
    obtain ⟨n, content, hfile, -⟩ := h.isJava
    obtain ⟨name, es, hfolder⟩ := h.startListable
    rw [List.append_nil, hfolder] at hfile
    cases hfile
  | cons n ns ih =>
    obtain ⟨name, es, hfolder⟩ := h.startListable
    obtain rfl : e = .folder name true es := Option.some.inj (hstart.symm.trans hfolder)
    cases he with
    | folder _ _ hnodup hdistinct =>
    obtain ⟨m, content, hfile, hjava⟩ := h.isJava
    cases ns with
    | nil =>
      obtain ⟨hmem, hname⟩ := (lookup_child_iff hstart hnodup).1 hfile
      obtain rfl : m = n := hname
      exact .file hmem (beq_iff_eq.2 hjava)
    | cons k ks =>
      rw [List.append_cons] at h
      obtain ⟨hn, hdown⟩ := h.down (List.prefix_append ..) (by simp)
      obtain ⟨m, ds, hds⟩ := hdown.startListable
      obtain ⟨hmem, hname⟩ := (lookup_child_iff hstart hnodup).1 hds
      obtain rfl : m = n := hname
      exact .folder hmem hn (ih hdown (hdistinct _ hmem) hds)

end Steps

/-! ## Exactly the files that are wanted -/

section Collect

variable {fs fs' : Entry} {path : List String} {name : String} {listable : Bool}
  {es : List Entry} {p q start : Place}

theorem collect_ofFilter
    (hstart : fs.lookup (fs.realPlace [] path) = some (.folder name listable es)) :
    (ofFilter ignored passes).collect fs path =
      .ok ((ofFilter ignored passes).collectBelow (fs.realPlace [] path)
        (.folder name listable es)) := by
  simp only [collect, hstart]
  rfl

/-- **A walk collects the files that are wanted**, in order. -/
theorem exists_collect_ofFilter (ignored : List String) (passes : Place → Bool)
    (hfs : fs.DistinctNames)
    (hstart : fs.lookup (fs.realPlace [] path) = some (.folder name listable es)) :
    ∃ files, (ofFilter ignored passes).collect fs path = .ok files ∧ files.Pairwise (· < ·) ∧
      ∀ p, p ∈ files ↔ Wanted ignored passes fs (fs.realPlace [] path) p := by
  let start := fs.realPlace [] path
  let top : Entry := .folder name listable es
  have htop : top.DistinctNames := hfs.of_lookup hstart
  refine ⟨_, collect_ofFilter hstart, ?_, fun p => ?_⟩
  · have hnodup : ((ofFilter ignored passes).collectBelow start top).Nodup :=
      (List.mergeSort_perm _ _).nodup_iff.2 (nodup_below htop start)
    exact ((pairwise_le_collectBelow _ start top).and hnodup).imp fun h => lt_of_le_of_ne h.1 h.2
  · rw [mem_collectBelow, mem_below_ofFilter htop]
    constructor
    · rintro ⟨rest, rfl, hshows, hpass⟩
      exact hshows.wanted htop hstart hpass
    · intro hwanted
      obtain ⟨rest, rfl⟩ := hwanted.inside
      exact ⟨rest, rfl, hwanted.shows htop hstart, hwanted.passed⟩

namespace Wanted

theorem start_ne (h : Wanted ignored passes fs start p) : start ≠ p := by
  rintro rfl
  obtain ⟨n, content, hfile, -⟩ := h.isJava
  obtain ⟨m, ds, hfolder⟩ := h.startListable
  rw [hfile] at hfolder
  cases hfolder

/-- Every folder from the start down to the file is listable. -/
theorem listableAt (h : Wanted ignored passes fs start p) (hq : start <+: q) (hp : q <+: p)
    (hne : q ≠ p) : ∃ n, fs.ListableAt q n := by
  by_cases hstart : q = start
  · rw [hstart]
    exact h.startListable
  · obtain ⟨n, hn, -⟩ := h.between q hq hp hstart hne
    exact ⟨n, hn⟩

/-- Only the file itself and the folders on the way to it matter. -/
theorem transfer (h : Wanted ignored passes fs start p)
    (hfile : ∀ n content, fs.lookup p = some (.file n content) →
      fs'.lookup p = some (.file n content))
    (hlistable : ∀ q n, q <+: p → q ≠ p → fs.ListableAt q n → fs'.ListableAt q n) :
    Wanted ignored passes fs' start p where
  isJava := by
    obtain ⟨n, content, hp, hjava⟩ := h.isJava
    exact ⟨n, content, hfile n content hp, hjava⟩
  passed := h.passed
  inside := h.inside
  startListable := by
    obtain ⟨n, hn⟩ := h.startListable
    exact ⟨n, hlistable start n h.inside h.start_ne hn⟩
  between mid hmid hp hne hne' := by
    obtain ⟨n, hn, hignored⟩ := h.between mid hmid hp hne hne'
    exact ⟨n, hlistable mid n hp hne' hn, hignored⟩

end Wanted

/-- The order in which folders list their entries does not matter. -/
theorem wanted_reordered_iff (h : Reordered fs fs') (hfs : fs.DistinctNames) :
    Wanted ignored passes fs' start p ↔ Wanted ignored passes fs start p := by
  have hfile : ∀ n content, fs'.lookup p = some (.file n content) ↔
      fs.lookup p = some (.file n content) := fun _ _ => h.lookup_eq_iff hfs nofun
  have hlistable : ∀ q n, fs'.ListableAt q n ↔ fs.ListableAt q n := fun _ _ =>
    h.exists_lookup_iff hfs
  constructor
  · intro hwanted
    exact hwanted.transfer (fun n content => (hfile n content).1)
      (fun q n _ _ => (hlistable q n).1)
  · intro hwanted
    exact hwanted.transfer (fun n content => (hfile n content).2)
      (fun q n _ _ => (hlistable q n).2)

/-- A folder that is closed takes away the files below it and no others. -/
theorem wanted_close_iff (hq : start <+: q) :
    Wanted ignored passes (fs.close q) start p ↔
      Wanted ignored passes fs start p ∧ ¬ (q <+: p ∧ q ≠ p) := by
  have hfile : ∀ n content, (fs.close q).lookup p = some (.file n content) ↔
      fs.lookup p = some (.file n content) := fun _ _ => lookup_close_eq_iff nofun
  constructor
  · intro hwanted
    refine ⟨hwanted.transfer (fun n content => (hfile n content).1)
      (fun _ _ _ _ hn => (listableAt_close_iff.1 hn).2), ?_⟩
    rintro ⟨hp, hne⟩
    obtain ⟨n, hn⟩ := hwanted.listableAt hq hp hne
    exact (listableAt_close_iff.1 hn).1 rfl
  · rintro ⟨hwanted, hbelow⟩
    refine hwanted.transfer (fun n content => (hfile n content).2) fun mid n hp hne hn => ?_
    refine listableAt_close_iff.2 ⟨?_, hn⟩
    rintro rfl
    exact hbelow ⟨hp, hne⟩

end Collect

/-- **A walk collects exactly the right files.** It starts from the folder that a path leads to, in
a tree whose folders have entries of different names, and follows no links. Then it collects a
strictly ascending list, which has no place twice and holds the files that are wanted and no
others.

* The list is the same in whatever order folders list their entries.
* Where a folder at or below the start can no longer be listed, the files below it are missing and
  no others. -/
theorem collect_exactly (ignored : List String) (passes : Place → Bool) {fs : Entry}
    (hfs : fs.DistinctNames) {path : List String} {name : String} {listable : Bool}
    {es : List Entry}
    (hstart : fs.lookup (fs.realPlace [] path) = some (.folder name listable es)) :
    ∃ files, (ofFilter ignored passes).collect fs path = .ok files ∧
      files.Pairwise (· < ·) ∧ files.Nodup ∧
      (∀ p, p ∈ files ↔ Wanted ignored passes fs (fs.realPlace [] path) p) ∧
      (∀ fs', Reordered fs fs' → (ofFilter ignored passes).collect fs' path = .ok files) ∧
      ∀ q, fs.realPlace [] path <+: q →
        (ofFilter ignored passes).collect (fs.close q) path =
          .ok (files.filter fun p => !decide (q <+: p ∧ q ≠ p)) := by
  obtain ⟨files, hfiles, hsorted, hmem⟩ := exists_collect_ofFilter ignored passes hfs hstart
  refine ⟨files, hfiles, hsorted, hsorted.imp ne_of_lt, hmem, fun fs' h => ?_, fun q hq => ?_⟩
  · obtain ⟨es', hstart'⟩ : ∃ es',
        fs'.lookup (fs'.realPlace [] path) = some (.folder name listable es') := by
      rw [h.realPlace_eq hfs]
      exact (h.exists_lookup_iff hfs).2 ⟨es, hstart⟩
    obtain ⟨files', hfiles', hsorted', hmem'⟩ :=
      exists_collect_ofFilter ignored passes (h.distinctNames hfs) hstart'
    have hsame : files' = files := hsorted'.eq_of_mem_iff hsorted fun p => by
      rw [hmem, hmem', h.realPlace_eq hfs, wanted_reordered_iff h hfs]
    rw [hfiles', hsame]
  · obtain ⟨listable', es', hstart'⟩ : ∃ listable' es',
        (fs.close q).lookup ((fs.close q).realPlace [] path) =
          some (.folder name listable' es') := by
      rw [realPlace_close]
      exact exists_lookup_close hstart
    obtain ⟨files', hfiles', hsorted', hmem'⟩ :=
      exists_collect_ofFilter ignored passes (distinctNames_close q hfs) hstart'
    have hsame : files' = files.filter fun p => !decide (q <+: p ∧ q ≠ p) :=
      hsorted'.eq_of_mem_iff (hsorted.filter _) fun p => by
        rw [hmem', realPlace_close, wanted_close_iff hq, List.mem_filter, hmem, Bool.not_eq_true',
          decide_eq_false_iff_not]
    rw [hfiles', hsame]

end Walk

namespace SmallTree

open Entry Walk

/-- A folder with two files in it, the first one a Java file. -/
def inner : Entry := .folder "a" true [.file "A.JAVA" [], .file "x.txt" []]

/-- The same folder with the files in the other order. -/
def innerTurned : Entry := .folder "a" true [.file "x.txt" [], .file "A.JAVA" []]

/-- A folder of build output, and one that cannot be listed. -/
def output : Entry := .folder "build" true [.file "C.java" []]

def locked : Entry := .folder "locked" false [.file "D.java" []]

/-- The entries of a folder of sources, around those of the inner folder. -/
def entriesWith (inner : Entry) : List Entry :=
  [.file "F.java" [], inner, output, .link "L.java" "B.java", locked, .special "E.java",
    .file "B.java" []]

/-- The tree with the sources, and the same tree with everything listed backwards. -/
def tree : Entry := .folder "" true [.folder "src" true (entriesWith inner)]

def treeTurned : Entry := .folder "" true [.folder "src" true (entriesWith innerTurned).reverse]

/-- All files but `F.java` pass. -/
def passes (p : Place) : Bool := p.getLast? != some "F.java"

theorem distinctNames_tree : tree.DistinctNames := by
  have hsources : (Entry.folder "src" true (entriesWith inner)).DistinctNames := by
    refine .folder _ _ (by decide) ?_
    simp only [entriesWith, List.forall_mem_cons]
    refine ⟨.file _ _, .folder _ _ (by decide) ?_, .folder _ _ (by decide) ?_, .link _ _,
      .folder _ _ (by decide) ?_, .special _, .file _ _, nofun⟩
    · exact List.forall_mem_cons.2 ⟨.file _ _, List.forall_mem_singleton.2 (.file _ _)⟩
    · exact List.forall_mem_singleton.2 (.file _ _)
    · exact List.forall_mem_singleton.2 (.file _ _)
  exact .folder _ _ (by decide) (List.forall_mem_singleton.2 hsources)

theorem reordered_tree : Reordered tree treeTurned := by
  have hinner : Reordered inner innerTurned := by
    refine .folder _ _ id ?_ (.swap ..)
    exact List.forall_mem_cons.2 ⟨.file _ _, List.forall_mem_singleton.2 (.file _ _)⟩
  have hfile : ∀ {n l f}, Reordered (.folder n l [.file f []]) (.folder n l [.file f []]) :=
    .folder _ _ id (List.forall_mem_singleton.2 (.file _ _)) (.refl _)
  -- only the inner folder is turned in itself
  let turn (e : Entry) : Entry := if e.name = "a" then innerTurned else e
  have hsources : Reordered (.folder "src" true (entriesWith inner))
      (.folder "src" true (entriesWith innerTurned).reverse) := by
    refine .folder _ _ turn ?_ (List.reverse_perm _).symm
    simp only [entriesWith, List.forall_mem_cons]
    exact ⟨.file _ _, hinner, hfile, .link _ _, hfile, .special _, .file _ _, nofun⟩
  exact .folder _ _ (fun _ => .folder "src" true (entriesWith innerTurned).reverse)
    (List.forall_mem_singleton.2 hsources) (.refl _)

end SmallTree

open Entry Walk SmallTree in
/-- Two files are collected: the others are filtered out, ignored, locked away or no files. With
everything listed backwards they are the same, and the one in the inner folder is missing when
that folder is closed. -/
theorem smallTree_collected :
    tree.DistinctNames ∧
      tree.lookup (tree.realPlace [] ["src"]) = some (.folder "src" true (entriesWith inner)) ∧
      Reordered tree treeTurned ∧
      (ofFilter ["build"] passes).collect tree ["src"] =
        .ok [["src", "B.java"], ["src", "a", "A.JAVA"]] ∧
      (ofFilter ["build"] passes).collect treeTurned ["src"] =
        .ok [["src", "B.java"], ["src", "a", "A.JAVA"]] ∧
      (ofFilter ["build"] passes).collect (tree.close ["src", "a"]) ["src"] =
        .ok [["src", "B.java"]] := by
  have hreal : tree.realPlace [] ["src"] = ["src"] :=
    realPlace_eq_self (e := .folder "src" true (entriesWith inner)) rfl rfl (by decide)
  have hstart : tree.lookup (tree.realPlace [] ["src"]) =
      some (.folder "src" true (entriesWith inner)) := by
    rw [hreal]
    rfl
  obtain ⟨files, hfiles, hsorted, -, -, hturned, hclosed⟩ :=
    collect_exactly ["build"] passes distinctNames_tree hstart
  have hbelow : (ofFilter ["build"] passes).below ["src"]
      (.folder "src" true (entriesWith inner)) = [["src", "a", "A.JAVA"], ["src", "B.java"]] := by
    decide +kernel
  have hlist : files = [["src", "B.java"], ["src", "a", "A.JAVA"]] := by
    refine hsorted.eq_of_mem_iff (by decide +kernel) fun p => ?_
    rw [collect_ofFilter hstart, hreal] at hfiles
    rw [← Except.ok.inj hfiles, mem_collectBelow, hbelow]
    exact (List.Perm.swap ..).mem_iff
  rw [hlist] at hfiles hturned hclosed
  refine ⟨distinctNames_tree, hstart, reordered_tree, hfiles, hturned _ reordered_tree, ?_⟩
  rw [hclosed _ (by rw [hreal]; decide)]
  decide +kernel

end CallbackLint
