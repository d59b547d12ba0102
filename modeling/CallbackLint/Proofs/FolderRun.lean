import CallbackLint.Proofs.FileTree
import CallbackLint.Proofs.Pool
import CallbackLint.Proofs.ReportTotals
/-!
# Analysing a folder

A folder is analysed by way of the places of its Java files below it, and a file by way of its
own place. Both come to the same bytes under the same path, so the findings in a folder are
those of its files, each analysed alone, one after the other in the order of the places, and the
run on the folder fails exactly when one of the runs on the files does.
-/

namespace CallbackLint

/-- The findings in some files are those in each, one after the other. -/
theorem Analysis.findings_map {α : Type*} (rules : List Rule) (load : α → Option SourceFile)
    (l : List α) : findings rules (l.map load) = l.flatMap fun a => findings rules [load a] := by
  simp only [findings_eq_flatMap, List.flatMap_map, List.flatMap_singleton]

namespace CommandLine

namespace Request

variable (r : Request)

/-- The files that a request has analysed and the findings in them, one file after the other,
given what was found at the path of the target. -/
def analysis (path : Path) (target : Option Entry) : Except UsageFault (List Path × List Finding) :=
  (r.filesOf path target).map fun places =>
    (places.map (pathOf path),
      Analysis.findings r.rules (places.map (fileAt path (target.getD (.special "")))))

/-- A run is an analysis and then what is made of it. -/
theorem run_eq_map_analysis (path : Path) (target : Option Entry) :
    r.run path target = (r.analysis path target).map fun a => r.outcomeOf a.1 a.2 := by
  rw [run, analysis]
  cases r.filesOf path target <;> rfl

/-- The place in a tree that the target of a request leads to. -/
def targetPlace (root : Entry) : Place :=
  root.realPlace [] (Path.partsOf r.target)

/-- The analysis in a tree. -/
def analysisIn (root : Entry) : Except UsageFault (List Path × List Finding) :=
  r.analysis { parts := r.targetPlace root } (root.lookup (r.targetPlace root))

/-- The outcome in a tree. -/
def outcomeIn (root : Entry) : Except UsageFault Outcome :=
  r.run { parts := r.targetPlace root } (root.lookup (r.targetPlace root))

/-- The findings in the file at a place, analysed alone. -/
def findingsAt (root : Entry) (place : Place) : List Finding :=
  Analysis.findings r.rules [(root.read? place).map (SourceFile.parse { parts := place })]

/-- The same request for another target. -/
def on (place : Place) : Request :=
  { r with target := Place.toString place }

end Request

/-- A run with arguments is the run of the request they make. -/
theorem runIn_eq_bind (root : Entry) (args : List String) :
    runIn root args = (parse args).bind fun r => r.outcomeIn root := by
  rw [runIn]
  cases parse args <;> rfl

namespace Request

variable {r : Request} {root : Entry} {place : Place}

/-- Where an analysis goes through, the run does, and it exits by the findings. -/
theorem exit_outcomeIn {files : List Path} {fs : List Finding}
    (h : r.analysisIn root = .ok (files, fs)) :
    ∃ outcome, r.outcomeIn root = .ok outcome ∧ outcome.exit = exitStatus fs := by
  rw [analysisIn] at h
  refine ⟨r.outcomeOf files fs, ?_, outcomeOf_exit r files fs⟩
  rw [outcomeIn, run_eq_map_analysis, h]
  rfl

/-! ## One file -/

/-- No step up is on the way to an entry. -/
theorem up_notMem_of_lookup {e : Entry} (hroot : root.Named) (h : root.lookup place = some e) :
    ".." ∉ place :=
  fun hup => (hroot.isName_of_lookup h ".." hup).ne_up rfl

/-- A request for the place of an entry leads to that place, unless a link stands there. -/
theorem targetPlace_on {e : Entry} (hroot : root.Named) (h : root.lookup place = some e)
    (he : e.isLink = false) : (r.on place).targetPlace root = place := by
  have hnormal : Path.Normal { parts := place } :=
    ⟨.inl rfl, fun s hs => (hroot.isName_of_lookup h s hs).toIsPart⟩
  have hparts : Path.partsOf (Place.toString place) = place :=
    congrArg Path.parts (Path.ofString_toString hnormal)
  rw [targetPlace, on, hparts, Entry.realPlace_eq_self h he (up_notMem_of_lookup hroot h)]

/-- **A Java file that is there is accepted as a target**, and it alone is analysed. -/
theorem analysisIn_on {n : String} {content : Bytes} (hroot : root.Named) (hextra : r.extra = [])
    (hplace : place ≠ []) (h : root.lookup place = some (.file n content))
    (hjava : Path.isJavaName n = true) :
    (r.on place).analysisIn root = .ok ([{ parts := place }], r.findingsAt root place) := by
  have hname : Path.isJava { parts := place } = true := by
    rw [Path.isJava, Path.name, Entry.getLast?_of_lookup h hplace]
    exact hjava
  have hread := Entry.read?_eq_some h (up_notMem_of_lookup hroot h)
  have hown : (Entry.file n content).read? [] = some content := Entry.read?_eq_some rfl (by simp)
  have hextra' : (r.on place).extra = [] := hextra
  have hrules : (r.on place).rules = r.rules := rfl
  rw [analysisIn, targetPlace_on hroot h rfl, h, analysis, filesOf, findingsAt, hread]
  simp [hextra', hname, hrules, fileAt, hown, pathOf, Except.map]

/-! ## A folder -/

variable {name : String} {listable : Bool} {es : List Entry}

/-- The places of the Java files below the folder at a place. -/
def placesIn (place : Place) (folder : Entry) : List Place :=
  Walk.collectBelow { ignored := Walk.defaultIgnored } place folder

/-- The places below a folder are those inside it, behind the place of the folder. -/
theorem placesIn_eq_map (place : Place) (folder : Entry) :
    placesIn place folder = (placesIn [] folder).map (place ++ ·) := by
  rw [placesIn, placesIn, ← Walk.collectBelow_append fun _ => rfl, List.append_nil]

/-- The files of a folder are collected below the place that the target leads to. -/
theorem collect_eq (h : root.lookup (r.targetPlace root) = some (.folder name listable es)) :
    Walk.collect { ignored := Walk.defaultIgnored } root (Path.partsOf r.target) =
      .ok (placesIn (r.targetPlace root) (.folder name listable es)) := by
  rw [targetPlace] at h ⊢
  rw [Walk.collect, h]
  rfl

/-- At each of these places there is a Java file. -/
theorem lookup_of_mem_placesIn {folder : Entry} {p : Place} (hroot : root.Named)
    (h : root.lookup place = some folder) (hp : p ∈ placesIn place folder) :
    ∃ n content, root.lookup p = some (.file n content) ∧ p ≠ [] ∧
      Path.isJavaName n = true := by
  obtain ⟨rest, n, content, rfl, hne, hlookup, hjava⟩ :=
    Walk.lookup_of_mem_below (hroot.of_lookup h) (Walk.mem_collectBelow.1 hp)
  refine ⟨n, content, ?_, by simp [hne], hjava⟩
  rw [Entry.lookup_append, h]
  exact hlookup

/-- **The findings in a folder** are those of its files, each analysed alone. -/
theorem analysisIn_folder (hroot : root.Named) (hextra : r.extra = [])
    (h : root.lookup (r.targetPlace root) = some (.folder name listable es)) :
    r.analysisIn root =
      .ok ((placesIn (r.targetPlace root) (.folder name listable es)).map fun p => { parts := p },
        (placesIn (r.targetPlace root) (.folder name listable es)).flatMap
          (r.findingsAt root)) := by
  have hfiles : r.filesOf { parts := r.targetPlace root } (some (.folder name listable es)) =
      .ok (placesIn [] (.folder name listable es)) := by
    simp [filesOf, hextra, placesIn]
  rw [analysisIn, h, analysis, hfiles, placesIn_eq_map (r.targetPlace root), List.map_map,
    List.flatMap_map]
  refine congrArg Except.ok (Prod.ext rfl
    ((Analysis.findings_map _ _ _).trans (List.flatMap_congr fun rest hrest => ?_)))
  -- The file is read from the folder in the one run and from the root in the other.
  have hnamed := hroot.of_lookup h
  obtain ⟨n, content, hfolder, -, -⟩ := lookup_of_mem_placesIn hnamed rfl hrest
  have hlookup : root.lookup (r.targetPlace root ++ rest) = some (.file n content) := by
    rw [Entry.lookup_append, h]
    exact hfolder
  rw [findingsAt, Entry.read?_eq_some hlookup (up_notMem_of_lookup hroot hlookup), fileAt,
    Option.getD_some, Entry.read?_eq_some hfolder (up_notMem_of_lookup hnamed hfolder)]
  rfl

/-- Findings from several sources make a run fail where those from one of them do. -/
theorem exitStatus_flatMap {α : Type*} (l : List α) (fs : α → List Finding) :
    exitStatus (l.flatMap fs) = 1 ↔ ∃ a ∈ l, exitStatus (fs a) = 1 := by
  simp only [exitStatus_eq_one_iff, List.mem_flatMap]
  constructor
  · rintro ⟨f, ⟨a, ha, hf⟩, herror⟩
    exact ⟨a, ha, f, hf, herror⟩
  · rintro ⟨a, ha, f, hf, herror⟩
    exact ⟨f, ⟨a, ha, hf⟩, herror⟩

end Request

end CommandLine

open CommandLine in
/-- **Analysing a folder is analysing its files.** Every file that the walk collects is accepted
as a target; the findings in the folder are those in the files, one file after the other in the
order of the places; and the run on the folder, which is that of any command line that makes
the request, exits with one exactly when the run on one of the files does. -/
theorem folder_analysed_as_files {root : Entry} (hroot : root.Named) {r : Request}
    (hextra : r.extra = []) {name : String} {listable : Bool} {es : List Entry}
    (htarget : root.lookup (r.targetPlace root) = some (.folder name listable es)) :
    ∃ (places : List Place) (findingsOf : Place → List Finding),
      Walk.collect { ignored := Walk.defaultIgnored } root (Path.partsOf r.target) = .ok places ∧
      places.Pairwise (· ≤ ·) ∧
      (∀ p ∈ places, (r.on p).analysisIn root = .ok ([{ parts := p }], findingsOf p)) ∧
      r.analysisIn root = .ok (places.map fun p => { parts := p }, places.flatMap findingsOf) ∧
      ∃ outcome, r.outcomeIn root = .ok outcome ∧
        (∀ args, parse args = .ok r → runIn root args = .ok outcome) ∧
        (outcome.exit = 1 ↔
          ∃ p ∈ places, ∃ single, (r.on p).outcomeIn root = .ok single ∧ single.exit = 1) := by
  have hsingle : ∀ p ∈ Request.placesIn (r.targetPlace root) (.folder name listable es),
      (r.on p).analysisIn root = .ok ([{ parts := p }], r.findingsAt root p) := by
    intro p hp
    obtain ⟨n, content, hlookup, hne, hjava⟩ := Request.lookup_of_mem_placesIn hroot htarget hp
    exact Request.analysisIn_on hroot hextra hne hlookup hjava
  have hfolder := Request.analysisIn_folder hroot hextra htarget
  refine ⟨Request.placesIn (r.targetPlace root) (.folder name listable es), r.findingsAt root,
    Request.collect_eq htarget, Walk.pairwise_le_collectBelow _ _ _, hsingle, hfolder, ?_⟩
  obtain ⟨outcome, houtcome, hexit⟩ := Request.exit_outcomeIn hfolder
  have hcommand : ∀ args, parse args = .ok r → runIn root args = .ok outcome := by
    intro args hargs
    rw [runIn_eq_bind, hargs]
    exact houtcome
  refine ⟨outcome, houtcome, hcommand, ?_⟩
  rw [hexit, Request.exitStatus_flatMap]
  refine exists_congr fun p => and_congr_right fun hp => ?_
  obtain ⟨single, hrun, hone⟩ := Request.exit_outcomeIn (hsingle p hp)
  rw [← hone]
  constructor
  · intro h
    exact ⟨single, hrun, h⟩
  · rintro ⟨other, hother, h⟩
    rw [hrun] at hother
    rwa [Except.ok.inj hother]

namespace SmallProject

/-- A class that has to forward and does not. -/
def silent : Bytes :=
  "@RuntimePermissions class B{void onRequestPermissionsResult(){}}".toUTF8.toList

/-- A folder of sources, with a folder and a text in it. -/
def sources : Entry :=
  .folder "src" true
    [.file "B.java" silent, .file "notes.txt" [],
      .folder "a" true [.file "A.JAVA" "class A{}".toUTF8.toList]]

/-- A tree with these sources and the output of a build. -/
def root : Entry :=
  .folder "" true [.folder "build" true [.file "C.java" silent], sources]

/-- The request to analyse the folder of sources. -/
def request : CommandLine.Request where
  target := "./src/"

theorem named_sources : sources.Named := by
  refine .folder _ _ (by decide) (by decide) (List.forall_mem_cons.2 ⟨.file _ _,
    List.forall_mem_cons.2 ⟨.file _ _, List.forall_mem_singleton.2 ?_⟩⟩)
  exact .folder _ _ (by decide) (by decide) (List.forall_mem_singleton.2 (.file _ _))

theorem named_root : root.Named := by
  refine .folder _ _ (by decide) (by decide)
    (List.forall_mem_cons.2 ⟨?_, List.forall_mem_singleton.2 named_sources⟩)
  exact .folder _ _ (by decide) (by decide) (List.forall_mem_singleton.2 (.file _ _))

theorem targetPlace_request : request.targetPlace root = ["src"] :=
  Entry.realPlace_eq_self (e := sources) rfl rfl (by decide)

end SmallProject

open CommandLine SmallProject in
/-- Two files are collected, not the one among the output of the build; the run on the folder
fails because of one of them. -/
theorem smallProject_analysed_as_files :
    root.Named ∧ root.lookup (request.targetPlace root) = some sources ∧
      ∃ places, Walk.collect { ignored := Walk.defaultIgnored } root
          (Path.partsOf request.target) = .ok places ∧
        places.Perm [["src", "B.java"], ["src", "a", "A.JAVA"]] ∧
        ∃ outcome, request.outcomeIn root = .ok outcome ∧ outcome.exit = 1 := by
  have hextra : request.extra = [] := rfl
  have htarget : root.lookup (request.targetPlace root) = some sources := by
    rw [targetPlace_request]
    rfl
  obtain ⟨places, -, hcollect, -, -, -, outcome, hrun, -, hexit⟩ :=
    folder_analysed_as_files named_root hextra htarget
  have hplaces : places.Perm [["src", "B.java"], ["src", "a", "A.JAVA"]] := by
    rw [Request.collect_eq htarget, targetPlace_request] at hcollect
    rw [← Except.ok.inj hcollect]
    exact List.mergeSort_perm _ _
  have hfile : root.lookup ["src", "B.java"] = some (.file "B.java" silent) := rfl
  have hmem : ["src", "B.java"] ∈ places := hplaces.mem_iff.2 List.mem_cons_self
  have hjava : Path.isJavaName "B.java" = true := by decide +kernel
  obtain ⟨single, hone, hstatus⟩ :=
    Request.exit_outcomeIn (Request.analysisIn_on named_root hextra (by decide) hfile hjava)
  refine ⟨named_root, htarget, places, hcollect, hplaces, outcome, hrun,
    hexit.2 ⟨_, hmem, single, hone, ?_⟩⟩
  rw [hstatus, Request.findingsAt, Entry.read?_eq_some hfile (by decide)]
  decide +kernel

end CallbackLint
