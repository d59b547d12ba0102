import CallbackLint.Proofs.Bindings
import CallbackLint.Proofs.DottedName
import Mathlib.Data.List.Basic
/-!
# The import table

The table of a file is filled by one declaration after the other. Here it is read off the
declarations: what each of them binds (`packageName?`, `typeImport?`, `memberImport?`) says what
one step does to the table (`add_eq`), and so what the table of a file is in the end
(`ofTree_eq`).

Whatever the declarations are, every entry comes from one of them (`filledFrom_ofTree`): a type
is bound under the last segment of its full name. Hence the table never changes the end of a
name: a plain name that is looked up (`simple_getD_types`) and a written name that is qualified
(`simple_qualify`) keep their last segment, and qualifying a second time changes nothing
(`qualify_qualify`). The order of the imports counts only where two of them bind the same name
(`get?_ofList_perm`).
-/

namespace CallbackLint

namespace Imports

variable (src : Bytes)

/-! ## What a declaration binds -/

/-- The package that a declaration sets. -/
def packageName? (n : Node) : Option String :=
  if n.kind = "package_declaration" then declaredName? src n else none

/-- The type that a declaration imports, under its last segment. -/
def typeImport? (n : Node) : Option (String × String) :=
  if n.kind = "import_declaration" ∧ n.hasChild "asterisk" = false ∧ n.hasChild "static" = false
  then (declaredName? src n).map fun name => (Name.simple name, name)
  else none

/-- The member that a declaration imports, with its owner. -/
def memberImport? (n : Node) : Option (String × String) :=
  if n.kind = "import_declaration" ∧ n.hasChild "asterisk" = false ∧ n.hasChild "static" = true
  then (declaredName? src n).bind fun name =>
    if Name.qualifier name = "" then none else some (Name.simple name, Name.qualifier name)
  else none

variable {src}

/-- **One declaration**: each part of the table changes by what the declaration binds there. -/
theorem add_eq (t : Imports) (n : Node) :
    add src t n =
      { package := (packageName? src n).or t.package
        types := (typeImport? src n).elim t.types fun e => t.types.put e.1 e.2
        members := (memberImport? src n).elim t.members fun e => t.members.put e.1 e.2 } := by
  rw [add, packageName?, typeImport?, memberImport?]
  rcases hname : declaredName? src n with _ | name
  · by_cases hpackage : n.kind = "package_declaration" <;> simp [hpackage]
  by_cases hpackage : n.kind = "package_declaration"
  · simp [hpackage]
  by_cases himport : n.kind = "import_declaration"
  · by_cases hstar : n.hasChild "asterisk" = true
    · simp [himport, hstar]
    by_cases hstatic : n.hasChild "static" = true
    · by_cases howner : Name.qualifier name = "" <;>
        simp [himport, hstar, hstatic, addMember, howner]
    · simp [himport, hstar, hstatic, addType]
  · simp [hpackage, himport]

/-- **A run of declarations**: the last package that is set holds, and the bindings of types and
of members are made one after the other. -/
theorem foldl_add_eq (t : Imports) (ns : List Node) :
    ns.foldl (add src) t =
      { package := (ns.filterMap (packageName? src)).getLast?.or t.package
        types := (ns.filterMap (typeImport? src)).foldl (fun acc e => acc.put e.1 e.2) t.types
        members :=
          (ns.filterMap (memberImport? src)).foldl (fun acc e => acc.put e.1 e.2) t.members } := by
  induction ns generalizing t with
  | nil => rfl
  | cons n ns ih =>
    have hpackage : ((n :: ns).filterMap (packageName? src)).getLast?.or t.package =
        (ns.filterMap (packageName? src)).getLast?.or ((packageName? src n).or t.package) := by
      rcases hn : packageName? src n with _ | name
      · rw [List.filterMap_cons_none hn, Option.none_or]
      · rw [List.filterMap_cons_some hn, List.getLast?_cons]
        rcases (ns.filterMap (packageName? src)).getLast? with _ | last <;> rfl
    have hfold : ∀ (import? : Node → Option (String × String)) (b : Bindings),
        ((n :: ns).filterMap import?).foldl (fun acc e => acc.put e.1 e.2) b =
          (ns.filterMap import?).foldl (fun acc e => acc.put e.1 e.2)
            ((import? n).elim b fun e => b.put e.1 e.2) := by
      intro import? b
      rcases hn : import? n with _ | e
      · rw [List.filterMap_cons_none hn, Option.elim_none]
      · rw [List.filterMap_cons_some hn, Option.elim_some, List.foldl_cons]
    rw [List.foldl_cons, ih, add_eq, hpackage, hfold, hfold]

/-- **The table of a file**, from its declarations. -/
theorem ofTree_eq (src : Bytes) (root : Node) :
    ofTree src root =
      { package := (root.namedChildren.filterMap (packageName? src)).getLast?
        types := Bindings.ofList (root.namedChildren.filterMap (typeImport? src))
        members := Bindings.ofList (root.namedChildren.filterMap (memberImport? src)) } := by
  rw [ofTree, foldl_add_eq, Option.or_none]
  rfl

/-! ## What every entry comes from -/

/-- The static import of one member. -/
def IsMemberImport (n : Node) : Prop :=
  n.kind = "import_declaration" ∧ n.hasChild "asterisk" = false ∧ n.hasChild "static" = true

/-- Every entry of the table comes from one of the declarations: a type is bound under the last
segment of its full name, and a member under its name to an owner, where the two make up the name
that a static import spells. -/
structure FilledFrom (src : Bytes) (decls : List Node) (t : Imports) : Prop where
  types : ∀ key full, (key, full) ∈ t.types.entries →
    '.' ∉ key.toList ∧ (Name.segments full).getLast? = some key
  members : ∀ key owner, (key, owner) ∈ t.members.entries →
    '.' ∉ key.toList ∧ owner ≠ "" ∧
      ∃ n ∈ decls, IsMemberImport n ∧ declaredName? src n = some (owner ++ "." ++ key)

theorem simple_of_typeImport? {n : Node} {key full : String}
    (h : typeImport? src n = some (key, full)) : Name.simple full = key := by
  rw [typeImport?] at h
  split at h
  · obtain ⟨name, -, hpair⟩ := Option.map_eq_some_iff.1 h
    obtain ⟨hkey, hfull⟩ := Prod.mk.inj hpair
    rw [← hfull, hkey]
  · exact absurd h (by simp)

theorem spells_of_memberImport? {n : Node} {key owner : String}
    (h : memberImport? src n = some (key, owner)) :
    '.' ∉ key.toList ∧ owner ≠ "" ∧ IsMemberImport n ∧
      declaredName? src n = some (owner ++ "." ++ key) := by
  rw [memberImport?] at h
  split at h
  · rename_i himport
    obtain ⟨name, hname, hbind⟩ := Option.bind_eq_some_iff.1 h
    split at hbind
    · exact absurd hbind (by simp)
    · rename_i howner
      obtain ⟨rfl, rfl⟩ := Prod.mk.inj (Option.some.inj hbind)
      refine ⟨Name.dot_notMem_simple name, howner, himport, ?_⟩
      rw [hname, Name.qualifier_append_simple howner]
  · exact absurd h (by simp)

namespace FilledFrom

variable {decls : List Node} {t : Imports}

/-- **One declaration** adds no entry that does not come from it. -/
theorem add (h : FilledFrom src decls t) {n : Node} (hn : n ∈ decls) :
    FilledFrom src decls (Imports.add src t n) := by
  rw [add_eq]
  constructor
  · intro key full hmem
    rcases himport : typeImport? src n with _ | ⟨name, value⟩
    · rw [himport] at hmem
      exact h.types key full hmem
    · rw [himport] at hmem
      rcases Bindings.mem_entries_put hmem with heq | hmem
      · obtain ⟨rfl, rfl⟩ := Prod.mk.inj heq
        rw [Name.getLast?_segments, ← simple_of_typeImport? himport]
        exact ⟨Name.dot_notMem_simple full, rfl⟩
      · exact h.types key full hmem
  · intro key owner hmem
    rcases himport : memberImport? src n with _ | ⟨name, value⟩
    · rw [himport] at hmem
      exact h.members key owner hmem
    · rw [himport] at hmem
      rcases Bindings.mem_entries_put hmem with heq | hmem
      · obtain ⟨rfl, rfl⟩ := Prod.mk.inj heq
        obtain ⟨hdot, howner, hstatic, hname⟩ := spells_of_memberImport? himport
        exact ⟨hdot, howner, n, hn, hstatic, hname⟩
      · exact h.members key owner hmem

/-- **A run of declarations.** -/
theorem foldl_add (h : FilledFrom src decls t) {ns : List Node} (hns : ∀ n ∈ ns, n ∈ decls) :
    FilledFrom src decls (ns.foldl (Imports.add src) t) := by
  induction ns generalizing t with
  | nil => exact h
  | cons n ns ih =>
    rw [List.forall_mem_cons] at hns
    exact ih (h.add hns.1) hns.2

end FilledFrom

/-- **The table of a file is filled from its declarations.** -/
theorem filledFrom_ofTree (src : Bytes) (root : Node) :
    FilledFrom src root.namedChildren (ofTree src root) := by
  have hempty : FilledFrom src root.namedChildren {} := ⟨by simp, by simp⟩
  exact hempty.foldl_add fun n hn => hn

/-! ## Last segments -/

/-- Every type is bound under the last segment of its full name. -/
def BindsBySimpleName (t : Imports) : Prop :=
  ∀ name full, t.types.get? name = some full → Name.simple full = name

/-- **A file binds types under their own last segments.** -/
theorem bindsBySimpleName_ofTree (src : Bytes) (root : Node) :
    (ofTree src root).BindsBySimpleName := by
  intro name full h
  have hlast := ((filledFrom_ofTree src root).types name full (Bindings.mem_entries_of_get? h)).2
  rw [Name.getLast?_segments] at hlast
  exact Option.some.inj hlast

variable {t : Imports}

/-- A plain name keeps its last segment when it is looked up. -/
theorem simple_getD_types (h : t.BindsBySimpleName) (name : String) :
    Name.simple ((t.types.get? name).getD name) = Name.simple name := by
  rcases hget : t.types.get? name with _ | full
  · rfl
  · have hfull : Name.simple full = name := h name full hget
    rw [Option.getD_some, ← hfull, Name.simple_simple]

/-- A written name keeps its last segment when it is qualified. -/
theorem simple_qualify (h : t.BindsBySimpleName) (written : String) :
    Name.simple (t.qualify written) = Name.simple written := by
  rw [qualify]
  split
  · rfl
  · exact simple_getD_types h written

/-- **A name that was qualified is not changed again.** A name that an import gives is dotted, or
it is bound to itself. -/
theorem qualify_qualify (h : t.BindsBySimpleName) (written : String) :
    t.qualify (t.qualify written) = t.qualify written := by
  by_cases hdotted : Name.isQualified (t.qualify written) = true
  · rw [qualify, if_pos hdotted]
  · have hsimple : Name.simple (t.qualify written) = t.qualify written :=
      Name.simple_of_notMem (by simpa [Name.isQualified] using hdotted)
    have hsame : t.qualify written = written := by
      by_cases hwritten : Name.isQualified written = true
      · rw [qualify, if_pos hwritten]
      · rw [← hsimple, simple_qualify h]
        exact Name.simple_of_notMem (by simpa [Name.isQualified] using hwritten)
    rw [hsame, hsame]

/-! ## The order of imports -/

/-- The import declarations of a file. -/
def importNodes (root : Node) : List Node :=
  root.namedChildren.filter (fun n => n.kind == "import_declaration")

/-- Only import declarations import. -/
theorem filterMap_importNodes {import? : Node → Option (String × String)}
    (h : ∀ n, n.kind ≠ "import_declaration" → import? n = none) (root : Node) :
    (importNodes root).filterMap import? = root.namedChildren.filterMap import? := by
  rw [importNodes, List.filterMap_filter]
  refine List.filterMap_congr fun n _ => ?_
  by_cases hn : n.kind = "import_declaration"
  · simp [hn]
  · simp [hn, h n hn]

/-- Imports that bind different names can be listed in any order. -/
theorem get?_ofList_perm {import? : Node → Option (String × String)}
    (h : ∀ n, n.kind ≠ "import_declaration" → import? n = none) {root root' : Node}
    (hperm : (importNodes root).Perm (importNodes root'))
    (hkeys : (((importNodes root).filterMap import?).map Prod.fst).Nodup) (name : String) :
    (Bindings.ofList (root'.namedChildren.filterMap import?)).get? name =
      (Bindings.ofList (root.namedChildren.filterMap import?)).get? name := by
  have hpairs := hperm.filterMap import?
  have hkeys' := (hpairs.map Prod.fst).nodup_iff.1 hkeys
  rw [← filterMap_importNodes h, ← filterMap_importNodes h, Bindings.get?_ofList,
    Bindings.get?_ofList, Bindings.lookup_reverse_of_nodup hkeys',
    Bindings.lookup_reverse_of_nodup hkeys, Bindings.lookup_perm hpairs hkeys]

/-- **The import table.** Every entry comes from an import of the file; so a name that is
qualified keeps its last segment and is not changed when it is qualified again. And where no two
imports of one sort bind the same name, their order does not matter to any look-up. -/
theorem ofTree_lookups (src : Bytes) (root : Node) :
    FilledFrom src root.namedChildren (ofTree src root) ∧
    (∀ written, (ofTree src root).qualify ((ofTree src root).qualify written) =
        (ofTree src root).qualify written ∧
      Name.simple ((ofTree src root).qualify written) = Name.simple written) ∧
    ∀ root', (importNodes root).Perm (importNodes root') →
      (((importNodes root).filterMap (typeImport? src)).map Prod.fst).Nodup →
      (((importNodes root).filterMap (memberImport? src)).map Prod.fst).Nodup →
      ∀ name,
        (ofTree src root').types.get? name = (ofTree src root).types.get? name ∧
        (ofTree src root').members.get? name = (ofTree src root).members.get? name := by
  have hbinds := bindsBySimpleName_ofTree src root
  refine ⟨filledFrom_ofTree src root,
    fun written => ⟨qualify_qualify hbinds written, simple_qualify hbinds written⟩, ?_⟩
  intro root' hperm htypes hmembers name
  rw [ofTree_eq, ofTree_eq]
  exact ⟨get?_ofList_perm (fun n hn => by simp [typeImport?, hn]) hperm htypes name,
    get?_ofList_perm (fun n hn => by simp [memberImport?, hn]) hperm hmembers name⟩

end Imports

namespace ReorderedImports

/-- A type import with space in its name, a static import, and an import on demand. -/
def src : Bytes :=
  Utf8.encode "import a . B;import static c.D.e;import x.*;"

def typeImport : Node :=
  .mk "import_declaration" 0 13 true none [.mk "scoped_identifier" 7 12 true none []]

def memberImport : Node :=
  .mk "import_declaration" 13 33 true none
    [.mk "static" 20 26 false none [], .mk "scoped_identifier" 27 32 true none []]

def starImport : Node :=
  .mk "import_declaration" 33 44 true none
    [.mk "identifier" 40 41 true none [], .mk "asterisk" 42 43 true none []]

def root : Node := .mk "program" 0 44 true none [typeImport, memberImport, starImport]

/-- The imports in the opposite order. -/
def root' : Node := .mk "program" 0 44 true none [starImport, memberImport, typeImport]

theorem importNodes_perm : (Imports.importNodes root).Perm (Imports.importNodes root') :=
  (List.reverse_perm [typeImport, memberImport, starImport]).symm

end ReorderedImports

open ReorderedImports Imports in
/-- In either order `B` stands for `a.B` and `e` belongs to `c.D`. -/
theorem reorderedImports_lookups :
    (importNodes root).Perm (importNodes root') ∧
      (((importNodes root).filterMap (typeImport? src)).map Prod.fst).Nodup ∧
      (((importNodes root).filterMap (memberImport? src)).map Prod.fst).Nodup ∧
      (ofTree src root').types.get? "B" = some "a.B" ∧
      (ofTree src root').members.get? "e" = some "c.D" ∧
      (ofTree src root).qualify ((ofTree src root).qualify "B") = "a.B" ∧
      ∃ n ∈ root.namedChildren, IsMemberImport n ∧
        declaredName? src n = some ("c.D" ++ "." ++ "e") := by
  have htypes : (((importNodes root).filterMap (typeImport? src)).map Prod.fst).Nodup := by
    decide +kernel
  have hmembers : (((importNodes root).filterMap (memberImport? src)).map Prod.fst).Nodup := by
    decide +kernel
  have htype : (ofTree src root).types.get? "B" = some "a.B" := by decide +kernel
  have hmember : (ofTree src root).members.get? "e" = some "c.D" := by decide +kernel
  have hqualified : (ofTree src root).qualify "B" = "a.B" := by decide +kernel
  obtain ⟨hfilled, hqualify, hlookups⟩ := ofTree_lookups src root
  have hsame := hlookups root' importNodes_perm htypes hmembers
  refine ⟨importNodes_perm, htypes, hmembers, ?_, ?_, ?_, ?_⟩
  · rw [(hsame "B").1, htype]
  · rw [(hsame "e").2, hmember]
  · rw [(hqualify "B").1, hqualified]
  · exact (hfilled.members "e" "c.D" (Bindings.mem_entries_of_get? hmember)).2.2

end CallbackLint
