import CallbackLint.Proofs.FileTree
import Mathlib.Data.List.Find
/-!
# File trees listed otherwise

Two ways in which a file tree can be shown that do not change what is where. A folder can list its
entries in another order (`Reordered`), and a folder can stop listing them (`close`). Neither
matters to look-up as long as the entries of a folder have different names (`DistinctNames`): at
every place there is the same as before, but for the flag of the folder that was closed
(`Reordered.face_lookup`, `face_lookup_close`). Hence neither matters to where a path leads
(`Reordered.realPlace_eq`, `realPlace_close`).
-/

namespace CallbackLint

namespace Entry

/-- The entries of a folder have different names, in every folder of the tree. -/
inductive DistinctNames : Entry → Prop
  | file (name : String) (content : Bytes) : DistinctNames (.file name content)
  | link (name target : String) : DistinctNames (.link name target)
  | special (name : String) : DistinctNames (.special name)
  | folder (name : String) (listable : Bool) {es : List Entry} :
      (es.map Entry.name).Nodup → (∀ e ∈ es, e.DistinctNames) →
      DistinctNames (.folder name listable es)

/-- Distinct names are distinct further down. -/
theorem DistinctNames.of_lookup {root e : Entry} {p : Place} (hroot : root.DistinctNames)
    (h : root.lookup p = some e) : e.DistinctNames := by
  induction p generalizing root with
  | nil => rwa [← Option.some.inj h]
  | cons n ns ih =>
    rw [lookup] at h
    split at h
    · rename_i d hd
      cases hroot with
      | folder name listable hnodup hdistinct => exact ih (hdistinct d (mem_of_named? hd)) h
      | _ => exact absurd (mem_of_named? hd) List.not_mem_nil
    · cases h

/-- The same tree, with the entries of each folder in some other order. -/
inductive Reordered : Entry → Entry → Prop
  | file (name : String) (content : Bytes) : Reordered (.file name content) (.file name content)
  | link (name target : String) : Reordered (.link name target) (.link name target)
  | special (name : String) : Reordered (.special name) (.special name)
  | folder (name : String) (listable : Bool) {es ds : List Entry} (turn : Entry → Entry) :
      (∀ e ∈ es, Reordered e (turn e)) → (es.map turn).Perm ds →
      Reordered (.folder name listable es) (.folder name listable ds)

/-- The tree with the folder at a place no longer listable. -/
def close : Place → Entry → Entry
  | [], .folder name _ es => .folder name false es
  | n :: ns, .folder name listable es =>
    .folder name listable (es.map fun e => if e.name = n then close ns e else e)
  | _, e => e

/-- An entry without what is in it. -/
def face : Entry → Entry
  | .folder name listable _ => .folder name listable []
  | e => e

variable {root root' e e' : Entry} {es ds : List Entry} {p q : Place} {n : String}

/-! ## Look-up sees faces -/

/-- An entry other than a folder is all face. -/
theorem face_eq_iff {x : Entry} (hx : ∀ n listable es, x ≠ .folder n listable es) :
    e.face = x ↔ e = x := by
  cases e with
  | folder n listable es =>
    have hface : Entry.folder n listable [] ≠ x := fun h => hx n listable [] h.symm
    have hself : Entry.folder n listable es ≠ x := fun h => hx n listable es h.symm
    simp [face, hface, hself]
  | _ => rfl

/-- The face of a folder is that of a folder with other entries. -/
theorem face_eq_folder_iff {listable : Bool} :
    e.face = .folder n listable [] ↔ ∃ es, e = .folder n listable es := by
  cases e <;> simp [face]

section Edits

variable {edit : Entry → Entry}

/-- Entries edited under their names keep the list of names. -/
theorem map_name_map (hname : ∀ e ∈ es, (edit e).name = e.name) :
    (es.map edit).map Entry.name = es.map Entry.name := by
  rw [List.map_map]
  exact List.map_congr_left hname

/-- Where names are kept, the entry of a name is the edited one of that name. -/
theorem named?_map (hname : ∀ e ∈ es, (edit e).name = e.name) (n : String) :
    named? (es.map edit) n = (named? es n).map edit := by
  rw [named?, named?, List.find?_map]
  refine congrArg _ (List.find?_congr fun e he => ?_)
  rw [Function.comp_apply, hname e he]

end Edits

/-- With different names the order of the entries does not matter. -/
theorem named?_perm (h : es.Perm ds) (hnodup : (es.map Entry.name).Nodup) (n : String) :
    named? es n = named? ds n := by
  rcases hn : named? ds n with _ | e
  · rw [named?, List.find?_eq_none] at hn ⊢
    exact fun e he => hn e (h.mem_iff.1 he)
  · rw [← name_of_named? hn]
    exact named?_of_mem hnodup (h.mem_iff.2 (mem_of_named? hn))

/-- A look-up that finds no folder is known by its face. -/
theorem lookup_eq_iff {x : Entry} (hx : ∀ n listable es, x ≠ .folder n listable es) :
    root.lookup p = some x ↔ (root.lookup p).map face = some x := by
  simp [Option.map_eq_some_iff, face_eq_iff hx]

/-- At the place there is a folder of this name that shows what is in it. -/
def ListableAt (root : Entry) (p : Place) (n : String) : Prop :=
  ∃ es, root.lookup p = some (.folder n true es)

/-- And so is one that finds some folder. -/
theorem exists_lookup_iff {listable : Bool} :
    (∃ es, root.lookup p = some (.folder n listable es)) ↔
      (root.lookup p).map face = some (.folder n listable []) := by
  simp only [Option.map_eq_some_iff, face_eq_folder_iff]
  constructor
  · rintro ⟨es, hp⟩
    exact ⟨_, hp, es, rfl⟩
  · rintro ⟨e, hp, es, rfl⟩
    exact ⟨es, hp⟩

/-! ## Folders that list in another order -/

namespace Reordered

/-- In another order an entry has the same name. -/
theorem name_eq (h : Reordered e e') : e'.name = e.name := by
  cases h <;> rfl

/-- And the same face. -/
theorem face_eq (h : Reordered e e') : e'.face = e.face := by
  cases h <;> rfl

/-- Names are distinct in any order. -/
theorem distinctNames (h : Reordered e e') (he : e.DistinctNames) : e'.DistinctNames := by
  induction h with
  | file name content => exact he
  | link name target => exact he
  | special name => exact he
  | folder name listable turn hturn hperm ih =>
    rename_i es ds
    cases he with
    | folder _ _ hnodup hdistinct =>
    refine .folder name listable ?_ fun d hd => ?_
    · rw [← (hperm.map Entry.name).nodup_iff, map_name_map fun e he => (hturn e he).name_eq]
      exact hnodup
    · obtain ⟨e, he, rfl⟩ := List.mem_map.1 (hperm.mem_iff.2 hd)
      exact ih e he (hdistinct e he)

/-- **The entries of one folder**: the one of a name is the same up to the order below it. -/
theorem named?_entries (h : Reordered e e') (he : e.DistinctNames) (n : String) :
    Option.Rel (fun d d' => Reordered d d' ∧ d.DistinctNames) (named? e.entries n)
      (named? e'.entries n) := by
  cases h with
  | folder name listable turn hturn hperm =>
    rename_i es ds
    cases he with
    | folder _ _ hnodup hdistinct =>
    have hname : ∀ e ∈ es, (turn e).name = e.name := fun e he => (hturn e he).name_eq
    have hnodup' : ((es.map turn).map Entry.name).Nodup := by rwa [map_name_map hname]
    rw [entries, entries, ← named?_perm hperm hnodup', named?_map hname]
    rcases hd : named? es n with _ | d
    · exact .none
    · have hmem := mem_of_named? hd
      exact .some ⟨hturn d hmem, hdistinct d hmem⟩
  | _ => exact .none

/-- **Every place shows the same.** -/
theorem face_lookup (h : Reordered root root') (hroot : root.DistinctNames) (p : Place) :
    (root'.lookup p).map face = (root.lookup p).map face := by
  induction p generalizing root root' with
  | nil => exact congrArg some h.face_eq
  | cons n ns ih =>
    have hentries := h.named?_entries hroot n
    rw [lookup, lookup]
    generalize named? root.entries n = found at hentries ⊢
    generalize named? root'.entries n = found' at hentries ⊢
    cases hentries with
    | none => rfl
    | some hd => exact ih hd.1 hd.2

/-- So the same files and links are found. -/
theorem lookup_eq_iff (h : Reordered root root') (hroot : root.DistinctNames) {x : Entry}
    (hx : ∀ n listable es, x ≠ .folder n listable es) :
    root'.lookup p = some x ↔ root.lookup p = some x := by
  rw [Entry.lookup_eq_iff hx, Entry.lookup_eq_iff hx, h.face_lookup hroot]

/-- And there are folders at the same places. -/
theorem exists_lookup_iff (h : Reordered root root') (hroot : root.DistinctNames)
    {listable : Bool} :
    (∃ es, root'.lookup p = some (.folder n listable es)) ↔
      ∃ es, root.lookup p = some (.folder n listable es) := by
  rw [Entry.exists_lookup_iff, Entry.exists_lookup_iff, h.face_lookup hroot]

end Reordered

/-! ## A folder that is closed -/

/-- Closing a folder leaves the names as they are. -/
@[simp] theorem name_close (p : Place) (e : Entry) : (e.close p).name = e.name := by
  cases e <;> cases p <;> rfl

/-- So they are as distinct as before. -/
theorem distinctNames_close (p : Place) (he : e.DistinctNames) : (e.close p).DistinctNames := by
  induction p generalizing e with
  | nil =>
    cases he with
    | folder name listable hnodup hdistinct => exact .folder name false hnodup hdistinct
    | _ => constructor
  | cons n ns ih =>
    cases he with
    | folder name listable hnodup hdistinct =>
      refine .folder name listable ?_ fun d hd => ?_
      · rwa [map_name_map fun e _ => by split <;> simp]
      · obtain ⟨e, he, rfl⟩ := List.mem_map.1 hd
        split
        · exact ih (hdistinct e he)
        · exact hdistinct e he
    | _ => constructor

/-- Closing further down changes one of the entries. -/
theorem entries_close_cons (n : String) (ns : Place) (e : Entry) :
    (e.close (n :: ns)).entries =
      e.entries.map fun d => if d.name = n then d.close ns else d := by
  cases e <;> rfl

/-- Closing a folder itself changes none of its entries. -/
theorem entries_close_nil (e : Entry) : (e.close []).entries = e.entries := by
  cases e <;> rfl

/-- **Every place shows the same**, but for the one that is closed. -/
theorem face_lookup_close (root : Entry) (p q : Place) :
    ((root.close p).lookup q).map face =
      (root.lookup q).map (fun e => if q = p then (e.close []).face else e.face) := by
  induction q generalizing root p with
  | nil =>
    cases p with
    | nil => rfl
    | cons m ms => cases root <;> rfl
  | cons n ns ih =>
    rw [lookup, lookup]
    cases p with
    | nil =>
      rw [entries_close_nil]
      simp
    | cons m ms =>
      rw [entries_close_cons, named?_map fun e _ => by split <;> simp]
      rcases hd : named? root.entries n with _ | d
      · rfl
      · have hname : d.name = n := name_of_named? hd
        by_cases hn : n = m
        · simpa [hname, hn] using ih d ms
        · simp [hname, hn]

/-- Files, links and special entries stay where they are. -/
theorem lookup_close_eq_iff {x : Entry} (hx : ∀ n listable es, x ≠ .folder n listable es) :
    (root.close q).lookup p = some x ↔ root.lookup p = some x := by
  rw [lookup_eq_iff hx, lookup_eq_iff hx, face_lookup_close]
  rcases root.lookup p with _ | e
  · rfl
  · cases e with
    | folder n listable es =>
      have hopen : Entry.folder n listable [] ≠ x := fun h => hx n listable [] h.symm
      have hclosed : Entry.folder n false [] ≠ x := fun h => hx n false [] h.symm
      by_cases hpq : p = q <;> simp [hpq, close, face, hopen, hclosed]
    | _ => simp [close]

/-- A folder stays a folder. -/
theorem exists_lookup_close {listable : Bool} (h : root.lookup p = some (.folder n listable es)) :
    ∃ listable' es', (root.close q).lookup p = some (.folder n listable' es') := by
  have hface : ((root.close q).lookup p).map face =
      some (if p = q then .folder n false [] else .folder n listable []) := by
    rw [face_lookup_close, h]
    rfl
  split at hface
  · exact ⟨false, exists_lookup_iff.2 hface⟩
  · exact ⟨listable, exists_lookup_iff.2 hface⟩

/-- Only the folder at the place itself can no longer be listed. -/
theorem listableAt_close_iff :
    (root.close q).ListableAt p n ↔ p ≠ q ∧ root.ListableAt p n := by
  rw [ListableAt, ListableAt, exists_lookup_iff, face_lookup_close, exists_lookup_iff]
  by_cases hpq : p = q
  · rcases root.lookup p with _ | e
    · simp
    · cases e <;> simp [hpq, close, face]
  · simp only [hpq, if_false, ne_eq, not_false_eq_true, true_and]

/-! ## Where a path leads -/

/-- Links are counted in any order. -/
theorem linkCountAll_perm (h : es.Perm ds) : linkCountAll es = linkCountAll ds := by
  induction h with
  | nil => rfl
  | cons e _ ih => rw [linkCountAll, linkCountAll, ih]
  | swap e d es =>
    simp only [linkCountAll]
    omega
  | trans _ _ ihfirst ihsecond => rw [ihfirst, ihsecond]

/-- An edit that keeps the links of each entry keeps their number. -/
theorem linkCountAll_map {edit : Entry → Entry}
    (h : ∀ e ∈ es, (edit e).linkCount = e.linkCount) :
    linkCountAll (es.map edit) = linkCountAll es := by
  induction es with
  | nil => rfl
  | cons e es ih =>
    have hfirst : (edit e).linkCount = e.linkCount := h e List.mem_cons_self
    have hrest := ih fun d hd => h d (List.mem_cons_of_mem e hd)
    rw [List.map_cons, linkCountAll, linkCountAll, hfirst, hrest]

/-- So there are as many links in another order. -/
theorem Reordered.linkCount_eq (h : Reordered e e') : e'.linkCount = e.linkCount := by
  induction h with
  | folder name listable turn hturn hperm ih =>
    rw [linkCount, linkCount, ← linkCountAll_perm hperm, linkCountAll_map ih]
  | _ => rfl

/-- And as many with a folder closed. -/
theorem linkCount_close (p : Place) (e : Entry) : (e.close p).linkCount = e.linkCount := by
  induction p generalizing e with
  | nil => cases e <;> rfl
  | cons n ns ih =>
    cases e with
    | folder name listable es =>
      rw [close, linkCount, linkCount]
      refine linkCountAll_map fun d _ => ?_
      split
      · exact ih d
      · rfl
    | _ => rfl

/-- Links are followed alike in trees that have the same links. -/
theorem follow_congr
    (h : ∀ p n target,
      root'.lookup p = some (.link n target) ↔ root.lookup p = some (.link n target))
    (active : List Place) (hops : Nat) (done : Place) (ns : List String) :
    root'.follow active hops done ns = root.follow active hops done ns := by
  fun_induction follow root active hops done ns with
  | case1 active hops done => rw [follow]
  | case2 active hops done n ns hup ih => rw [follow, if_pos hup, ih]
  | case3 active hops done n ns hup name target hlink hactive =>
    rw [follow, if_neg hup, (h _ _ _).2 hlink]
    simp only [hactive, if_true]
  | case4 active done n ns hup name target hlink hactive =>
    rw [follow, if_neg hup, (h _ _ _).2 hlink]
    simp only [hactive, if_false, Bool.false_eq_true]
  | case5 active done n ns hup name target hlink hactive hops place hfollow ihtarget ihrest =>
    rw [follow, if_neg hup, (h _ _ _).2 hlink]
    simp only [hactive, if_false, Bool.false_eq_true, ihtarget, hfollow, ihrest]
  | case6 active done n ns hup name target hlink hactive hops place hfollow ihtarget =>
    rw [follow, if_neg hup, (h _ _ _).2 hlink]
    simp only [hactive, if_false, Bool.false_eq_true, ihtarget, hfollow]
  | case7 active hops done n ns hup hnone ih =>
    rw [follow, if_neg hup]
    split
    · rename_i name target hlink
      exact absurd ((h _ _ _).1 hlink) (hnone name target)
    · exact ih

/-- So a path leads to the same place in both. -/
theorem realPlace_congr (hcount : root'.linkCount = root.linkCount)
    (h : ∀ p n target,
      root'.lookup p = some (.link n target) ↔ root.lookup p = some (.link n target))
    (base : Place) (path : List String) : root'.realPlace base path = root.realPlace base path := by
  rw [realPlace, realPlace, hcount, follow_congr h]

/-- **A path leads to the same place** in whatever order folders list their entries. -/
theorem Reordered.realPlace_eq (h : Reordered root root') (hroot : root.DistinctNames)
    (base : Place) (path : List String) : root'.realPlace base path = root.realPlace base path :=
  realPlace_congr h.linkCount_eq (fun _ _ _ => h.lookup_eq_iff hroot nofun) base path

/-- **A path leads to the same place** whether or not a folder on the way can be listed. -/
theorem realPlace_close (q base : Place) (path : List String) :
    (root.close q).realPlace base path = root.realPlace base path :=
  realPlace_congr (linkCount_close q root) (fun _ _ _ => lookup_close_eq_iff nofun) base path

end Entry

end CallbackLint
