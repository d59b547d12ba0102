import CallbackLint.FileTree.Collect
import CallbackLint.Proofs.PathText
import CallbackLint.Proofs.ReportOrder
/-!
# Places in a file tree

In a tree whose entries have proper names, different ones in each folder (`Named`), a place
that is there is reached by its own names whichever way one goes: by look-up, by resolving it
as a path (`realPlace_eq_self`), and by walking along it and reading the file at its end
(`read?_eq_some`). The files that a walk collects are such places (`lookup_of_mem_below`), and
where the walk starts from only puts names in front of them (`collectBelow_append`).
-/

namespace CallbackLint

namespace Entry

/-! ## Names -/

/-- A name that an entry of a folder can have. -/
structure IsName (s : String) : Prop extends Path.IsPart s where
  ne_up : s ≠ ".."

instance (s : String) : Decidable (IsName s) :=
  decidable_of_iff ((s.toList ≠ [] ∧ s.toList ≠ ['.'] ∧ '/' ∉ s.toList) ∧ s ≠ "..")
    ⟨fun h => ⟨⟨h.1.1, h.1.2.1, h.1.2.2⟩, h.2⟩,
      fun h => ⟨⟨h.ne_nil, h.ne_dot, h.slash_notMem⟩, h.ne_up⟩⟩

/-- A tree as a file system has it: the entries of a folder have different names, all of them
proper ones. -/
inductive Named : Entry → Prop
  | file (name : String) (content : Bytes) : Named (.file name content)
  | link (name target : String) : Named (.link name target)
  | special (name : String) : Named (.special name)
  | folder (name : String) (listable : Bool) {es : List Entry} :
      (es.map Entry.name).Nodup → (∀ e ∈ es, IsName e.name) → (∀ e ∈ es, e.Named) →
      Named (.folder name listable es)

/-- A symbolic link. -/
def isLink : Entry → Bool
  | .link _ _ => true
  | _ => false

variable {root e : Entry} {es : List Entry} {place rest : Place} {n : String}

/-- What is found by its name is among the entries. -/
theorem mem_of_named? (h : named? es n = some e) : e ∈ es :=
  List.mem_of_find?_eq_some h

/-- And it has that name. -/
theorem name_of_named? (h : named? es n = some e) : e.name = n :=
  beq_iff_eq.1 (@List.find?_some _ (fun d : Entry => d.name == n) e es h)

/-- With different names, an entry is found by its own. -/
theorem named?_of_mem (hnodup : (es.map Entry.name).Nodup) (h : e ∈ es) :
    named? es e.name = some e := by
  induction es with
  | nil => exact absurd h List.not_mem_nil
  | cons d es ih =>
    obtain ⟨hd, hnodup⟩ := List.nodup_cons.1 hnodup
    rcases List.mem_cons.1 h with rfl | h
    · simp [named?]
    · have hne : d.name ≠ e.name := fun heq => hd (heq ▸ List.mem_map_of_mem h)
      rw [named?, List.find?_cons_of_neg (by simpa using hne)]
      exact ih hnodup h

/-! ## Look-up -/

/-- A look-up goes step by step. -/
theorem lookup_append (root : Entry) (place rest : Place) :
    root.lookup (place ++ rest) = (root.lookup place).bind fun e => e.lookup rest := by
  induction place generalizing root with
  | nil => rfl
  | cons n ns ih =>
    rw [List.cons_append, lookup, lookup]
    cases named? root.entries n with
    | none => rfl
    | some d => exact ih d

/-- What has something below it is a folder. -/
theorem eq_folder_of_lookup_cons (h : root.lookup (n :: rest) = some e) :
    ∃ name listable es, root = .folder name listable es := by
  cases root with
  | folder name listable es => exact ⟨name, listable, es, rfl⟩
  | file name content => exact absurd h (by simp [lookup, entries, named?])
  | link name target => exact absurd h (by simp [lookup, entries, named?])
  | special name => exact absurd h (by simp [lookup, entries, named?])

/-- No link is on the way to what is no link itself: a link has nothing below it. -/
theorem isLink_eq_false_of_lookup (h : root.lookup place = some e) (he : e.isLink = false) :
    root.isLink = false := by
  rcases place with _ | ⟨n, ns⟩
  · rwa [Option.some.inj h]
  · obtain ⟨name, listable, es, rfl⟩ := eq_folder_of_lookup_cons h
    rfl

namespace Named

/-- The entries of a folder have proper names, and so has what is in them. -/
theorem of_mem_entries (h : root.Named) (he : e ∈ root.entries) : IsName e.name ∧ e.Named := by
  cases h with
  | folder name listable hnodup hnames hnamed => exact ⟨hnames e he, hnamed e he⟩
  | _ => exact absurd he List.not_mem_nil

/-- The names on the way to an entry are proper ones. -/
theorem isName_of_lookup (hroot : root.Named) (h : root.lookup place = some e) :
    ∀ n ∈ place, IsName n := by
  induction place generalizing root with
  | nil => simp
  | cons n ns ih =>
    rw [lookup] at h
    split at h
    · rename_i d hd
      obtain ⟨hname, hnamed⟩ := hroot.of_mem_entries (mem_of_named? hd)
      rw [name_of_named? hd] at hname
      exact List.forall_mem_cons.2 ⟨hname, ih hnamed h⟩
    · cases h

/-- So has everything that is found below. -/
theorem of_lookup (hroot : root.Named) (h : root.lookup place = some e) : e.Named := by
  induction place generalizing root with
  | nil => rwa [← Option.some.inj h]
  | cons n ns ih =>
    rw [lookup] at h
    split at h
    · rename_i d hd
      exact ih (hroot.of_mem_entries (mem_of_named? hd)).2 h
    · cases h

end Named

/-- The last name on the way to an entry is its own. -/
theorem getLast?_of_lookup (h : root.lookup place = some e) (hne : place ≠ []) :
    place.getLast? = some e.name := by
  obtain ⟨ns, n, rfl⟩ := List.eq_nil_or_concat'  place |>.resolve_left hne
  rw [lookup_append, Option.bind_eq_some_iff] at h
  obtain ⟨d, -, hd⟩ := h
  rw [lookup] at hd
  split at hd
  · rename_i e' he'
    obtain rfl := Option.some.inj hd
    rw [List.getLast?_append_of_ne_nil _ (by simp), name_of_named? he']
    rfl
  · cases hd

/-! ## Paths that lead to a place -/

/-- One step on the way to an entry that is there and no link: it starts in a folder and does
not end at a link. -/
theorem step_of_lookup (h : root.lookup (place ++ n :: rest) = some e) (he : e.isLink = false) :
    (∃ name listable es, root.lookup place = some (.folder name listable es)) ∧
      ∃ d, root.lookup (place ++ [n]) = some d ∧ d.isLink = false := by
  constructor
  · rw [lookup_append, Option.bind_eq_some_iff] at h
    obtain ⟨d, hd, hrest⟩ := h
    obtain ⟨name, listable, es, rfl⟩ := eq_folder_of_lookup_cons hrest
    exact ⟨name, listable, es, hd⟩
  · rw [List.append_cons, lookup_append, Option.bind_eq_some_iff] at h
    obtain ⟨d, hd, hrest⟩ := h
    exact ⟨d, hd, isLink_eq_false_of_lookup hrest he⟩

/-- **A path of proper names leads to the place it spells**, where no link stands. -/
theorem follow_eq (h : root.lookup (place ++ rest) = some e) (he : e.isLink = false)
    (hup : ".." ∉ rest) (active : List Place) (hops : Nat) :
    root.follow active hops place rest = (place ++ rest, true) := by
  induction rest generalizing place with
  | nil => rw [follow, List.append_nil]
  | cons n ns ih =>
    obtain ⟨hn, hup⟩ : n ≠ ".." ∧ ".." ∉ ns := by simpa [eq_comm] using hup
    obtain ⟨-, d, hd, hlink⟩ := step_of_lookup h he
    rw [List.append_cons] at h ⊢
    rw [follow, if_neg (by simpa using hn), hd, ← ih h hup]
    cases d with
    | link name target => cases hlink
    | _ => rfl

/-- And it is reached there. -/
theorem reach?_eq (h : root.lookup (place ++ rest) = some e) (he : e.isLink = false)
    (hup : ".." ∉ rest) (hops : Nat) : root.reach? hops place rest = some (place ++ rest) := by
  induction rest generalizing place with
  | nil => rw [reach?, List.append_nil]
  | cons n ns ih =>
    obtain ⟨hn, hup⟩ : n ≠ ".." ∧ ".." ∉ ns := by simpa [eq_comm] using hup
    obtain ⟨⟨name, listable, es, hplace⟩, d, hd, hlink⟩ := step_of_lookup h he
    rw [List.append_cons] at h ⊢
    rw [reach?, hplace, ← ih h hup]
    simp only [beq_iff_eq, hn, if_false, hd]
    cases d with
    | link name target => cases hlink
    | _ => rfl

/-- **A place that is there, read as a path, leads to itself.** -/
theorem realPlace_eq_self (h : root.lookup place = some e) (he : e.isLink = false)
    (hup : ".." ∉ place) : root.realPlace [] place = place := by
  rw [realPlace, follow_eq h he hup, List.nil_append]

/-- So a file is read at its place. -/
theorem read?_eq_some {content : Bytes} (h : root.lookup place = some (.file n content))
    (hup : ".." ∉ place) : root.read? place = some content := by
  rw [read?, find?, reach?_eq h rfl hup, List.nil_append]
  simp [h]

end Entry

namespace Walk

open Entry

variable {w : Walk} {p place : Place} {e : Entry}

/-! ## Walks -/

/-- What a walk lists in a folder: a file that it keeps, or a file below a folder that it does
not ignore. -/
theorem mem_among_cases {es : List Entry} (h : p ∈ w.among place es) :
    (∃ n content, .file n content ∈ es ∧ Path.isJavaName n = true ∧
        w.keep (place ++ [n]) = .ok true ∧ p = place ++ [n]) ∨
      ∃ n listable ds, .folder n listable ds ∈ es ∧ w.ignores n = false ∧
        p ∈ w.below (place ++ [n]) (.folder n listable ds) := by
  induction es with
  | nil => exact absurd h (by simp [among])
  | cons d es ih =>
    have hlater (h : p ∈ w.among place es) :
        (∃ n content, .file n content ∈ d :: es ∧ Path.isJavaName n = true ∧
            w.keep (place ++ [n]) = .ok true ∧ p = place ++ [n]) ∨
          ∃ n listable ds, .folder n listable ds ∈ d :: es ∧ w.ignores n = false ∧
            p ∈ w.below (place ++ [n]) (.folder n listable ds) := by
      rcases ih h with ⟨n, content, hmem, hrest⟩ | ⟨n, listable, ds, hmem, hrest⟩
      · exact .inl ⟨n, content, List.mem_cons_of_mem d hmem, hrest⟩
      · exact .inr ⟨n, listable, ds, List.mem_cons_of_mem d hmem, hrest⟩
    cases d with
    | file n content =>
      rw [among] at h
      split at h
      · rename_i hjava
        split at h
        · rename_i hkeep
          rcases List.mem_cons.1 h with rfl | h
          · exact .inl ⟨n, content, List.mem_cons_self, hjava, hkeep, rfl⟩
          · exact hlater h
        · exact hlater h
        · exact absurd h List.not_mem_nil
      · exact hlater h
    | folder n listable ds =>
      rw [among] at h
      split at h
      · exact hlater h
      · rename_i hignored
        rcases List.mem_append.1 h with h | h
        · exact .inr ⟨n, listable, ds, List.mem_cons_self, by simpa using hignored, h⟩
        · exact hlater h
    | link n target => exact hlater (by rwa [among] at h)
    | special n => exact hlater (by rwa [among] at h)

/-- **Every file that a walk finds is where it says**: a Java file at that place. -/
theorem lookup_of_mem_below (he : e.Named) (h : p ∈ w.below place e) :
    ∃ rest n content, p = place ++ rest ∧ rest ≠ [] ∧ e.lookup rest = some (.file n content) ∧
      Path.isJavaName n = true := by
  -- By induction on the tree: a file that is listed in a folder stands in it or below one of its
  -- entries, and different names make look-up go down to that entry.
  induction he generalizing place with
  | file n content => exact absurd h (by simp [below])
  | link n target => exact absurd h (by simp [below])
  | special n => exact absurd h (by simp [below])
  | folder name listable hnodup hnames hnamed ih =>
    rename_i es
    rw [below] at h
    split at h
    · rcases mem_among_cases h with ⟨n, content, hmem, hjava, -, rfl⟩ | ⟨n, l, ds, hmem, -, hbelow⟩
      · have hfound := named?_of_mem hnodup hmem
        refine ⟨[n], n, content, rfl, List.cons_ne_nil n [], ?_, hjava⟩
        rw [lookup, entries, show n = (Entry.file n content).name from rfl, hfound]
        rfl
      · obtain ⟨rest, m, content, rfl, -, hrest, hjava⟩ := ih _ hmem hbelow
        have hfound := named?_of_mem hnodup hmem
        refine ⟨n :: rest, m, content, by simp, List.cons_ne_nil n rest, ?_, hjava⟩
        rw [lookup, entries, show n = (Entry.folder n l ds).name from rfl, hfound]
        exact hrest
    · exact absurd h List.not_mem_nil

mutual

/-- Where a walk starts from only puts names in front of the files that it finds, provided it
keeps them all. -/
theorem below_append (hkeep : ∀ p, w.keep p = .ok true) (base place : Place) :
    (e : Entry) → w.below (base ++ place) e = (w.below place e).map (base ++ ·)
  | .folder _ listable es => by
    rw [below, below, among_append hkeep base place es]
    split <;> rfl
  | .file _ _ => by rw [below, below, List.map_nil]
  | .link _ _ => by rw [below, below, List.map_nil]
  | .special _ => by rw [below, below, List.map_nil]

/-- The same for the entries of a folder. -/
theorem among_append (hkeep : ∀ p, w.keep p = .ok true) (base place : Place) :
    (es : List Entry) → w.among (base ++ place) es = (w.among place es).map (base ++ ·)
  | [] => by rw [among, among, List.map_nil]
  | .folder n listable ds :: es => by
    rw [among, among, among_append hkeep base place es, List.append_assoc,
      below_append hkeep base (place ++ [n]) (.folder n listable ds), ← List.map_append]
    split <;> rfl
  | .file n content :: es => by
    rw [among, among, among_append hkeep base place es, hkeep, hkeep, List.append_assoc]
    split <;> rfl
  | .link n target :: es => by
    rw [among, among, among_append hkeep base place es]
  | .special n :: es => by
    rw [among, among, among_append hkeep base place es]

end

/-- The order of places is that of lists of names. -/
theorem notAfter_iff (p q : Place) : notAfter p q = true ↔ p ≤ q := by
  induction p generalizing q with
  | nil => simp [notAfter, ← not_lt]
  | cons a as ih =>
    cases q with
    | nil => simp [notAfter, ← not_lt]
    | cons b bs =>
      rw [notAfter, ← not_lt, List.cons_lt_cons_iff]
      by_cases hab : a = b
      · simp [hab, ih]
      · have hba : b ≠ a := fun h => hab h.symm
        simp only [beq_iff_eq, hab, if_false, decide_eq_true_eq, hba, false_and, or_false, not_lt]
        exact ⟨le_of_lt, fun h => lt_of_le_of_ne h hab⟩

/-- Places are compared behind what they have in common. -/
theorem notAfter_append (base p q : Place) : notAfter (base ++ p) (base ++ q) = notAfter p q := by
  induction base with
  | nil => rfl
  | cons n ns ih => simp [notAfter, ih]

/-- So what is collected from a place on is collected there and moved. -/
theorem collectBelow_append (hkeep : ∀ p, w.keep p = .ok true) (base place : Place) (e : Entry) :
    w.collectBelow (base ++ place) e = (w.collectBelow place e).map (base ++ ·) := by
  rw [collectBelow, collectBelow, below_append hkeep, List.map_mergeSort]
  exact fun p _ q _ => (notAfter_append base p q).symm

/-- Places are collected in order. -/
theorem pairwise_le_collectBelow (w : Walk) (place : Place) (e : Entry) :
    (w.collectBelow place e).Pairwise (· ≤ ·) :=
  @StableSort.pairwise_key_mergeSort _ _ _ id _ notAfter_iff _

/-- And they are those that the walk finds. -/
theorem mem_collectBelow : p ∈ w.collectBelow place e ↔ p ∈ w.below place e :=
  (List.mergeSort_perm _ _).mem_iff

end Walk

end CallbackLint
