import CallbackLint.Declaration.OfNode
/-!
# What a name is bound to

Bindings are filled one at a time, from a list of declarations or from other bindings. Here
each way of filling them is read back: a look-up in bindings made from declarations is the
type of the latest declaration that gives the name one (`get?_ofDeclarations`), and an update
asks the later bindings first (`get?_update`). The second needs that bindings hold a name
once, which every way of making them keeps.
-/

namespace CallbackLint

namespace Bindings

/-- Every name is bound once. -/
def Distinct (b : Bindings) : Prop :=
  (b.entries.map Prod.fst).Nodup

/-- A binding adds no name but its own. -/
theorem mem_keys_putEntry {name value other : String} {es : List (String × String)} :
    other ∈ (putEntry name value es).map Prod.fst ↔ other = name ∨ other ∈ es.map Prod.fst := by
  induction es with
  | nil => simp [putEntry]
  | cons e es ih =>
    by_cases h : e.1 = name
    · simp [putEntry, h]
    · rw [putEntry, if_neg h, List.map_cons, List.map_cons, List.mem_cons, List.mem_cons, ih]
      exact or_left_comm

/-- A binding adds no entry but its own. -/
theorem mem_entries_put {b : Bindings} {name value : String} {e : String × String}
    (h : e ∈ (b.put name value).entries) : e = (name, value) ∨ e ∈ b.entries := by
  obtain ⟨es⟩ := b
  simp only [put] at h ⊢
  induction es with
  | nil => exact .inl (by simpa [putEntry] using h)
  | cons d es ih =>
    rw [putEntry] at h
    split at h
    · rcases List.mem_cons.1 h with he | he
      · exact .inl he
      · exact .inr (List.mem_cons_of_mem d he)
    · rcases List.mem_cons.1 h with he | he
      · exact .inr (he ▸ List.mem_cons_self)
      · exact (ih he).imp_right (List.mem_cons_of_mem d)

/-- What a name is bound to is among the entries. -/
theorem mem_entries_of_get? {b : Bindings} {name value : String} (h : b.get? name = some value) :
    (name, value) ∈ b.entries := by
  obtain ⟨before, after, hsplit, -⟩ := List.lookup_eq_some_iff.1 h
  simp [hsplit]

/-- So one more binding leaves every name bound once. -/
theorem distinct_put {b : Bindings} (h : b.Distinct) (name value : String) :
    (b.put name value).Distinct := by
  obtain ⟨es⟩ := b
  simp only [Distinct, put] at h ⊢
  induction es with
  | nil => simp [putEntry]
  | cons e es ih =>
    rw [List.map_cons, List.nodup_cons] at h
    by_cases hk : e.1 = name
    · rw [putEntry, if_pos hk, List.map_cons, List.nodup_cons]
      exact ⟨hk ▸ h.1, h.2⟩
    · rw [putEntry, if_neg hk, List.map_cons, List.nodup_cons, mem_keys_putEntry]
      refine ⟨?_, ih h.2⟩
      rintro (he | he)
      · exact hk he
      · exact h.1 he

/-- And so do several, one after the other. -/
theorem distinct_foldl_put {b : Bindings} (h : b.Distinct) (es : List (String × String)) :
    (es.foldl (fun acc e => acc.put e.1 e.2) b).Distinct := by
  induction es generalizing b with
  | nil => exact h
  | cons e es ih => exact ih (distinct_put h e.1 e.2)

/-- In particular where there was none before. -/
theorem distinct_ofList (es : List (String × String)) : (ofList es).Distinct :=
  distinct_foldl_put (by simp [Distinct]) es

/-- **The latest pair holds.** Binding the pairs of a list one after the other, a name is
bound to what the last pair of that name says, and as before where there is none. -/
theorem get?_foldl_put (b : Bindings) (es : List (String × String)) (name : String) :
    (es.foldl (fun acc e => acc.put e.1 e.2) b).get? name =
      (es.reverse.lookup name).or (b.get? name) := by
  induction es generalizing b with
  | nil => simp
  | cons e es ih =>
    obtain ⟨key, value⟩ := e
    rw [List.foldl_cons, ih, get?_put, List.reverse_cons, List.lookup_append, Option.or_assoc]
    -- The pairs behind this one are asked first, so it counts only where they are silent.
    congr 1
    by_cases h : name = key
    · simp [h]
    · have hb : (name == key) = false := by simpa using h
      simp [List.lookup_cons, h, hb]

/-- Of the pairs of a list the last one of a name holds. -/
theorem get?_ofList (es : List (String × String)) (name : String) :
    (ofList es).get? name = es.reverse.lookup name := by
  rw [ofList, get?_foldl_put]
  simp [get?]

/-- **Where keys do not repeat, the order of the entries does not matter to a look-up.** -/
theorem lookup_perm {es fs : List (String × String)} (h : es.Perm fs)
    (hkeys : (es.map Prod.fst).Nodup) (name : String) : es.lookup name = fs.lookup name := by
  induction h with
  | nil => rfl
  | cons e _ ih =>
    obtain ⟨key, value⟩ := e
    rw [List.lookup_cons, List.lookup_cons, ih (List.nodup_cons.1 hkeys).2]
  | swap e f es =>
    obtain ⟨key, value⟩ := e
    obtain ⟨key', value'⟩ := f
    have hne : key' ≠ key := by
      intro he
      simp [he] at hkeys
    -- at most one of the two keys is the name
    by_cases hk : name = key
    · have hb : (key == key') = false := by simpa using hne.symm
      simp [List.lookup_cons, hk, hb]
    · have hb : (name == key) = false := by simpa using hk
      simp [List.lookup_cons, hb]
  | trans hfirst _ ihfirst ihsecond =>
    rw [ihfirst hkeys, ihsecond ((hfirst.map Prod.fst).nodup_iff.1 hkeys)]

/-- Without repetitions first and last are the same. -/
theorem lookup_reverse_of_nodup {es : List (String × String)} (h : (es.map Prod.fst).Nodup)
    (name : String) : es.reverse.lookup name = es.lookup name :=
  (lookup_perm es.reverse_perm.symm h name).symm

/-- **An update asks the later bindings first.** -/
theorem get?_update (b : Bindings) {later : Bindings} (h : later.Distinct) (name : String) :
    (b.update later).get? name = (later.get? name).or (b.get? name) := by
  rw [update, get?_foldl_put, lookup_reverse_of_nodup h]
  rfl

end Bindings

/-! ## Bindings made from declarations -/

namespace Node

/-- The type that a declaration gives to a name: that of its variables when the name is among
them and the type has a name. -/
def givenType? (src : Bytes) (name : String) (n : Node) : Option String :=
  if name ∈ n.variableNames src then n.variablesType? src else none

/-- A declaration gives its type to the names it declares. -/
theorem givenType?_eq_some_iff {src : Bytes} {name type : String} {n : Node} :
    n.givenType? src name = some type ↔
      name ∈ n.variableNames src ∧ n.variablesType? src = some type := by
  unfold givenType?
  split <;> simp_all

/-- What one declaration binds a name to is the type that it gives it. -/
theorem lookup_reverse_introduced (src : Bytes) (n : Node) (name : String) :
    (n.introduced src).reverse.lookup name = n.givenType? src name := by
  rcases htype : n.variablesType? src with _ | type
  · simp [introduced, givenType?, htype]
  · have hnames : ∀ names : List String,
        (names.map (fun x => (x, type))).reverse.lookup name =
          if name ∈ names then some type else none := by
      intro names
      induction names with
      | nil => simp
      | cons x xs ih =>
        rw [List.map_cons, List.reverse_cons, List.lookup_append, ih]
        by_cases hx : name = x
        · by_cases hmem : x ∈ xs <;> simp [hx, hmem]
        · have hb : (name == x) = false := by simpa using hx
          simp [List.lookup_cons, hx, hb]
    simp only [introduced, givenType?, htype]
    exact hnames _

end Node

/-- **The latest declaration that gives a name a type decides.** Declarations whose type has
no name leave no trace. -/
theorem Bindings.get?_ofDeclarations (src : Bytes) (decls : List Node) (name : String) :
    (Bindings.ofDeclarations src decls).get? name =
      decls.reverse.findSome? (Node.givenType? src name) := by
  rw [ofDeclarations, get?_ofList]
  induction decls with
  | nil => rfl
  | cons n ns ih =>
    rw [List.flatMap_cons, List.reverse_append, List.lookup_append, ih,
      Node.lookup_reverse_introduced, List.reverse_cons, List.findSome?_append]
    simp

/-- Declarations bind every name once. -/
theorem Bindings.distinct_ofDeclarations (src : Bytes) (decls : List Node) :
    (Bindings.ofDeclarations src decls).Distinct :=
  distinct_ofList _

end CallbackLint
