/-!
# Bindings

What a name stands for: an imported type, the owner of an imported member, or the
declared type of a variable. A later binding of a name replaces the earlier one, and
names keep the order in which they were first bound.
-/

namespace CallbackLint

/-- Names with the text each is bound to. -/
structure Bindings where
  /-- The bound names in order of first binding, each with what it is bound to. -/
  entries : List (String × String) := []
deriving Repr, DecidableEq, Inhabited

namespace Bindings

/-- What a name is bound to. -/
def get? (b : Bindings) (name : String) : Option String :=
  b.entries.lookup name

/-- The entries with `name` bound to `value`. -/
def putEntry (name value : String) : List (String × String) → List (String × String)
  | [] => [(name, value)]
  | e :: es => if e.1 = name then (name, value) :: es else e :: putEntry name value es

/-- Binds a name, in place of what it was bound to. -/
def put (b : Bindings) (name value : String) : Bindings :=
  ⟨putEntry name value b.entries⟩

/-- Binds every name that `later` binds, in its order. -/
def update (b later : Bindings) : Bindings :=
  later.entries.foldl (fun acc e => acc.put e.1 e.2) b

/-- The bindings made by a list of pairs, a later pair winning over an earlier one. -/
def ofList (es : List (String × String)) : Bindings :=
  es.foldl (fun acc e => acc.put e.1 e.2) {}

theorem lookup_putEntry (name value other : String) (es : List (String × String)) :
    (putEntry name value es).lookup other =
      if other = name then some value else es.lookup other := by
  induction es with
  | nil =>
    by_cases h : other = name
    · simp [putEntry, h]
    · have hb : (other == name) = false := by simpa using h
      simp [putEntry, List.lookup_cons, h, hb]
  | cons e es ih =>
    obtain ⟨key, bound⟩ := e
    by_cases hk : key = name
    · by_cases h : other = name
      · simp [putEntry, hk, h]
      · have hb : (other == name) = false := by simpa using h
        simp [putEntry, List.lookup_cons, hk, h, hb]
    · by_cases h : other = key
      · subst h
        simp [putEntry, hk]
      · have hb : (other == key) = false := by simpa using h
        simp [putEntry, List.lookup_cons, hk, hb, ih]

/-- **A binding answers for its own name and leaves the others alone.** -/
theorem get?_put (b : Bindings) (name value other : String) :
    (b.put name value).get? other = if other = name then some value else b.get? other :=
  lookup_putEntry name value other b.entries

end Bindings

end CallbackLint
