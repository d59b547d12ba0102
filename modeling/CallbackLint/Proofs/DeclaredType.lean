import CallbackLint.Proofs.Words
import CallbackLint.Scope
/-!
# Names of declared types

A class type is written as identifiers with dots between them, and type arguments may follow
each of them: `Map<K, V>.Entry<K, V>`. The syntax tree nests to the left, and the arguments at
the end of a type make a node around the rest (`ClassType.ShownBy`).

The name of a declared type is meant to be its identifiers joined by dots. The arguments at the
end are left out by going to the node inside; those of a qualifier are inside the text that is
taken, and stay. So the name is the one meant exactly when no qualifier has arguments
(`ClassType.declaredType?_eq_joined_iff`).
-/

namespace CallbackLint

/-- A class type: an identifier, a member of a class type, or a class type with arguments. -/
inductive ClassType where
  | plain (name : String)
  | member (outer : ClassType) (name : String)
  | applied (head : ClassType) (arguments : String)

namespace ClassType

/-- A word that is neither empty nor has blanks, dots or angle brackets in it. -/
structure IsIdentifier (s : String) : Prop where
  ne_nil : s.toList ≠ []
  isBlank : ∀ c ∈ s.toList, Text.isBlank c = false
  dot_notMem : '.' ∉ s.toList
  less_notMem : '<' ∉ s.toList
  greater_notMem : '>' ∉ s.toList

/-- Any text in angle brackets. -/
def IsArguments (s : String) : Prop :=
  ∃ inner, s = "<" ++ inner ++ ">"

/-- Only white space. -/
def IsSpace (s : String) : Prop :=
  ∀ c ∈ s.toList, Text.isBlank c = true

/-- The identifiers of a type, outermost first. -/
def names : ClassType → List String
  | plain name => [name]
  | member outer name => outer.names ++ [name]
  | applied head _ => head.names

/-- The text of a type without blanks. -/
def spelling : ClassType → String
  | plain name => name
  | member outer name => outer.spelling ++ "." ++ name
  | applied head arguments => head.spelling ++ Text.compact arguments

/-- The type without the arguments at its end. -/
def head : ClassType → ClassType
  | applied head _ => head
  | type => type

/-- There are arguments somewhere in the type. -/
def HasArguments : ClassType → Prop
  | plain _ => False
  | member outer _ => outer.HasArguments
  | applied _ _ => True

/-- A node that shows a class type: an identifier, the node of the outer type with a dot and an
identifier behind it, or the node of a type without arguments with arguments behind it. Space
may stand between any two tokens. -/
inductive ShownBy (src : Bytes) : ClassType → Node → Prop where
  | plain {name : String} {n : Node} (hkind : n.kind = "type_identifier")
      (hname : IsIdentifier name) (htext : n.text src = name) : ShownBy src (.plain name) n
  | member {outer : ClassType} {name s t : String} {q n : Node} (h : ShownBy src outer q)
      (hkind : n.kind = "scoped_type_identifier") (hfirst : n.namedChildren.head? = some q)
      (hname : IsIdentifier name) (hs : IsSpace s) (ht : IsSpace t)
      (htext : n.text src = q.text src ++ s ++ "." ++ t ++ name) :
      ShownBy src (.member outer name) n
  | applied {head : ClassType} {arguments s : String} {q n : Node} (h : ShownBy src head q)
      (hhead : q.kind = "type_identifier" ∨ q.kind = "scoped_type_identifier")
      (hkind : n.kind = "generic_type") (hfirst : n.namedChildren.head? = some q)
      (hargs : IsArguments arguments) (hs : IsSpace s)
      (htext : n.text src = q.text src ++ s ++ arguments) :
      ShownBy src (.applied head arguments) n

variable {src : Bytes} {type : ClassType} {n : Node}

/-! ## What is taken -/

/-- The text of a node, blanks apart, is the spelling of the type that it shows. -/
theorem compactText_eq (h : ShownBy src type n) : n.compactText src = type.spelling := by
  have hdot : Text.compact "." = "." := by decide
  induction h with
  | plain hkind hname htext =>
    rw [Node.compactText, htext, Text.compact_of_forall hname.isBlank, spelling]
  | member h hkind hfirst hname hs ht htext ih =>
    rw [Node.compactText] at ih ⊢
    simp only [htext, Text.compact_append, ih, Text.compact_of_blank hs, Text.compact_of_blank ht,
      Text.compact_of_forall hname.isBlank, hdot, String.append_empty, spelling]
  | applied h hhead hkind hfirst hargs hs htext ih =>
    rw [Node.compactText] at ih ⊢
    simp only [htext, Text.compact_append, ih, Text.compact_of_blank hs, String.append_empty,
      spelling]

/-- Of a node without arguments at its end the whole text is taken. -/
theorem typeName?_eq (h : ShownBy src type n)
    (hkind : n.kind = "type_identifier" ∨ n.kind = "scoped_type_identifier") :
    n.typeName? src = if type.spelling = "var" then none else some type.spelling := by
  rw [Node.typeName?, compactText_eq h]
  rcases hkind with hkind | hkind <;> simp [hkind]

/-- The arguments at the end are what is passed over. -/
theorem declaredType?_eq (h : ShownBy src type n) : n.declaredType? src =
    if type.head.spelling = "var" then none else some type.head.spelling := by
  cases h with
  | plain hkind hname htext =>
    rw [Node.declaredType?, if_neg (by simp [hkind])]
    exact typeName?_eq (.plain hkind hname htext) (.inl hkind)
  | member h hkind hfirst hname hs ht htext =>
    rw [Node.declaredType?, if_neg (by simp [hkind])]
    exact typeName?_eq (.member h hkind hfirst hname hs ht htext) (.inr hkind)
  | @applied head arguments s q n h hhead hkind hfirst hargs hs htext =>
    have hinner : n.firstOf? ["type_identifier", "scoped_type_identifier"] = some q := by
      obtain ⟨more, hmore⟩ := List.head?_eq_some_iff.1 hfirst
      rw [Node.firstOf?, hmore]
      rcases hhead with hhead | hhead <;> simp [hhead]
    rw [Node.declaredType?, if_pos (by simp [hkind]), hinner]
    exact typeName?_eq h hhead

/-! ## What it is meant to be -/

/-- The names in a type are identifiers. -/
theorem isIdentifier_of_mem_names (h : ShownBy src type n) : ∀ s ∈ type.names, IsIdentifier s := by
  induction h with
  | plain hkind hname htext =>
    intro s hs
    rw [List.mem_singleton.1 hs]
    exact hname
  | member h hkind hfirst hname hs ht htext ih =>
    intro s hs
    rcases List.mem_append.1 hs with hs | hs
    · exact ih s hs
    · rw [List.mem_singleton.1 hs]
      exact hname
  | applied h hhead hkind hfirst hargs hs htext ih => exact ih

/-- There is at least one. -/
theorem names_ne_nil (type : ClassType) : type.names ≠ [] := by
  induction type with
  | plain name => simp [names]
  | member outer name ih => simp [names]
  | applied head arguments ih => exact ih

/-- Arguments in front have no part in the names. -/
theorem names_head (type : ClassType) : type.head.names = type.names := by
  cases type <;> rfl

/-- Without arguments a type is spelled by its names with dots between them. -/
theorem spelling_of_not_hasArguments {type : ClassType} (h : ¬ type.HasArguments) :
    type.spelling = ".".intercalate type.names := by
  induction type with
  | plain name => simp [spelling, names]
  | member outer name ih =>
    rw [names, String.intercalate_append_of_ne_nil outer.names_ne_nil (by simp), ← ih h,
      String.intercalate_singleton, spelling]
  | applied head arguments ih => exact absurd trivial h

/-- A type without arguments at its end is the identifier `var` exactly when it is spelled so:
the spelling of a longer one has a dot. -/
theorem spelling_eq_var_iff (h : ShownBy src type n)
    (hkind : n.kind = "type_identifier" ∨ n.kind = "scoped_type_identifier") :
    type.spelling = "var" ↔ type.names = ["var"] := by
  cases h with
  | plain hkind hname htext => simp [spelling, names]
  | @member outer name s t q n h hkind hfirst hname hs ht htext =>
    have hspelling : (member outer name).spelling ≠ "var" := by
      intro hvar
      have hdot : '.' ∈ (member outer name).spelling.toList := by
        simp [spelling, String.toList_append]
      rw [hvar] at hdot
      exact absurd hdot (by decide)
    have hnames : (member outer name).names ≠ ["var"] := by
      intro hvar
      have hlength := congrArg List.length hvar
      have hpos := List.length_pos_iff.2 outer.names_ne_nil
      simp only [names, List.length_append, List.length_singleton] at hlength
      omega
    exact iff_of_false hspelling hnames
  | applied h hhead hgeneric hfirst hargs hs htext => simp [hgeneric] at hkind

/-- So `var` is spelled by that name alone. -/
theorem spelling_head_eq_var_iff (h : ShownBy src type n) :
    type.head.spelling = "var" ↔ type.names = ["var"] := by
  cases h with
  | plain hkind hname htext => exact spelling_eq_var_iff (.plain hkind hname htext) (.inl hkind)
  | member h hkind hfirst hname hs ht htext =>
    exact spelling_eq_var_iff (.member h hkind hfirst hname hs ht htext) (.inr hkind)
  | applied h hhead hkind hfirst hargs hs htext => exact spelling_eq_var_iff h hhead

/-! ## Angle brackets -/

/-- An angle bracket in the text of a type is one of its arguments. -/
theorem bracket_mem_spelling_iff (h : ShownBy src type n) {b : Char} (hb : b = '<' ∨ b = '>') :
    b ∈ type.spelling.toList ↔ type.HasArguments := by
  have hname : ∀ {s : String}, IsIdentifier s → b ∉ s.toList := by
    intro s hs
    rcases hb with rfl | rfl
    · exact hs.less_notMem
    · exact hs.greater_notMem
  have hdot : b ≠ '.' := by rcases hb with rfl | rfl <;> decide
  induction h with
  | plain hkind hid htext => simp [spelling, HasArguments, hname hid]
  | member h hkind hfirst hid hs ht htext ih =>
    simp [spelling, HasArguments, String.toList_append, hname hid, hdot, ih]
  | applied h hhead hkind hfirst hargs hs htext ih =>
    obtain ⟨inner, rfl⟩ := hargs
    have hless : Text.compact "<" = "<" := by decide
    have hgreater : Text.compact ">" = ">" := by decide
    rcases hb with rfl | rfl <;>
      simp [spelling, HasArguments, Text.compact_append, String.toList_append, hless, hgreater]

/-- Joining brings in dots only. -/
theorem notMem_intercalate {b : Char} (hb : b ≠ '.') {parts : List String}
    (h : ∀ s ∈ parts, b ∉ s.toList) : b ∉ (".".intercalate parts).toList := by
  induction parts with
  | nil => simp
  | cons s parts ih =>
    have hs := h s List.mem_cons_self
    have hparts := ih fun t ht => h t (List.mem_cons_of_mem s ht)
    rcases parts with _ | ⟨t, parts⟩
    · simpa using hs
    · rw [String.intercalate_cons_cons, String.toList_append, String.toList_append,
        List.mem_append, List.mem_append]
      rintro ((hmem | hmem) | hmem)
      · exact hs hmem
      · exact hb (by simpa using hmem)
      · exact hparts hmem

/-- The node inside, for a type with arguments at its end. -/
theorem exists_shownBy_head (h : ShownBy src type n) : ∃ q, ShownBy src type.head q := by
  cases h with
  | plain hkind hname htext => exact ⟨n, .plain hkind hname htext⟩
  | member h hkind hfirst hname hs ht htext => exact ⟨n, .member h hkind hfirst hname hs ht htext⟩
  | applied h hhead hkind hfirst hargs hs htext => exact ⟨_, h⟩

/-- **What is taken is what is meant, unless a qualifier has arguments.** -/
theorem spelling_head_eq_joined_iff (h : ShownBy src type n) :
    type.head.spelling = ".".intercalate type.names ↔ ¬ type.head.HasArguments := by
  obtain ⟨q, hq⟩ := exists_shownBy_head h
  constructor
  · intro heq hargs
    have hmem := (bracket_mem_spelling_iff hq (.inl rfl)).2 hargs
    rw [heq] at hmem
    exact notMem_intercalate (by decide)
      (fun s hs => (isIdentifier_of_mem_names h s hs).less_notMem) hmem
  · intro hargs
    rw [spelling_of_not_hasArguments hargs, names_head]

/-- **Declared types and type arguments.** A class type other than `var` always has a name, and
the name is its identifiers joined by dots exactly when no qualifier has type arguments. Nor has
it an angle bracket but from the arguments of a qualifier. Another spelling of the same
identifiers, whatever blanks and arguments at its end there are, has the same name exactly when
no qualifier has arguments there either. -/
theorem declaredType?_eq_joined_iff (h : ShownBy src type n) :
    (n.declaredType? src = none ↔ type.names = ["var"]) ∧
    (type.names ≠ ["var"] →
      (n.declaredType? src = some (".".intercalate type.names) ↔ ¬ type.head.HasArguments) ∧
      (∀ name, n.declaredType? src = some name →
        (('<' ∈ name.toList ∨ '>' ∈ name.toList) ↔ type.head.HasArguments)) ∧
      ∀ (src' : Bytes) (type' : ClassType) (n' : Node), ShownBy src' type' n' →
        type'.names = type.names → ¬ type.head.HasArguments →
        (n'.declaredType? src' = n.declaredType? src ↔ ¬ type'.head.HasArguments)) := by
  have hvar := spelling_head_eq_var_iff h
  refine ⟨by rw [declaredType?_eq h, ← hvar]; simp, fun hne => ?_⟩
  have hname : n.declaredType? src = some type.head.spelling := by
    rw [declaredType?_eq h, if_neg (mt hvar.1 hne)]
  refine ⟨?_, ?_, ?_⟩
  · rw [hname, Option.some.injEq]
    exact spelling_head_eq_joined_iff h
  · intro name heq
    obtain ⟨q, hq⟩ := exists_shownBy_head h
    obtain rfl := Option.some.inj (hname.symm.trans heq)
    rw [bracket_mem_spelling_iff hq (.inl rfl), bracket_mem_spelling_iff hq (.inr rfl), or_self]
  · intro src' type' n' h' hnames hargs
    have hne' : type'.names ≠ ["var"] := hnames ▸ hne
    rw [declaredType?_eq h', if_neg (mt (spelling_head_eq_var_iff h').1 hne'), hname,
      (spelling_head_eq_joined_iff h).2 hargs, ← hnames, Option.some.injEq]
    exact spelling_head_eq_joined_iff h'

end ClassType

namespace QualifiedByArguments

open ClassType

/-- A member of a type with arguments, with arguments of its own and space between tokens. -/
def src : Bytes :=
  Utf8.encode "Outer < T > . Inner<U>"

def type : ClassType :=
  .applied (.member (.applied (.plain "Outer") "< T >") "Inner") "<U>"

def outerName : Node := .mk "type_identifier" 0 5 true none []

def outer : Node :=
  .mk "generic_type" 0 11 true none [outerName, .mk "type_arguments" 6 11 true none []]

def inner : Node :=
  .mk "scoped_type_identifier" 0 19 true none
    [outer, .mk "." 12 13 false none [], .mk "type_identifier" 14 19 true none []]

def node : Node :=
  .mk "generic_type" 0 22 true (some "type") [inner, .mk "type_arguments" 19 22 true none []]

theorem forall_not_isBlank {s : String} (h : s.toList.any Text.isBlank = false) :
    ∀ c ∈ s.toList, Text.isBlank c = false := by
  intro c hc
  simpa using List.any_eq_false.1 h c hc

theorem isIdentifier_outer : IsIdentifier "Outer" :=
  ⟨by decide, forall_not_isBlank (by decide +kernel), by decide, by decide, by decide⟩

theorem isIdentifier_inner : IsIdentifier "Inner" :=
  ⟨by decide, forall_not_isBlank (by decide +kernel), by decide, by decide, by decide⟩

theorem isSpace_one : IsSpace " " :=
  List.all_eq_true.1 (by decide +kernel)

/-- The node of the example shows the type. -/
theorem shownBy : ShownBy src type node := by
  have houter : ShownBy src (.applied (.plain "Outer") "< T >") outer :=
    .applied (.plain rfl isIdentifier_outer (by decide +kernel)) (.inl rfl) rfl rfl
      ⟨" T ", by decide⟩ isSpace_one (by decide +kernel)
  have hinner : ShownBy src (.member (.applied (.plain "Outer") "< T >") "Inner") inner :=
    .member houter rfl rfl isIdentifier_inner isSpace_one isSpace_one (by decide +kernel)
  have hspace : IsSpace "" := List.all_eq_true.1 (by decide +kernel)
  exact .applied hinner (.inr rfl) rfl rfl ⟨"U", by decide⟩ hspace (by decide +kernel)

end QualifiedByArguments

open QualifiedByArguments in
/-- The type `Outer < T > . Inner<U>` is meant to be named `Outer.Inner`, and keeps the arguments
of its qualifier. -/
theorem qualifierArguments_kept :
    ClassType.ShownBy src type node ∧ type.names = ["Outer", "Inner"] ∧
      node.declaredType? src = some "Outer<T>.Inner" ∧
      node.declaredType? src ≠ some (".".intercalate type.names) := by
  have hargs : type.head.HasArguments := trivial
  have hnames : type.names = ["Outer", "Inner"] := rfl
  obtain ⟨-, hname⟩ := ClassType.declaredType?_eq_joined_iff shownBy
  obtain ⟨hjoined, -, -⟩ := hname (by rw [hnames]; decide)
  exact ⟨shownBy, hnames, by decide +kernel, fun heq => hjoined.1 heq hargs⟩

end CallbackLint
