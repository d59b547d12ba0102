import CallbackLint.Proofs.Offence
import Mathlib.Data.List.Forall2
/-!
# Every named type is found once

The search for declarations finds each type declaration of a tree that stands below the root,
is reached through named nodes and has a name, once and in pre-order; the places of these are
`typePlaces`. What it says of one is put together here from the tree alone (`Describes`): the
full name is made of the package and the names of the types above the place, the root apart
(`outerNames_eq`), and the methods are the nodes at certain places below it (`methodPlaces`).

The count of type declarations looks at every node. It is the number of addresses with a type
declaration (`typeCount_eq_countP`), so comparing it with the number of declarations found is
comparing two ways to pick from one list of addresses.
-/

namespace CallbackLint

namespace Node

/-- Addresses are followed step by step. -/
theorem at?_append (n : Node) (a b : List Nat) : n.at? (a ++ b) = (n.at? a).bind (·.at? b) := by
  induction a generalizing n with
  | nil => rfl
  | cons i is ih =>
    rw [List.cons_append, at?, at?]
    rcases n.children[i]? with _ | c
    · rfl
    · exact ih c

/-- What is reached through named nodes is there. -/
theorem at?_of_reach? {n m : Node} {address : List Nat} (h : n.reach? address = some m) :
    n.at? address = some m := by
  induction address generalizing n with
  | nil => exact h
  | cons i is ih =>
    rw [reach?] at h
    rw [at?]
    rcases hc : n.children[i]? with _ | c
    · rw [hc] at h
      exact absurd h (by simp)
    · rw [hc] at h
      by_cases hnamed : c.named = true
      · exact ih (by simpa [hnamed] using h)
      · exact absurd h (by simp [hnamed])

/-! ## The count, address by address -/

/-- Whether a type declaration stands at an address. -/
def hasTypeAt (n : Node) (address : List Nat) : Bool :=
  (n.at? address).any isTypeDecl

/-- A node counts itself if it is a type, and then its children. -/
theorem typeCount_eq (n : Node) :
    n.typeCount = (if n.isTypeDecl then 1 else 0) + typeCountAll n.children := by
  obtain ⟨k, s, e, nm, f, cs⟩ := n
  rw [typeCount]
  rfl

/-- The count over the children of a node from position `before.length` on. -/
theorem typeCountAll_eq_countP {n : Node}
    (ih : ∀ c ∈ n.children, c.typeCount = c.addresses.countP c.hasTypeAt)
    (before : List Node) {ns : List Node} (hns : n.children = before ++ ns) :
    typeCountAll ns = (addressesFrom before.length ns).countP n.hasTypeAt := by
  induction ns generalizing before with
  | nil => simp [typeCountAll, addressesFrom]
  | cons c cs ihcs =>
    have hc : n.children[before.length]? = some c := by rw [hns]; simp
    have hmem : c ∈ n.children := by rw [hns]; simp
    have hchild : n.hasTypeAt ∘ (before.length :: ·) = c.hasTypeAt := by
      funext a
      rw [Function.comp_apply, hasTypeAt, hasTypeAt, at?, hc]
    have hrest := ihcs (before ++ [c]) (by rw [hns]; simp)
    rw [List.length_append, List.length_singleton] at hrest
    rw [typeCountAll, addressesFrom, List.countP_append, List.countP_map, hchild, ih c hmem, hrest]

/-- **The count is the number of addresses with a type declaration.** -/
theorem typeCount_eq_countP (n : Node) : n.typeCount = n.addresses.countP n.hasTypeAt := by
  induction n using inductionOn with
  | step n ih =>
    have hchildren : typeCountAll n.children = (addressesFrom 0 n.children).countP n.hasTypeAt :=
      typeCountAll_eq_countP ih [] rfl
    rw [typeCount_eq, addresses_eq, List.countP_cons, hchildren, Nat.add_comm]
    rfl

/-! ## Places of types and methods -/

/-- The places of the type declarations that stand below the root, are reached through named
nodes and have a name, in pre-order. -/
def typePlaces (root : Node) : List (List Nat) :=
  root.addresses.filter fun a => (Forwarding.typeNodeAt? root a).isSome

/-- The position of the first child in the role `f`. -/
def place? (n : Node) (f : String) : Option Nat :=
  n.children.findIdx? (fun c => c.field == some f)

/-- The places of the members of a type, from the type down: the first step leads to the body,
and the others from there. -/
def memberPlaces (n : Node) : List (List Nat) :=
  (n.place? "body").toList.flatMap fun i =>
    n.children[i]?.toList.flatMap fun body =>
      (body.addresses.filter fun a => (body.memberAt? a).isSome).map (i :: ·)

/-- The places of the method declarations of a type, from the type down. -/
def methodPlaces (n : Node) : List (List Nat) :=
  (memberPlaces n).filter fun a => (n.at? a).any (·.kind == "method_declaration")

/-- The child in a role stands at its position. -/
theorem child?_eq_getElem? (n : Node) (f : String) :
    n.child? f = (n.place? f).bind (n.children[·]?) :=
  List.find?_eq_bind_findIdx?_getElem?

/-- One step down stands a child. -/
theorem at?_singleton (n : Node) (i : Nat) : n.at? [i] = n.children[i]? := by
  rw [at?]
  rcases n.children[i]? with _ | c <;> rfl

/-- A member stands one or two steps below the body, where it is found. -/
theorem memberAt?_eq_some {body m : Node} {a : List Nat} (h : body.memberAt? a = some m) :
    body.at? a = some m ∧ ∃ j, a = [j] ∨ ∃ k, a = [j, k] := by
  rcases a with _ | ⟨j, _ | ⟨k, _ | ⟨l, rest⟩⟩⟩
  · exact absurd h (by simp [memberAt?])
  · exact ⟨at?_of_reach? (Option.filter_eq_some_iff.1 h).1, j, .inl rfl⟩
  · rw [memberAt?] at h
    split at h
    · exact ⟨at?_of_reach? h, j, .inr ⟨k, rfl⟩⟩
    · exact absurd h (by simp)
  · exact absurd h (by simp [memberAt?])

/-- The members of a type are the nodes at their places. -/
theorem filterMap_memberPlaces (n : Node) : (memberPlaces n).filterMap n.at? = n.members := by
  rw [memberPlaces, members, child?_eq_getElem?]
  rcases n.place? "body" with _ | i
  · rfl
  rw [Option.toList_some, List.flatMap_singleton, Option.bind_some]
  rcases hi : n.children[i]? with _ | body
  · rfl
  rw [Option.toList_some, List.flatMap_singleton, List.flatMap_singleton, List.filterMap_map,
    List.filterMap_filter]
  refine List.filterMap_congr fun a _ => ?_
  have hat : n.at? (i :: a) = body.at? a := by rw [at?, hi]
  rcases hm : body.memberAt? a with _ | m
  · rfl
  · rw [Function.comp_apply, hat, (memberAt?_eq_some hm).1]
    rfl

/-- And its methods are those at the places of the methods. -/
theorem filterMap_methodPlaces (n : Node) :
    (methodPlaces n).filterMap n.at? = n.methodMembers := by
  rw [methodPlaces, methodMembers, ← filterMap_memberPlaces, List.filterMap_filter,
    List.filter_filterMap]
  refine List.filterMap_congr fun a _ => ?_
  rcases n.at? a with _ | m
  · rfl
  · by_cases hm : m.kind = "method_declaration" <;> simp [Option.filter, hm]

/-- A member stands two or three steps below its type, by way of the body. -/
theorem exists_of_mem_memberPlaces {n : Node} {a : List Nat} (h : a ∈ memberPlaces n) :
    ∃ i body, n.child? "body" = some body ∧ n.children[i]? = some body ∧
      ∃ j, a = [i, j] ∨ ∃ k, a = [i, j, k] := by
  rw [memberPlaces] at h
  rcases hidx : n.place? "body" with _ | i
  · simp [hidx] at h
  rcases hi : n.children[i]? with _ | body
  · simp [hidx, hi] at h
  simp only [hidx, Option.toList_some, List.flatMap_singleton, hi] at h
  obtain ⟨b, hb, rfl⟩ := List.mem_map.1 h
  obtain ⟨m, hm⟩ := Option.isSome_iff_exists.1 (List.mem_filter.1 hb).2
  have hbody : n.child? "body" = some body := by
    rw [child?_eq_getElem?, hidx, Option.bind_some, hi]
  refine ⟨i, body, hbody, hi, ?_⟩
  obtain ⟨-, j, rfl | ⟨k, rfl⟩⟩ := memberAt?_eq_some hm
  · exact ⟨j, .inl rfl⟩
  · exact ⟨j, .inr ⟨k, rfl⟩⟩

end Node

namespace TypeDecl

open Forwarding (typeNodeAt? nameOf?)

variable {src : Bytes}

/-! ## Full names -/

/-- The addresses above a place, the root first. -/
def above (place : List Nat) : List (List Nat) :=
  (List.range place.length).map place.take

/-- The names of the type declarations at some places of a tree. -/
def namesAt (src : Bytes) (root : Node) (places : List (List Nat)) : List String :=
  places.filterMap fun a => (root.at? a).bind (ownName? src)

/-- The full name of a type inside those at some places: the package, their names and its own,
as far as they are not empty, with dots between them. -/
def fullName (src : Bytes) (root : Node) (places : List (List Nat)) (name : String) : String :=
  ".".intercalate
    (((Imports.ofTree src root).package.toList ++ namesAt src root places ++ [name]).filter
      (· != ""))

/-- Above a place are the root and what is above the rest of the way. -/
theorem above_cons (i : Nat) (place : List Nat) :
    above (i :: place) = [] :: (above place).map (i :: ·) := by
  simp [above, List.range_succ_eq_map, Function.comp_def]

/-- **The names that the walk carries along** are those of the types above the place, the root
apart. -/
theorem outerNames_eq (src : Bytes) (root : Node) (place : List Nat) :
    outerNames src root place = namesAt src root (above place).tail := by
  induction place generalizing root with
  | nil => rfl
  | cons i rest ih =>
    rcases rest with _ | ⟨j, is⟩
    · rfl
    rw [above_cons, List.tail_cons, outerNames, namesAt, List.filterMap_map]
    rcases hc : root.children[i]? with _ | c
    · -- nothing stands at a position that the root does not have
      symm
      rw [List.filterMap_eq_nil_iff]
      intro a _
      rw [Function.comp_apply, Node.at?, hc]
      rfl
    · have hat : (fun a => (root.at? a).bind (ownName? src)) ∘ (i :: ·) =
          fun a => (c.at? a).bind (ownName? src) := by
        funext a
        rw [Function.comp_apply, Node.at?, hc]
      simp only [hat, ih c]
      rw [namesAt, above_cons, List.tail_cons, List.filterMap_cons]
      rcases hname : ownName? src c with _ | name <;> simp [Node.at?, hname]

/-! ## What is found -/

/-- The declaration is what a tree says of the type at a place: its parts are read off the node
there, the names above it and the nodes at the places of its methods. -/
structure Describes (src : Bytes) (root : Node) (place : List Nat) (type : Node) (d : TypeDecl) :
    Prop where
  stands : typeNodeAt? root place = some type
  name_eq : nameOf? src type = some d.name
  qualifiedName_eq : d.qualifiedName = fullName src root (above place).tail d.name
  annotations_eq : d.annotations = AnnotationUse.listOfDecl src (Imports.ofTree src root) type
  methods_eq : d.methods = (type.methodPlaces.filterMap type.at?).filterMap
    (MethodDecl.ofNode? src (scopeOf src (Imports.ofTree src root) d.name type))
  span_eq : d.span = Span.ofNode src type (type.child? "body")

/-- **What is extracted at a place describes the type there.** -/
theorem exists_describes {root : Node} {place : List Nat} {d : TypeDecl}
    (h : declaredAt? src root place = some d) : ∃ type, Describes src root place type d := by
  rw [Forwarding.declaredAt?_eq] at h
  obtain ⟨type, hstands, hview⟩ := Option.bind_eq_some_iff.1 h
  obtain ⟨nameNode, hname, rfl⟩ := Option.map_eq_some_iff.1 hview
  refine ⟨type, hstands, by rw [nameOf?, hname]; rfl, ?_, rfl, ?_, rfl⟩
  · rw [fullName, ← outerNames_eq]
    rfl
  · rw [Node.filterMap_methodPlaces, ← methodNodes_eq]

/-- Something is extracted exactly where a type stands. -/
theorem isSome_declaredAt? (src : Bytes) (root : Node) (place : List Nat) :
    (declaredAt? src root place).isSome = (typeNodeAt? root place).isSome := by
  rw [Forwarding.declaredAt?_eq]
  rcases htype : typeNodeAt? root place with _ | type
  · rfl
  · -- a type that stands at its place has a name, so it has a view
    rw [typeNodeAt?] at htype
    split at htype
    · exact absurd htype (by simp)
    · have hnamed := (Option.filter_eq_some_iff.1 htype).2
      rw [Bool.and_eq_true] at hnamed
      simpa [ofNode?] using hnamed.2

/-- What a list is mapped to, each with the item that it comes from. -/
theorem forall₂_filterMap {α β : Type} (f : α → Option β) (xs : List α) :
    List.Forall₂ (fun a b => f a = some b) (xs.filter fun a => (f a).isSome) (xs.filterMap f) := by
  induction xs with
  | nil => exact .nil
  | cons x xs ih =>
    rcases hx : f x with _ | b
    · rw [List.filter_cons_of_neg (by simp [hx]), List.filterMap_cons_none hx]
      exact ih
    · rw [List.filter_cons_of_pos (by simp [hx]), List.filterMap_cons_some hx]
      exact .cons hx ih

/-- The declarations of a tree, each with the place it was found at. -/
theorem forall₂_declaredAt? (src : Bytes) (root : Node) :
    List.Forall₂ (fun place d => declaredAt? src root place = some d) root.typePlaces
      (listOfTree src root) := by
  have hplaces : root.typePlaces =
      root.addresses.filter fun a => (declaredAt? src root a).isSome := by
    simp only [Node.typePlaces, isSome_declaredAt?]
  rw [hplaces, listOfTree_eq_filterMap]
  exact forall₂_filterMap _ _

/-- So as many declarations are found as there are places of types. -/
theorem length_listOfTree (src : Bytes) (root : Node) :
    (listOfTree src root).length = root.addresses.countP fun a => (typeNodeAt? root a).isSome := by
  rw [← (forall₂_declaredAt? src root).length_eq, Node.typePlaces, List.countP_eq_length_filter]

/-- Where a type stands, taken apart. -/
theorem typeNodeAt?_eq_some_iff {root type : Node} {a : List Nat} :
    typeNodeAt? root a = some type ↔
      a ≠ [] ∧ root.reach? a = some type ∧ type.isTypeDecl = true ∧
        (type.child? "name").isSome = true := by
  rw [typeNodeAt?]
  by_cases ha : a = []
  · simp [ha]
  · rw [if_neg ha, Option.filter_eq_some_iff, Bool.and_eq_true]
    exact ⟨fun h => ⟨ha, h⟩, fun h => h.2⟩

/-- The places of types are the addresses at which one stands. -/
theorem mem_typePlaces {root : Node} {a : List Nat} :
    a ∈ root.typePlaces ↔ ∃ type, typeNodeAt? root a = some type := by
  rw [Node.typePlaces, List.mem_filter, Option.isSome_iff_exists, Node.mem_addresses]
  constructor
  · exact fun h => h.2
  · rintro ⟨type, h⟩
    have hat := Node.at?_of_reach? (typeNodeAt?_eq_some_iff.1 h).2.1
    exact ⟨by rw [hat]; rfl, type, h⟩

/-- The count sees a type there. -/
theorem hasTypeAt_of_mem_typePlaces {root : Node} {a : List Nat} (h : a ∈ root.typePlaces) :
    root.hasTypeAt a = true := by
  obtain ⟨type, htype⟩ := mem_typePlaces.1 h
  obtain ⟨-, hreach, hdecl, -⟩ := typeNodeAt?_eq_some_iff.1 htype
  rw [Node.hasTypeAt, Node.at?_of_reach? hreach]
  exact hdecl

/-- Of two ways to pick from a list, the narrower one picks as many only if it picks the
same. -/
theorem countP_eq_countP_iff {α : Type} {p q : α → Bool} {xs : List α}
    (h : ∀ x ∈ xs, p x = true → q x = true) :
    xs.countP p = xs.countP q ↔ ∀ x ∈ xs, q x = true → p x = true := by
  have hp : xs.countP p = (xs.filter q).countP p := by
    rw [List.countP_filter]
    refine List.countP_congr fun x hx => ?_
    rw [Bool.and_eq_true]
    exact ⟨fun hpx => ⟨hpx, h x hx hpx⟩, fun hpq => hpq.1⟩
  have hq : xs.countP q = (xs.filter q).length := List.countP_eq_length_filter
  rw [hp, hq, List.countP_eq_length]
  simp only [List.mem_filter, and_imp]

/-- No type declaration is itself the body of another. -/
def NoTypeAsBody (root : Node) : Prop :=
  ∀ place type body, root.at? place = some type → type.isTypeDecl = true →
    type.child? "body" = some body → body.isTypeDecl = false

/-- A type does not stand where another has its body. -/
theorem ne_append_of_noTypeAsBody {root type type' body : Node} {p q : List Nat} {i : Nat}
    (h : NoTypeAsBody root) (hp : typeNodeAt? root p = some type)
    (hq : typeNodeAt? root q = some type') (hbody : type'.child? "body" = some body)
    (hi : type'.children[i]? = some body) : p ≠ q ++ [i] := by
  rintro rfl
  obtain ⟨-, hreach, hdecl, -⟩ := typeNodeAt?_eq_some_iff.1 hp
  obtain ⟨-, hreach', hdecl', -⟩ := typeNodeAt?_eq_some_iff.1 hq
  have hat := Node.at?_of_reach? hreach
  rw [Node.at?_append, Node.at?_of_reach? hreach', Option.bind_some, Node.at?_singleton, hi,
    Option.some.injEq] at hat
  have hnot := h q type' body (Node.at?_of_reach? hreach') hdecl' hbody
  rw [hat, hdecl] at hnot
  exact absurd hnot (by simp)

/-- **A method belongs to one type.** Its place is two or three steps below the type. If it
were two below one type and three below another, the first would be the body of the second. -/
theorem eq_of_mem_methodPlaces {root type type' : Node} {p q a : List Nat}
    (h : NoTypeAsBody root) (hp : typeNodeAt? root p = some type)
    (hq : typeNodeAt? root q = some type') (ha : a ∈ type.methodPlaces.map (p ++ ·))
    (ha' : a ∈ type'.methodPlaces.map (q ++ ·)) : p = q := by
  obtain ⟨b, hb, rfl⟩ := List.mem_map.1 ha
  obtain ⟨b', hb', heq⟩ := List.mem_map.1 ha'
  obtain ⟨i, body, hbody, hi, j, hj⟩ :=
    Node.exists_of_mem_memberPlaces (List.mem_filter.1 hb).1
  obtain ⟨i', body', hbody', hi', j', hj'⟩ :=
    Node.exists_of_mem_memberPlaces (List.mem_filter.1 hb').1
  rcases hj with rfl | ⟨k, rfl⟩
  · rcases hj' with rfl | ⟨k', rfl⟩
    · exact (List.append_inj_left' heq rfl).symm
    · have hsplit : (q ++ [i']) ++ [j', k'] = p ++ [i, j] := by simpa using heq
      exact absurd (List.append_inj_left' hsplit rfl).symm
        (ne_append_of_noTypeAsBody h hp hq hbody' hi')
  · rcases hj' with rfl | ⟨k', rfl⟩
    · have hsplit : q ++ [i', j'] = (p ++ [i]) ++ [j, k] := by simpa using heq
      exact absurd (List.append_inj_left' hsplit rfl)
        (ne_append_of_noTypeAsBody h hq hp hbody hi)
    · exact (List.append_inj_left' heq rfl).symm

/-! ## Where there is no type -/

/-- A tree that counts no type has none anywhere. -/
theorem hasTypeAt_eq_false_of_typeCount {n : Node} (h : n.typeCount = 0) (a : List Nat) :
    n.hasTypeAt a = false := by
  rcases hat : n.at? a with _ | m
  · rw [Node.hasTypeAt, hat]
    rfl
  · have hnone := List.countP_eq_zero.1 (n.typeCount_eq_countP ▸ h) a
      (Node.mem_addresses.2 (by rw [hat]; rfl))
    simpa using hnone

/-- In particular it is none itself. -/
theorem isTypeDecl_eq_false_of_typeCount {n : Node} (h : n.typeCount = 0) :
    n.isTypeDecl = false :=
  hasTypeAt_eq_false_of_typeCount h []

/-- So nothing is found below it. -/
theorem below_eq_nil_of_typeCount {n : Node} (h : n.typeCount = 0) (imports : Imports)
    (outer : List String) : below src imports outer n = [] := by
  rw [below_eq_filterMap, List.filterMap_eq_nil_iff]
  intro a _
  rw [declaredBelow?]
  split
  · rfl
  · rw [Option.bind_eq_none_iff]
    intro m hreach
    have htype := hasTypeAt_eq_false_of_typeCount h a
    rw [Node.hasTypeAt, Node.at?_of_reach? hreach, Option.any_some] at htype
    rw [declared?, htype]
    rfl

/-- **Nodes without a type can be left out of the walk.** -/
theorem inNodes_filter {p : Node → Bool} {ns : List Node}
    (h : ∀ n ∈ ns, p n = false → n.typeCount = 0) (imports : Imports) (outer : List String) :
    inNodes src imports outer (ns.filter p) = inNodes src imports outer ns := by
  induction ns with
  | nil => rfl
  | cons n ns ih =>
    have hrest := ih fun m hm => h m (List.mem_cons_of_mem _ hm)
    rcases hp : p n with _ | _
    · have hcount := h n List.mem_cons_self hp
      have htype := isTypeDecl_eq_false_of_typeCount hcount
      rw [List.filter_cons_of_neg (by simp [hp]), hrest, inNodes_cons,
        below_eq_nil_of_typeCount hcount, declared?, htype]
      simp
    · rw [List.filter_cons_of_pos hp, inNodes_cons, inNodes_cons, hrest]

/-- **Every named type is found once.** The declarations of a tree are those of the places of its
named types, in pre-order, and each says what the tree says of the type there. Their number is
at most the count of type declarations, and the same exactly when every type declaration of the
tree is one of those found. Unless a type is the body of another, no method is one of two
types. -/
theorem listOfTree_census (src : Bytes) (root : Node) :
    (∀ place, place ∈ root.typePlaces ↔ ∃ type, place ≠ [] ∧ root.reach? place = some type ∧
      type.isTypeDecl = true ∧ (type.child? "name").isSome = true) ∧
    root.typePlaces.Pairwise (· < ·) ∧
    List.Forall₂ (fun place d => ∃ type, Describes src root place type d) root.typePlaces
      (listOfTree src root) ∧
    (listOfTree src root).length ≤ root.typeCount ∧
    ((listOfTree src root).length = root.typeCount ↔
      ∀ place type, root.at? place = some type → type.isTypeDecl = true →
        place ∈ root.typePlaces) ∧
    (NoTypeAsBody root → ∀ p q type type' a, typeNodeAt? root p = some type →
      typeNodeAt? root q = some type' → a ∈ type.methodPlaces.map (p ++ ·) →
        a ∈ type'.methodPlaces.map (q ++ ·) → p = q) := by
  have hmem : ∀ place ∈ root.addresses, (typeNodeAt? root place).isSome = true →
      root.hasTypeAt place = true := fun place hplace hsome =>
    hasTypeAt_of_mem_typePlaces (List.mem_filter.2 ⟨hplace, hsome⟩)
  refine ⟨fun place => ?_, root.pairwise_addresses.filter _,
    (forall₂_declaredAt? src root).imp fun _ _ => exists_describes, ?_, ?_,
    fun hbody p q type type' a => eq_of_mem_methodPlaces hbody⟩
  · simp only [mem_typePlaces, typeNodeAt?_eq_some_iff]
  · rw [length_listOfTree, Node.typeCount_eq_countP]
    exact List.countP_mono_left hmem
  · rw [length_listOfTree, Node.typeCount_eq_countP, countP_eq_countP_iff hmem]
    constructor
    · intro h place type hat hdecl
      have haddress : place ∈ root.addresses := Node.mem_addresses.2 (by rw [hat]; rfl)
      have htype : root.hasTypeAt place = true := by rw [Node.hasTypeAt, hat]; exact hdecl
      exact List.mem_filter.2 ⟨haddress, h place haddress htype⟩
    · intro h place haddress htype
      obtain ⟨type, hat, hdecl⟩ := (Option.any_eq_true _ _).1 htype
      exact (List.mem_filter.1 (h place type hat hdecl)).2

end TypeDecl

namespace NestedClass

/-- A class with a class in it, each with one method. -/
def src : Bytes :=
  Utf8.encode "class A{void m(){}class B{void m(){}}}"

/-- The inner class. -/
def innerClass : Node :=
  .mk "class_declaration" 18 37 true none
    [.mk "identifier" 24 25 true (some "name") [],
      .mk "class_body" 25 37 true (some "body")
        [.mk "method_declaration" 26 36 true none
          [.mk "identifier" 31 32 true (some "name") [],
            .mk "formal_parameters" 32 34 true (some "parameters") [],
            .mk "block" 34 36 true (some "body") []]]]

/-- The outer class. -/
def outerClass : Node :=
  .mk "class_declaration" 0 38 true none
    [.mk "identifier" 6 7 true (some "name") [],
      .mk "class_body" 7 38 true (some "body")
        [.mk "method_declaration" 8 18 true none
          [.mk "identifier" 13 14 true (some "name") [],
            .mk "formal_parameters" 14 16 true (some "parameters") [],
            .mk "block" 16 18 true (some "body") []],
          innerClass]]

/-- The whole file. -/
def unit : Node := .mk "program" 0 38 true none [outerClass]

end NestedClass

open NestedClass TypeDecl Forwarding in
/-- In a file with a nested class both classes are found, and the method of the one is none of
the other. -/
theorem nested_methods_apart :
    NoTypeAsBody unit ∧ typeNodeAt? unit [0] = some outerClass ∧
      typeNodeAt? unit [0, 1, 1] = some innerClass ∧
      outerClass.methodPlaces = [[1, 0]] ∧ innerClass.methodPlaces = [[1, 0]] ∧
      ∀ a ∈ outerClass.methodPlaces.map ([0] ++ ·),
        a ∉ innerClass.methodPlaces.map ([0, 1, 1] ++ ·) := by
  have hbody : NoTypeAsBody unit := by
    intro place type body hat htype hchild
    have hall : ∀ place ∈ unit.addresses, (unit.at? place).all (fun type =>
        !type.isTypeDecl || (type.child? "body").all (fun body => !body.isTypeDecl)) = true := by
      decide +kernel
    have hplace := hall place (Node.mem_addresses.2 (by rw [hat]; rfl))
    simpa [hat, htype, hchild] using hplace
  have houter : typeNodeAt? unit [0] = some outerClass := rfl
  have hinner : typeNodeAt? unit [0, 1, 1] = some innerClass := rfl
  refine ⟨hbody, houter, hinner, by decide +kernel, by decide +kernel, fun a ha ha' => ?_⟩
  have heq := (listOfTree_census src unit).2.2.2.2.2 hbody [0] [0, 1, 1] outerClass innerClass a
    houter hinner ha ha'
  exact absurd heq (by decide)

open NestedClass TypeDecl in
/-- A type declaration at the root lends its name to no type below it. -/
theorem root_name_not_in_qualifiedName :
    ¬ ∀ (src : Bytes) (root : Node),
      List.Forall₂ (fun place d => d.qualifiedName = fullName src root (above place) d.name)
        root.typePlaces (listOfTree src root) := by
  intro h
  have hplaces : outerClass.typePlaces = [[1, 1]] := by decide +kernel
  have hfound : (listOfTree src outerClass).map (fun d => (d.name, d.qualifiedName)) =
      [("B", "B")] := by
    decide +kernel
  have hfull : fullName src outerClass (above [1, 1]) "B" = "A.B" := by decide +kernel
  obtain ⟨d, ds, hlist⟩ : ∃ d ds, listOfTree src outerClass = d :: ds := ⟨_, _, rfl⟩
  have hnamed := h src outerClass
  rw [hplaces, hlist, List.forall₂_cons] at hnamed
  rw [hlist, List.map_cons, List.cons.injEq, Prod.mk.injEq] at hfound
  obtain ⟨⟨hname, hqualified⟩, -⟩ := hfound
  rw [hname, hqualified, hfull] at hnamed
  exact absurd hnamed.1 (by decide)

end CallbackLint
