import CallbackLint.Declaration.OfNode
import CallbackLint.Proofs.Address
/-!
# Extraction, address by address

The search for declarations walks down a tree and carries along the names of the types it
is in. Here its result is read off the tree without the walk: `declaredAt?` says what is
extracted at one address, from the node there and the names on the way to it, and the
declarations of a tree are what is extracted at its addresses, in pre-order
(`listOfTree_eq_filterMap`).
-/

namespace CallbackLint

namespace TypeDecl

variable (src : Bytes)

/-- The name of a type declaration, if the node is one and has a name. -/
def ownName? (n : Node) : Option String :=
  if n.isTypeDecl then (n.child? "name").map (Node.text src) else none

/-- The names of the types on the way down to an address, outermost first. Neither the root
nor the node at the address counts. -/
def outerNames (n : Node) : List Nat → List String
  | i :: j :: is =>
    match n.children[i]? with
    | some c => (ownName? src c).toList ++ outerNames c (j :: is)
    | none => []
  | _ => []

/-- The declaration of a node that is a type declaration, inside the types named by
`outer`. -/
def declared? (imports : Imports) (outer : List String) (n : Node) : Option TypeDecl :=
  if n.isTypeDecl then ofNode? src imports outer n else none

/-- What is extracted at an address below a node that stands inside the types named by
`outer`. -/
def declaredBelow? (imports : Imports) (outer : List String) (n : Node) (address : List Nat) :
    Option TypeDecl :=
  if address = [] then none
  else (n.reach? address).bind (declared? src imports (outer ++ outerNames src n address))

/-- The declaration that is extracted at an address of a tree. -/
def declaredAt? (root : Node) (address : List Nat) : Option TypeDecl :=
  declaredBelow? src (Imports.ofTree src root) [] root address

variable {src}

/-- One step of the walk: below a named child the names around are one more if the child is
a type with a name. -/
theorem declaredBelow?_cons {imports : Imports} {outer : List String} {n c : Node} {i : Nat}
    {address : List Nat} (hc : n.children[i]? = some c) (hnamed : c.named = true)
    (hne : address ≠ []) :
    declaredBelow? src imports outer n (i :: address) =
      declaredBelow? src imports (outer ++ (ownName? src c).toList) c address := by
  obtain ⟨j, is, rfl⟩ := List.exists_cons_of_ne_nil hne
  rw [declaredBelow?, declaredBelow?, if_neg (List.cons_ne_nil _ _), if_neg hne, Node.reach?, hc,
    outerNames, hc, List.append_assoc]
  simp only [hnamed, if_true]

theorem declaredBelow?_singleton {imports : Imports} {outer : List String} {n c : Node} {i : Nat}
    (hc : n.children[i]? = some c) (hnamed : c.named = true) :
    declaredBelow? src imports outer n [i] = declared? src imports outer c := by
  rw [declaredBelow?, if_neg (List.cons_ne_nil _ _), Node.reach?, hc]
  simp [hnamed, Node.reach?, outerNames]

/-- Nothing is extracted below a child that is not named. -/
theorem declaredBelow?_of_not_named {imports : Imports} {outer : List String} {n c : Node}
    {i : Nat} (hc : n.children[i]? = some c) (hnamed : ¬ c.named = true) (address : List Nat) :
    declaredBelow? src imports outer n (i :: address) = none := by
  rw [declaredBelow?, if_neg (List.cons_ne_nil _ _), Node.reach?, hc]
  simp [hnamed]

/-- What the walk yields at one of a list of sibling nodes: the declaration of the node, if
it is one, and what is declared below it. -/
theorem inNodes_cons (imports : Imports) (outer : List String) (n : Node) (ns : List Node) :
    inNodes src imports outer (n :: ns) =
      (if n.named then (declared? src imports outer n).toList ++
          below src imports (outer ++ (ownName? src n).toList) n
        else []) ++ inNodes src imports outer ns := by
  rw [inNodes]
  congr 1
  by_cases hnamed : n.named
  · by_cases htype : n.isTypeDecl
    · rcases hname : n.child? "name" with _ | name <;>
        simp [hnamed, htype, declared?, ownName?, ofNode?, hname]
    · simp [hnamed, htype, declared?, ownName?]
  · simp [hnamed]

theorem below_eq_inNodes (imports : Imports) (outer : List String) (n : Node) :
    below src imports outer n = inNodes src imports outer n.children := by
  obtain ⟨k, s, e, nm, f, cs⟩ := n
  rw [below]
  rfl

/-- The walk over sibling nodes, node by node: it goes into the named ones. -/
theorem inNodes_eq_flatMap (imports : Imports) (outer : List String) (ns : List Node) :
    inNodes src imports outer ns = (ns.filter Node.named).flatMap fun n =>
      (declared? src imports outer n).toList ++
        below src imports (outer ++ (ownName? src n).toList) n := by
  induction ns with
  | nil => rfl
  | cons n ns ih =>
    rw [inNodes_cons, ih]
    by_cases hn : n.named = true
    · rw [if_pos hn, List.filter_cons_of_pos hn, List.flatMap_cons]
    · rw [if_neg hn, List.filter_cons_of_neg hn, List.nil_append]

/-- What is extracted at a named child and below it, address by address. -/
theorem filterMap_addresses_child {imports : Imports} {outer : List String} {n c : Node} {i : Nat}
    (hc : n.children[i]? = some c) (hnamed : c.named = true)
    (ih : ∀ outer, below src imports outer c =
      c.addresses.filterMap (declaredBelow? src imports outer c)) :
    (c.addresses.map (i :: ·)).filterMap (declaredBelow? src imports outer n) =
      (declared? src imports outer c).toList ++
        below src imports (outer ++ (ownName? src c).toList) c := by
  have hself : declaredBelow? src imports (outer ++ (ownName? src c).toList) c [] = none :=
    if_pos rfl
  have hbelow : ∀ a ∈ Node.addressesFrom 0 c.children,
      declaredBelow? src imports outer n (i :: a) =
        declaredBelow? src imports (outer ++ (ownName? src c).toList) c a := by
    intro a ha
    obtain ⟨j, m, rest, -, -, rfl⟩ := Node.mem_addressesFrom.1 ha
    exact declaredBelow?_cons hc hnamed (List.cons_ne_nil _ _)
  rw [Node.filterMap_addresses_map, declaredBelow?_singleton hc hnamed,
    List.filterMap_congr hbelow, ih, Node.addresses_eq, List.filterMap_cons_none hself]

/-- **The walk below a node** yields what is extracted at the addresses there. -/
theorem below_eq_filterMap (imports : Imports) (outer : List String) (n : Node) :
    below src imports outer n =
      n.addresses.filterMap (declaredBelow? src imports outer n) := by
  induction n using Node.inductionOn generalizing outer with
  | step n ih =>
    have hroot : declaredBelow? src imports outer n [] = none := if_pos rfl
    rw [below_eq_inNodes, inNodes_eq_flatMap, Node.addresses_eq, List.filterMap_cons_none hroot]
    refine (Node.filterMap_below (fun i c hc hnamed => ?_) (fun i c hc hnamed a => ?_)).symm
    · exact filterMap_addresses_child hc hnamed (ih c (List.mem_of_getElem? hc))
    · exact declaredBelow?_of_not_named hc (by simp [hnamed]) a

/-- **The declarations of a tree are what is extracted at its addresses**, in pre-order. -/
theorem listOfTree_eq_filterMap (src : Bytes) (root : Node) :
    listOfTree src root = root.addresses.filterMap (declaredAt? src root) :=
  below_eq_filterMap _ _ _

end TypeDecl

end CallbackLint
