import CallbackLint.Declaration.OfNode
import CallbackLint.Proofs.Address
/-!
# The members of a type

A member of a type is a named child of its body. In an enumeration the constants come first, and
the rest of the body is one child of its own: that one is no member, and its named children are.
Here this is said of the address at which a node stands below the body (`memberAt?`), and the
members of a type are what stands at such addresses, in pre-order (`members`).

The extraction of a type lists the same nodes (`TypeDecl.members_eq`). What is said of methods
and fields can so be said of the tree alone.
-/

namespace CallbackLint

namespace Node

/-- The member that stands at an address below the body of a type: one step down, unless the
rest of an enumeration stands there, or two steps down, by way of that rest. -/
def memberAt? (body : Node) : List Nat → Option Node
  | [i] => (body.reach? [i]).filter (·.kind != "enum_body_declarations")
  | [i, j] =>
    if (body.reach? [i]).any (·.kind == "enum_body_declarations") then body.reach? [i, j] else none
  | _ => none

/-- The members of a type, in pre-order. -/
def members (type : Node) : List Node :=
  (type.child? "body").toList.flatMap fun body => body.addresses.filterMap body.memberAt?

/-- The method declarations among the members of a type. -/
def methodMembers (type : Node) : List Node :=
  type.members.filter (·.kind == "method_declaration")

/-- The declarations of fields and constants among the members of a type. -/
def fieldMembers (type : Node) : List Node :=
  type.members.filter fun m => m.kind == "field_declaration" || m.kind == "constant_declaration"

variable {n c : Node} {i : Nat}

/-- One step down leads to a named child. -/
theorem reach?_singleton (h : n.children[i]? = some c) :
    n.reach? [i] = if c.named then some c else none := by
  rw [reach?, h]
  rfl

/-- Two steps down lead to a named child of a named child. -/
theorem reach?_pair (h : n.children[i]? = some c) (hnamed : c.named = true) (j : Nat) :
    n.reach? [i, j] = c.reach? [j] := by
  rw [reach?, h]
  simp only [hnamed, if_true]

/-- Nothing is picked below a node where nothing is picked behind a step. -/
theorem filterMap_addressesFrom_eq_nil {β : Type} {f : List Nat → Option β} {ns : List Node}
    (h : ∀ i rest, f (i :: rest) = none) : (addressesFrom 0 ns).filterMap f = [] := by
  rw [List.filterMap_eq_nil_iff]
  intro a ha
  obtain ⟨j, m, rest, -, -, rfl⟩ := mem_addressesFrom.1 ha
  exact h _ rest

/-- The named children of a node are what stands one step down. -/
theorem filterMap_one_step (n : Node) {f : List Nat → Option Node}
    (hone : ∀ i, f [i] = n.reach? [i]) (hmore : ∀ i j rest, f (i :: j :: rest) = none) :
    (addressesFrom 0 n.children).filterMap f = n.namedChildren := by
  have hnamed : ∀ (i : Nat) (c : Node), n.children[i]? = some c → c.named = true →
      (c.addresses.map (i :: ·)).filterMap f = [c] := by
    intro i c hc hn
    rw [filterMap_addresses_map, hone, reach?_singleton hc, if_pos hn,
      filterMap_addressesFrom_eq_nil (hmore i)]
    rfl
  have hother : ∀ (i : Nat) (c : Node), n.children[i]? = some c → c.named = false →
      ∀ a, f (i :: a) = none := by
    intro i c hc hn a
    rcases a with _ | ⟨j, rest⟩
    · rw [hone, reach?_singleton hc, if_neg (by simp [hn])]
    · exact hmore i j rest
  rw [filterMap_below hnamed hother]
  exact List.flatMap_singleton' _

/-- **What is picked in a named child of a body**: the child itself, or if it is the rest of an
enumeration, the named children of that. -/
theorem filterMap_memberAt? {body : Node} (hc : body.children[i]? = some c)
    (hnamed : c.named = true) :
    (c.addresses.map (i :: ·)).filterMap body.memberAt? =
      if c.kind == "enum_body_declarations" then c.namedChildren else [c] := by
  have hreach : body.reach? [i] = some c := by rw [reach?_singleton hc, if_pos hnamed]
  rw [filterMap_addresses_map]
  by_cases hrest : c.kind = "enum_body_declarations"
  · have hself : body.memberAt? [i] = none := by simp [memberAt?, hreach, hrest, Option.filter]
    have hone : ∀ j, body.memberAt? [i, j] = c.reach? [j] := by
      intro j
      simp [memberAt?, hreach, hrest, reach?_pair hc hnamed]
    rw [hself, filterMap_one_step c hone fun j k rest => rfl, if_pos (by simpa using hrest)]
    rfl
  · have hself : body.memberAt? [i] = some c := by simp [memberAt?, hreach, hrest, Option.filter]
    have hmore : ∀ j rest, body.memberAt? (i :: j :: rest) = none := by
      intro j rest
      rcases rest with _ | ⟨k, rest⟩
      · simp [memberAt?, hreach, hrest]
      · rfl
    rw [hself, filterMap_addressesFrom_eq_nil hmore, if_neg (by simpa using hrest)]
    rfl

/-- Nothing is picked in a child that is not named. -/
theorem memberAt?_eq_none {body : Node} (hc : body.children[i]? = some c)
    (hnamed : c.named = false) (a : List Nat) : body.memberAt? (i :: a) = none := by
  have hreach : body.reach? [i] = none := by rw [reach?_singleton hc, if_neg (by simp [hnamed])]
  rcases a with _ | ⟨j, _ | ⟨k, rest⟩⟩
  · simp [memberAt?, hreach]
  · simp [memberAt?, hreach]
  · rfl

end Node

namespace TypeDecl

/-- **The members that are extracted are the members of the type.** -/
theorem members_eq (n : Node) : members n = n.members := by
  rw [members, Node.members]
  rcases n.child? "body" with _ | body
  · rfl
  rw [Option.toList_some, List.flatMap_singleton, Node.addresses_eq,
    List.filterMap_cons_none rfl]
  refine (Node.filterMap_below (fun i c hc hnamed => ?_) (fun i c hc hnamed a => ?_)).symm
  · exact Node.filterMap_memberAt? hc hnamed
  · exact Node.memberAt?_eq_none hc hnamed a

/-- So are the methods among them. -/
theorem methodNodes_eq (n : Node) : methodNodes n = n.methodMembers := by
  rw [methodNodes, members_eq, Node.methodMembers]

/-- And the fields. -/
theorem fieldNodes_eq (n : Node) : fieldNodes n = n.fieldMembers := by
  rw [fieldNodes, members_eq, Node.fieldMembers]

end TypeDecl

end CallbackLint
