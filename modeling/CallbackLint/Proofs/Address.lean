import CallbackLint.Tree
import Mathlib.Data.List.Lex
/-!
# Addresses in a tree

A node of a tree stands at an address, the positions among the children on the way down to
it. The addresses of a tree are listed in pre-order (`addresses`): a node comes before what
is below it, and what is below an earlier child before what is below a later one. That is
the lexicographic order (`pairwise_addresses`), and the list has every address at which
there is a node (`mem_addresses`).

`reach?` follows an address through named nodes only, as the search for declarations does.
-/

namespace CallbackLint

namespace Node

/-- Induction over a tree, from the children of a node to the node. -/
theorem inductionOn {motive : Node → Prop} (n : Node)
    (step : ∀ n : Node, (∀ c ∈ n.children, motive c) → motive n) : motive n :=
  @Node.rec motive (fun cs => ∀ c ∈ cs, motive c)
    (fun k s e nm f cs ih => step (.mk k s e nm f cs) ih)
    (fun c hc => absurd hc (List.not_mem_nil))
    (fun n ns ihn ihns c hc => by
      rcases List.mem_cons.1 hc with rfl | hc
      · exact ihn
      · exact ihns c hc)
    n

mutual

/-- The addresses of the nodes of a tree in pre-order, the root first. -/
def addresses : Node → List (List Nat)
  | .mk _ _ _ _ _ cs => [] :: addressesFrom 0 cs

/-- The addresses of the nodes of some trees that are children from position `i` on. -/
def addressesFrom (i : Nat) : List Node → List (List Nat)
  | [] => []
  | n :: ns => (addresses n).map (i :: ·) ++ addressesFrom (i + 1) ns

end

/-- The node at an address, provided all nodes on the way to it are named, itself included;
the root is not asked. -/
def reach? (n : Node) : List Nat → Option Node
  | [] => some n
  | i :: is =>
    match n.children[i]? with
    | some c => if c.named then c.reach? is else none
    | none => none

theorem addresses_eq (n : Node) : n.addresses = [] :: addressesFrom 0 n.children := by
  obtain ⟨k, s, e, nm, f, cs⟩ := n
  rw [addresses]
  rfl

/-- An address among children from position `i` on leads into one of them. -/
theorem mem_addressesFrom {ns : List Node} {i : Nat} {address : List Nat} :
    address ∈ addressesFrom i ns ↔
      ∃ j n rest, ns[j]? = some n ∧ rest ∈ n.addresses ∧ address = (i + j) :: rest := by
  induction ns generalizing i with
  | nil => simp [addressesFrom]
  | cons n ns ih =>
    rw [addressesFrom, List.mem_append, List.mem_map, ih]
    constructor
    · rintro (⟨rest, hrest, rfl⟩ | ⟨j, m, rest, hm, hrest, rfl⟩)
      · exact ⟨0, n, rest, rfl, hrest, rfl⟩
      · exact ⟨j + 1, m, rest, hm, hrest, by rw [Nat.add_assoc, Nat.add_comm 1 j]⟩
    · rintro ⟨j, m, rest, hm, hrest, rfl⟩
      rcases j with _ | j
      · exact .inl ⟨rest, Option.some.inj hm ▸ hrest, rfl⟩
      · exact .inr ⟨j, m, rest, hm, hrest, by rw [Nat.add_assoc, Nat.add_comm 1 j]⟩

/-- What is picked in a child: at the child itself, and below it. -/
theorem filterMap_addresses_map {β : Type} (f : List Nat → Option β) (c : Node) (i : Nat) :
    (c.addresses.map (i :: ·)).filterMap f =
      (f [i]).toList ++ (addressesFrom 0 c.children).filterMap fun a => f (i :: a) := by
  rw [addresses_eq, List.map_cons, List.filterMap_cons, List.filterMap_map]
  rcases f [i] with _ | b <;> rfl

/-- **What is picked below a node is picked child by child**, in the named ones if nothing is
picked in the others. -/
theorem filterMap_addressesFrom {β : Type} {f : List Nat → Option β} {g : Node → List β}
    {ns : List Node} {i : Nat}
    (hnamed : ∀ j c, ns[j]? = some c → c.named = true →
      (c.addresses.map ((i + j) :: ·)).filterMap f = g c)
    (hother : ∀ j c, ns[j]? = some c → c.named = false → ∀ a, f ((i + j) :: a) = none) :
    (addressesFrom i ns).filterMap f = (ns.filter named).flatMap g := by
  induction ns generalizing i with
  | nil => rfl
  | cons n ns ih =>
    have hshift : ∀ j, i + 1 + j = i + (j + 1) := by
      intro j
      omega
    have hrest : (addressesFrom (i + 1) ns).filterMap f = (ns.filter named).flatMap g := by
      refine ih (fun j c hc hn => ?_) (fun j c hc hn a => ?_)
      · rw [hshift]
        exact hnamed (j + 1) c hc hn
      · rw [hshift]
        exact hother (j + 1) c hc hn a
    rw [addressesFrom, List.filterMap_append, hrest]
    by_cases hn : n.named = true
    · rw [List.filter_cons_of_pos hn, List.flatMap_cons, ← hnamed 0 n rfl hn]
      rfl
    · have hnone : ∀ a ∈ n.addresses, (f ∘ (i :: ·)) a = none := fun a _ =>
        hother 0 n rfl (by simpa using hn) a
      rw [List.filter_cons_of_neg hn, List.filterMap_map, List.filterMap_eq_nil_iff.2 hnone]
      rfl

/-- The same for all children of a node. -/
theorem filterMap_below {β : Type} {f : List Nat → Option β} {g : Node → List β} {n : Node}
    (hnamed : ∀ i c, n.children[i]? = some c → c.named = true →
      (c.addresses.map (i :: ·)).filterMap f = g c)
    (hother : ∀ i c, n.children[i]? = some c → c.named = false → ∀ a, f (i :: a) = none) :
    (addressesFrom 0 n.children).filterMap f = n.namedChildren.flatMap g := by
  refine filterMap_addressesFrom (fun i c hc hn => ?_) (fun i c hc hn a => ?_)
  · rw [Nat.zero_add]
    exact hnamed i c hc hn
  · rw [Nat.zero_add]
    exact hother i c hc hn a

/-- **The list of addresses is complete**: it has exactly those at which there is a node. -/
theorem mem_addresses {n : Node} {address : List Nat} :
    address ∈ n.addresses ↔ (n.at? address).isSome := by
  induction address generalizing n with
  | nil => simp [addresses_eq, at?]
  | cons i is ih =>
    rw [addresses_eq, List.mem_cons, mem_addressesFrom, at?]
    constructor
    · rintro (h | ⟨j, c, rest, hc, hrest, h⟩)
      · exact absurd h (List.cons_ne_nil _ _)
      · obtain ⟨rfl, rfl⟩ := List.cons.inj h
        rw [Nat.zero_add, hc]
        exact ih.1 hrest
    · intro h
      rcases hc : n.children[i]? with _ | c
      · rw [hc] at h
        exact absurd h (by simp)
      · rw [hc] at h
        exact .inr ⟨i, c, is, hc, ih.2 h, by rw [Nat.zero_add]⟩

theorem pairwise_addressesFrom {ns : List Node} {i : Nat}
    (h : ∀ n ∈ ns, n.addresses.Pairwise (· < ·)) : (addressesFrom i ns).Pairwise (· < ·) := by
  induction ns generalizing i with
  | nil => simp [addressesFrom]
  | cons n ns ih =>
    rw [addressesFrom, List.pairwise_append]
    -- Within a child the order is that of the child, and across children the position decides.
    refine ⟨?_, ih fun m hm => h m (List.mem_cons_of_mem _ hm), ?_⟩
    · refine List.Pairwise.map _ (fun a b hab => ?_) (h n List.mem_cons_self)
      exact List.cons_lt_cons_iff.2 (.inr ⟨rfl, hab⟩)
    · intro a ha b hb
      obtain ⟨a', -, rfl⟩ := List.mem_map.1 ha
      obtain ⟨j, m, b', -, -, rfl⟩ := mem_addressesFrom.1 hb
      exact List.cons_lt_cons_iff.2 (.inl (by omega))

/-- **Pre-order is the lexicographic order of addresses**, and no address is listed twice. -/
theorem pairwise_addresses (n : Node) : n.addresses.Pairwise (· < ·) := by
  induction n using inductionOn with
  | step n ih =>
    rw [addresses_eq, List.pairwise_cons]
    refine ⟨fun a ha => ?_, pairwise_addressesFrom ih⟩
    obtain ⟨j, m, rest, -, -, rfl⟩ := mem_addressesFrom.1 ha
    exact List.nil_lt_cons _ _

end Node

end CallbackLint
