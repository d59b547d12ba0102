import CallbackLint.Forwarding
import CallbackLint.Proofs.Extraction
import CallbackLint.Proofs.Pruning
/-!
# Nested code does not matter

What stands below an unread node can be replaced by anything, and no type declared elsewhere
in the tree is affected: its view stays the same, and with it what is reported of it
(`declaredAt?_replaceBelow`). So code in conditions, loops, lambdas and returned values, in
the arguments of a call, in anonymous classes and in nested types is never part of the view
of a type around it or beside it.

The argument is one line once it is known that extraction cannot tell a tree from its pruned
form: pruning takes the place of the edit away. What is left is to follow an address in the
two trees side by side, as long as it does not lead to the edited node.
-/

namespace CallbackLint

namespace Node

/-- The tree with other children at the node with the given address. -/
def replaceBelow (cs : List Node) : List Nat → Node → Node
  | [], n => n.withChildren cs
  | i :: is, n => n.withChildren (n.children.modify i (replaceBelow cs is))

variable {n : Node} {cs : List Node} {place address : List Nat}

/-- A node with other children has those. -/
@[simp] theorem children_withChildren (n : Node) (cs : List Node) :
    (n.withChildren cs).children = cs := by cases n; rfl

@[simp] theorem named_withChildren (n : Node) (cs : List Node) :
    (n.withChildren cs).named = n.named := by cases n; rfl

/-- The last children given are the ones that count. -/
theorem withChildren_withChildren (n : Node) (cs ds : List Node) :
    (n.withChildren cs).withChildren ds = n.withChildren ds := by cases n; rfl

/-- With its own children a node is itself. -/
theorem withChildren_children (n : Node) : n.withChildren n.children = n := by cases n; rfl

/-- An edit further down does not change whether a node is named. -/
@[simp] theorem named_replaceBelow (cs : List Node) (place : List Nat) (n : Node) :
    (replaceBelow cs place n).named = n.named := by
  cases place <;> simp [replaceBelow]

/-- Whether a node is read does not depend on its children. -/
theorem isUnread_withChildren (n : Node) (cs : List Node) :
    (n.withChildren cs).isUnread = n.isUnread := by cases n; rfl

/-- Pruning depends on the children through their pruned forms. -/
theorem prune_withChildren_congr {ds : List Node} (h : ds.map prune = n.children.map prune) :
    prune (n.withChildren ds) = prune n := by
  rcases hu : n.isUnread with _ | _
  · rw [prune_eq_pruneBelow hu, prune_eq_pruneBelow (by rw [isUnread_withChildren, hu]),
      pruneBelow, pruneBelow, children_withChildren, withChildren_withChildren, h]
  · exact prune_withChildren hu ds

/-- Nor does it depend on more than the pruned form of one child, where one is edited. -/
theorem map_prune_modify {ns : List Node} {i : Nat} {c : Node} {edit : Node → Node}
    (hc : ns[i]? = some c) (hedit : prune (edit c) = prune c) :
    (ns.modify i edit).map prune = ns.map prune := by
  refine List.ext_getElem? fun j => ?_
  rw [List.getElem?_map, List.getElem?_map, List.getElem?_modify]
  by_cases hij : i = j
  · subst hij
    simp [hc, hedit]
  · simp [hij]

/-- An address is followed through a child. -/
theorem at?_cons_eq_some_iff {target : Node} {i : Nat} {is : List Nat} :
    n.at? (i :: is) = some target ↔ ∃ c, n.children[i]? = some c ∧ c.at? is = some target := by
  rw [at?]
  rcases n.children[i]? with _ | c <;> simp

/-- **An edit below an unread node is gone after pruning.** -/
theorem prune_replaceBelow {target : Node} (htarget : n.at? place = some target)
    (hu : target.isUnread = true) : prune (replaceBelow cs place n) = prune n := by
  induction place generalizing n with
  | nil =>
    obtain rfl := Option.some.inj htarget
    exact prune_withChildren hu cs
  | cons i is ih =>
    obtain ⟨c, hc, hat⟩ := at?_cons_eq_some_iff.1 htarget
    exact prune_withChildren_congr (map_prune_modify hc (ih hat))

/-- And so it is for a node above the edit, with its children kept. -/
theorem pruneBelow_replaceBelow {target : Node} (htarget : n.at? place = some target)
    (hu : target.isUnread = true) (hne : place ≠ []) :
    pruneBelow (replaceBelow cs place n) = pruneBelow n := by
  obtain ⟨i, is, rfl⟩ := List.exists_cons_of_ne_nil hne
  obtain ⟨c, hc, hat⟩ := at?_cons_eq_some_iff.1 htarget
  rw [replaceBelow, pruneBelow, pruneBelow, children_withChildren, withChildren_withChildren,
    map_prune_modify hc (prune_replaceBelow hat hu)]

/-! ## Following an address that does not lead to the edit -/

/-- On the way to the edit, the child is the one edited further down. -/
theorem getElem?_children_replaceBelow_self {i : Nat} {is : List Nat} :
    (replaceBelow cs (i :: is) n).children[i]? = n.children[i]?.map (replaceBelow cs is) := by
  simp [replaceBelow]

/-- Off the way, it is as before. -/
theorem getElem?_children_replaceBelow_of_ne {i j : Nat} {is : List Nat} (hij : i ≠ j) :
    (replaceBelow cs (i :: is) n).children[j]? = n.children[j]? := by
  simp [replaceBelow, hij]

/-- Putting back what was there changes nothing. -/
theorem replaceBelow_children {target : Node} (htarget : n.at? place = some target) :
    replaceBelow target.children place n = n := by
  induction place generalizing n with
  | nil =>
    obtain rfl := Option.some.inj htarget
    exact withChildren_children n
  | cons i is ih =>
    obtain ⟨c, hc, hat⟩ := at?_cons_eq_some_iff.1 htarget
    obtain ⟨hi, rfl⟩ := List.getElem?_eq_some_iff.1 hc
    rw [replaceBelow, List.modify_eq_take_cons_drop hi, ih hat, List.getElem_cons_drop,
      List.take_append_drop]
    exact withChildren_children n

/-- Addresses are listed tree by tree. -/
theorem addressesFrom_append (i : Nat) (ms ns : List Node) :
    addressesFrom i (ms ++ ns) = addressesFrom i ms ++ addressesFrom (i + ms.length) ns := by
  induction ms generalizing i with
  | nil => rfl
  | cons m ms ih =>
    rw [List.cons_append, addressesFrom, addressesFrom, ih, List.append_assoc, List.length_cons,
      Nat.add_assoc, Nat.add_comm 1]

/-- The addresses at the place of the edit and below it are a segment of the list, and the
edit changes no other part of it. -/
theorem exists_addresses_replaceBelow {target : Node} (htarget : n.at? place = some target) :
    ∃ before after : List (List Nat), (∀ a ∈ before ++ after, ¬ place <+: a) ∧
      ∀ cs, (replaceBelow cs place n).addresses =
        before ++ (target.withChildren cs).addresses.map (place ++ ·) ++ after := by
  induction place generalizing n with
  | nil =>
    obtain rfl := Option.some.inj htarget
    exact ⟨[], [], by simp, fun cs => by simp [replaceBelow]⟩
  | cons i is ih =>
    obtain ⟨c, hc, hat⟩ := at?_cons_eq_some_iff.1 htarget
    obtain ⟨hi, rfl⟩ := List.getElem?_eq_some_iff.1 hc
    obtain ⟨before, after, hout, heq⟩ := ih hat
    refine ⟨[] :: addressesFrom 0 (n.children.take i) ++ before.map (i :: ·),
      after.map (i :: ·) ++ addressesFrom (i + 1) (n.children.drop (i + 1)), ?_, fun cs => ?_⟩
    · intro a ha hprefix
      obtain ⟨rest, rfl⟩ := hprefix
      simp only [List.mem_append, List.mem_cons, List.mem_map] at ha
      rcases ha with ((ha | ha) | ⟨a, ha, hcons⟩) | ⟨a, ha, hcons⟩ | ha
      · cases ha
      · obtain ⟨j, m, rest', hm, -, hcons⟩ := mem_addressesFrom.1 ha
        obtain ⟨hj, -⟩ := List.getElem?_eq_some_iff.1 hm
        have hij := (List.cons.inj hcons).1
        rw [List.length_take] at hj
        omega
      · exact hout a (List.mem_append_left _ ha) ⟨rest, (List.cons.inj hcons).2.symm⟩
      · exact hout a (List.mem_append_right _ ha) ⟨rest, (List.cons.inj hcons).2.symm⟩
      · obtain ⟨j, m, rest', -, -, hcons⟩ := mem_addressesFrom.1 ha
        have hij := (List.cons.inj hcons).1
        omega
    · rw [replaceBelow, addresses_eq, children_withChildren, List.modify_eq_take_cons_drop hi,
        addressesFrom_append, addressesFrom, heq cs, List.length_take_of_le hi.le, Nat.zero_add]
      simp

/-! ## Editing the child in a role -/

/-- The node with its first child in the role `f` changed. -/
def editChild (f : String) (edit : Node → Node) (n : Node) : Node :=
  n.withChildren (n.children.modify (n.children.findIdx (fun c => c.field == some f)) edit)

/-- An edit that keeps the role is seen in that role and in no other. -/
theorem child?_editChild {edit : Node → Node} (hedit : ∀ c, (edit c).field = c.field)
    (f g : String) (n : Node) :
    (n.editChild f edit).child? g = if g = f then (n.child? f).map edit else n.child? g := by
  rw [child?, child?, child?, editChild, children_withChildren]
  induction n.children with
  | nil => simp
  | cons c cs ih =>
    by_cases hc : c.field = some f
    · by_cases hg : g = f
      · simp [List.findIdx_cons, hc, hg, hedit]
      · have hfg : f ≠ g := fun h => hg h.symm
        simp [List.findIdx_cons, hc, hg, hfg, hedit]
    · have hidx : (c :: cs).findIdx (fun c => c.field == some f) =
          cs.findIdx (fun c => c.field == some f) + 1 := by
        have hne : (c.field == some f) = false := by simpa using hc
        rw [List.findIdx_cons, hne, cond_false]
      rw [hidx, List.modify_succ_cons]
      by_cases hcg : c.field = some g
      · have hg : g ≠ f := fun h => hc (h ▸ hcg)
        simp [hcg, hg]
      · simpa [hc, hcg] using ih

end Node

namespace TypeDecl

open Node

variable {src : Bytes} {imports : Imports} {outer : List String} {n : Node} {cs : List Node}
variable {place address : List Nat}

/-- Whether and how a type is declared by a node can be told from the node with its children
pruned. -/
theorem declared?_pruneBelow (imports : Imports) (outer : List String) (n : Node) :
    declared? src imports outer (pruneBelow n) = declared? src imports outer n := by
  rw [declared?, declared?, isTypeDecl_pruneBelow, ofNode?_pruneBelow]

/-- A type has the same name when pruned. -/
theorem ownName?_pruneBelow (n : Node) : ownName? src (pruneBelow n) = ownName? src n := by
  rw [ownName?, ownName?, isTypeDecl_pruneBelow, map_text_child?_pruneBelow]

/-- Only the child that an address leads into counts for what is extracted there. -/
theorem declaredBelow?_congr {m : Node} {i : Nat} (h : m.children[i]? = n.children[i]?) :
    declaredBelow? src imports outer m (i :: address) =
      declaredBelow? src imports outer n (i :: address) := by
  have hreach : m.reach? (i :: address) = n.reach? (i :: address) := by
    rw [reach?, reach?, h]
  have hnames : outerNames src m (i :: address) = outerNames src n (i :: address) := by
    cases address with
    | nil => rfl
    | cons j js => rw [outerNames, outerNames, h]
  rw [declaredBelow?, declaredBelow?, hreach, hnames]

/-- **The walk outside the edit finds what it found.** The induction follows the address, and
both the names around and the node at the end are those of a node above the edit or beside it. -/
theorem declaredBelow?_replaceBelow {target : Node} (htarget : n.at? place = some target)
    (hu : target.isUnread = true) (hout : ¬ place <+: address) :
    declaredBelow? src imports outer (replaceBelow cs place n) address =
      declaredBelow? src imports outer n address := by
  induction address generalizing n place outer with
  | nil => rfl
  | cons j js ih =>
    have hplace : place ≠ [] := fun h => hout (h ▸ List.nil_prefix)
    obtain ⟨i, is, rfl⟩ := List.exists_cons_of_ne_nil hplace
    obtain ⟨c, hc, hat⟩ := at?_cons_eq_some_iff.1 htarget
    by_cases hij : i = j
    · subst hij
      have hrest : ¬ is <+: js := fun h => hout (List.cons_prefix_cons.2 ⟨rfl, h⟩)
      -- The edit is further down, so the child stands above it and keeps its pruned form.
      have hne : is ≠ [] := fun h => hrest (h ▸ List.nil_prefix)
      have hbelow : pruneBelow (replaceBelow cs is c) = pruneBelow c :=
        pruneBelow_replaceBelow hat hu hne
      have hc' : (replaceBelow cs (i :: is) n).children[i]? = some (replaceBelow cs is c) := by
        rw [getElem?_children_replaceBelow_self, hc, Option.map_some]
      by_cases hnamed : c.named = true
      · have hnamed' : (replaceBelow cs is c).named = true := by rw [named_replaceBelow, hnamed]
        by_cases hjs : js = []
        · subst hjs
          rw [declaredBelow?_singleton hc hnamed, declaredBelow?_singleton hc' hnamed',
            ← declared?_pruneBelow, hbelow, declared?_pruneBelow]
        · rw [declaredBelow?_cons hc hnamed hjs, declaredBelow?_cons hc' hnamed' hjs,
            ← ownName?_pruneBelow, hbelow, ownName?_pruneBelow]
          exact ih hat hrest
      · have hnamed' : ¬ (replaceBelow cs is c).named = true := by
          rw [named_replaceBelow]
          exact hnamed
        rw [declaredBelow?_of_not_named hc hnamed, declaredBelow?_of_not_named hc' hnamed']
    · exact declaredBelow?_congr (getElem?_children_replaceBelow_of_ne hij)

/-- The types declared at a place of a tree or below it, in order. -/
def declaredWithin (src : Bytes) (root : Node) (place : List Nat) : List TypeDecl :=
  (root.addresses.filter (place.isPrefixOf ·)).filterMap (declaredAt? src root)

/-- The types declared within a place are a segment of all types of the tree, since its
addresses are a segment of all addresses. -/
theorem listOfTree_eq_append (src : Bytes) {root sub : Node} {before after : List (List Nat)}
    (hout : ∀ a ∈ before ++ after, ¬ place <+: a)
    (heq : root.addresses = before ++ sub.addresses.map (place ++ ·) ++ after) :
    listOfTree src root =
      before.filterMap (declaredAt? src root) ++ declaredWithin src root place ++
        after.filterMap (declaredAt? src root) := by
  have hnone : ∀ as : List (List Nat), (∀ a ∈ as, ¬ place <+: a) →
      as.filter (place.isPrefixOf ·) = [] := by
    intro as has
    rw [List.filter_eq_nil_iff]
    intro a ha hprefix
    exact has a ha (List.isPrefixOf_iff_prefix.1 hprefix)
  have hall : (sub.addresses.map (place ++ ·)).filter (place.isPrefixOf ·) =
      sub.addresses.map (place ++ ·) := by
    rw [List.filter_eq_self]
    intro a ha
    obtain ⟨rest, -, rfl⟩ := List.mem_map.1 ha
    exact List.isPrefixOf_iff_prefix.2 (List.prefix_append place rest)
  rw [listOfTree_eq_filterMap, declaredWithin, heq, List.filter_append, List.filter_append,
    hnone before fun a ha => hout a (List.mem_append_left _ ha),
    hnone after fun a ha => hout a (List.mem_append_right _ ha), hall, List.nil_append,
    List.append_nil, List.filterMap_append, List.filterMap_append]

/-- So what is extracted at an address off the way to the edit is as before. -/
theorem declaredAt?_eq_of_not_prefix {root target : Node} (hat : root.at? place = some target)
    (hne : place ≠ []) (hu : target.isUnread = true) (hout : ¬ place <+: address) :
    declaredAt? src (root.replaceBelow cs place) address = declaredAt? src root address := by
  have himports : Imports.ofTree src (root.replaceBelow cs place) = Imports.ofTree src root := by
    rw [← Imports.ofTree_pruneBelow, pruneBelow_replaceBelow hat hu hne,
      Imports.ofTree_pruneBelow]
  rw [declaredAt?, declaredAt?, himports, declaredBelow?_replaceBelow hat hu hout]

/-- **Nothing below an unread node counts for the types declared elsewhere.** Let other
children be put below an unread node that is not the root. At every address that does not lead
to it or below it the same is extracted as before; and all that changes in the list of types,
and in the list of methods that a contract reports, is the segment that comes from there. -/
theorem declaredAt?_replaceBelow (src : Bytes) (cs : List Node) {root unread : Node}
    {place : List Nat} (hat : root.at? place = some unread) (hne : place ≠ [])
    (hu : unread.isUnread = true) :
    (∀ address, ¬ place <+: address →
      declaredAt? src (root.replaceBelow cs place) address = declaredAt? src root address) ∧
    (∃ before after, listOfTree src root = before ++ declaredWithin src root place ++ after ∧
      listOfTree src (root.replaceBelow cs place) =
        before ++ declaredWithin src (root.replaceBelow cs place) place ++ after) ∧
    ∀ c : Contract, ∃ before after, (listOfTree src root).flatMap c.violations =
        before ++ (declaredWithin src root place).flatMap c.violations ++ after ∧
      (listOfTree src (root.replaceBelow cs place)).flatMap c.violations =
        before ++ (declaredWithin src (root.replaceBelow cs place) place).flatMap c.violations ++
          after := by
  have hsame : ∀ address, ¬ place <+: address →
      declaredAt? src (root.replaceBelow cs place) address = declaredAt? src root address :=
    fun address hout => declaredAt?_eq_of_not_prefix hat hne hu hout
  obtain ⟨before, after, hout, heq⟩ := exists_addresses_replaceBelow hat
  have hroot : root.addresses =
      before ++ unread.addresses.map (place ++ ·) ++ after := by
    have h := heq unread.children
    rwa [replaceBelow_children hat, withChildren_children] at h
  -- The two ends of the list are extracted outside the edit, so they are the same.
  have hbefore : before.filterMap (declaredAt? src (root.replaceBelow cs place)) =
      before.filterMap (declaredAt? src root) :=
    List.filterMap_congr fun a ha => hsame a (hout a (List.mem_append_left _ ha))
  have hafter : after.filterMap (declaredAt? src (root.replaceBelow cs place)) =
      after.filterMap (declaredAt? src root) :=
    List.filterMap_congr fun a ha => hsame a (hout a (List.mem_append_right _ ha))
  have hold := listOfTree_eq_append src hout hroot
  have hnew := listOfTree_eq_append src hout (heq cs)
  rw [hbefore, hafter] at hnew
  refine ⟨hsame, ⟨_, _, hold, hnew⟩, fun c => ?_⟩
  rw [hold, hnew]
  simp only [List.flatMap_append]
  exact ⟨_, _, rfl, rfl⟩

end TypeDecl

namespace CallInCondition

/-- A class whose method has a call inside a condition. -/
def src : Bytes :=
  Utf8.encode "class A{void m(){if(b)x.go();}}"

/-- The call `x.go();`. -/
def statement : Node :=
  .mk "expression_statement" 22 29 true (some "consequence")
    [.mk "method_invocation" 22 28 true none
      [.mk "identifier" 22 23 true (some "object") [],
        .mk "identifier" 24 26 true (some "name") []]]

/-- The condition, `if(b)x.go();`. -/
def conditional : Node := .mk "if_statement" 17 29 true none [statement]

def tree : Node :=
  .mk "program" 0 31 true none
    [.mk "class_declaration" 0 31 true none
      [.mk "identifier" 6 7 true (some "name") [],
        .mk "class_body" 7 31 true (some "body")
          [.mk "method_declaration" 8 30 true none
            [.mk "identifier" 13 14 true (some "name") [],
              .mk "block" 16 30 true (some "body") [conditional]]]]]

/-- A local class, to stand in place of the call. -/
def localClass : Node :=
  .mk "class_declaration" 22 29 true none [.mk "identifier" 22 23 true (some "name") []]

/-- Where the condition stands. -/
def place : List Nat := [0, 1, 0, 1, 0]

end CallInCondition

open CallInCondition in
/-- A class declared inside a condition is one more type, and leaves the class around it as it
is. -/
theorem localClass_leaves_outer :
    tree.at? place = some conditional ∧ conditional.isUnread = true ∧
      (TypeDecl.declaredAt? src tree [0]).isSome ∧
      (TypeDecl.declaredWithin src (tree.replaceBelow [localClass] place) place).length = 1 ∧
      TypeDecl.declaredAt? src (tree.replaceBelow [localClass] place) [0] =
        TypeDecl.declaredAt? src tree [0] := by
  have hat : tree.at? place = some conditional := rfl
  have hu : conditional.isUnread = true := by decide +kernel
  have hout : ¬ place <+: [0] := by decide
  exact ⟨hat, hu, by decide +kernel, by decide +kernel,
    (TypeDecl.declaredAt?_replaceBelow src [localClass] hat (by decide) hu).1 [0] hout⟩

end CallbackLint
