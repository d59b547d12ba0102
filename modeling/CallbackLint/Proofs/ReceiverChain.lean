import CallbackLint.Proofs.Denotation
import CallbackLint.Proofs.DottedName
/-!
# Calls on chains of members

The receiver of a call can be a chain `r.s₁.….sₙ` of members, nested to the left, and the chain
can be of any length. What is at its root is not looked at, except in `this.f`: the text of the
whole chain is taken, and it is read as the name of a type when its segments can be those of a
dotted name and the last of them has a capital.

So a chain from `this` or `super` is meant to have a target only in the form `this.f`, and it
has none else unless it is spelled like a type (`ChainCall.target?_eq_meant_iff`). Then the
target is a type with `this` or `super` as its first segment.
-/

namespace CallbackLint

/-! ## Chains -/

/-- A chain of members from a root: each access has the shorter chain as its object and a
member with a plain name, and its text is theirs with a dot between them. -/
inductive MemberChain (src : Bytes) (root : Node) : List String → Node → Prop where
  | root : MemberChain src root [] root
  | access {front : List String} {object member node : Node}
      (h : MemberChain src root front object) (hkind : node.kind = "field_access")
      (hobject : node.child? "object" = some object) (hmember : node.child? "field" = some member)
      (hname : '.' ∉ (member.text src).toList)
      (htext : node.compactText src = object.compactText src ++ "." ++ member.text src) :
      MemberChain src root (front ++ [member.text src]) node

namespace MemberChain

variable {src : Bytes} {root node : Node} {members : List String}

/-- The text of a chain is its root and its members, joined. -/
theorem compactText_eq (h : MemberChain src root members node) :
    node.compactText src = ".".intercalate (root.compactText src :: members) := by
  induction h with
  | root => simp
  | @access front object member node h hkind hobject hmember hname htext ih =>
    rw [htext, ih, ← List.cons_append, String.intercalate_append_of_ne_nil (by simp) (by simp),
      String.intercalate_singleton]

/-- No member of a chain has a dot in it. -/
theorem dot_notMem (h : MemberChain src root members node) :
    ∀ s ∈ members, '.' ∉ s.toList := by
  induction h with
  | root => simp
  | access h hkind hobject hmember hname htext ih =>
    intro s hs
    rcases List.mem_append.1 hs with hs | hs
    · exact ih s hs
    · rw [List.mem_singleton.1 hs]
      exact hname

/-- Only the root itself can be `this`; what is behind it is an access. -/
theorem kind_eq_this_iff (h : MemberChain src root members node) :
    node.kind = "this" ↔ members = [] ∧ root.kind = "this" := by
  cases h with
  | root => simp
  | access h hkind hobject hmember hname htext => simp [hkind]

end MemberChain

/-- A call `r.s₁.….sₙ.m(...)` on a chain of at least one member, where the root of the chain is
one word. -/
structure ChainCall (src : Bytes) where
  call : Node
  callee : Node
  receiver : Node
  root : Node
  members : List String
  isCall : call.kind = "method_invocation"
  hasCallee : call.child? "name" = some callee
  hasReceiver : call.child? "object" = some receiver
  isChain : MemberChain src root members receiver
  isLong : members ≠ []
  isWord : '.' ∉ (root.compactText src).toList

namespace ChainCall

variable {src : Bytes} (c : ChainCall src)

/-- The root and the members as they are written. -/
def written : List String :=
  c.root.compactText src :: c.members

/-- The target of the call when the receiver has or names a type. -/
def targetIn (type : String) : Target :=
  ⟨type, c.callee.text src⟩

/-- The field `f` of a receiver of the form `this.f`. -/
def ownField? : Option String :=
  if c.root.kind = "this" then
    match c.members with
    | [f] => some f
    | _ => none
  else none

/-- The chain starts at `this` or `super`. -/
def IsRooted : Prop :=
  (c.root.kind = "this" ∨ c.root.kind = "super") ∧ c.root.compactText src = c.root.kind

/-- The target that a chain from `this` or `super` is meant to have: the declared type of the
field with `this.f`, and none with any other. In `r.super.m(...)` the method is not called on
the chain. -/
def meant (scope : Scope) : Option Target :=
  if c.call.hasChild "super" then none
  else c.ownField?.bind fun f => (scope.fields.get? f).map c.targetIn

/-- The receiver is read as the name of a type: it is not of the form `this.f`, its segments can
be those of a dotted name, and the last has a capital. -/
structure ReadAsType : Prop where
  isDirect : c.call.hasChild "super" = false
  notOwnField : c.ownField? = none
  isDotted : ∀ s ∈ c.written, Name.IsSegment s
  isCapitalized : ∃ last, c.members.getLast? = some last ∧ Name.IsCapitalized last

variable {c}

/-- The last access of the chain. -/
theorem exists_access : ∃ front object member, c.members = front ++ [member.text src] ∧
    MemberChain src c.root front object ∧ c.receiver.kind = "field_access" ∧
    c.receiver.child? "object" = some object ∧ c.receiver.child? "field" = some member ∧
    c.receiver.compactText src = object.compactText src ++ "." ++ member.text src := by
  obtain ⟨call, callee, receiver, root, members, hcall, hcallee, hreceiver, hchain, hlong, hword⟩
    := c
  cases hchain with
  | root => exact absurd rfl hlong
  | @access front object member node h hkind hobject hmember hname htext =>
    exact ⟨front, object, member, rfl, h, hkind, hobject, hmember, htext⟩

/-- Nor has what is written in front. -/
theorem dot_notMem_written : ∀ s ∈ c.written, '.' ∉ s.toList := by
  intro s hs
  rcases List.mem_cons.1 hs with rfl | hs
  · exact c.isWord
  · exact c.isChain.dot_notMem s hs

/-- Of a chain only `this.f` is taken for a field of the type itself. -/
theorem map_text_ownField? : (Scope.ownField? c.receiver).map (Node.text src) = c.ownField? := by
  obtain ⟨front, object, member, hmembers, hchain, hkind, hobject, hmember, htext⟩ :=
    exists_access (c := c)
  have hthis := hchain.kind_eq_this_iff
  rw [Scope.ownField?, hobject, hmember, ownField?, hmembers]
  by_cases hroot : c.root.kind = "this"
  · rcases front with _ | ⟨s, front⟩
    · have hkind' : object.kind = "this" := hthis.2 ⟨rfl, hroot⟩
      simp [hkind', hroot]
    · have hkind' : object.kind ≠ "this" := fun h => absurd (hthis.1 h).1 (by simp)
      rcases hmore : front ++ [member.text src] with _ | ⟨t, more⟩
      · simp at hmore
      · simp [hkind', hroot, hmore]
  · have hkind' : object.kind ≠ "this" := fun h => hroot (hthis.1 h).2
    simp [hkind', hroot]

/-- When the text of a chain is read as a type. -/
theorem dottedType?_eq_some_iff {type : String} :
    Scope.dottedType? (c.receiver.compactText src) = some type ↔
      (∀ s ∈ c.written, Name.IsSegment s) ∧
        (∃ last, c.members.getLast? = some last ∧ Name.IsCapitalized last) ∧
          type = ".".intercalate c.written := by
  have htext := c.isChain.compactText_eq
  obtain ⟨front, object, member, hmembers, -, -, -, -, hlast⟩ := exists_access (c := c)
  have hdot : '.' ∉ (member.text src).toList :=
    c.isChain.dot_notMem _ (by rw [hmembers]; simp)
  have hdotted : Name.isDotted (c.receiver.compactText src) = true ↔
      ∀ s ∈ c.written, Name.IsSegment s := by
    rw [htext]
    exact Name.isDotted_intercalate_iff (by simp) dot_notMem_written
  have hcapital : Name.isTypeLike (c.receiver.compactText src) = true ↔
      ∃ last, c.members.getLast? = some last ∧ Name.IsCapitalized last := by
    rw [hlast, Name.isTypeLike_append_iff hdot, hmembers]
    simp
  rw [Scope.dottedType?_eq_some_iff, hdotted, hcapital, htext]
  exact and_congr_right fun _ => and_congr_right fun _ => eq_comm

/-- The target of the call: the declared type of a field with `this.f`, else the type that the
text names. -/
theorem target?_eq (scope : Scope) : scope.target? src c.call =
    if c.call.hasChild "super" then none
    else match c.ownField? with
      | some f => (scope.fields.get? f).map c.targetIn
      | none => (Scope.dottedType? (c.receiver.compactText src)).map c.targetIn := by
  obtain ⟨front, object, member, -, -, hkind, -, -, -⟩ := exists_access (c := c)
  have hown := map_text_ownField? (c := c)
  have htype : scope.receiverType? src c.receiver =
      match c.ownField? with
      | some f => scope.fields.get? f
      | none => Scope.dottedType? (c.receiver.compactText src) := by
    rw [← hown]
    rcases hfield : Scope.ownField? c.receiver with _ | field <;>
      simp [Scope.receiverType?, hkind, hfield]
  have htarget : scope.target? src c.call =
      scope.receiverTarget? src c.call c.receiver (c.callee.text src) := by
    simp [Scope.target?, c.isCall, c.hasCallee, c.hasReceiver]
  rw [htarget, Scope.receiverTarget?, htype]
  by_cases hsuper : c.call.hasChild "super" = true
  · simp [hkind, hsuper]
  · rcases c.ownField? with _ | f <;> simp [hsuper] <;> rfl

/-- But for `this.f`, the call has a target exactly when the receiver is read as a type. -/
theorem target?_eq_some_iff (hown : c.ownField? = none) (scope : Scope) {t : Target} :
    scope.target? src c.call = some t ↔
      c.ReadAsType ∧ t = c.targetIn (".".intercalate c.written) := by
  rw [target?_eq, hown]
  constructor
  · intro ht
    split at ht
    · cases ht
    · rename_i hsuper
      obtain ⟨type, htype, rfl⟩ := Option.map_eq_some_iff.1 ht
      obtain ⟨hdotted, hcapital, rfl⟩ := dottedType?_eq_some_iff.1 htype
      exact ⟨⟨by simpa using hsuper, hown, hdotted, hcapital⟩, rfl⟩
  · rintro ⟨hread, rfl⟩
    have htype := dottedType?_eq_some_iff.2 ⟨hread.isDotted, hread.isCapitalized, rfl⟩
    rw [if_neg (by simp [hread.isDirect]), htype]
    rfl

/-- A type that the text of a chain is read as has the written names as its segments. -/
theorem segments_owner (hown : c.ownField? = none) {scope : Scope} {t : Target}
    (ht : scope.target? src c.call = some t) : Name.segments t.owner = c.written := by
  obtain ⟨-, rfl⟩ := (target?_eq_some_iff hown scope).1 ht
  exact Name.segments_intercalate (by simp [written]) dot_notMem_written

/-- **Chains from `this` and `super`.** The target of a call on such a chain is the one that is
meant exactly when the chain is not read as a type, whatever its length; in particular it always
is with `this.f`. A chain of another form has a target only where it is read as a type, and then
the target is the type of that very spelling: `this` and `super` are among its segments exactly
where they are written. -/
theorem target?_eq_meant_iff (scope : Scope) (c : ChainCall src) :
    (c.IsRooted → (scope.target? src c.call = c.meant scope ↔ ¬ c.ReadAsType)) ∧
    (c.ownField? = none → ∀ t, scope.target? src c.call = some t ↔
      c.ReadAsType ∧ t = c.targetIn (".".intercalate c.written)) ∧
    (c.ownField? = none → ∀ t, scope.target? src c.call = some t →
      Name.segments t.owner = c.written) := by
  refine ⟨fun _ => ?_, fun hown t => target?_eq_some_iff hown scope,
    fun hown t => segments_owner hown⟩
  rcases hown : c.ownField? with _ | f
  · have hmeant : c.meant scope = none := by simp [meant, hown]
    rw [hmeant, Option.eq_none_iff_forall_ne_some]
    constructor
    · intro hnone hread
      exact hnone _ ((target?_eq_some_iff hown scope).2 ⟨hread, rfl⟩)
    · intro hread t ht
      exact hread ((target?_eq_some_iff hown scope).1 ht).1
  · -- With `this.f` nothing is read as a type, and the field is looked up as it should be.
    have hread : ¬ c.ReadAsType := fun h => absurd (h.notOwnField.symm.trans hown) (by simp)
    simp [hread, target?_eq, meant, hown]

end ChainCall

namespace MemberOfSuper

/-- A call on a member of the superclass that is spelled like a type. -/
def src : Bytes :=
  Utf8.encode "class A{void m(){super.F.go();}}"

def root : Node := .mk "super" 17 22 true (some "object") []

def member : Node := .mk "identifier" 23 24 true (some "field") []

def receiver : Node := .mk "field_access" 17 24 true (some "object") [root, member]

def callee : Node := .mk "identifier" 25 27 true (some "name") []

def call : Node := .mk "method_invocation" 17 29 true none [receiver, callee]

theorem isChain : MemberChain src root ["F"] receiver := by
  have hname : member.text src = "F" := by decide +kernel
  have htext : receiver.compactText src = root.compactText src ++ "." ++ member.text src := by
    decide +kernel
  have h := MemberChain.access .root rfl rfl rfl (by rw [hname]; decide) htext
  rwa [hname] at h

def chainCall : ChainCall src where
  call := call
  callee := callee
  receiver := receiver
  root := root
  members := ["F"]
  isCall := rfl
  hasCallee := rfl
  hasReceiver := rfl
  isChain := isChain
  isLong := by simp
  isWord := by decide +kernel

theorem readAsType : chainCall.ReadAsType where
  isDirect := by decide +kernel
  notOwnField := by decide +kernel
  isDotted := by
    have hwritten : chainCall.written = ["super", "F"] := by decide +kernel
    rw [hwritten]
    intro s hs
    rcases List.mem_cons.1 hs with rfl | hs
    · exact ⟨'s', ['u', 'p', 'e', 'r'], rfl, by decide +kernel, by decide +kernel⟩
    · rw [List.mem_singleton.1 hs]
      exact ⟨'F', [], rfl, by decide +kernel, rfl⟩
  isCapitalized := ⟨"F", rfl, 'F', [], rfl, by decide, by decide⟩

end MemberOfSuper

open MemberOfSuper in
/-- The call `super.F.go()` is not meant to have a target, and it has one: a type named
`super.F`. -/
theorem memberOfSuper_readAsType :
    chainCall.IsRooted ∧ chainCall.ownField? = none ∧
      chainCall.meant { typeName := "A" } = none ∧
      Scope.target? src { typeName := "A" } call = some ⟨"super.F", "go"⟩ ∧
      Scope.target? src { typeName := "A" } call ≠ chainCall.meant { typeName := "A" } ∧
      Name.segments "super.F" = ["super", "F"] := by
  have hrooted : chainCall.IsRooted := ⟨.inr rfl, by decide +kernel⟩
  have hown : chainCall.ownField? = none := by decide +kernel
  obtain ⟨hmeant, htarget, hsegments⟩ := chainCall.target?_eq_meant_iff { typeName := "A" }
  have ht : Scope.target? src { typeName := "A" } call = some ⟨"super.F", "go"⟩ :=
    (htarget hown _).2 ⟨readAsType, by decide +kernel⟩
  refine ⟨hrooted, hown, by decide +kernel, ht, fun h => ?_, ?_⟩
  · exact (hmeant hrooted).1 h readAsType
  · rw [hsegments hown _ ht]
    decide +kernel

end CallbackLint
