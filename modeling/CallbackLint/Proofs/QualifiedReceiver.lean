import CallbackLint.Proofs.Denotation
import CallbackLint.Proofs.DottedName
/-!
# Calls on qualified receivers

A receiver with dots in it, other than `this.f`, is never looked up. Its text without blanks is
taken, and is read for its form in one pass; what the pass accepts is the type of that name.

Here the form is stated by the segments of the text (`Name.SpelledLikeType`), and a call on such
a receiver has a target exactly when its text has that form (`QualifiedCall.target?_isSome_iff`).
The scope has no say in this: neither whether there is a target nor what it is depends on it.
-/

namespace CallbackLint

/-- A name that is spelled like a type: between its dots there are only texts that can be
segments, and the last of them has a capital. -/
structure Name.SpelledLikeType (name : String) : Prop where
  isSegment : ∀ s ∈ segments name, IsSegment s
  isCapitalized : ∃ last, (segments name).getLast? = some last ∧ IsCapitalized last

/-- What is read as the name of a type, and as which. -/
theorem Scope.dottedType?_eq_some_iff_spelledLikeType {text type : String} :
    dottedType? text = some type ↔ Name.SpelledLikeType text ∧ text = type := by
  rw [dottedType?_eq_some_iff, Name.isDotted_iff, Name.isTypeLike_iff, ← and_assoc]
  refine and_congr_left fun _ => ⟨fun ⟨hsegment, hcapital⟩ => ?_, fun h => ⟨h.isSegment, ?_⟩⟩
  · exact ⟨hsegment, Name.simple text, Name.getLast?_segments text, hcapital⟩
  · obtain ⟨last, hlast, hcapital⟩ := h.isCapitalized
    rw [Name.getLast?_segments] at hlast
    rwa [Option.some.inj hlast]

/-- A call on a receiver that is a dotted name, or the access of a member not of the form
`this.f`. -/
structure QualifiedCall where
  call : Node
  callee : Node
  receiver : Node
  isCall : call.kind = "method_invocation"
  hasCallee : call.child? "name" = some callee
  hasReceiver : call.child? "object" = some receiver
  /-- The call does not go through the superclass of an enclosing instance. -/
  isDirect : call.hasChild "super" = false
  isQualified : receiver.kind = "scoped_identifier" ∨ receiver.kind = "field_access"
  notOwnField : ∀ member, ¬ Surroundings.IsOwnField receiver member

namespace QualifiedCall

variable {src : Bytes} (q : QualifiedCall)

/-- Such a receiver is read as the name of a type, whatever is in scope. -/
theorem receiverType?_eq (scope : Scope) :
    scope.receiverType? src q.receiver = Scope.dottedType? (q.receiver.compactText src) := by
  rcases q.isQualified with hkind | hkind
  · simp [Scope.receiverType?, hkind]
  · have hown : Scope.ownField? q.receiver = none := by
      rw [Option.eq_none_iff_forall_ne_some]
      intro member hmember
      exact q.notOwnField member ((Scope.ownField?_eq_some_iff hkind).1 hmember)
    simp [Scope.receiverType?, hkind, hown]

/-- **The target of such a call** is read off the text of its receiver. -/
theorem target?_eq (scope : Scope) :
    scope.target? src q.call =
      (Scope.dottedType? (q.receiver.compactText src)).map fun owner =>
        ⟨owner, q.callee.text src⟩ := by
  have htarget : scope.target? src q.call =
      scope.receiverTarget? src q.call q.receiver (q.callee.text src) := by
    simp [Scope.target?, q.isCall, q.hasCallee, q.hasReceiver]
  rw [htarget, Scope.receiverTarget?, q.isDirect, Bool.and_false, if_neg (by simp),
    q.receiverType?_eq]

/-- **Qualified receivers.** A call on one has a target exactly when the text of the receiver
without blanks is spelled like a type. The owner of the target is then that very text, the last
segment of it is the simple name of the owner, and no other scope gives another answer. -/
theorem target?_isSome_iff (src : Bytes) (scope : Scope) :
    ((scope.target? src q.call).isSome = true ↔
      Name.SpelledLikeType (q.receiver.compactText src)) ∧
    (∀ t, scope.target? src q.call = some t →
      t = ⟨q.receiver.compactText src, q.callee.text src⟩ ∧
        (Name.segments (q.receiver.compactText src)).getLast? = some t.simpleOwner) ∧
    ∀ other : Scope, other.target? src q.call = scope.target? src q.call := by
  refine ⟨?_, fun t ht => ?_, fun other => ?_⟩
  · rw [q.target?_eq, Option.isSome_map, Option.isSome_iff_exists]
    constructor
    · rintro ⟨type, htype⟩
      exact (Scope.dottedType?_eq_some_iff_spelledLikeType.1 htype).1
    · intro hspelled
      exact ⟨_, Scope.dottedType?_eq_some_iff_spelledLikeType.2 ⟨hspelled, rfl⟩⟩
  · rw [q.target?_eq] at ht
    obtain ⟨type, htype, rfl⟩ := Option.map_eq_some_iff.1 ht
    obtain ⟨-, rfl⟩ := Scope.dottedType?_eq_some_iff_spelledLikeType.1 htype
    exact ⟨rfl, Name.getLast?_segments _⟩
  · rw [q.target?_eq, q.target?_eq]

end QualifiedCall

namespace SpacedReceiver

/-- A call on a dotted name with space around one of its dots. -/
def src : Bytes :=
  Utf8.encode "a .b.C$1.go();"

def qualifier : Node :=
  .mk "field_access" 0 4 true (some "object")
    [.mk "identifier" 0 1 true (some "object") [], .mk "identifier" 3 4 true (some "field") []]

def receiver : Node :=
  .mk "field_access" 0 8 true (some "object")
    [qualifier, .mk "identifier" 5 8 true (some "field") []]

def callee : Node := .mk "identifier" 9 11 true (some "name") []

def call : Node := .mk "method_invocation" 0 13 true none [receiver, callee]

def qualifiedCall : QualifiedCall where
  call := call
  callee := callee
  receiver := receiver
  isCall := rfl
  hasCallee := rfl
  hasReceiver := rfl
  isDirect := by decide +kernel
  isQualified := .inr rfl
  notOwnField := by
    rintro member ⟨-, -, object, hobject, hthis⟩
    have hqualifier : qualifier = object := Option.some.inj hobject
    rw [← hqualifier] at hthis
    exact absurd hthis (by decide +kernel)

/-- A scope in which the first segment is a variable and the last an imported type. -/
def scope : Scope where
  typeName := "A"
  imports := { types := ⟨[("C$1", "x.C$1")]⟩ }
  superclass := some "B"
  fields := ⟨[("a", "F")]⟩
  locals := ⟨[("a", "L")]⟩

theorem compactText_receiver : receiver.compactText src = "a.b.C$1" := by
  decide +kernel

theorem spelledLikeType : Name.SpelledLikeType "a.b.C$1" where
  isSegment := by
    have hsegments : Name.segments "a.b.C$1" = ["a", "b", "C$1"] := by decide +kernel
    rw [hsegments]
    intro s hs
    rcases List.mem_cons.1 hs with rfl | hs
    · exact ⟨'a', [], rfl, by decide +kernel, rfl⟩
    rcases List.mem_cons.1 hs with rfl | hs
    · exact ⟨'b', [], rfl, by decide +kernel, rfl⟩
    · rw [List.mem_singleton.1 hs]
      exact ⟨'C', ['$', '1'], rfl, by decide +kernel, by decide +kernel⟩
  isCapitalized := ⟨"C$1", by decide +kernel, 'C', ['$', '1'], rfl, by decide, by decide⟩

end SpacedReceiver

open SpacedReceiver in
/-- The call `a .b.C$1.go()` goes to the type `a.b.C$1`, although `a` is a variable and another
`C$1` is imported. -/
theorem spacedReceiver_names_type :
    Name.SpelledLikeType (qualifiedCall.receiver.compactText src) ∧
      scope.target? src call = some ⟨"a.b.C$1", "go"⟩ ∧
      Target.simpleOwner ⟨"a.b.C$1", "go"⟩ = "C$1" ∧
      ({ typeName := "A" } : Scope).target? src call = some ⟨"a.b.C$1", "go"⟩ := by
  have hspelled : Name.SpelledLikeType (qualifiedCall.receiver.compactText src) := by
    rw [show qualifiedCall.receiver.compactText src = "a.b.C$1" from compactText_receiver]
    exact spelledLikeType
  obtain ⟨hsome, htarget, hother⟩ := qualifiedCall.target?_isSome_iff src scope
  obtain ⟨t, ht⟩ := Option.isSome_iff_exists.1 (hsome.2 hspelled)
  have howner : t = ⟨"a.b.C$1", "go"⟩ := by
    rw [(htarget t ht).1]
    decide +kernel
  rw [howner] at ht
  exact ⟨hspelled, ht, by decide +kernel, (hother _).trans ht⟩

end CallbackLint
