import CallbackLint.Proofs.Visibility
/-!
# What a call denotes

The rules by which a call at the top level of a method body is read, as a relation: which
type a plain name stands for (`Surroundings.NameDenotes`), which type a receiver names or
has (`ReceiverDenotes`), and which type declares the method that is called (`CallDenotes`).
The rules speak of declarations, not of tables filled from them: a variable has the type of
the latest declaration that gives it one (`LatestType`), and it is passed over where no
declaration does (`NoType`).

`target?_eq_some_iff` says that the targets that are computed in a scope are those of the
relation.
-/

namespace CallbackLint

/-- Of some declarations, the latest that gives a name a type gives it this one. Later ones
of the name may stand behind it if their type has no name. -/
def LatestType (src : Bytes) (decls : List Node) (x type : String) : Prop :=
  ∃ before d after, decls = before ++ d :: after ∧ x ∈ d.variableNames src ∧
    d.variablesType? src = some type ∧
      ∀ e ∈ after, x ∈ e.variableNames src → e.variablesType? src = none

/-- None of some declarations gives a name a type. -/
def NoType (src : Bytes) (decls : List Node) (x : String) : Prop :=
  ∀ d ∈ decls, x ∈ d.variableNames src → d.variablesType? src = none

/-- A declaration gives no type to a name that it does not declare, or if its type has no name. -/
theorem givenType?_eq_none_iff {src : Bytes} {x : String} {d : Node} :
    d.givenType? src x = none ↔ (x ∈ d.variableNames src → d.variablesType? src = none) := by
  unfold Node.givenType?
  split <;> simp_all

/-- **The search from the end** finds the latest declaration that gives a type. -/
theorem findSome?_eq_some_iff_latestType {src : Bytes} {decls : List Node} {x type : String} :
    decls.reverse.findSome? (Node.givenType? src x) = some type ↔
      LatestType src decls x type := by
  rw [List.findSome?_eq_some_iff]
  constructor
  · rintro ⟨l₁, d, l₂, hsplit, hd, hnone⟩
    obtain ⟨hx, htype⟩ := Node.givenType?_eq_some_iff.1 hd
    refine ⟨l₂.reverse, d, l₁.reverse, ?_, hx, htype, fun e he => ?_⟩
    · rw [← List.reverse_reverse decls, hsplit]
      simp
    · exact givenType?_eq_none_iff.1 (hnone e (List.mem_reverse.1 he))
  · rintro ⟨before, d, after, rfl, hx, htype, hnone⟩
    refine ⟨after.reverse, d, before.reverse, by simp,
      Node.givenType?_eq_some_iff.2 ⟨hx, htype⟩, fun e he => ?_⟩
    exact givenType?_eq_none_iff.2 (hnone e (List.mem_reverse.1 he))

/-- It finds nothing exactly where no declaration gives one. -/
theorem findSome?_eq_none_iff_noType {src : Bytes} {decls : List Node} {x : String} :
    decls.reverse.findSome? (Node.givenType? src x) = none ↔ NoType src decls x := by
  rw [List.findSome?_eq_none_iff]
  constructor
  · exact fun h d hd => givenType?_eq_none_iff.1 (h d (List.mem_reverse.2 hd))
  · exact fun h d hd => givenType?_eq_none_iff.2 (h d (List.mem_reverse.1 hd))

/-- Where a call stands: the file with its imports, the type around the call and its name,
and the declarations of the variables that can be seen. -/
structure Surroundings where
  src : Bytes
  imports : Imports
  type : Node
  name : String
  visible : List Node

namespace Surroundings

variable (S : Surroundings)

/-- The type that a plain name stands for. -/
inductive NameDenotes (x : String) : String → Prop
  /-- A variable that is visible. -/
  | seen {type : String} :
      LatestType S.src S.visible x type → NameDenotes x type
  /-- Else a field of the type around the call. -/
  | field {type : String} :
      NoType S.src S.visible x → LatestType S.src S.type.fieldMembers x type →
      NameDenotes x type
  /-- Else an imported type. -/
  | imported {type : String} :
      NoType S.src S.visible x → NoType S.src S.type.fieldMembers x →
      S.imports.types.get? x = some type → NameDenotes x type
  /-- Else a type of that very name. -/
  | written :
      NoType S.src S.visible x → NoType S.src S.type.fieldMembers x →
      S.imports.types.get? x = none → NameDenotes x x

/-- The form `this.f`, with the node of `f`. -/
def IsOwnField (receiver member : Node) : Prop :=
  receiver.kind = "field_access" ∧ receiver.child? "field" = some member ∧
    ∃ object, receiver.child? "object" = some object ∧ object.kind = "this"

/-- The type that the expression in front of a call names or has. -/
inductive ReceiverDenotes (receiver : Node) : String → Prop
  /-- `this` is the type around the call. -/
  | self : receiver.kind = "this" → ReceiverDenotes receiver S.name
  /-- `super` is its declared superclass, in full where it is imported. -/
  | super {extended type : Node} {written : String} :
      receiver.kind = "super" → S.type.child? "superclass" = some extended →
      extended.namedChildren.head? = some type → type.declaredType? S.src = some written →
      ReceiverDenotes receiver (S.imports.qualify written)
  /-- A plain name. -/
  | name {type : String} :
      receiver.kind = "identifier" → S.NameDenotes (receiver.compactText S.src) type →
      ReceiverDenotes receiver type
  /-- `this.f` has the declared type of the field. -/
  | ownField {member : Node} {type : String} :
      IsOwnField receiver member →
      LatestType S.src S.type.fieldMembers (member.text S.src) type →
      ReceiverDenotes receiver type
  /-- Any other dotted name, spelled like a type, names that type. -/
  | dotted :
      receiver.kind = "field_access" ∨ receiver.kind = "scoped_identifier" →
      (∀ member, ¬ IsOwnField receiver member) →
      Name.isDotted (receiver.compactText S.src) = true →
      Name.isTypeLike (receiver.compactText S.src) = true →
      ReceiverDenotes receiver (receiver.compactText S.src)

/-- The type that declares the method `method` which a call denotes. -/
inductive CallDenotes (call : Node) (method : String) : String → Prop
  /-- Without a receiver: the type around the call, when it declares such a method. -/
  | own {m n : Node} :
      call.child? "object" = none → m ∈ S.type.methodMembers →
      m.child? "name" = some n → n.text S.src = method → CallDenotes call method S.name
  /-- Else the owner of a static import. -/
  | imported {owner : String} :
      call.child? "object" = none →
      (∀ m ∈ S.type.methodMembers, ∀ n, m.child? "name" = some n → n.text S.src ≠ method) →
      S.imports.members.get? method = some owner → CallDenotes call method owner
  /-- With a receiver: what that denotes, unless the call goes through the superclass of an
  enclosing instance. -/
  | receiver {receiver : Node} {owner : String} :
      call.child? "object" = some receiver →
      (receiver.kind = "super" ∨ call.hasChild "super" = false) →
      S.ReceiverDenotes receiver owner → CallDenotes call method owner

end Surroundings

namespace Scope

variable {S : Surroundings} {scope : Scope}

/-- A scope for the surroundings of a call. -/
abbrev FitsIn (S : Surroundings) (scope : Scope) : Prop :=
  Fits S.src S.imports S.name S.type S.visible scope

/-- A plain name stands for exactly one type, the one that is computed. -/
theorem nameType_eq_iff (h : FitsIn S scope) {x type : String} :
    scope.nameType x = type ↔ S.NameDenotes x type := by
  have hcomputed : S.NameDenotes x (scope.nameType x) := by
    unfold nameType variableType?
    rw [h.local_eq, h.field_eq, h.imports_eq]
    rcases hv : S.visible.reverse.findSome? (Node.givenType? S.src x) with _ | t
    · have hv' := findSome?_eq_none_iff_noType.1 hv
      rcases hf : S.type.fieldMembers.reverse.findSome? (Node.givenType? S.src x)
        with _ | t
      · have hf' := findSome?_eq_none_iff_noType.1 hf
        rcases hi : S.imports.types.get? x with _ | t
        · exact .written hv' hf' hi
        · exact .imported hv' hf' hi
      · exact .field hv' (findSome?_eq_some_iff_latestType.1 hf)
    · exact .seen (findSome?_eq_some_iff_latestType.1 hv)
  -- That the rules give no second type is seen rule by rule.
  refine ⟨fun he => he ▸ hcomputed, fun hd => ?_⟩
  unfold nameType variableType?
  rw [h.local_eq, h.field_eq, h.imports_eq]
  cases hd with
  | seen hv => rw [findSome?_eq_some_iff_latestType.2 hv]
  | field hv hf =>
    rw [findSome?_eq_none_iff_noType.2 hv, findSome?_eq_some_iff_latestType.2 hf]
  | imported hv hf hi =>
    rw [findSome?_eq_none_iff_noType.2 hv, findSome?_eq_none_iff_noType.2 hf, hi]
    rfl
  | written hv hf hi =>
    rw [findSome?_eq_none_iff_noType.2 hv, findSome?_eq_none_iff_noType.2 hf, hi]
    rfl

/-- The form `this.f` is recognised as it is defined. -/
theorem ownField?_eq_some_iff {receiver member : Node} (hkind : receiver.kind = "field_access") :
    ownField? receiver = some member ↔ Surroundings.IsOwnField receiver member := by
  unfold ownField? Surroundings.IsOwnField
  rcases receiver.child? "object" with _ | object
  · simp
  · rcases receiver.child? "field" with _ | f
    · simp
    · by_cases hthis : object.kind = "this" <;> simp [hthis, hkind]

/-- The superclass is the type written first behind `extends`, in full where it is imported. -/
theorem superclass?_eq_some_iff {src : Bytes} {imports : Imports} {type : Node} {full : String} :
    TypeDecl.superclass? src imports type = some full ↔
      ∃ extended t written, type.child? "superclass" = some extended ∧
        extended.namedChildren.head? = some t ∧ t.declaredType? src = some written ∧
          imports.qualify written = full := by
  unfold TypeDecl.superclass?
  rcases type.child? "superclass" with _ | extended
  · simp
  · rcases hcs : extended.namedChildren with _ | ⟨t, ts⟩
    · simp [hcs]
    · simp [hcs]

/-- A dotted text is read as the type of that name, or as nothing. -/
theorem dottedType?_eq_some_iff {text type : String} :
    dottedType? text = some type ↔
      Name.isDotted text = true ∧ Name.isTypeLike text = true ∧ text = type := by
  unfold dottedType?
  by_cases h : (Name.isDotted text && Name.isTypeLike text) = true
  · rw [if_pos h]
    rw [Bool.and_eq_true] at h
    simp [h]
  · rw [if_neg h]
    simp only [reduceCtorEq, false_iff]
    rintro ⟨h1, h2, -⟩
    exact h (by rw [h1, h2]; rfl)

/-- A field access is read as a field of the type itself before it is read as a type name. -/
theorem receiverDenotes_of_field_access (h : FitsIn S scope) {receiver : Node} {type : String}
    (hkind : receiver.kind = "field_access")
    (hr : scope.receiverType? S.src receiver = some type) : S.ReceiverDenotes receiver type := by
  simp only [receiverType?, hkind, beq_iff_eq, String.reduceEq, if_false, if_true] at hr
  rcases hown : ownField? receiver with _ | member
  · rw [hown] at hr
    obtain ⟨hdotted, htype, rfl⟩ := dottedType?_eq_some_iff.1 hr
    refine .dotted (.inl hkind) (fun member hm => ?_) hdotted htype
    rw [(ownField?_eq_some_iff hkind).2 hm] at hown
    exact absurd hown (by simp)
  · rw [hown] at hr
    simp only [h.field_eq] at hr
    exact .ownField ((ownField?_eq_some_iff hkind).1 hown) (findSome?_eq_some_iff_latestType.1 hr)

/-- **The type of a receiver**: what is computed in a scope is what the rules say. -/
theorem receiverType?_eq_some_iff (h : FitsIn S scope) {receiver : Node} {type : String} :
    scope.receiverType? S.src receiver = some type ↔ S.ReceiverDenotes receiver type := by
  constructor
  · intro hr
    by_cases haccess : receiver.kind = "field_access"
    · exact receiverDenotes_of_field_access h haccess hr
    -- Of the other kinds each stands for one rule.
    unfold receiverType? at hr
    split at hr
    · rename_i hk
      rw [← Option.some.inj hr, h.typeName_eq]
      exact .self (by simpa using hk)
    split at hr
    · rename_i hk
      rw [h.superclass_eq] at hr
      obtain ⟨extended, t, written, hext, ht, hw, rfl⟩ := superclass?_eq_some_iff.1 hr
      exact .super (by simpa using hk) hext ht hw
    split at hr
    · rename_i hk
      exact .name (by simpa using hk) ((nameType_eq_iff h).1 (Option.some.inj hr))
    rw [if_neg (by simpa using haccess)] at hr
    split at hr
    · rename_i hk
      have hkind : receiver.kind = "scoped_identifier" := by simpa using hk
      obtain ⟨hdotted, htype, rfl⟩ := dottedType?_eq_some_iff.1 hr
      refine .dotted (.inr hkind) (fun member hm => ?_) hdotted htype
      exact absurd (hm.1.symm.trans hkind) (by decide)
    · exact absurd hr (by simp)
  · intro hd
    unfold receiverType?
    cases hd with
    | self hk => simp [hk, h.typeName_eq]
    | super hk hext ht hw =>
      simp [hk, h.superclass_eq, superclass?_eq_some_iff.2 ⟨_, _, _, hext, ht, hw, rfl⟩]
    | name hk hn => simp [hk, (nameType_eq_iff h).2 hn]
    | ownField hown hf =>
      simp [hown.1, (ownField?_eq_some_iff hown.1).2 hown, h.field_eq,
        findSome?_eq_some_iff_latestType.2 hf]
    | dotted hk hown hd ht =>
      have hdot : dottedType? (receiver.compactText S.src) = some (receiver.compactText S.src) :=
        dottedType?_eq_some_iff.2 ⟨hd, ht, rfl⟩
      rcases hk with hk | hk
      · have hnone : ownField? receiver = none := by
          rw [Option.eq_none_iff_forall_ne_some]
          exact fun member hm => hown member ((ownField?_eq_some_iff hk).1 hm)
        simp [hk, hnone, hdot]
      · simp [hk, hdot]

/-- A call without a receiver has the target that the rules give it. -/
theorem bareTarget?_eq_some_iff (h : FitsIn S scope) {call : Node} {name owner method : String}
    (hobj : call.child? "object" = none) :
    scope.bareTarget? name = some ⟨owner, method⟩ ↔
      name = method ∧ S.CallDenotes call method owner := by
  rw [bareTarget?]
  constructor
  · intro ht
    split at ht
    · rename_i hm
      obtain ⟨rfl, rfl⟩ := Target.mk.inj (Option.some.inj ht)
      obtain ⟨m, hmem, n, hn, htext⟩ := h.mem_methods.1 (by simpa using hm)
      exact ⟨rfl, h.typeName_eq ▸ .own hobj hmem hn htext⟩
    · rename_i hm
      obtain ⟨o, ho, heq⟩ := Option.map_eq_some_iff.1 ht
      obtain ⟨rfl, rfl⟩ := Target.mk.inj heq
      rw [h.imports_eq] at ho
      refine ⟨rfl, .imported hobj (fun m hmem n hn htext => ?_) ho⟩
      exact hm (by simpa using h.mem_methods.2 ⟨m, hmem, n, hn, htext⟩)
  · rintro ⟨rfl, hd⟩
    cases hd with
    | own _ hmem hn htext =>
      rw [if_pos (by simpa using h.mem_methods.2 ⟨_, hmem, _, hn, htext⟩), h.typeName_eq]
    | imported _ hnone ho =>
      rw [if_neg, h.imports_eq, ho]
      · rfl
      · intro hm
        obtain ⟨m, hmem, n, hn, htext⟩ := h.mem_methods.1 (by simpa using hm)
        exact hnone m hmem n hn htext
    | receiver hobj' _ _ => exact absurd (hobj.symm.trans hobj') (by simp)

/-- So has a call on a receiver. -/
theorem receiverTarget?_eq_some_iff (h : FitsIn S scope) {call receiver : Node}
    {name owner method : String} (hobj : call.child? "object" = some receiver) :
    scope.receiverTarget? S.src call receiver name = some ⟨owner, method⟩ ↔
      name = method ∧ S.CallDenotes call method owner := by
  rw [receiverTarget?]
  constructor
  · intro ht
    split at ht
    · exact absurd ht (by simp)
    · rename_i hsuper
      obtain ⟨o, ho, heq⟩ := Option.map_eq_some_iff.1 ht
      obtain ⟨rfl, rfl⟩ := Target.mk.inj heq
      refine ⟨rfl, .receiver hobj ?_ ((receiverType?_eq_some_iff h).1 ho)⟩
      by_cases hs : receiver.kind = "super"
      · exact .inl hs
      · exact .inr (by simpa [hs] using hsuper)
  · rintro ⟨rfl, hd⟩
    cases hd with
    | own hobj' => exact absurd (hobj.symm.trans hobj') (by simp)
    | imported hobj' => exact absurd (hobj.symm.trans hobj') (by simp)
    | receiver hobj' hsuper hr =>
      obtain rfl := Option.some.inj (hobj.symm.trans hobj')
      rw [if_neg, (receiverType?_eq_some_iff h).2 hr]
      · rfl
      · rcases hsuper with hs | hs <;> simp [hs]

/-- **The target of a call**: what is computed in a scope is what the rules say. -/
theorem target?_eq_some_iff (h : FitsIn S scope) {call : Node} {owner method : String} :
    scope.target? S.src call = some ⟨owner, method⟩ ↔
      call.kind = "method_invocation" ∧
        (∃ n, call.child? "name" = some n ∧ n.text S.src = method) ∧
          S.CallDenotes call method owner := by
  unfold target?
  by_cases hk : call.kind = "method_invocation"
  · rcases hn : call.child? "name" with _ | n
    · simp [hk]
    · simp only [hk, beq_self_eq_true, if_true, true_and, Option.some.injEq, exists_eq_left']
      rcases hobj : call.child? "object" with _ | receiver
      · exact bareTarget?_eq_some_iff h hobj
      · exact receiverTarget?_eq_some_iff h hobj
  · simp [hk]

end Scope

end CallbackLint
