import CallbackLint.Path
/-!
# Paths and their texts

Reading a path normalises it: the anchor is one of three, and no part is empty, a single dot,
or has a slash in it. A path of that form is read back from its own text
(`ofString_toString`), so two paths that were read have the same text only if they are the
same path (`eq_of_toString_eq`).
-/

namespace CallbackLint

namespace Path

/-- A text that can be a part of a path. -/
structure IsPart (s : String) : Prop where
  ne_nil : s.toList ≠ []
  ne_dot : s.toList ≠ ['.']
  slash_notMem : '/' ∉ s.toList

/-- A path in the form that reading gives it. -/
structure Normal (p : Path) : Prop where
  anchor : p.anchor = "" ∨ p.anchor = "/" ∨ p.anchor = "//"
  parts : ∀ s ∈ p.parts, IsPart s

theorem pieces_eq_splitOn (cs : List Char) : pieces cs = cs.splitOn '/' := by
  induction cs with
  | nil => rfl
  | cons c cs ih =>
    rw [pieces, ih, List.splitOn_cons_eq_if_modifyHead]
    by_cases hc : c == '/'
    · simp [hc]
    · rcases hsplit : cs.splitOn '/' with _ | ⟨l, ls⟩
      · exact absurd hsplit (List.splitOn_ne_nil '/' cs)
      · simp [hc]

/-- No piece has a slash in it. -/
theorem slash_notMem_pieces (cs : List Char) : ∀ l ∈ pieces cs, '/' ∉ l := by
  fun_induction pieces cs with
  | case1 => simp
  | case2 c cs hc ih => simpa using ih
  | case3 c cs hc hnil ih =>
    intro l hl
    rw [List.mem_singleton.1 hl, List.mem_singleton]
    exact fun h => hc (beq_iff_eq.2 h.symm)
  | case4 c cs hc p ps hcons ih =>
    rw [hcons, List.forall_mem_cons] at ih
    have hslash : '/' ≠ c := fun h => hc (beq_iff_eq.2 h.symm)
    exact List.forall_mem_cons.2 ⟨fun h => ih.1 (List.mem_of_ne_of_mem hslash h), ih.2⟩

theorem normal_ofString (s : String) : (ofString s).Normal where
  anchor := by
    simp only [ofString, anchorOf]
    split <;> simp
  parts := by
    intro part hpart
    obtain ⟨l, hl, rfl⟩ := List.mem_map.1 hpart
    obtain ⟨hmem, hkeep⟩ := List.mem_filter.1 hl
    simp only [Bool.and_eq_true, bne_iff_ne, ne_eq] at hkeep
    refine ⟨?_, ?_, ?_⟩ <;> rw [String.toList_ofList]
    · exact hkeep.1
    · exact hkeep.2
    · exact slash_notMem_pieces _ l hmem

/-! ## Reading back -/

variable {parts : List String}

/-- The parts of joined parts, whatever slashes stand in front. -/
theorem filter_pieces_joined (hparts : ∀ s ∈ parts, IsPart s) (k : Nat) :
    (pieces (List.replicate k '/' ++ ['/'].intercalate (parts.map String.toList))).filter
      (fun p => p != [] && p != ['.']) = parts.map String.toList := by
  induction k with
  | zero =>
    -- Without parts the text is empty, and its only piece is dropped.
    by_cases hne : parts = []
    · subst hne
      rfl
    · have hslash : ∀ l ∈ parts.map String.toList, '/' ∉ l := by
        intro l hl
        obtain ⟨s, hs, rfl⟩ := List.mem_map.1 hl
        exact (hparts s hs).slash_notMem
      rw [List.replicate_zero, List.nil_append, pieces_eq_splitOn,
        List.splitOn_intercalate '/' hslash (by simpa using hne), List.filter_eq_self]
      intro l hl
      obtain ⟨s, hs, rfl⟩ := List.mem_map.1 hl
      simp [(hparts s hs).ne_nil, (hparts s hs).ne_dot]
  | succ k ih =>
    rw [List.replicate_succ, List.cons_append, pieces]
    simpa using ih

/-- Joined parts do not start with a slash. -/
theorem takeWhile_joined (hparts : ∀ s ∈ parts, IsPart s) :
    (['/'].intercalate (parts.map String.toList)).takeWhile (· == '/') = [] := by
  rcases parts with _ | ⟨s, rest⟩
  · rfl
  · have hs : IsPart s := hparts s List.mem_cons_self
    obtain ⟨c, cs, hcs⟩ := List.exists_cons_of_ne_nil hs.ne_nil
    have hc : c ≠ '/' := by
      rintro rfl
      exact hs.slash_notMem (by rw [hcs]; exact List.mem_cons_self)
    rcases rest with _ | ⟨t, rest⟩ <;> simp [hcs, hc, List.intercalate_cons_cons]

theorem partsOf_joined (hparts : ∀ s ∈ parts, IsPart s) {text : String} {k : Nat}
    (htext : text.toList = List.replicate k '/' ++ ['/'].intercalate (parts.map String.toList)) :
    partsOf text = parts := by
  rw [partsOf, htext, filter_pieces_joined hparts, List.map_map]
  simp [Function.comp_def]

/-- The anchor of joined parts is told by the number of slashes in front. -/
theorem anchorOf_joined (hparts : ∀ s ∈ parts, IsPart s) {text : String} {k : Nat}
    (htext : text.toList = List.replicate k '/' ++ ['/'].intercalate (parts.map String.toList)) :
    anchorOf text = if k = 0 then "" else if k = 2 then "//" else "/" := by
  have hlength : (text.toList.takeWhile (· == '/')).length = k := by
    rw [htext, List.takeWhile_append_of_pos (by simp), takeWhile_joined hparts, List.append_nil,
      List.length_replicate]
  rw [anchorOf, hlength]
  split <;> simp_all

/-- **A path in normal form is read back from its text.** -/
theorem ofString_toString {p : Path} (h : p.Normal) : ofString p.toString = p := by
  obtain ⟨anchor, parts⟩ := p
  obtain ⟨hanchor, hparts⟩ := h
  have hjoin : (joinParts parts).toList = ['/'].intercalate (parts.map String.toList) := by
    rw [joinParts, String.toList_intercalate]
    rfl
  -- Only the path without anchor and parts is shown in a way of its own, as a dot.
  by_cases hdot : anchor = "" ∧ parts = []
  · obtain ⟨rfl, rfl⟩ := hdot
    decide
  · have htext : toString ⟨anchor, parts⟩ = anchor ++ joinParts parts := by
      simp [toString, hdot]
    obtain ⟨k, hk, hslashes⟩ : ∃ k, anchor.toList = List.replicate k '/' ∧
        (if k = 0 then "" else if k = 2 then "//" else "/") = anchor := by
      rcases hanchor with rfl | rfl | rfl
      · exact ⟨0, rfl, rfl⟩
      · exact ⟨1, rfl, rfl⟩
      · exact ⟨2, rfl, rfl⟩
    have hlist : (anchor ++ joinParts parts).toList =
        List.replicate k '/' ++ ['/'].intercalate (parts.map String.toList) := by
      rw [String.toList_append, hk, hjoin]
    rw [htext, ofString, partsOf_joined hparts hlist, anchorOf_joined hparts hlist, hslashes]

/-- **Paths that were read are told apart by their texts.** -/
theorem eq_of_toString_eq {p q : Path} (hp : p.Normal) (hq : q.Normal)
    (h : p.toString = q.toString) : p = q := by
  rw [← ofString_toString hp, h, ofString_toString hq]

end Path

end CallbackLint
