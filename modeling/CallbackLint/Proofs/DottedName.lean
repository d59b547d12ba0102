import CallbackLint.Name
import Mathlib.Data.List.TakeWhile
/-!
# Dotted names

A name is cut at its last dot, into a qualifier and a last segment, and at every dot, into its
segments. Here the two ways to cut a name are tied to each other: the last of the segments is
the last segment (`getLast?_segments`), and a qualifier and a last segment make up the name
again (`qualifier_append_simple`).

A name is read for its form in one pass from left to right. The pass accepts a name exactly
when each of its segments can be one (`isDotted_iff`), and the name is spelled like a type
exactly when the last of them has a capital (`isTypeLike_iff`).
-/

namespace CallbackLint

namespace Name

/-! ## The last segment -/

/-- There is no dot behind the last one. -/
theorem dot_notMem_lastSegment (cs : List Char) : '.' ∉ lastSegment cs := by
  intro h
  rw [lastSegment, List.mem_reverse] at h
  simpa using List.mem_takeWhile_imp h

/-- Without a dot everything is the last segment. -/
theorem lastSegment_of_notMem {cs : List Char} (h : '.' ∉ cs) : lastSegment cs = cs := by
  have hall : cs.reverse.takeWhile (· != '.') = cs.reverse := by
    rw [List.takeWhile_eq_self_iff]
    intro c hc
    have hne : c ≠ '.' := fun he => h (he ▸ List.mem_reverse.1 hc)
    simpa using hne
  rw [lastSegment, hall, List.reverse_reverse]

/-- So a simple name has no dot. -/
theorem dot_notMem_simple (name : String) : '.' ∉ (simple name).toList := by
  rw [simple, String.toList_ofList]
  exact dot_notMem_lastSegment name.toList

/-- A name without a dot is its own last segment. -/
theorem simple_of_notMem {name : String} (h : '.' ∉ name.toList) : simple name = name := by
  rw [simple, lastSegment_of_notMem h, String.ofList_toList]

/-- A last segment has no further segments. -/
theorem simple_simple (name : String) : simple (simple name) = simple name :=
  simple_of_notMem (dot_notMem_simple name)

/-- What stands behind a dot and has none is the last segment. -/
theorem simple_append_dot (front : String) {last : String} (h : '.' ∉ last.toList) :
    simple (front ++ "." ++ last) = last := by
  have hall : ∀ c ∈ last.toList.reverse, (c != '.') = true := by
    intro c hc
    have hne : c ≠ '.' := fun he => h (he ▸ List.mem_reverse.1 hc)
    simpa using hne
  have hlast : lastSegment (front ++ "." ++ last).toList = last.toList := by
    simp [lastSegment, String.toList_append, List.takeWhile_append_of_pos hall]
  rw [simple, hlast, String.ofList_toList]

/-- **A qualifier and a last segment make up the name again.** -/
theorem qualifier_append_simple {name : String} (h : qualifier name ≠ "") :
    qualifier name ++ "." ++ simple name = name := by
  have hcut : name.toList.reverse.takeWhile (· != '.') ++ name.toList.reverse.dropWhile (· != '.') =
      name.toList.reverse := List.takeWhile_append_dropWhile
  rcases hrest : name.toList.reverse.dropWhile (· != '.') with _ | ⟨c, rest⟩
  · exact absurd (by simp [qualifier, beforeLastDot, hrest]) h
  · -- What is left when the last segment is gone starts with the dot.
    have hdot : c = '.' := by
      have hstop := List.head?_dropWhile_not (· != '.') name.toList.reverse
      rw [hrest] at hstop
      simpa using hstop
    rw [← String.toList_inj]
    have hname : name.toList = (name.toList.reverse.takeWhile (· != '.') ++ c :: rest).reverse := by
      rw [← hrest, hcut, List.reverse_reverse]
    rw [hname]
    simp [qualifier, beforeLastDot, simple, lastSegment, hrest, hdot]

/-! ## The segments -/

/-- A text that can be a segment of a dotted name. -/
def IsSegment (s : String) : Prop :=
  ∃ c cs, s.toList = c :: cs ∧ isSegmentStart c = true ∧ cs.all isSegmentPart = true

/-- A text that starts with one of the letters A to Z. -/
def IsCapitalized (s : String) : Prop :=
  ∃ c cs, s.toList = c :: cs ∧ 'A' ≤ c ∧ c ≤ 'Z'

/-- The segments of a name, between its dots. -/
def segments (name : String) : List String :=
  (name.toList.splitOn '.').map String.ofList

/-- Every name has a segment, if an empty one. -/
theorem segments_ne_nil (name : String) : segments name ≠ [] := by
  simp [segments]

/-- No segment has a dot in it. -/
theorem dot_notMem_segments (name : String) : ∀ s ∈ segments name, '.' ∉ s.toList := by
  have hlists : ∀ cs : List Char, ∀ l ∈ cs.splitOn '.', '.' ∉ l := by
    intro cs
    induction cs with
    | nil => simp
    | cons c cs ih =>
      rw [List.splitOn_cons_eq_if_modifyHead]
      split
      · simpa using ih
      · rename_i hc
        have hne : '.' ≠ c := fun he => hc (beq_iff_eq.2 he.symm)
        rcases hsplit : cs.splitOn '.' with _ | ⟨l, ls⟩
        · simp
        · rw [hsplit, List.forall_mem_cons] at ih
          exact List.forall_mem_cons.2 ⟨fun hmem => ih.1 (List.mem_of_ne_of_mem hne hmem), ih.2⟩
  intro s hs
  obtain ⟨l, hl, rfl⟩ := List.mem_map.1 hs
  rw [String.toList_ofList]
  exact hlists name.toList l hl

/-- **A name is its segments, joined.** -/
theorem intercalate_segments (name : String) : ".".intercalate (segments name) = name := by
  rw [← String.toList_inj, String.toList_intercalate, segments, List.map_map]
  simp [Function.comp_def]

/-- Segments without dots are read back from the name that they make up. -/
theorem segments_intercalate {parts : List String} (hne : parts ≠ [])
    (hdot : ∀ s ∈ parts, '.' ∉ s.toList) : segments (".".intercalate parts) = parts := by
  have hlists : ∀ l ∈ parts.map String.toList, '.' ∉ l := by
    intro l hl
    obtain ⟨s, hs, rfl⟩ := List.mem_map.1 hl
    exact hdot s hs
  have hjoin : (".".intercalate parts).toList = ['.'].intercalate (parts.map String.toList) := by
    rw [String.toList_intercalate]
    rfl
  rw [segments, hjoin, List.splitOn_intercalate '.' hlists (by simpa using hne), List.map_map]
  simp [Function.comp_def]

/-- **The last of the segments is the last segment.** -/
theorem getLast?_segments (name : String) : (segments name).getLast? = some (simple name) := by
  rcases List.eq_nil_or_concat (segments name) with hnil | ⟨front, last, hsplit⟩
  · exact absurd hnil (segments_ne_nil name)
  · rw [List.concat_eq_append] at hsplit
    have hlast : '.' ∉ last.toList := dot_notMem_segments name last (by simp [hsplit])
    have hname := intercalate_segments name
    have hsimple : simple name = last := by
      rw [← hname, hsplit]
      by_cases hfront : front = []
      · rw [hfront, List.nil_append, String.intercalate_singleton, simple_of_notMem hlast]
      · rw [String.intercalate_append_of_ne_nil hfront (by simp), String.intercalate_singleton,
          simple_append_dot _ hlast]
    rw [hsplit, hsimple, List.getLast?_concat]

/-! ## The form of a name -/

theorem isSegment_iff {s : String} {c : Char} {cs : List Char} (hs : s.toList = c :: cs) :
    IsSegment s ↔ isSegmentStart c = true ∧ cs.all isSegmentPart = true := by
  constructor
  · rintro ⟨d, ds, hds, hstart, hpart⟩
    obtain ⟨rfl, rfl⟩ := List.cons.inj (hs.symm.trans hds)
    exact ⟨hstart, hpart⟩
  · exact fun h => ⟨c, cs, hs, h⟩

/-- Inside a segment the characters are looked at one by one. -/
theorem readsDotted_false_append {cs : List Char} (h : '.' ∉ cs) (rest : List Char) :
    readsDotted false (cs ++ rest) = (cs.all isSegmentPart && readsDotted false rest) := by
  induction cs with
  | nil => rfl
  | cons c cs ih =>
    obtain ⟨hc, hcs⟩ := List.ne_and_not_mem_of_not_mem_cons h
    have hdot : (c == '.') = false := by simpa using fun he => hc he.symm
    simp [readsDotted, hdot, ih hcs, Bool.and_assoc]

/-- A segment and a dot, and then another name. -/
theorem readsDotted_append_dot_iff {s : String} (h : '.' ∉ s.toList) (rest : List Char) :
    readsDotted true (s.toList ++ '.' :: rest) = true ↔
      IsSegment s ∧ readsDotted true rest = true := by
  rcases hs : s.toList with _ | ⟨c, cs⟩
  · have hstart : isSegmentStart '.' = false := by decide
    simp [readsDotted, IsSegment, hs, hstart]
  · have hcs : '.' ∉ cs := fun hmem => h (by rw [hs]; exact List.mem_cons_of_mem c hmem)
    rw [isSegment_iff hs]
    simp [readsDotted, readsDotted_false_append hcs, and_assoc]

/-- What is read up to the first dot is a segment. -/
theorem readsDotted_iff {s : String} (h : '.' ∉ s.toList) :
    readsDotted true s.toList = true ↔ IsSegment s := by
  rcases hs : s.toList with _ | ⟨c, cs⟩
  · simp [readsDotted, IsSegment, hs]
  · have hcs : '.' ∉ cs := fun hmem => h (by rw [hs]; exact List.mem_cons_of_mem c hmem)
    have hread := readsDotted_false_append hcs []
    rw [List.append_nil] at hread
    rw [isSegment_iff hs]
    simp [readsDotted, hread]

/-- **A joined name is dotted when each of its segments can be one.** -/
theorem isDotted_intercalate_iff {parts : List String} (hne : parts ≠ [])
    (hdot : ∀ s ∈ parts, '.' ∉ s.toList) :
    isDotted (".".intercalate parts) = true ↔ ∀ s ∈ parts, IsSegment s := by
  unfold isDotted
  induction parts with
  | nil => exact absurd rfl hne
  | cons s parts ih =>
    have hs := hdot s List.mem_cons_self
    rcases parts with _ | ⟨t, parts⟩
    · simp [readsDotted_iff hs]
    · have htail := ih (by simp) fun u hu => hdot u (List.mem_cons_of_mem s hu)
      have hlist : (".".intercalate (s :: t :: parts)).toList =
          s.toList ++ '.' :: (".".intercalate (t :: parts)).toList := by
        simp [String.toList_append]
      rw [hlist, readsDotted_append_dot_iff hs, htail]
      exact List.forall_mem_cons.symm

/-- **A name is dotted exactly when each of its segments can be one.** -/
theorem isDotted_iff (name : String) :
    isDotted name = true ↔ ∀ s ∈ segments name, IsSegment s := by
  have h := isDotted_intercalate_iff (segments_ne_nil name) (dot_notMem_segments name)
  rwa [intercalate_segments] at h

/-- Only the last segment tells whether a name is spelled like a type. -/
theorem isTypeLike_iff (name : String) : isTypeLike name = true ↔ IsCapitalized (simple name) := by
  unfold isTypeLike IsCapitalized simple
  rw [String.toList_ofList]
  rcases lastSegment name.toList with _ | ⟨c, cs⟩ <;> simp

/-- A name that goes on behind a dot is spelled like a type if what follows is. -/
theorem isTypeLike_append_iff {front last : String} (h : '.' ∉ last.toList) :
    isTypeLike (front ++ "." ++ last) = true ↔ IsCapitalized last := by
  rw [isTypeLike_iff, simple_append_dot front h]

end Name

end CallbackLint
