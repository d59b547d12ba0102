import CallbackLint.Text.Blank
import CallbackLint.Text.Line
import Mathlib.Data.List.Basic
/-!
# Words and blanks

The words of a text are the pieces between its blanks, without the empty ones
(`words_eq_filter_splitOnP`), so they are read from the left and from the right of any blank
(`words_append_blank`). Words that are joined by spaces are read back (`words_unwords`).

The two normal forms of a text are stated by what is in them. A squeezed text has no blanks but
single spaces between other characters (`isSqueezed_squeeze`), in particular none that ends a
line, and its words are those of the text (`words_squeeze`). A compact text has no blanks at all,
and is the squeezed text without its spaces (`compact_eq_withoutSpaces`).
-/

namespace CallbackLint

namespace Text

/-! ## Words -/

theorem words_nil : words [] = [] := by
  exact rfl

theorem words_singleton (c : Char) : words [c] = if isBlank c then [] else [[c]] := by
  exact rfl

theorem words_cons_cons (c d : Char) (ds : List Char) :
    words (c :: d :: ds) =
      if isBlank c then words (d :: ds)
      else if isBlank d then [c] :: words (d :: ds)
      else
        match words (d :: ds) with
        | [] => [[c]]
        | w :: ws => (c :: w) :: ws := by
  exact rfl

/-- A blank in front starts no word. -/
theorem words_cons_of_blank {c : Char} (h : isBlank c = true) (cs : List Char) :
    words (c :: cs) = words cs := by
  rcases cs with _ | ⟨d, ds⟩
  · rw [words_singleton, if_pos h, words_nil]
  · rw [words_cons_cons, if_pos h]

/-- **The words are the pieces between the blanks**, without the empty ones. -/
theorem words_eq_filter_splitOnP (cs : List Char) :
    words cs = (cs.splitOnP isBlank).filter (fun w => !w.isEmpty) := by
  induction cs with
  | nil => rfl
  | cons c cs ih =>
    rw [List.splitOnP_cons_eq_if_modifyHead]
    by_cases hc : isBlank c = true
    · rw [words_cons_of_blank hc, ih, if_pos hc]
      rfl
    rw [if_neg hc]
    rcases cs with _ | ⟨d, ds⟩
    · rw [words_singleton, if_neg hc]
      rfl
    rw [words_cons_cons, if_neg hc, ih, List.splitOnP_cons_eq_if_modifyHead]
    by_cases hd : isBlank d = true
    · simp [hd]
    · -- The next character goes on with the word, which is thus the first piece.
      obtain ⟨piece, pieces, hpieces⟩ :=
        List.exists_cons_of_ne_nil (List.splitOnP_ne_nil isBlank ds)
      simp [hd, hpieces]

/-- A blank stands between two words or outside all of them. -/
theorem words_append_blank {c : Char} (h : isBlank c = true) (xs ys : List Char) :
    words (xs ++ c :: ys) = words xs ++ words ys := by
  rw [words_eq_filter_splitOnP, List.splitOnP_append_cons xs ys h, List.filter_append,
    ← words_eq_filter_splitOnP, ← words_eq_filter_splitOnP]

/-- A blank is in no word; any other character goes before the first word or makes one. -/
theorem flatten_words_cons (c : Char) (cs : List Char) :
    (words (c :: cs)).flatten = [c].filter (fun c => !isBlank c) ++ (words cs).flatten := by
  rcases cs with _ | ⟨d, ds⟩
  · rw [words_singleton]
    split <;> rename_i hc <;> simp [hc, words_nil]
  · rw [words_cons_cons]
    split
    · rename_i hc
      simp [hc]
    · rename_i hc
      split
      · simp [hc]
      · rcases words (d :: ds) with _ | ⟨w, ws⟩ <;> simp [hc]

/-- The words of a text are its characters that are not blank. -/
theorem flatten_words (cs : List Char) : (words cs).flatten = cs.filter (fun c => !isBlank c) := by
  induction cs with
  | nil => rfl
  | cons c cs ih => rw [flatten_words_cons, ih, ← List.filter_append, List.singleton_append]

/-- A text that can be a word. -/
structure IsWord (w : List Char) : Prop where
  ne_nil : w ≠ []
  isBlank : ∀ c ∈ w, isBlank c = false

/-- The words of a text are words. -/
theorem isWord_of_mem_words {cs w : List Char} (h : w ∈ words cs) : IsWord w := by
  constructor
  · rw [words_eq_filter_splitOnP] at h
    simpa using (List.mem_filter.1 h).2
  · intro c hc
    have hmem : c ∈ (words cs).flatten := List.mem_flatten.2 ⟨w, h, hc⟩
    rw [flatten_words] at hmem
    simpa using (List.mem_filter.1 hmem).2

/-- A word is its own only word. -/
theorem IsWord.words_eq {w : List Char} (h : IsWord w) : words w = [w] := by
  have hsplit : w.splitOnP Text.isBlank = [w] :=
    List.splitOnP_eq_singleton fun c hc => by simpa using h.isBlank c hc
  rw [words_eq_filter_splitOnP, hsplit]
  simpa using h.ne_nil

theorem isBlank_space : isBlank ' ' = true := by
  decide

/-- **Words joined by spaces are read back.** -/
theorem words_unwords {ws : List (List Char)} (h : ∀ w ∈ ws, IsWord w) :
    words (unwords ws) = ws := by
  fun_induction unwords ws with
  | case1 => rfl
  | case2 w => exact (h w List.mem_cons_self).words_eq
  | case3 w v ws ih =>
    rw [List.forall_mem_cons] at h
    rw [words_append_blank isBlank_space, h.1.words_eq, ih h.2, List.singleton_append]

/-! ## Squeezed texts -/

/-- A text whose only blanks are single spaces, each between two characters that are not
blank. -/
def IsSqueezed (cs : List Char) : Prop :=
  ∀ before c after, cs = before ++ c :: after → isBlank c = true →
    c = ' ' ∧ (∃ d, before.getLast? = some d ∧ isBlank d = false) ∧
      ∃ d, after.head? = some d ∧ isBlank d = false

/-- A word starts with no blank. -/
theorem IsWord.exists_head? {w : List Char} (h : IsWord w) :
    ∃ d, w.head? = some d ∧ Text.isBlank d = false := by
  obtain ⟨d, ds, rfl⟩ := List.exists_cons_of_ne_nil h.ne_nil
  exact ⟨d, rfl, h.isBlank d List.mem_cons_self⟩

/-- Nor does it end with one. -/
theorem IsWord.exists_getLast? {w : List Char} (h : IsWord w) :
    ∃ d, w.getLast? = some d ∧ Text.isBlank d = false :=
  ⟨w.getLast h.ne_nil, List.getLast?_eq_some_getLast h.ne_nil,
    h.isBlank _ (List.getLast_mem h.ne_nil)⟩

/-- Joined words start with the first of them. -/
theorem exists_head?_unwords {w : List Char} (h : IsWord w) (ws : List (List Char)) :
    ∃ d, (unwords (w :: ws)).head? = some d ∧ isBlank d = false := by
  obtain ⟨d, hd, hblank⟩ := h.exists_head?
  refine ⟨d, ?_, hblank⟩
  rcases ws with _ | ⟨v, ws⟩
  · exact hd
  · rw [unwords, List.head?_append, hd, Option.some_or]

/-- So a word is squeezed. -/
theorem IsWord.isSqueezed {w : List Char} (h : IsWord w) : IsSqueezed w := by
  intro before c after hw hblank
  have hc : c ∈ w := by simp [hw]
  exact absurd hblank (by simp [h.isBlank c hc])

/-- A word, a space and a squeezed text that does not start with a blank. -/
theorem IsWord.isSqueezed_append {w cs : List Char} (h : IsWord w) (hcs : IsSqueezed cs)
    (hhead : ∃ d, cs.head? = some d ∧ Text.isBlank d = false) :
    IsSqueezed (w ++ ' ' :: cs) := by
  intro before c after heq hblank
  rcases List.append_eq_append_iff.1 heq with ⟨more, hbefore, hmore⟩ | ⟨more, hw, hmore⟩
  · rcases more with _ | ⟨space, more⟩
    · obtain ⟨rfl, rfl⟩ := List.cons.inj hmore
      rw [hbefore, List.append_nil]
      exact ⟨rfl, h.exists_getLast?, hhead⟩
    · -- The blank is behind the space, in the text that follows.
      obtain ⟨rfl, htail⟩ := List.cons.inj hmore
      obtain ⟨hspace, ⟨d, hd, hdblank⟩, hafter⟩ := hcs more c after htail hblank
      refine ⟨hspace, ⟨d, ?_, hdblank⟩, hafter⟩
      rw [hbefore, List.getLast?_append, List.getLast?_cons, hd]
      rfl
  · rcases more with _ | ⟨d, more⟩
    · obtain ⟨rfl, rfl⟩ := List.cons.inj hmore
      rw [List.append_nil] at hw
      rw [← hw]
      exact ⟨rfl, h.exists_getLast?, hhead⟩
    · -- No blank is inside the word.
      obtain ⟨rfl, -⟩ := List.cons.inj hmore
      have hmem : c ∈ w := by simp [hw]
      exact absurd hblank (by simp [h.isBlank c hmem])

/-- **Words with single spaces between them are squeezed.** -/
theorem isSqueezed_unwords {ws : List (List Char)} (h : ∀ w ∈ ws, IsWord w) :
    IsSqueezed (unwords ws) := by
  fun_induction unwords ws with
  | case1 => exact fun before c after heq => absurd heq (by simp)
  | case2 w => exact (h w List.mem_cons_self).isSqueezed
  | case3 w v ws ih =>
    rw [List.forall_mem_cons] at h
    exact h.1.isSqueezed_append (ih h.2) (exists_head?_unwords (h.2 v List.mem_cons_self) ws)

/-- **Squeezing leaves single spaces between words.** -/
theorem isSqueezed_squeeze (s : String) : IsSqueezed (squeeze s).toList := by
  rw [squeeze, String.toList_ofList]
  exact isSqueezed_unwords fun w hw => isWord_of_mem_words hw

/-- **Squeezing keeps the words.** -/
theorem words_squeeze (s : String) : words (squeeze s).toList = words s.toList := by
  rw [squeeze, String.toList_ofList]
  exact words_unwords fun w hw => isWord_of_mem_words hw

/-- Squeezing twice is squeezing once. -/
theorem squeeze_squeeze (s : String) : squeeze (squeeze s) = squeeze s := by
  rw [squeeze, words_squeeze]
  rfl

/-- The only blank in a squeezed text is the space. -/
theorem IsSqueezed.eq_space {cs : List Char} (h : IsSqueezed cs) {c : Char} (hc : c ∈ cs)
    (hblank : isBlank c = true) : c = ' ' := by
  obtain ⟨before, after, hsplit⟩ := List.append_of_mem hc
  exact (h before c after hsplit hblank).1

/-- What ends a line is blank. -/
theorem isBlank_of_isLineBreak {c : Char} (h : isLineBreak c = true) : isBlank c = true := by
  simp only [isLineBreak, isBlank, Bool.or_eq_true, Bool.and_eq_true, decide_eq_true_eq,
    beq_iff_eq] at h ⊢
  omega

/-- A squeezed text is one line. -/
theorem IsSqueezed.isLineBreak_eq_false {cs : List Char} (h : IsSqueezed cs) :
    ∀ c ∈ cs, isLineBreak c = false := by
  intro c hc
  by_contra hbreak
  rw [Bool.not_eq_false] at hbreak
  have hspace : c = ' ' := h.eq_space hc (isBlank_of_isLineBreak hbreak)
  rw [hspace] at hbreak
  exact absurd hbreak (by decide)

/-! ## Compact texts -/

/-- A compact text has no blank. -/
theorem isBlank_compact (s : String) : ∀ c ∈ (compact s).toList, isBlank c = false := by
  intro c hc
  rw [compact, String.toList_ofList] at hc
  simpa using (List.mem_filter.1 hc).2

/-- Texts are made compact piece by piece. -/
theorem compact_append (s t : String) : compact (s ++ t) = compact s ++ compact t := by
  rw [← String.toList_inj]
  simp [compact, String.toList_append]

/-- A text without blanks is left as it is. -/
theorem compact_of_forall {s : String} (h : ∀ c ∈ s.toList, isBlank c = false) : compact s = s := by
  have hkeep : s.toList.filter (fun c => !isBlank c) = s.toList :=
    List.filter_eq_self.2 fun c hc => by simp [h c hc]
  rw [compact, hkeep, String.ofList_toList]

/-- Of blanks nothing is left. -/
theorem compact_of_blank {s : String} (h : ∀ c ∈ s.toList, isBlank c = true) : compact s = "" := by
  have hdrop : s.toList.filter (fun c => !isBlank c) = [] :=
    List.filter_eq_nil_iff.2 fun c hc => by simp [h c hc]
  rw [compact, hdrop, String.ofList_nil]

/-- Without blanks, words joined by spaces are the words one after the other. -/
theorem filter_unwords (ws : List (List Char)) :
    (unwords ws).filter (fun c => !isBlank c) = ws.flatten.filter (fun c => !isBlank c) := by
  fun_induction unwords ws with
  | case1 => rfl
  | case2 w => simp
  | case3 w v ws ih =>
    rw [List.filter_append, List.filter_cons_of_neg (by simp [isBlank_space]), ih,
      ← List.filter_append, ← List.flatten_cons]

/-- Single spaces are blanks too. -/
theorem compact_squeeze (s : String) : compact (squeeze s) = compact s := by
  rw [compact, compact, squeeze, String.toList_ofList, filter_unwords, flatten_words,
    List.filter_filter]
  simp

/-- The text without its spaces, where other blanks stay. -/
def withoutSpaces (s : String) : String :=
  String.ofList (s.toList.filter (· != ' '))

/-- **The compact text is the squeezed one without its spaces.** -/
theorem compact_eq_withoutSpaces (s : String) : compact s = withoutSpaces (squeeze s) := by
  rw [← compact_squeeze, compact, withoutSpaces]
  refine congrArg String.ofList (List.filter_congr fun c hc => ?_)
  by_cases hspace : c = ' '
  · simp [hspace, isBlank_space]
  · have hblank : isBlank c = false := by
      by_contra hblank
      exact hspace ((isSqueezed_squeeze s).eq_space hc (by simpa using hblank))
    simp [hspace, hblank]

end Text

end CallbackLint
