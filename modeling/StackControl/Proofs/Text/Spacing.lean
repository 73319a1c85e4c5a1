import StackControl.Proofs.Text.Words

/-!
# Words and the blanks between them

A text is its words with blanks around them: there may be none before the first word and after the
last one, but there is one between any two.  The words are then the maximal runs of the text without
a blank, and they are the same however the blanks are spelled.
-/

namespace StackControl.Text

variable {cs gap word : List Char} {ws : List (List Char)} {c : Char}

/-- The maximal runs without a blank: what is left of a text cut at every blank. -/
def runs (cs : List Char) : List (List Char) :=
  (cs.splitOnP isBlank).filter fun run => !run.isEmpty

/-- A text is made of words, in order, with blanks around them.  Behind a word the text ends or goes
on with a blank. -/
inductive Spaced : List (List Char) → List Char → Prop
  | blank {cs : List Char} (hcs : ∀ c ∈ cs, isBlank c = true) : Spaced [] cs
  | word {gap word rest : List Char} {ws : List (List Char)}
      (hgap : ∀ c ∈ gap, isBlank c = true) (hword : IsWord word)
      (hstarts : startsBlank rest = true) (hrest : Spaced ws rest) :
      Spaced (word :: ws) (gap ++ word ++ rest)

/-! ## The runs of a text made of words -/

theorem runs_cons_of_blank (hc : isBlank c = true) (cs : List Char) : runs (c :: cs) = runs cs := by
  rw [runs, List.splitOnP_cons_eq_if_modifyHead, if_pos hc, List.filter_cons_of_neg (by simp)]
  rfl

theorem runs_append_of_blank (hgap : ∀ c ∈ gap, isBlank c = true) (cs : List Char) :
    runs (gap ++ cs) = runs cs := by
  induction gap with
  | nil => rfl
  | cons c gap ih =>
      obtain ⟨hc, hgap⟩ := List.forall_mem_cons.mp hgap
      rw [List.cons_append, runs_cons_of_blank hc, ih hgap]

theorem runs_of_blank (hcs : ∀ c ∈ cs, isBlank c = true) : runs cs = [] := by
  rw [← List.append_nil cs, runs_append_of_blank hcs]
  simp [runs]

theorem runs_word_append (hword : IsWord word) {rest : List Char}
    (hstarts : startsBlank rest = true) :
    runs (word ++ rest) = word :: runs rest := by
  have hkept : (!word.isEmpty) = true := by simpa using hword.ne_nil
  cases rest with
  | nil =>
      rw [List.append_nil, runs, List.splitOnP_eq_singleton hword.solid, List.filter_cons,
        if_pos hkept]
      simp [runs]
  | cons c rest =>
      rw [runs_cons_of_blank hstarts, runs,
        List.splitOnP_append_cons_of_forall_mem hword.solid c hstarts, List.filter_cons,
        if_pos hkept, runs]

theorem Spaced.runs_eq (h : Spaced ws cs) : runs cs = ws := by
  induction h with
  | blank hcs => exact runs_of_blank hcs
  | word hgap hword hstarts _ ih =>
      rw [List.append_assoc, runs_append_of_blank hgap, runs_word_append hword hstarts, ih]

/-! ## The words of a text -/

theorem Spaced.cons_word (h : Spaced ws cs) (hword : IsWord word)
    (hstarts : startsBlank cs = true) : Spaced (word :: ws) (word ++ cs) :=
  @Spaced.word [] word cs ws (by simp) hword hstarts h

theorem Spaced.cons_blank (h : Spaced ws cs) (hc : isBlank c = true) : Spaced ws (c :: cs) := by
  cases h with
  | blank hcs => exact .blank (List.forall_mem_cons.mpr ⟨hc, hcs⟩)
  | @word gap word rest ws hgap hword hstarts hrest =>
      rw [List.append_assoc, ← List.cons_append, ← List.append_assoc]
      exact .word (List.forall_mem_cons.mpr ⟨hc, hgap⟩) hword hstarts hrest

/-- A text that begins with a word is begun by a longer one when a character is put in front. -/
theorem Spaced.cons_solid (h : Spaced (word :: ws) cs) (hcs : startsBlank cs = false)
    (hc : isBlank c = false) : Spaced ((c :: word) :: ws) (c :: cs) := by
  cases h with
  | @word gap _ rest _ hgap hword hstarts hrest =>
      cases gap with
      | nil =>
          have hlonger : IsWord (c :: word) :=
            ⟨List.cons_ne_nil _ _, List.forall_mem_cons.mpr ⟨hc, hword.solid⟩⟩
          exact hrest.cons_word hlonger hstarts
      | cons d gap => exact absurd (hgap d List.mem_cons_self) (by simpa [startsBlank] using hcs)

theorem spaced_words (cs : List Char) : Spaced (words cs) cs := by
  fun_induction words cs with
  | case1 => exact .blank (by simp)
  | case2 c rest hblank ih => exact ih.cons_blank hblank
  | case3 c rest hblank hstarts ih =>
      have hword : IsWord [c] := ⟨List.cons_ne_nil _ _, by simpa using hblank⟩
      exact ih.cons_word hword hstarts
  | case4 c rest hblank hstarts hwords ih =>
      -- A rest without words is blank, and so begins blank.
      have hrest := words_eq_nil_iff.mp hwords
      cases rest with
      | nil => exact absurd rfl hstarts
      | cons d rest => exact absurd (hrest d List.mem_cons_self) hstarts
  | case5 c rest hblank hstarts word others hwords ih =>
      rw [hwords] at ih
      exact ih.cons_solid (by simpa using hstarts) (by simpa using hblank)

/-- The words of a text are its maximal runs without a blank. -/
theorem words_eq_runs (cs : List Char) : words cs = runs cs :=
  (spaced_words cs).runs_eq.symm

theorem spaced_intercalate (h : ∀ word ∈ ws, IsWord word) : Spaced ws ([' '].intercalate ws) := by
  induction ws with
  | nil => exact .blank (by simp)
  | cons word ws ih =>
      obtain ⟨hword, hws⟩ := List.forall_mem_cons.mp h
      cases ws with
      | nil =>
          have hnone : Spaced [] [] := .blank (by simp)
          have hone := hnone.cons_word hword rfl
          rw [List.intercalate_singleton]
          rwa [List.append_nil] at hone
      | cons word' ws =>
          have hspace : isBlank ' ' = true := by decide
          rw [List.intercalate_cons_cons, List.append_assoc]
          exact ((ih hws).cons_blank hspace).cons_word hword hspace

/-- Words that are put together with single spaces are the words of what comes of it. -/
theorem words_intercalate (h : ∀ word ∈ ws, IsWord word) : words ([' '].intercalate ws) = ws := by
  rw [words_eq_runs, (spaced_intercalate h).runs_eq]

end StackControl.Text
