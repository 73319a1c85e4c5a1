import Mathlib.Data.List.Basic
import Mathlib.Data.List.Induction
import StackControl.Text.Blank

/-!
# Words and trimmed texts

The words of a text are what is left of it without its blanks, cut up.  A text that is put together
again from words neither begins nor ends with a blank, and what occurs in it and has all its words
is the whole of it.
-/

namespace StackControl.Text

variable {cs xs ys : List Char} {word : List Char} {ws : List (List Char)}

/-- What is left of a text without its blanks. -/
def withoutBlanks (cs : List Char) : List Char :=
  cs.filter fun c => !isBlank c

/-- A text neither begins nor ends with a blank. -/
structure IsTrimmed (cs : List Char) : Prop where
  head : ∀ c ∈ cs.head?, isBlank c = false
  last : ∀ c ∈ cs.getLast?, isBlank c = false

/-- A word holds something, but no blank. -/
structure IsWord (cs : List Char) : Prop where
  ne_nil : cs ≠ []
  solid : ∀ c ∈ cs, isBlank c = false

/-! ## Cutting into words -/

theorem flatten_words (cs : List Char) : (words cs).flatten = withoutBlanks cs := by
  unfold withoutBlanks
  fun_induction words cs with
  | case1 => rfl
  | case2 c rest hblank ih => simp [hblank, ih]
  | case3 c rest hblank _ ih => simp [hblank, ih]
  | case4 c rest hblank _ hwords ih =>
      rw [hwords] at ih
      simp [hblank, ← ih]
  | case5 c rest hblank _ word others hwords ih =>
      rw [hwords] at ih
      simp [hblank, ← ih]

theorem isWord_of_mem_words (h : word ∈ words cs) : IsWord word := by
  constructor
  · revert h
    fun_induction words cs with
    | case1 => simp
    | case2 c rest _ ih => exact ih
    | case3 c rest _ _ ih =>
        intro h
        rcases List.mem_cons.mp h with rfl | h
        · exact List.cons_ne_nil _ _
        · exact ih h
    | case4 =>
        intro h
        rw [List.mem_singleton.mp h]
        exact List.cons_ne_nil _ _
    | case5 c rest _ _ first others hwords ih =>
        intro h
        rcases List.mem_cons.mp h with rfl | h
        · exact List.cons_ne_nil _ _
        · rw [hwords] at ih
          exact ih (List.mem_cons_of_mem _ h)
  · intro c hc
    have hmem : c ∈ withoutBlanks cs := by
      rw [← flatten_words]
      exact List.mem_flatten.mpr ⟨word, h, hc⟩
    simpa using (List.mem_filter.mp hmem).2

theorem words_eq_nil_iff : words cs = [] ↔ ∀ c ∈ cs, isBlank c = true := by
  have hflatten : words cs = [] ↔ withoutBlanks cs = [] := by
    rw [← flatten_words, List.flatten_eq_nil_iff]
    constructor
    · intro h
      simp [h]
    · intro h
      apply List.eq_nil_iff_forall_not_mem.mpr
      intro word hword
      exact (isWord_of_mem_words hword).ne_nil (h word hword)
  rw [hflatten, withoutBlanks, List.filter_eq_nil_iff]
  simp

/-! ## Putting words together -/

theorem withoutBlanks_intercalate (ws : List (List Char)) :
    withoutBlanks ([' '].intercalate ws) = withoutBlanks ws.flatten := by
  unfold withoutBlanks
  have hblank : isBlank ' ' = true := by decide
  induction ws with
  | nil => rfl
  | cons w ws ih =>
      cases ws with
      | nil => simp
      | cons w' ws =>
          rw [List.intercalate_cons_cons, List.filter_append, List.filter_append, ih]
          simp [hblank]

theorem isTrimmed_of_ends {first last : Char} (hhead : cs.head? = some first)
    (hfirst : isBlank first = false) (hlast : cs.getLast? = some last)
    (hblank : isBlank last = false) : IsTrimmed cs where
  head := by
    rw [hhead]
    rintro c ⟨⟩
    exact hfirst
  last := by
    rw [hlast]
    rintro c ⟨⟩
    exact hblank

theorem IsWord.isTrimmed (h : IsWord cs) : IsTrimmed cs where
  head := fun c hc => h.solid c (List.mem_of_mem_head? hc)
  last := fun c hc => h.solid c (List.mem_of_mem_getLast? hc)

theorem IsTrimmed.append (hxs : IsTrimmed xs) (hne : xs ≠ []) (hys : IsTrimmed ys) (hne' : ys ≠ [])
    (zs : List Char) :
    IsTrimmed (xs ++ zs ++ ys) where
  head := by
    rw [List.append_assoc, List.head?_append_of_ne_nil _ hne]
    exact hxs.head
  last := by
    rw [List.getLast?_append_of_ne_nil _ hne']
    exact hys.last

/-- Words that are put together begin and end like words. -/
theorem isTrimmed_intercalate (hne : ws ≠ []) (h : ∀ w ∈ ws, IsWord w) :
    [' '].intercalate ws ≠ [] ∧ IsTrimmed ([' '].intercalate ws) := by
  induction ws with
  | nil => exact absurd rfl hne
  | cons w ws ih =>
      obtain ⟨hw, hws⟩ := List.forall_mem_cons.mp h
      cases ws with
      | nil =>
          rw [List.intercalate_singleton]
          exact ⟨hw.ne_nil, hw.isTrimmed⟩
      | cons w' ws =>
          obtain ⟨hrest, htrimmed⟩ := ih (List.cons_ne_nil _ _) hws
          rw [List.intercalate_cons_cons]
          refine ⟨?_, hw.isTrimmed.append hw.ne_nil htrimmed hrest _⟩
          simp [hw.ne_nil]

/-! ## Trimming -/

theorem trimEnd_of_last (h : ∀ c ∈ cs.getLast?, isBlank c = false) : trimEnd cs = cs := by
  induction cs with
  | nil => rfl
  | cons c rest ih =>
      cases rest with
      | nil => simp [trimEnd, h c rfl]
      | cons d rest =>
          rw [List.getLast?_cons_cons] at h
          rw [trimEnd, ih h]

theorem trimStart_append (hblank : ∀ c ∈ xs, isBlank c = true)
    (h : ∀ c ∈ ys.head?, isBlank c = false) :
    trimStart (xs ++ ys) = ys := by
  rw [trimStart, List.dropWhile_append_of_pos hblank]
  cases ys with
  | nil => rfl
  | cons c rest => exact List.dropWhile_cons_of_neg (by simp [h c rfl])

theorem trim_append_of_blank (hblank : ∀ c ∈ xs, isBlank c = true) :
    trim (xs ++ ys) = trim ys := by
  rw [trim, trim, trimStart, trimStart, List.dropWhile_append_of_pos hblank]

theorem trimEnd_append_blank (hblank : ∀ c ∈ ys, isBlank c = true) :
    trimEnd (xs ++ ys) = trimEnd xs := by
  induction xs with
  | nil =>
      rw [List.nil_append]
      induction ys with
      | nil => rfl
      | cons c rest ih =>
          obtain ⟨hc, hrest⟩ := List.forall_mem_cons.mp hblank
          simp only [trimEnd, ih hrest, hc, if_true]
  | cons c rest ih => rw [List.cons_append, trimEnd, trimEnd, ih]

theorem trim_append_blank (hblank : ∀ c ∈ ys, isBlank c = true) :
    trim (xs ++ ys) = trim xs := by
  induction xs with
  | nil => rw [List.nil_append, ← List.append_nil ys, trim_append_of_blank hblank]
  | cons c rest ih =>
      by_cases hc : isBlank c = true
      · have hone (zs : List Char) : trim (c :: zs) = trim zs := by
          rw [← List.singleton_append, trim_append_of_blank (by simpa using hc)]
        rw [List.cons_append, hone, hone, ih]
      · have hone (zs : List Char) : trim (c :: zs) = trimEnd (c :: zs) := by
          rw [trim, trimStart, List.dropWhile_cons_of_neg hc]
        rw [List.cons_append, hone, hone, ← List.cons_append, trimEnd_append_blank hblank]

theorem trim_of_isTrimmed (h : IsTrimmed cs) : trim cs = cs := by
  rw [trim, ← List.nil_append cs, trimStart_append (by simp) h.head, List.nil_append,
    trimEnd_of_last h.last]

theorem sublist_trimEnd (cs : List Char) : (trimEnd cs).Sublist cs := by
  induction cs with
  | nil => exact List.Sublist.refl _
  | cons c rest ih =>
      rw [trimEnd]
      split
      next =>
        split
        next => exact List.nil_sublist _
        next => exact List.Sublist.cons_cons c (List.nil_sublist _)
      next => exact List.Sublist.cons_cons c ih

theorem sublist_trim (cs : List Char) : (trim cs).Sublist cs :=
  (sublist_trimEnd _).trans (List.dropWhile_sublist isBlank)

/-- What occurs in a text that begins and ends with no blank, and lacks only blanks of it, is all
of it. -/
theorem eq_of_infix (hoccurs : xs <:+: ys) (hys : IsTrimmed ys)
    (h : withoutBlanks xs = withoutBlanks ys) :
    xs = ys := by
  obtain ⟨front, back, rfl⟩ := hoccurs
  have hblank : withoutBlanks front = [] ∧ withoutBlanks back = [] := by
    have hlength := congrArg List.length h
    simp only [withoutBlanks, List.filter_append, List.length_append] at hlength ⊢
    constructor
    · apply List.eq_nil_of_length_eq_zero
      omega
    · apply List.eq_nil_of_length_eq_zero
      omega
  have hfront : front = [] := by
    cases front with
    | nil => rfl
    | cons c front =>
        have hc := hys.head c rfl
        simp [withoutBlanks, hc] at hblank
  have hback : back = [] := by
    cases back using List.reverseRecOn with
    | nil => rfl
    | append_singleton back c =>
        have hc := hys.last c (by simp)
        simp [withoutBlanks, hc] at hblank
  rw [hfront, hback, List.nil_append, List.append_nil]

end StackControl.Text
