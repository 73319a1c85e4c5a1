import StackControl.Text.Search

/-!
# Replacing a pattern

The occurrences that are replaced cut the text into pieces, and the new text is the pieces with the
replacement between them.  The replacement can form a new occurrence of the pattern with what stands
around it only if it has a letter of the pattern.
-/

namespace StackControl.Text

variable {α : Type} {pattern replacement text : List α}

/-- The pieces into which a pattern cuts a text: every occurrence that cuts is the first in what
stands after the one before it. -/
inductive Cuts (pattern : List α) : List α → List (List α) → Prop
  | whole {text : List α} : ¬pattern <:+: text → Cuts pattern text [text]
  | cut {before rest : List α} {pieces : List (List α)} :
      (∀ before' rest', before ++ (pattern ++ rest) = before' ++ (pattern ++ rest') →
        before.length ≤ before'.length) →
        Cuts pattern rest pieces →
          Cuts pattern (before ++ (pattern ++ rest)) (before :: pieces)

theorem Cuts.ne_nil {pieces : List (List α)} (h : Cuts pattern text pieces) : pieces ≠ [] := by
  cases h <;> exact List.cons_ne_nil _ _

/-- No piece has an occurrence of the pattern. -/
theorem Cuts.not_infix (hpattern : pattern ≠ []) {pieces : List (List α)}
    (h : Cuts pattern text pieces) :
    ∀ piece ∈ pieces, ¬pattern <:+: piece := by
  induction h with
  | whole hnot => simpa using hnot
  | @cut before rest pieces hfirst _ ih =>
      intro piece hpiece
      rcases List.mem_cons.mp hpiece with rfl | hpiece
      · rintro ⟨start, after, rfl⟩
        have hle := hfirst start (after ++ (pattern ++ rest)) (by simp)
        have hpos := List.length_pos_iff.mpr hpattern
        simp only [List.length_append] at hle
        omega
      · exact ih piece hpiece

/-- A first letter before which no pattern begins belongs to the first piece. -/
theorem Cuts.cons {c : α} {piece : List α} {pieces : List (List α)}
    (hnot : ¬pattern <+: c :: text) (h : Cuts pattern text (piece :: pieces)) :
    Cuts pattern (c :: text) ((c :: piece) :: pieces) := by
  cases h with
  | whole h =>
      apply Cuts.whole
      intro hinfix
      exact (List.infix_cons_iff.mp hinfix).elim hnot h
  | @cut _ rest _ hfirst h =>
      rw [← List.cons_append]
      refine .cut ?_ h
      intro before' rest' heq
      cases before' with
      | nil => exact absurd ⟨rest', heq.symm⟩ hnot
      | cons d before' =>
          obtain ⟨-, heq⟩ := List.cons.inj heq
          exact Nat.succ_le_succ (hfirst before' rest' heq)

/-! ## No new occurrences -/

/-- What separates two texts separates the occurrences of a pattern that has none of its letters. -/
theorem infix_of_infix_separated {before after : List α} (hpattern : pattern ≠ [])
    (hreplacement : replacement ≠ []) (hapart : ∀ c ∈ pattern, c ∉ replacement)
    (h : pattern <:+: before ++ (replacement ++ after)) :
    pattern <:+: before ∨ pattern <:+: after := by
  obtain ⟨r, replacement', rfl⟩ := List.exists_cons_of_ne_nil hreplacement
  rcases List.infix_append_iff.mp h with h | h | ⟨front, back, rfl, hfront, hback⟩
  · exact .inl h
  · rcases List.infix_append_iff.mp h with h | h | ⟨front, back, rfl, hfront, hback⟩
    · obtain ⟨c, hc⟩ := List.exists_mem_of_ne_nil _ hpattern
      exact absurd (h.subset hc) (hapart c hc)
    · exact .inr h
    · cases front with
      | nil => exact .inr hback.isInfix
      | cons c front =>
          exact absurd (hfront.subset List.mem_cons_self) (hapart c (by simp))
  · cases back with
    | nil => exact .inl (by simpa using hfront.isInfix)
    | cons c back =>
        obtain ⟨rest, hrest⟩ := hback
        obtain ⟨rfl, -⟩ := List.cons.inj hrest
        exact absurd List.mem_cons_self (hapart c (by simp))

theorem intercalate_cons {sep piece : List α} {pieces : List (List α)} (h : pieces ≠ []) :
    sep.intercalate (piece :: pieces) = piece ++ (sep ++ sep.intercalate pieces) := by
  obtain ⟨next, pieces, rfl⟩ := List.exists_cons_of_ne_nil h
  simp [List.intercalate]

theorem not_infix_intercalate {pieces : List (List α)} (hpattern : pattern ≠ [])
    (hreplacement : replacement ≠ []) (hapart : ∀ c ∈ pattern, c ∉ replacement)
    (h : ∀ piece ∈ pieces, ¬pattern <:+: piece) :
    ¬pattern <:+: replacement.intercalate pieces := by
  induction pieces with
  | nil => simpa [List.intercalate] using hpattern
  | cons piece pieces ih =>
      by_cases hpieces : pieces = []
      · subst hpieces
        simpa [List.intercalate] using h
      · rw [intercalate_cons hpieces]
        intro hinfix
        rcases infix_of_infix_separated hpattern hreplacement hapart hinfix with hinfix | hinfix
        · exact h piece List.mem_cons_self hinfix
        · exact ih (fun other hother => h other (List.mem_cons_of_mem _ hother)) hinfix

/-! ## What replacing does -/

variable [BEq α] [LawfulBEq α]

theorem contains_iff_infix : contains pattern text = true ↔ pattern <:+: text := by
  induction text with
  | nil => simp [contains]
  | cons c rest ih =>
      rw [contains, Bool.or_eq_true, List.isPrefixOf_iff_prefix, ih, List.infix_cons_iff]

omit [LawfulBEq α] in
theorem replaceFrom_eq_replaceAll_drop (skip : Nat) :
    replaceFrom pattern replacement skip text =
      replaceAll pattern replacement (text.drop skip) := by
  induction text generalizing skip with
  | nil => cases skip <;> rfl
  | cons c rest ih =>
      cases skip with
      | zero => rfl
      | succ skip => rw [replaceFrom, ih, List.drop_succ_cons]

theorem replaceAll_append (hpattern : pattern ≠ []) :
    replaceAll pattern replacement (pattern ++ text) =
      replacement ++ replaceAll pattern replacement text := by
  obtain ⟨c, pattern, rfl⟩ := List.exists_cons_of_ne_nil hpattern
  have hpre : (c :: pattern).isPrefixOf (c :: (pattern ++ text)) = true :=
    List.isPrefixOf_iff_prefix.mpr ⟨text, rfl⟩
  rw [List.cons_append, replaceAll, replaceFrom, if_pos hpre, replaceFrom_eq_replaceAll_drop]
  simp

/-- Replacing puts the replacement between the pieces into which the pattern cuts the text. -/
theorem exists_cuts_replaceAll (hpattern : pattern ≠ []) (replacement text : List α) :
    ∃ pieces, Cuts pattern text pieces ∧
      replaceAll pattern replacement text = replacement.intercalate pieces := by
  induction hlength : text.length using Nat.strongRecOn generalizing text with
  | ind n ih =>
      subst hlength
      cases text with
      | nil =>
          exact ⟨[[]], .whole (by simpa using hpattern), by simp [replaceAll, replaceFrom]⟩
      | cons c rest =>
          by_cases hpre : pattern <+: c :: rest
          · obtain ⟨after, hafter⟩ := hpre
            rw [← hafter]
            have hlt : after.length < (c :: rest).length := by
              have hpos := List.length_pos_iff.mpr hpattern
              rw [← hafter, List.length_append]
              omega
            obtain ⟨pieces, hcuts, hpieces⟩ := ih _ hlt after rfl
            have hcut : Cuts pattern ([] ++ (pattern ++ after)) ([] :: pieces) :=
              .cut (fun _ _ _ => Nat.zero_le _) hcuts
            refine ⟨[] :: pieces, hcut, ?_⟩
            rw [replaceAll_append hpattern, hpieces, intercalate_cons hcuts.ne_nil]
            rfl
          · obtain ⟨pieces, hcuts, hpieces⟩ := ih _ (Nat.lt_succ_self _) rest rfl
            obtain ⟨piece, pieces, rfl⟩ := List.exists_cons_of_ne_nil hcuts.ne_nil
            refine ⟨(c :: piece) :: pieces, hcuts.cons hpre, ?_⟩
            have hnot : pattern.isPrefixOf (c :: rest) = false := by
              rw [← Bool.not_eq_true, List.isPrefixOf_iff_prefix]
              exact hpre
            rw [replaceAll, replaceFrom, hnot]
            simp only [Bool.false_eq_true, if_false]
            rw [← replaceAll, hpieces]
            cases pieces <;> simp [List.intercalate]

/-- A replacement without a letter of the pattern leaves no occurrence of it. -/
theorem not_infix_replaceAll (hpattern : pattern ≠ []) (hreplacement : replacement ≠ [])
    (hapart : ∀ c ∈ pattern, c ∉ replacement) (text : List α) :
    ¬pattern <:+: replaceAll pattern replacement text := by
  obtain ⟨pieces, hcuts, hpieces⟩ :=
    exists_cuts_replaceAll hpattern replacement text
  rw [hpieces]
  exact not_infix_intercalate hpattern hreplacement hapart (hcuts.not_infix hpattern)

end StackControl.Text
