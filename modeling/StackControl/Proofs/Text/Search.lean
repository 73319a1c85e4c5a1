import Mathlib.Data.List.Basic
import StackControl.Text.Search

/-!
# Cutting text

Cutting at separators is the library's cut of a list, so joining parts by a separator is undone by
it, as long as no part contains one.  What stands before a line feed is a line, without a carriage
return at its end.
-/

namespace StackControl.Text

variable {α : Type}

theorem splitAt_eq_splitOnP (p : α → Bool) (xs : List α) :
    splitAt p xs = xs.splitOnP p := by
  induction xs with
  | nil => rfl
  | cons c rest ih =>
      rw [splitAt, ih, List.splitOnP_cons_eq_if_modifyHead]
      cases h : rest.splitOnP p with
      | nil => exact absurd h (List.splitOnP_ne_nil p rest)
      | cons part parts => rfl

/-- What has no separator lengthens the last part. -/
theorem exists_splitAt_append {p : α → Bool} {ys : List α}
    (h : ∀ y ∈ ys, p y = false) (xs : List α) :
    ∃ front last, splitAt p xs = front ++ [last] ∧
      splitAt p (xs ++ ys) = front ++ [last ++ ys] := by
  induction xs with
  | nil =>
      refine ⟨[], [], rfl, ?_⟩
      rw [List.nil_append, splitAt_eq_splitOnP, List.splitOnP_eq_singleton]
      · rfl
      · simpa using h
  | cons c rest ih =>
      obtain ⟨front, last, hparts, hparts'⟩ := ih
      simp only [List.cons_append, splitAt, hparts, hparts']
      split
      · exact ⟨[] :: front, last, rfl, rfl⟩
      · rcases front with _ | ⟨part, front⟩
        · exact ⟨[], c :: last, rfl, rfl⟩
        · exact ⟨(c :: part) :: front, last, rfl, rfl⟩

/-- No part contains a separator. -/
theorem eq_false_of_mem_splitAt {p : α → Bool} {xs part : List α}
    (h : part ∈ splitAt p xs) :
    ∀ x ∈ part, p x = false := by
  induction xs generalizing part with
  | nil =>
      rw [splitAt, List.mem_singleton] at h
      simp [h]
  | cons c rest ih =>
      simp only [splitAt] at h
      split at h
      next =>
        rcases List.mem_cons.mp h with rfl | h
        · simp
        · exact ih h
      next hc =>
        split at h
        next =>
          rw [List.mem_singleton] at h
          simpa [h] using hc
        next first parts hparts =>
          rcases List.mem_cons.mp h with rfl | h
          · intro x hx
            rcases List.mem_cons.mp hx with rfl | hx
            · simpa using hc
            · exact ih (hparts ▸ List.mem_cons_self) x hx
          · exact ih (hparts ▸ List.mem_cons_of_mem _ h)

/-! ## The first separator -/

theorem cutAt?_eq_none_iff {p : α → Bool} {xs : List α} :
    cutAt? p xs = none ↔ ∀ x ∈ xs, p x = false := by
  induction xs with
  | nil => simp [cutAt?]
  | cons c rest ih =>
      by_cases hc : p c = true
      · simp [cutAt?, hc]
      · simp [cutAt?, hc, ih]

/-- The cut is at the first separator. -/
theorem cutAt?_eq_some_iff {p : α → Bool} {xs before after : List α} :
    cutAt? p xs = some (before, after) ↔
      ∃ c, p c = true ∧ (∀ x ∈ before, p x = false) ∧ xs = before ++ c :: after := by
  induction xs generalizing before with
  | nil => simp [cutAt?]
  | cons d rest ih =>
      by_cases hd : p d = true
      · rw [cutAt?, if_pos hd]
        constructor
        · intro h
          cases h
          exact ⟨d, hd, by simp, rfl⟩
        · rintro ⟨c, hc, hbefore, heq⟩
          cases before with
          | nil =>
              cases heq
              rfl
          | cons e before =>
              have he := hbefore e List.mem_cons_self
              rw [← (List.cons.inj heq).1, hd] at he
              cases he
      · rw [cutAt?, if_neg hd, Option.map_eq_some_iff]
        constructor
        · rintro ⟨⟨front, back⟩, hcut, heq⟩
          cases heq
          obtain ⟨c, hc, hfront, rfl⟩ := ih.mp hcut
          exact ⟨c, hc, List.forall_mem_cons.mpr ⟨by simpa using hd, hfront⟩, rfl⟩
        · rintro ⟨c, hc, hbefore, heq⟩
          cases before with
          | nil =>
              rw [(List.cons.inj heq).1] at hd
              exact absurd hc hd
          | cons e before =>
              obtain ⟨rfl, hrest⟩ := List.cons.inj heq
              have htail := (List.forall_mem_cons.mp hbefore).2
              exact ⟨(before, after), ih.mpr ⟨c, hc, htail, hrest⟩, rfl⟩

/-! ## Lines -/

variable {cs line : List Char}

theorem newline_notMem_of_mem_lines (h : line ∈ lines cs) : '\n' ∉ line := by
  fun_induction lines cs generalizing line with
  | case1 => cases h
  | case2 rest ih =>
      rcases List.mem_cons.mp h with rfl | h
      · exact List.not_mem_nil
      · exact ih h
  | case3 rest ih =>
      rcases List.mem_cons.mp h with rfl | h
      · exact List.not_mem_nil
      · exact ih h
  | case4 c rest hc _ hlines ih =>
      rw [List.mem_singleton.mp h, List.mem_singleton]
      intro heq
      exact hc heq.symm
  | case5 c rest hc _ first others hlines ih =>
      rw [hlines] at ih
      rcases List.mem_cons.mp h with rfl | h
      · rw [List.mem_cons, not_or]
        refine ⟨?_, ih List.mem_cons_self⟩
        intro heq
        exact hc heq.symm
      · exact ih (List.mem_cons_of_mem _ h)

theorem lines_of_newline_notMem (hne : cs ≠ []) (h : '\n' ∉ cs) :
    lines cs = [cs] := by
  fun_induction lines cs with
  | case1 => exact absurd rfl hne
  | case2 rest ih => exact absurd List.mem_cons_self h
  | case3 rest ih => exact absurd (List.mem_cons_of_mem _ List.mem_cons_self) h
  | case4 c rest _ _ hlines ih =>
      rw [hlines] at ih
      by_cases hrest : rest = []
      · rw [hrest]
      · cases ih hrest fun hmem => h (List.mem_cons_of_mem c hmem)
  | case5 c rest _ _ first others hlines ih =>
      rw [hlines] at ih
      by_cases hrest : rest = []
      · rw [hrest] at hlines
        cases hlines
      · cases ih hrest fun hmem => h (List.mem_cons_of_mem c hmem)
        rfl

/-- A line without the carriage return at its end, if it has one. -/
def withoutReturn (line : List Char) : List Char :=
  if line.getLast? = some '\r' then line.dropLast else line

theorem withoutReturn_cons_cons (c d : Char) (line : List Char) :
    withoutReturn (c :: d :: line) = c :: withoutReturn (d :: line) := by
  simp only [withoutReturn, List.getLast?_cons_cons, List.dropLast_cons_cons]
  split <;> rfl

theorem withoutReturn_eq_or (line : List Char) :
    withoutReturn line = line ∨ line = withoutReturn line ++ ['\r'] := by
  rw [withoutReturn]
  split
  next h => exact .inr (List.dropLast_append_getLast? _ h).symm
  next => exact .inl rfl

/-- A character that ends no line belongs to the first line of what follows it. -/
theorem lines_cons_of_ne {c d : Char} (hc : c ≠ '\n') (hd : d ≠ '\n' ∨ c ≠ '\r')
    {rest first : List Char} {others : List (List Char)}
    (h : lines (d :: rest) = first :: others) :
    lines (c :: d :: rest) = (c :: first) :: others := by
  rw [lines]
  · rw [h]
  · exact hc
  · intro _ hreturn hfeed
    cases hfeed
    exact hd.elim (fun hd => hd rfl) fun hc => hc hreturn

/-- What comes before a line feed is a line, and the lines of what comes after it follow. -/
theorem lines_append_newline (h : '\n' ∉ line) (rest : List Char) :
    lines (line ++ '\n' :: rest) = withoutReturn line :: lines rest := by
  induction line with
  | nil => simp [lines, withoutReturn]
  | cons c line ih =>
      rw [List.mem_cons, not_or] at h
      have hc : c ≠ '\n' := Ne.symm h.1
      cases line with
      | nil =>
          by_cases hreturn : c = '\r'
          · subst hreturn
            simp [lines, withoutReturn]
          · have hfeed : lines ('\n' :: rest) = [] :: lines rest := by rw [lines]
            rw [List.singleton_append, lines_cons_of_ne hc (.inr hreturn) hfeed]
            simp [withoutReturn, hreturn]
      | cons d line =>
          have hd : d ≠ '\n' := fun hd => h.2 (hd ▸ List.mem_cons_self)
          rw [withoutReturn_cons_cons]
          exact lines_cons_of_ne hc (.inl hd) (ih h.2)

end StackControl.Text
