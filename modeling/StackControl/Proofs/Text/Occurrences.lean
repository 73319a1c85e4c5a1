import Mathlib.Data.List.Infix
import Mathlib.Data.List.TakeWhile
import StackControl.Proofs.Text.Words

/-!
# Occurrences in joined texts

What occurs in parts that are joined by a separator, and holds the separator once, occurs in one of
the parts or across two neighbours.  What neither begins nor ends with a blank occurs in a text just
when it does in the trimmed text.
-/

namespace StackControl.Text

/-! ## Joined parts -/

section Joined

variable {α : Type} {separator : α} {front back xs ys : List α} {parts : List (List α)}

theorem prefix_append_cons_iff (h : separator ∉ back) :
    back <+: xs ++ separator :: ys ↔ back <+: xs := by
  refine ⟨fun hback => ?_, fun hback => hback.trans (List.prefix_append xs _)⟩
  rcases List.prefix_or_prefix_of_prefix hback (List.prefix_append xs _) with hxs | ⟨rest, rfl⟩
  · exact hxs
  · rw [List.prefix_append_right_inj] at hback
    rcases List.prefix_cons_iff.mp hback with rfl | ⟨rest, rfl, -⟩
    · rw [List.append_nil]
    · simp at h

/-- An occurrence of a text that holds the separator once, in two texts that it joins: it may lie in
either of them, or meet the separator with its own. -/
theorem infix_append_cons_iff (hfront : separator ∉ front) (hback : separator ∉ back) :
    front ++ separator :: back <:+: xs ++ separator :: ys ↔
      front ++ separator :: back <:+: xs ∨ front ++ separator :: back <:+: ys ∨
        front <:+ xs ∧ back <+: ys := by
  constructor
  · intro h
    rcases List.infix_append_iff.mp h with hxs | hys | ⟨left, right, heq, hleft, hright⟩
    · exact .inl hxs
    · rcases List.infix_cons_iff.mp hys with hbegins | hys
      · rcases front with _ | ⟨c, front⟩
        · rw [List.nil_append, List.cons_prefix_cons] at hbegins
          exact .inr (.inr ⟨List.nil_suffix, hbegins.2⟩)
        · rw [List.cons_append, List.cons_prefix_cons] at hbegins
          exact absurd (hbegins.1 ▸ List.mem_cons_self) hfront
      · exact .inr (.inl hys)
    · rcases List.prefix_cons_iff.mp hright with rfl | ⟨right, rfl, hys⟩
      · rw [List.append_nil] at heq
        exact .inl (heq ▸ hleft.isInfix)
      · obtain ⟨rfl, -, rfl⟩ := (List.append_cons_inj_of_notMem hfront hback).mp heq
        exact .inr (.inr ⟨hleft, hys⟩)
  · rintro (hxs | hys | ⟨hxs, hys⟩)
    · exact hxs.trans (List.prefix_append xs _).isInfix
    · exact hys.trans ((List.suffix_cons separator ys).trans (List.suffix_append xs _)).isInfix
    · exact List.infix_append_iff.mpr (.inr (.inr ⟨front, separator :: back, rfl, hxs,
        List.cons_prefix_cons.mpr ⟨rfl, hys⟩⟩))

/-- Of two neighbours among some parts, the first ends in one text and the second begins with
another. -/
def MeetIn (front back : List α) (parts : List (List α)) : Prop :=
  ∃ before part part' after, parts = before ++ part :: part' :: after ∧
    front <:+ part ∧ back <+: part'

theorem meetIn_cons_cons {part part' : List α} :
    MeetIn front back (part :: part' :: parts) ↔
      MeetIn front back (part' :: parts) ∨ front <:+ part ∧ back <+: part' := by
  constructor
  · rintro ⟨before, p, p', after, heq, hfront, hback⟩
    rcases before with _ | ⟨first, before⟩
    · simp only [List.nil_append, List.cons.injEq] at heq
      obtain ⟨rfl, rfl, -⟩ := heq
      exact .inr ⟨hfront, hback⟩
    · exact .inl ⟨before, p, p', after, (List.cons.inj heq).2, hfront, hback⟩
  · rintro (⟨before, p, p', after, heq, hfront, hback⟩ | ⟨hfront, hback⟩)
    · exact ⟨part :: before, p, p', after, by rw [heq, List.cons_append], hfront, hback⟩
    · exact ⟨[], part, part', parts, rfl, hfront, hback⟩

/-- An occurrence of a text that holds the separator once, in parts that it joins. -/
theorem infix_intercalate_iff (hfront : separator ∉ front) (hback : separator ∉ back) :
    front ++ separator :: back <:+: [separator].intercalate parts ↔
      (∃ part ∈ parts, front ++ separator :: back <:+: part) ∨ MeetIn front back parts := by
  induction parts with
  | nil => simp [MeetIn]
  | cons part parts ih =>
      rcases parts with _ | ⟨part', parts⟩
      · have hnone : ¬MeetIn front back [part] := by
          rintro ⟨before, p, p', after, heq, -⟩
          have hlength := congrArg List.length heq
          simp at hlength
          omega
        simp [hnone]
      · have hmeets : back <+: [separator].intercalate (part' :: parts) ↔ back <+: part' := by
          rcases parts with _ | ⟨part'', parts⟩
          · rw [List.intercalate_singleton]
          · rw [List.intercalate_cons_cons, List.append_assoc, List.singleton_append,
              prefix_append_cons_iff hback]
        rw [List.intercalate_cons_cons, List.append_assoc, List.singleton_append,
          infix_append_cons_iff hfront hback, ih, hmeets, meetIn_cons_cons]
        simp only [List.mem_cons, exists_eq_or_imp, or_assoc]

end Joined

/-! ## Trimmed texts -/

variable {cs xs ys : List Char}

theorem exists_eq_trimEnd_append (cs : List Char) :
    ∃ blanks, (∀ c ∈ blanks, isBlank c = true) ∧ cs = trimEnd cs ++ blanks := by
  induction cs with
  | nil => exact ⟨[], by simp, rfl⟩
  | cons c rest ih =>
      obtain ⟨blanks, hblanks, hrest⟩ := ih
      rw [trimEnd]
      split
      next hnone =>
        rw [hnone, List.nil_append] at hrest
        by_cases hc : isBlank c = true
        · refine ⟨c :: blanks, List.forall_mem_cons.mpr ⟨hc, hblanks⟩, ?_⟩
          rw [if_pos hc, hrest, List.nil_append]
        · exact ⟨blanks, hblanks, by rw [if_neg hc, hrest, List.singleton_append]⟩
      next => exact ⟨blanks, hblanks, by rw [List.cons_append, ← hrest]⟩

theorem exists_eq_append_trim_append (cs : List Char) :
    ∃ before after, (∀ c ∈ before, isBlank c = true) ∧ (∀ c ∈ after, isBlank c = true) ∧
      cs = before ++ (trim cs ++ after) := by
  obtain ⟨after, hafter, hstart⟩ := exists_eq_trimEnd_append (trimStart cs)
  refine ⟨cs.takeWhile isBlank, after, fun c hc => List.mem_takeWhile_imp hc, hafter, ?_⟩
  rw [trim, ← hstart, trimStart, List.takeWhile_append_dropWhile]

/-- A text that neither begins nor ends with a blank does not reach into blanks before it. -/
theorem infix_blank_append_iff {blanks : List Char} (hblanks : ∀ c ∈ blanks, isBlank c = true)
    (h : IsTrimmed xs) (hne : xs ≠ []) : xs <:+: blanks ++ ys ↔ xs <:+: ys := by
  have hnil {left right : List Char} (heq : xs = left ++ right) (hleft : left <:+: blanks) :
      left = [] := by
    rcases left with _ | ⟨c, left⟩
    · rfl
    · have hsolid := h.head c (by simp [heq])
      rw [hblanks c (hleft.subset List.mem_cons_self)] at hsolid
      cases hsolid
  rw [List.infix_append_iff]
  constructor
  · rintro (hxs | hys | ⟨left, right, heq, hleft, hright⟩)
    · exact absurd (hnil (List.append_nil xs).symm hxs) hne
    · exact hys
    · rw [hnil heq hleft.isInfix, List.nil_append] at heq
      exact heq ▸ hright.isInfix
  · exact fun hys => .inr (.inl hys)

/-- A text that neither begins nor ends with a blank does not reach into blanks after it. -/
theorem infix_append_blank_iff {blanks : List Char} (hblanks : ∀ c ∈ blanks, isBlank c = true)
    (h : IsTrimmed xs) (hne : xs ≠ []) : xs <:+: ys ++ blanks ↔ xs <:+: ys := by
  have hnil {left right : List Char} (heq : xs = left ++ right) (hright : right <:+: blanks) :
      right = [] := by
    rcases right.eq_nil_or_concat with rfl | ⟨right, c, rfl⟩
    · rfl
    · have hsolid := h.last c (by simp [heq, ← List.append_assoc])
      rw [hblanks c (hright.subset (by simp))] at hsolid
      cases hsolid
  rw [List.infix_append_iff]
  constructor
  · rintro (hys | hxs | ⟨left, right, heq, hleft, hright⟩)
    · exact hys
    · exact absurd (hnil (List.nil_append xs).symm hxs) hne
    · rw [hnil heq hright.isInfix, List.append_nil] at heq
      exact heq ▸ hleft.isInfix
  · exact .inl

/-- What neither begins nor ends with a blank occurs in a text just when it does in the trimmed
text. -/
theorem infix_trim_iff (h : IsTrimmed xs) (hne : xs ≠ []) : xs <:+: trim cs ↔ xs <:+: cs := by
  obtain ⟨before, after, hbefore, hafter, hcs⟩ := exists_eq_append_trim_append cs
  conv_rhs => rw [hcs, infix_blank_append_iff hbefore h hne, infix_append_blank_iff hafter h hne]

end StackControl.Text
