import StackControl.Text.Number

/-!
# Numbers that were printed

A number that was printed in decimal is read as itself, and a number is read from no other text
than those that spell it.
-/

namespace StackControl.Text

variable {cs : List Char} {max n : Nat}

theorem digit?_of_isDigit {c : Char} (h : c.isDigit = true) :
    digit? 10 c = some (c.toNat - '0'.toNat) := by
  have hrange := Char.isDigit_iff_toNat.mp h
  have hlow : '0'.toNat = 48 := rfl
  have hhigh : '9'.toNat = 57 := rfl
  rw [digit?, digitValue?, if_pos h, Option.filter_some, if_pos (decide_eq_true (by omega))]

theorem digitsFrom?_of_isDigit (h : ∀ c ∈ cs, c.isDigit = true) (value : Nat) :
    digitsFrom? 10 value cs = some (Nat.ofDigitChars 10 cs value) := by
  induction cs generalizing value with
  | nil => rfl
  | cons c rest ih =>
      obtain ⟨hc, hrest⟩ := List.forall_mem_cons.mp h
      rw [digitsFrom?, digit?_of_isDigit hc, Nat.ofDigitChars_cons, Nat.mul_comm]
      exact ih hrest _

/-- A number is read back from its decimal digits. -/
theorem natural?_toDigits (h : n ≤ max) : natural? 10 max (Nat.toDigits 10 n) = some n := by
  have hdigits (c : Char) (hc : c ∈ Nat.toDigits 10 n) : c.isDigit = true :=
    Nat.isDigit_of_mem_toDigits (by omega) (by omega) hc
  have hvalue : digits? 10 (Nat.toDigits 10 n) = some n := by
    rw [digits?, digitsFrom?_of_isDigit hdigits, Nat.ofDigitChars_ten_toDigits]
    simp [Nat.toDigits_ne_nil]
  unfold natural?
  split
  next rest heq =>
    have hplus := hdigits '+' (by rw [heq]; exact List.mem_cons_self)
    cases hplus
  next =>
    rw [hvalue]
    exact if_pos h

/-! ## All texts that are read -/

/-- A text spells a number in decimal digits, which may follow a plus sign. -/
def Spells (n : Nat) (cs : List Char) : Prop :=
  ∃ digits, digits ≠ [] ∧ (∀ c ∈ digits, c.isDigit = true) ∧
    (cs = digits ∨ cs = '+' :: digits) ∧ Nat.ofDigitChars 10 digits 0 = n

/-- Letters stand for more than nine. -/
theorem isDigit_of_digit? {c : Char} (h : (digit? 10 c).isSome = true) : c.isDigit = true := by
  cases hdigit : c.isDigit with
  | true => rfl
  | false =>
      rw [digit?, digitValue?, hdigit, if_neg Bool.false_ne_true] at h
      split at h
      · simp only [Option.isSome_filter, Option.any_some, decide_eq_true_eq] at h
        omega
      · split at h
        · simp only [Option.isSome_filter, Option.any_some, decide_eq_true_eq] at h
          omega
        · cases h

theorem isDigit_of_digitsFrom? {value : Nat} (h : digitsFrom? 10 value cs = some n) :
    ∀ c ∈ cs, c.isDigit = true := by
  induction cs generalizing value with
  | nil => simp
  | cons c rest ih =>
      simp only [digitsFrom?, Option.bind_eq_bind, Option.bind_eq_some_iff] at h
      obtain ⟨d, hd, hrest⟩ := h
      exact List.forall_mem_cons.mpr ⟨isDigit_of_digit? (by simp [hd]), ih hrest⟩

theorem digits?_eq_some_iff :
    digits? 10 cs = some n ↔
      cs ≠ [] ∧ (∀ c ∈ cs, c.isDigit = true) ∧ Nat.ofDigitChars 10 cs 0 = n := by
  simp only [digits?, List.isEmpty_iff]
  split
  next hempty => simp [hempty]
  next hne =>
    constructor
    · intro h
      have hdigits := isDigit_of_digitsFrom? h
      rw [digitsFrom?_of_isDigit hdigits] at h
      exact ⟨hne, hdigits, Option.some.inj h⟩
    · rintro ⟨-, hdigits, rfl⟩
      exact digitsFrom?_of_isDigit hdigits 0

theorem isDigit_plus : Char.isDigit '+' = false := by
  decide

/-- A number is read from a text exactly if the text spells it and it is within the bound. -/
theorem natural?_eq_some_iff : natural? 10 max cs = some n ↔ Spells n cs ∧ n ≤ max := by
  have hbound (found : Option Nat) :
      (found.bind fun value => if value ≤ max then some value else none) = some n ↔
        found = some n ∧ n ≤ max := by
    cases found with
    | none => simp
    | some value =>
        by_cases hle : value ≤ max
        · simp only [Option.bind_some, if_pos hle, Option.some.injEq]
          exact ⟨fun h => ⟨h, h ▸ hle⟩, And.left⟩
        · simp only [Option.bind_some, if_neg hle, Option.some.injEq]
          exact ⟨nofun, fun h => absurd (h.1 ▸ h.2) hle⟩
  simp only [natural?, Option.bind_eq_bind, hbound, digits?_eq_some_iff, Spells]
  refine and_congr_left fun _ => ?_
  constructor
  · split
    next rest =>
      rintro ⟨hne, hdigits, hvalue⟩
      exact ⟨rest, hne, hdigits, .inr rfl, hvalue⟩
    next =>
      rintro ⟨hne, hdigits, hvalue⟩
      exact ⟨cs, hne, hdigits, .inl rfl, hvalue⟩
  · rintro ⟨digits, hne, hdigits, rfl | rfl, hvalue⟩
    · split
      next rest =>
        have hplus := hdigits '+' List.mem_cons_self
        rw [isDigit_plus] at hplus
        cases hplus
      next => exact ⟨hne, hdigits, hvalue⟩
    · exact ⟨hne, hdigits, hvalue⟩

end StackControl.Text
