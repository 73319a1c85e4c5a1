import Mathlib.Data.List.Basic
import StackControl.Proofs.FileTree.Components
import StackControl.Proofs.Text.Utf8

/-!
# Paths given as text

The separator is one byte, and no character but its own has that byte.  So a text starts, ends and
is cut at separators as its bytes are, and joining texts joins the paths that they spell.
-/

namespace StackControl

namespace Utf8

theorem encode_append (s t : String) : encode (s ++ t) = encode s ++ encode t := by
  simp [encode, encodeChars]

/-- A byte below the continuation bytes belongs to the character that it is alone. -/
theorem eq_of_mem_utf8EncodeChar {n : Nat} (hn : n < 0x80) {c : Char}
    (h : UInt8.ofNat n ∈ String.utf8EncodeChar c) : c = Char.ofNat n := by
  have hencoded := encoded_utf8EncodeChar c
  generalize String.utf8EncodeChar c = bytes at hencoded h
  have hhigh {m : Nat} (hm : 0x80 ≤ m) (hm' : m < 256) : UInt8.ofNat n ≠ UInt8.ofNat m := by
    intro heq
    have hnat := congrArg UInt8.toNat heq
    rw [toNat_ofNat (by omega), toNat_ofNat hm'] at hnat
    omega
  cases hencoded with
  | @one m hm =>
      have hnat := congrArg UInt8.toNat (List.mem_singleton.mp h)
      rw [toNat_ofNat (by omega), toNat_ofNat (by omega)] at hnat
      rw [hnat]
  | two =>
      simp only [List.mem_cons, List.not_mem_nil, or_false, tail] at h
      rcases h with h | h
      · exact absurd h (hhigh (by omega) (by omega))
      · exact absurd h (hhigh (by omega) (by omega))
  | three =>
      simp only [List.mem_cons, List.not_mem_nil, or_false, tail] at h
      rcases h with h | h | h
      · exact absurd h (hhigh (by omega) (by omega))
      · exact absurd h (hhigh (by omega) (by omega))
      · exact absurd h (hhigh (by omega) (by omega))
  | four =>
      simp only [List.mem_cons, List.not_mem_nil, or_false, tail] at h
      rcases h with h | h | h | h
      · exact absurd h (hhigh (by omega) (by omega))
      · exact absurd h (hhigh (by omega) (by omega))
      · exact absurd h (hhigh (by omega) (by omega))
      · exact absurd h (hhigh (by omega) (by omega))

end Utf8

namespace Path

open Utf8 (encode encodeChars)

theorem eq_slash_of_mem {c : Char} (h : separator ∈ String.utf8EncodeChar c) : c = '/' :=
  Utf8.eq_of_mem_utf8EncodeChar (n := 0x2F) (by decide) h

theorem separator_mem_encode {s : String} : separator ∈ encode s ↔ '/' ∈ s.toList := by
  rw [encode, encodeChars, List.mem_flatMap]
  constructor
  · rintro ⟨c, hc, hmem⟩
    exact eq_slash_of_mem hmem ▸ hc
  · intro h
    exact ⟨'/', h, by decide⟩

theorem encode_slash : encode "/" = [separator] := by decide

theorem encode_eq_nil {s : String} : encode s = [] ↔ s = "" := by
  constructor
  · intro h
    exact Utf8.encode_injective h
  · rintro rfl
    rfl

theorem isAbsolute_encode (s : String) : isAbsolute (encode s) = s.startsWith "/" := by
  rw [Bool.eq_iff_iff, String.startsWith_string_iff, isAbsolute, beq_iff_eq, encode, encodeChars]
  change _ ↔ ['/'] <+: s.toList
  rcases s.toList with _ | ⟨c, cs⟩
  · simp
  · rw [List.flatMap_cons, List.head?_append_of_ne_nil _ String.utf8EncodeChar_ne_nil,
      List.cons_prefix_cons]
    constructor
    · intro h
      exact ⟨(eq_slash_of_mem (List.mem_of_mem_head? h)).symm, List.nil_prefix⟩
    · rintro ⟨rfl, -⟩
      decide

theorem endsInSeparator_encode (s : String) : endsInSeparator (encode s) = s.endsWith "/" := by
  rw [Bool.eq_iff_iff, ← String.endsWith_toSlice, String.Slice.endsWith_string_iff,
    String.copy_toSlice, endsInSeparator, beq_iff_eq, encode, encodeChars]
  change _ ↔ ['/'] <:+ s.toList
  rcases List.eq_nil_or_concat s.toList with hnil | ⟨front, c, hconcat⟩
  · simp [hnil]
  · rw [hconcat, List.concat_eq_append, List.flatMap_append, List.flatMap_singleton,
      List.getLast?_append_of_ne_nil _ String.utf8EncodeChar_ne_nil]
    constructor
    · intro h
      exact ⟨front, by rw [eq_slash_of_mem (List.mem_of_mem_getLast? h)]⟩
    · intro h
      obtain ⟨front', heq⟩ := h
      obtain ⟨-, hc⟩ := List.append_inj' heq rfl
      rw [← List.singleton_inj.mp hc]
      decide

/-- A text without separators that is not all dots spells a name. -/
theorem isOrdinary_encode {s : String} (hslash : '/' ∉ s.toList)
    (hother : ∃ c ∈ s.toList, c ≠ '.') :
    IsOrdinary (encode s) := by
  have hne (t : String) (ht : ∀ c ∈ t.toList, c = '.') : encode s ≠ encode t := by
    intro heq
    obtain ⟨c, hc, hc'⟩ := hother
    exact hc' (ht c (Utf8.encode_injective heq ▸ hc))
  have hempty : encode s ≠ [] := hne "" (by simp)
  have hdot : encode s ≠ dot := hne "." (by simp)
  have hdotDot : encode s ≠ dotDot := hne ".." (by simp)
  refine ⟨fun h => hslash (separator_mem_encode.mp h), ?_⟩
  simp [Component.part, innerComponent?, hempty, hdot, hdotDot]

/-- Joining texts joins the paths that they spell. -/
theorem encode_joinText (base path : String) :
    encode (joinText base path) = join (encode base) (encode path) := by
  have hempty : base.isEmpty = (encode base).isEmpty := by
    rw [Bool.eq_iff_iff, List.isEmpty_iff, encode_eq_nil, String.isEmpty_iff]
  rw [joinText, join, isAbsolute_encode, endsInSeparator_encode, hempty]
  split
  · rfl
  · split
    · exact Utf8.encode_append ..
    · rw [Utf8.encode_append, Utf8.encode_append, encode_slash, List.append_assoc,
        List.singleton_append]

end Path

end StackControl
