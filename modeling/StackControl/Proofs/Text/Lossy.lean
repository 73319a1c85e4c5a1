import StackControl.Proofs.Text.Utf8

/-!
# Lenient decoding

Bytes that are no characters are decoded leniently to a character beyond ASCII.  ASCII characters at
the start of a decoded text were therefore at the start of its bytes, whatever came after them.
-/

namespace StackControl.Utf8

theorem decodeLossy_encode_append (text : String) (bytes : Bytes) :
    (decodeLossy (encode text ++ bytes)).toList = text.toList ++ (decodeLossy bytes).toList := by
  have hunits (cs : List Char) :
      unitsFrom none (encodeChars cs ++ bytes) = cs.map some ++ unitsFrom none bytes := by
    induction cs with
    | nil => rfl
    | cons c cs ih =>
        rw [encodeChars, List.flatMap_cons, List.append_assoc, unitsFrom_utf8EncodeChar,
          ← encodeChars, ih]
        rfl
  simp only [decodeLossy, units, encode, hunits, String.toList_ofList, List.map_append,
    List.map_map]
  congr 1
  exact List.map_id _

/-- What encodes a text is leniently decoded to it. -/
theorem decodeLossy_encode (text : String) : decodeLossy (encode text) = text := by
  have h := decodeLossy_encode_append text []
  rw [List.append_nil] at h
  apply String.toList_injective
  rw [h]
  exact List.append_nil _

theorem encode_prefix_encode {text text' : String} (h : text.toList <+: text'.toList) :
    encode text <+: encode text' := by
  obtain ⟨rest, hrest⟩ := h
  rw [encode, encode, ← hrest, encodeChars, encodeChars, List.flatMap_append]
  exact List.prefix_append _ _

/-! ## ASCII at the start -/

/-- A character that is completed begins with the bytes that were read of it. -/
theorem prefix_of_unitsFrom_eq_cons {read bytes : Bytes} {p : Partial} {c : Char}
    {us : List (Option Char)} (hpending : Pending read (some p))
    (h : unitsFrom (some p) bytes = some c :: us) :
    read <+: String.utf8EncodeChar c := by
  induction bytes generalizing read p with
  | nil => cases h
  | cons b rest ih =>
      have hreads := reads_step hpending b
      rw [unitsFrom_cons] at h
      by_cases hb : p.low ≤ b && b ≤ p.high
      · rw [step, if_pos hb] at h hreads
        dsimp only at h hreads
        by_cases hlast : p.remaining ≤ 1
        · rw [if_pos hlast] at h hreads
          rw [Option.some.inj (List.cons.inj h).1] at hreads
          cases hreads with
          | completes hread =>
              rw [← hread]
              exact List.prefix_append read [b]
          | fails hnone => simp at hnone
        · rw [if_neg hlast] at h hreads
          generalize continuing _ _ = next at h hreads
          cases hreads with
          | goesOn hpending =>
              have hstarts := ih hpending h
              exact (List.prefix_append read [b]).trans hstarts
          | fails hnone => cases hnone
      · rw [step, if_neg hb] at h
        obtain ⟨units, state⟩ := start b
        cases h

theorem utf8EncodeChar_of_lt {c : Char} (hc : c.toNat < 0x80) :
    String.utf8EncodeChar c = [byteOf c] := by
  rw [← Char.ofNat_toNat c, utf8EncodeChar_one hc, Char.ofNat_toNat, byteOf]

theorem encode_ascii {text : String} (htext : ∀ c ∈ text.toList, c.toNat < 0x80) :
    encode text = text.toList.map byteOf := by
  rw [encode, encodeChars]
  generalize text.toList = cs at htext
  induction cs with
  | nil => rfl
  | cons c cs ih =>
      obtain ⟨hc, hcs⟩ := List.forall_mem_cons.mp htext
      rw [List.flatMap_cons, utf8EncodeChar_of_lt hc, ih hcs, List.singleton_append, List.map_cons]

theorem byteOf_inj {c c' : Char} (hc : c.toNat < 0x80) (hc' : c'.toNat < 0x80)
    (h : byteOf c = byteOf c') :
    c = c' := by
  have hnat := congrArg UInt8.toNat h
  rw [byteOf, byteOf, toNat_ofNat (by omega), toNat_ofNat (by omega)] at hnat
  exact Char.toNat_inj.mp hnat

theorem some_notMem_start {b : UInt8} (hb : ¬b.toNat < 0x80) (c : Char) :
    some c ∉ (start b).1 := by
  unfold start
  dsimp only
  rw [if_neg hb]
  repeat' split
  all_goals simp

/-- An ASCII character is read from its one byte only. -/
theorem exists_of_unitsFrom_eq_cons {bytes : Bytes} {c : Char} {us : List (Option Char)}
    (hc : c.toNat < 0x80) (h : unitsFrom none bytes = some c :: us) :
    ∃ rest, bytes = byteOf c :: rest ∧ unitsFrom none rest = us := by
  cases bytes with
  | nil => cases h
  | cons b rest =>
      rw [unitsFrom_cons, step] at h
      by_cases hb : b.toNat < 0x80
      · rw [start, if_pos hb] at h
        obtain ⟨hchar, hrest⟩ := List.cons.inj h
        refine ⟨rest, ?_, hrest⟩
        have hbyte : [b] = [byteOf c] := by
          rw [← utf8EncodeChar_of_lt hc, ← Option.some.inj hchar, utf8EncodeChar_one hb,
            UInt8.ofNat_toNat]
        rw [List.singleton_inj.mp hbyte]
      · have hreads := reads_start b
        have hnot := some_notMem_start hb c
        generalize start b = started at h hreads hnot
        cases hreads with
        | completes hread =>
            rw [Option.some.inj (List.cons.inj h).1] at hnot
            exact absurd List.mem_cons_self hnot
        | goesOn hpending =>
            have hstarts := prefix_of_unitsFrom_eq_cons hpending h
            rw [utf8EncodeChar_of_lt hc] at hstarts
            have hbyte : b = byteOf c := by simpa using hstarts
            rw [hbyte, byteOf, toNat_ofNat (by omega)] at hb
            exact absurd hc hb
        | @fails units _ hnone =>
            cases units with
            | nil => cases hnone
            | cons u units =>
                rw [(List.cons.inj h).1] at hnot
                exact absurd List.mem_cons_self hnot

/-- ASCII characters at the start of a leniently decoded text are at the start of its bytes. -/
theorem exists_of_decodeLossy_eq_append {bytes : Bytes} {text : String} {rest : List Char}
    (htext : ∀ c ∈ text.toList, c.toNat < 0x80)
    (h : (decodeLossy bytes).toList = text.toList ++ rest) :
    ∃ rest', bytes = encode text ++ rest' ∧ (decodeLossy rest').toList = rest := by
  rw [decodeLossy, String.toList_ofList, units] at h
  rw [encode]
  generalize text.toList = cs at htext h
  induction cs generalizing bytes with
  | nil => exact ⟨bytes, rfl, by rw [decodeLossy, String.toList_ofList]; exact h⟩
  | cons c cs ih =>
      obtain ⟨hc, hcs⟩ := List.forall_mem_cons.mp htext
      obtain ⟨u, us, hunits, hu, hus⟩ := List.map_eq_cons_iff.mp h
      have hsome : u = some c := by
        cases u with
        | some d => rw [← hu]; rfl
        | none =>
            rw [← hu] at hc
            exact absurd hc (by decide)
      rw [hsome] at hunits
      obtain ⟨tail, rfl, htail⟩ := exists_of_unitsFrom_eq_cons hc hunits
      rw [← htail] at hus
      obtain ⟨rest', rfl, hrest⟩ := ih hcs hus
      refine ⟨rest', ?_, hrest⟩
      rw [encodeChars, encodeChars, List.flatMap_cons, utf8EncodeChar_of_lt hc]
      rfl

/-- A character that was begun becomes some unit. -/
theorem unitsFrom_some_ne_nil (p : Partial) (bytes : Bytes) : unitsFrom (some p) bytes ≠ [] := by
  induction bytes generalizing p with
  | nil => exact List.cons_ne_nil _ _
  | cons b rest ih =>
      rw [unitsFrom_cons, step]
      by_cases hb : p.low ≤ b && b ≤ p.high
      · rw [if_pos hb]
        dsimp only
        by_cases hlast : p.remaining ≤ 1
        · rw [if_pos hlast]
          exact List.cons_ne_nil _ _
        · rw [if_neg hlast]
          exact ih _
      · rw [if_neg hb]
        obtain ⟨units, state⟩ := start b
        exact List.cons_ne_nil _ _

theorem eq_nil_of_unitsFrom_eq_nil {bytes : Bytes} (h : unitsFrom none bytes = []) :
    bytes = [] := by
  cases bytes with
  | nil => rfl
  | cons b rest =>
      rw [unitsFrom_cons, step] at h
      have hreads := reads_start b
      obtain ⟨hunits, hrest⟩ := List.append_eq_nil_iff.mp h
      generalize start b = started at hreads hunits hrest
      cases hreads with
      | completes => cases hunits
      | goesOn => exact absurd hrest (unitsFrom_some_ne_nil _ _)
      | @fails units _ hnone =>
          have hnil : units = [] := hunits
          rw [hnil] at hnone
          cases hnone

/-- Bytes that are leniently decoded to an ASCII text are its encoding. -/
theorem eq_encode_of_decodeLossy {bytes : Bytes} {text : String}
    (htext : ∀ c ∈ text.toList, c.toNat < 0x80) (h : decodeLossy bytes = text) :
    bytes = encode text := by
  have happend : (decodeLossy bytes).toList = text.toList ++ [] := by
    rw [h, List.append_nil]
  obtain ⟨rest, hbytes, hrest⟩ := exists_of_decodeLossy_eq_append htext happend
  rw [decodeLossy, String.toList_ofList, List.map_eq_nil_iff] at hrest
  rw [hbytes, eq_nil_of_unitsFrom_eq_nil hrest, List.append_nil]

end StackControl.Utf8
