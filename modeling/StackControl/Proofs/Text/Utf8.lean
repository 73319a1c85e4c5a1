import StackControl.Text.Utf8

/-!
# Strict decoding

The reader of bytes takes one byte at a time, so what carries the argument is what its state says
about the bytes of the character it is in the middle of: however they go on, if they complete a
character, they are its encoding.  Bytes that are decoded strictly are therefore the encoding of the
text they are decoded to.
-/

namespace StackControl.Utf8

/-! ## The encoding of a character, byte by byte -/

/-- The byte that goes on a character by six bits. -/
def tail (t : Nat) : UInt8 := UInt8.ofNat (0x80 + t)

theorem toNat_val_ofNat {n : Nat} (h : n.isValidChar) : (Char.ofNat n).val.toNat = n := by
  rw [Char.ofNat, dif_pos h]
  rfl

theorem utf8EncodeChar_one {n : Nat} (h : n < 0x80) :
    String.utf8EncodeChar (Char.ofNat n) = [UInt8.ofNat n] := by
  have hn : n.isValidChar := .inl (by omega)
  simp only [String.utf8EncodeChar, toNat_val_ofNat hn]
  rw [if_pos (by omega)]

theorem utf8EncodeChar_two {a t : Nat} (ha : 2 ≤ a) (ha' : a < 0x20) (ht : t < 64) :
    String.utf8EncodeChar (Char.ofNat (a * 64 + t)) = [UInt8.ofNat (0xC0 + a), tail t] := by
  have hn : (a * 64 + t).isValidChar := .inl (by omega)
  simp only [String.utf8EncodeChar, toNat_val_ofNat hn, tail]
  rw [if_neg (by omega), if_pos (by omega),
    show (a * 64 + t) / 64 % 0x20 + 0xC0 = 0xC0 + a by omega,
    show (a * 64 + t) % 0x40 + 0x80 = 0x80 + t by omega]

theorem utf8EncodeChar_three {a t u : Nat} (ha : a < 0x10) (ht : t < 64) (hu : u < 64)
    (hlow : 0x20 ≤ a * 64 + t) (hgap : a * 64 + t < 0x360 ∨ 0x380 ≤ a * 64 + t) :
    String.utf8EncodeChar (Char.ofNat ((a * 64 + t) * 64 + u)) =
      [UInt8.ofNat (0xE0 + a), tail t, tail u] := by
  have hn : ((a * 64 + t) * 64 + u).isValidChar := by
    rcases hgap with hgap | hgap
    · exact .inl (by omega)
    · exact .inr ⟨by omega, by omega⟩
  simp only [String.utf8EncodeChar, toNat_val_ofNat hn, tail]
  rw [if_neg (by omega), if_neg (by omega), if_pos (by omega),
    show ((a * 64 + t) * 64 + u) / 4096 % 0x10 + 0xE0 = 0xE0 + a by omega,
    show ((a * 64 + t) * 64 + u) / 64 % 0x40 + 0x80 = 0x80 + t by omega,
    show ((a * 64 + t) * 64 + u) % 0x40 + 0x80 = 0x80 + u by omega]

theorem utf8EncodeChar_four {a t u v : Nat} (ht : t < 64) (hu : u < 64) (hv : v < 64)
    (hlow : 0x10 ≤ a * 64 + t) (hhigh : a * 64 + t < 0x110) :
    String.utf8EncodeChar (Char.ofNat (((a * 64 + t) * 64 + u) * 64 + v)) =
      [UInt8.ofNat (0xF0 + a), tail t, tail u, tail v] := by
  have hn : (((a * 64 + t) * 64 + u) * 64 + v).isValidChar := .inr ⟨by omega, by omega⟩
  simp only [String.utf8EncodeChar, toNat_val_ofNat hn, tail]
  rw [if_neg (by omega), if_neg (by omega), if_neg (by omega),
    show (((a * 64 + t) * 64 + u) * 64 + v) / 262144 % 0x08 + 0xF0 = 0xF0 + a by omega,
    show (((a * 64 + t) * 64 + u) * 64 + v) / 4096 % 0x40 + 0x80 = 0x80 + t by omega,
    show (((a * 64 + t) * 64 + u) * 64 + v) / 64 % 0x40 + 0x80 = 0x80 + u by omega,
    show (((a * 64 + t) * 64 + u) * 64 + v) % 0x40 + 0x80 = 0x80 + v by omega]

/-! ## What the state of the reader says -/

/-- However the bytes read so far go on, if they complete a character, they are its encoding: the
bytes still to come are counted, and the next of them is within bounds. -/
def Spells (read : Bytes) (value : Nat) (low high : UInt8) : Nat → Prop
  | 0 => False
  | 1 => ∀ b, low ≤ b → b ≤ high →
      read ++ [b] = String.utf8EncodeChar (Char.ofNat (value * 64 + (b.toNat - 0x80)))
  | n + 2 => ∀ b, low ≤ b → b ≤ high →
      Spells (read ++ [b]) (value * 64 + (b.toNat - 0x80)) 0x80 0xBF (n + 1)

/-- What has been read of a character that is not complete yet. -/
def Pending (read : Bytes) : Option Partial → Prop
  | none => read = []
  | some ⟨value, remaining, low, high⟩ => Spells read value low high remaining

/-- What comes of the bytes read so far of a character. -/
inductive Reads (read : Bytes) : List (Option Char) × Option Partial → Prop
  | completes {c} : read = String.utf8EncodeChar c → Reads read ([some c], none)
  | goesOn {p} : Pending read (some p) → Reads read ([], some p)
  | fails {units state} : none ∈ units → Reads read (units, state)

theorem eq_ofNat_add {b : UInt8} {n : Nat} (h : n ≤ b.toNat) :
    b = UInt8.ofNat (n + (b.toNat - n)) := by
  rw [Nat.add_sub_cancel' h, UInt8.ofNat_toNat]

theorem eq_tail {b low high : UInt8} (hlow : low ≤ b) (hhigh : b ≤ high) (h : 0x80 ≤ low.toNat)
    (h' : high.toNat ≤ 0xBF) :
    b = tail (b.toNat - 0x80) ∧ b.toNat - 0x80 < 64 ∧
      low.toNat - 0x80 ≤ b.toNat - 0x80 ∧ b.toNat - 0x80 ≤ high.toNat - 0x80 := by
  rw [UInt8.le_iff_toNat_le] at hlow hhigh
  exact ⟨eq_ofNat_add (by omega), by omega, by omega, by omega⟩

theorem spells_two {b : UInt8} {a : Nat} (hb : b = UInt8.ofNat (0xC0 + a)) (ha : 2 ≤ a)
    (ha' : a < 0x20) :
    Spells [b] a 0x80 0xBF 1 := by
  intro t hlow hhigh
  obtain ⟨ht, hbound, -⟩ := eq_tail hlow hhigh (by decide) (by decide)
  rw [utf8EncodeChar_two ha ha' hbound, ← hb, ← ht]
  rfl

theorem spells_three {b low high : UInt8} {a : Nat} (hb : b = UInt8.ofNat (0xE0 + a))
    (ha : a < 0x10) (h : 0x80 ≤ low.toNat) (h' : high.toNat ≤ 0xBF)
    (hlow : 0x20 ≤ a * 64 + (low.toNat - 0x80))
    (hgap : a * 64 + (high.toNat - 0x80) < 0x360 ∨ 0x380 ≤ a * 64 + (low.toNat - 0x80)) :
    Spells [b] a low high 2 := by
  intro t htlow hthigh u hulow huhigh
  obtain ⟨ht, htbound, htfrom, htto⟩ := eq_tail htlow hthigh h h'
  obtain ⟨hu, hubound, -⟩ := eq_tail hulow huhigh (by decide) (by decide)
  rw [utf8EncodeChar_three ha htbound hubound (by omega) (by omega), ← hb, ← ht, ← hu]
  rfl

theorem spells_four {b low high : UInt8} {a : Nat} (hb : b = UInt8.ofNat (0xF0 + a))
    (h : 0x80 ≤ low.toNat) (h' : high.toNat ≤ 0xBF)
    (hlow : 0x10 ≤ a * 64 + (low.toNat - 0x80))
    (hhigh : a * 64 + (high.toNat - 0x80) < 0x110) :
    Spells [b] a low high 3 := by
  intro t htlow hthigh u hulow huhigh v hvlow hvhigh
  obtain ⟨ht, htbound, htfrom, htto⟩ := eq_tail htlow hthigh h h'
  obtain ⟨hu, hubound, -⟩ := eq_tail hulow huhigh (by decide) (by decide)
  obtain ⟨hv, hvbound, -⟩ := eq_tail hvlow hvhigh (by decide) (by decide)
  rw [utf8EncodeChar_four htbound hubound hvbound (by omega) (by omega),
    ← hb, ← ht, ← hu, ← hv]
  rfl

theorem reads_start (b : UInt8) : Reads [b] (start b) := by
  have hlt := b.toNat_lt
  have hb {n : Nat} (h : b.toNat = n) : b = UInt8.ofNat n := by rw [← h, UInt8.ofNat_toNat]
  unfold start continuing
  dsimp only
  split
  next h => exact .completes (by rw [utf8EncodeChar_one h, UInt8.ofNat_toNat])
  split
  next => exact .fails List.mem_cons_self
  split
  next => exact .goesOn (spells_two (eq_ofNat_add (by omega)) (by omega) (by omega))
  split
  next h =>
    exact .goesOn (spells_three (hb h) (by decide) (by decide) (by decide) (by decide)
      (.inl (by decide)))
  split
  next h =>
    exact .goesOn (spells_three (hb h) (by decide) (by decide) (by decide) (by decide)
      (.inl (by decide)))
  split
  next =>
    exact .goesOn (spells_three (eq_ofNat_add (by omega)) (by omega) (by decide) (by decide)
      (by simp only [UInt8.reduceToNat]; omega) (by simp only [UInt8.reduceToNat]; omega))
  split
  next h =>
    exact .goesOn (spells_four (hb h) (by decide) (by decide) (by decide) (by decide))
  split
  next =>
    exact .goesOn (spells_four (eq_ofNat_add (by omega)) (by decide) (by decide)
      (by simp only [UInt8.reduceToNat]; omega) (by simp only [UInt8.reduceToNat]; omega))
  split
  next h =>
    exact .goesOn (spells_four (hb h) (by decide) (by decide) (by decide) (by decide))
  next => exact .fails List.mem_cons_self

theorem reads_step {read : Bytes} {state : Option Partial} (h : Pending read state) (b : UInt8) :
    Reads (read ++ [b]) (step state b) := by
  cases state with
  | none =>
      rw [show read = [] from h]
      exact reads_start b
  | some p =>
      obtain ⟨value, remaining, low, high⟩ := p
      simp only [step]
      split
      next hb =>
        rw [Bool.and_eq_true, decide_eq_true_iff, decide_eq_true_iff] at hb
        match remaining, h with
        | 1, h => exact .completes (h b hb.1 hb.2)
        | n + 2, h =>
            rw [if_neg (by omega)]
            exact .goesOn (h b hb.1 hb.2)
      next => exact .fails List.mem_cons_self

/-! ## Whole texts -/

theorem unitsFrom_cons {state : Option Partial} {b : UInt8} {rest : Bytes} :
    unitsFrom state (b :: rest) =
      (step state b).1 ++ unitsFrom (step state b).2 rest := by
  cases state <;> rfl

theorem eq_encodeChars_of_unitsFrom {bytes read : Bytes} {state : Option Partial} {cs : List Char}
    (h : Pending read state) (hunits : unitsFrom state bytes = cs.map some) :
    read ++ bytes = encodeChars cs := by
  induction bytes generalizing read state cs with
  | nil =>
      cases state with
      | none =>
          rw [unitsFrom, eq_comm, List.map_eq_nil_iff] at hunits
          rw [show read = [] from h, hunits]
          rfl
      | some p =>
          rw [unitsFrom] at hunits
          cases cs <;> simp at hunits
  | cons b rest ih =>
      have hreads := reads_step h b
      rw [unitsFrom_cons] at hunits
      rw [List.append_cons]
      generalize step state b = stepped at hreads hunits
      cases hreads with
      | completes hread =>
          cases cs with
          | nil => cases hunits
          | cons c cs =>
              obtain ⟨hc, hrest⟩ := List.cons.inj hunits
              cases hc
              rw [hread, ← List.nil_append rest, @ih _ none _ rfl hrest]
              rfl
      | goesOn hpending => exact ih hpending hunits
      | fails hnone =>
          have hmem := hunits ▸ List.mem_append_left _ hnone
          rw [List.mem_map] at hmem
          obtain ⟨c, -, hc⟩ := hmem
          cases hc

theorem eq_map_some_of_mapM_id {α : Type} {xs : List (Option α)} {ys : List α}
    (h : xs.mapM id = some ys) :
    xs = ys.map some := by
  induction xs generalizing ys with
  | nil =>
      cases h
      rfl
  | cons x xs ih =>
      rw [List.mapM_cons] at h
      obtain ⟨y, hy, h⟩ := Option.bind_eq_some_iff.mp h
      obtain ⟨rest, hrest, h⟩ := Option.bind_eq_some_iff.mp h
      rw [← Option.some.inj h, List.map_cons, ← ih hrest, ← hy]
      rfl

theorem mapM_id_map_some {α : Type} (xs : List α) : (xs.map some).mapM id = some xs := by
  induction xs with
  | nil => rfl
  | cons x xs ih =>
      rw [List.map_cons, List.mapM_cons, ih]
      rfl

/-- Bytes that are decoded are the encoding of their text. -/
theorem encode_of_decode? {bytes : Bytes} {text : String} (h : decode? bytes = some text) :
    encode text = bytes := by
  obtain ⟨cs, hcs, rfl⟩ := Option.map_eq_some_iff.mp h
  rw [encode, String.toList_ofList]
  have hpending : Pending [] none := rfl
  exact (eq_encodeChars_of_unitsFrom hpending (eq_map_some_of_mapM_id hcs)).symm

/-! ## Reading an encoding back -/

theorem toNat_ofNat {n : Nat} (h : n < 256) : (UInt8.ofNat n).toNat = n := by
  rw [UInt8.toNat_ofNat', Nat.mod_eq_of_lt h]

theorem start_one {n : Nat} (h : n < 0x80) :
    start (UInt8.ofNat n) = ([some (Char.ofNat n)], none) := by
  unfold start
  dsimp only
  rw [toNat_ofNat (by omega), if_pos h]

theorem start_two {a : Nat} (h : 2 ≤ a) (h' : a < 0x20) :
    start (UInt8.ofNat (0xC0 + a)) = ([], some ⟨a, 1, 0x80, 0xBF⟩) := by
  unfold start continuing
  dsimp only
  rw [toNat_ofNat (by omega), if_neg (by omega), if_neg (by omega), if_pos (by omega),
    Nat.add_sub_cancel_left]

theorem start_three {a : Nat} (h : a < 0x10) :
    start (UInt8.ofNat (0xE0 + a)) =
      ([], some ⟨a, 2, if a = 0 then 0xA0 else 0x80, if a = 0xD then 0x9F else 0xBF⟩) := by
  unfold start continuing
  dsimp only
  rw [toNat_ofNat (by omega), if_neg (by omega), if_neg (by omega), if_neg (by omega)]
  by_cases h0 : a = 0
  · subst h0
    rfl
  by_cases hd : a = 0xD
  · subst hd
    rfl
  rw [if_neg (by omega), if_neg (by omega), if_pos (by omega), if_neg h0, if_neg hd,
    Nat.add_sub_cancel_left]

theorem start_four {a : Nat} (h : a < 5) :
    start (UInt8.ofNat (0xF0 + a)) =
      ([], some ⟨a, 3, if a = 0 then 0x90 else 0x80, if a = 4 then 0x8F else 0xBF⟩) := by
  unfold start continuing
  dsimp only
  rw [toNat_ofNat (by omega), if_neg (by omega), if_neg (by omega), if_neg (by omega),
    if_neg (by omega), if_neg (by omega), if_neg (by omega)]
  by_cases h0 : a = 0
  · subst h0
    rfl
  by_cases h4 : a = 4
  · subst h4
    rfl
  rw [if_neg (by omega), if_pos (by omega), if_neg h0, if_neg h4, Nat.add_sub_cancel_left]

theorem step_tail {value remaining t : Nat} {low high : UInt8} (ht : t < 64)
    (hlow : low.toNat ≤ 0x80 + t) (hhigh : 0x80 + t ≤ high.toNat) :
    step (some ⟨value, remaining, low, high⟩) (tail t) =
      if remaining ≤ 1 then ([some (Char.ofNat (value * 64 + t))], none)
      else ([], some ⟨value * 64 + t, remaining - 1, 0x80, 0xBF⟩) := by
  have hnat : (tail t).toNat = 0x80 + t := toNat_ofNat (by omega)
  have hbounds : (decide (low ≤ tail t) && decide (tail t ≤ high)) = true := by
    rw [Bool.and_eq_true, decide_eq_true_iff, decide_eq_true_iff, UInt8.le_iff_toNat_le,
      UInt8.le_iff_toNat_le, hnat]
    exact ⟨hlow, hhigh⟩
  unfold step continuing
  dsimp only
  rw [if_pos hbounds, hnat, Nat.add_sub_cancel_left]

theorem unitsFrom_tail {value remaining t : Nat} {low high : UInt8} {rest : Bytes} (ht : t < 64)
    (hlow : low.toNat ≤ 0x80 + t) (hhigh : 0x80 + t ≤ high.toNat) :
    unitsFrom (some ⟨value, remaining + 2, low, high⟩) (tail t :: rest) =
      unitsFrom (some ⟨value * 64 + t, remaining + 1, 0x80, 0xBF⟩) rest := by
  rw [unitsFrom_cons, step_tail ht hlow hhigh, if_neg (by omega)]
  rfl

theorem unitsFrom_lastTail {value t : Nat} {low high : UInt8} {rest : Bytes} (ht : t < 64)
    (hlow : low.toNat ≤ 0x80 + t) (hhigh : 0x80 + t ≤ high.toNat) :
    unitsFrom (some ⟨value, 1, low, high⟩) (tail t :: rest) =
      some (Char.ofNat (value * 64 + t)) :: unitsFrom none rest := by
  rw [unitsFrom_cons, step_tail ht hlow hhigh, if_pos (Nat.le_refl 1)]
  rfl

/-- The bytes of a character, by how many they are; what the character is made of is within the
bounds of the reader. -/
inductive Encoded : Char → Bytes → Prop
  | one {n : Nat} : n < 0x80 → Encoded (Char.ofNat n) [UInt8.ofNat n]
  | two {a t : Nat} : 2 ≤ a → a < 0x20 → t < 64 →
      Encoded (Char.ofNat (a * 64 + t)) [UInt8.ofNat (0xC0 + a), tail t]
  | three {a t u : Nat} : a < 0x10 → t < 64 → u < 64 → 0x20 ≤ a * 64 + t →
      a * 64 + t < 0x360 ∨ 0x380 ≤ a * 64 + t →
        Encoded (Char.ofNat ((a * 64 + t) * 64 + u)) [UInt8.ofNat (0xE0 + a), tail t, tail u]
  | four {a t u v : Nat} : t < 64 → u < 64 → v < 64 → 0x10 ≤ a * 64 + t → a * 64 + t < 0x110 →
      Encoded (Char.ofNat (((a * 64 + t) * 64 + u) * 64 + v))
        [UInt8.ofNat (0xF0 + a), tail t, tail u, tail v]

theorem encoded_utf8EncodeChar (c : Char) : Encoded c (String.utf8EncodeChar c) := by
  have hvalid : c.toNat.isValidChar := c.valid
  rw [← Char.ofNat_toNat c]
  generalize c.toNat = n at hvalid
  have hgap : n < 0xD800 ∨ (0xDFFF < n ∧ n < 0x110000) := hvalid
  by_cases h1 : n < 0x80
  · rw [utf8EncodeChar_one h1]
    exact .one h1
  by_cases h2 : n < 0x800
  · rw [← Nat.div_add_mod' n 64, utf8EncodeChar_two (by omega) (by omega) (by omega)]
    exact .two (by omega) (by omega) (by omega)
  by_cases h3 : n < 0x10000
  · rw [← Nat.div_add_mod' n 64, ← Nat.div_add_mod' (n / 64) 64,
      utf8EncodeChar_three (by omega) (by omega) (by omega) (by omega) (by omega)]
    exact .three (by omega) (by omega) (by omega) (by omega) (by omega)
  · rw [← Nat.div_add_mod' n 64, ← Nat.div_add_mod' (n / 64) 64,
      ← Nat.div_add_mod' (n / 64 / 64) 64,
      utf8EncodeChar_four (by omega) (by omega) (by omega) (by omega) (by omega)]
    exact .four (by omega) (by omega) (by omega) (by omega) (by omega)

theorem unitsFrom_utf8EncodeChar (c : Char) (rest : Bytes) :
    unitsFrom none (String.utf8EncodeChar c ++ rest) = some c :: unitsFrom none rest := by
  have hordinary {t : Nat} (ht : t < 64) :
      (0x80 : UInt8).toNat ≤ 0x80 + t ∧ 0x80 + t ≤ (0xBF : UInt8).toNat := by
    simp only [UInt8.reduceToNat]
    omega
  have hencoded := encoded_utf8EncodeChar c
  generalize String.utf8EncodeChar c = bytes at hencoded
  cases hencoded with
  | one h =>
      rw [List.singleton_append, unitsFrom_cons, step, start_one h]
      rfl
  | two ha ha' ht =>
      rw [List.cons_append, unitsFrom_cons, step, start_two ha ha', List.nil_append]
      exact unitsFrom_lastTail ht (hordinary ht).1 (hordinary ht).2
  | @three a t u ha ht hu hlow hgap =>
      have hfrom : (if a = 0 then 0xA0 else 0x80 : UInt8).toNat ≤ 0x80 + t := by
        split <;> (simp only [UInt8.reduceToNat]; omega)
      have hto : 0x80 + t ≤ (if a = 0xD then 0x9F else 0xBF : UInt8).toNat := by
        split <;> (simp only [UInt8.reduceToNat]; omega)
      rw [List.cons_append, unitsFrom_cons, step, start_three ha, List.nil_append, List.cons_append,
        unitsFrom_tail ht hfrom hto]
      exact unitsFrom_lastTail hu (hordinary hu).1 (hordinary hu).2
  | @four a t u v ht hu hv hlow hhigh =>
      have hfrom : (if a = 0 then 0x90 else 0x80 : UInt8).toNat ≤ 0x80 + t := by
        split <;> (simp only [UInt8.reduceToNat]; omega)
      have hto : 0x80 + t ≤ (if a = 4 then 0x8F else 0xBF : UInt8).toNat := by
        split <;> (simp only [UInt8.reduceToNat]; omega)
      rw [List.cons_append, unitsFrom_cons, step, start_four (by omega), List.nil_append,
        List.cons_append, unitsFrom_tail ht hfrom hto, List.cons_append,
        unitsFrom_tail hu (hordinary hu).1 (hordinary hu).2]
      exact unitsFrom_lastTail hv (hordinary hv).1 (hordinary hv).2

theorem unitsFrom_encodeChars (cs : List Char) :
    unitsFrom none (encodeChars cs) = cs.map some := by
  induction cs with
  | nil => rfl
  | cons c cs ih =>
      rw [encodeChars, List.flatMap_cons, unitsFrom_utf8EncodeChar, ← encodeChars, ih]
      rfl

/-- What encodes a text decodes to it. -/
theorem decode?_encode (text : String) : decode? (encode text) = some text := by
  rw [decode?, units, encode, unitsFrom_encodeChars, mapM_id_map_some]
  simp

theorem encode_injective {text text' : String} (h : encode text = encode text') :
    text = text' := by
  have hdecoded := congrArg decode? h
  rw [decode?_encode, decode?_encode] at hdecoded
  exact Option.some.inj hdecoded

end StackControl.Utf8
