import StackControl.Arguments.Grammar
import StackControl.Proofs.Text.Utf8

/-!
# The words of a command line

A token becomes a word when it is plain or stands after the escape.  Every other token is an option,
a value or the escape itself, so the words are among the tokens, in their order; and they are all
of the tokens only when no token has the look of an option.
-/

namespace StackControl.Arguments

variable {g : Grammar} {r r' : Reading} {token : Bytes} {tokens kept : List Bytes}

/-- The tokens that a pending argument has collected as words. -/
def Pending.wordTokens : Option Pending → List Bytes
  | some (.words tokens) => tokens
  | _ => []

/-- The tokens taken as words so far, settled or not. -/
def Reading.taken (r : Reading) : List Bytes :=
  r.found.words.map Utf8.encode ++ Pending.wordTokens r.pending

/-- The same words are taken, and the same tokens can become words. -/
structure Reading.SameWords (r r' : Reading) : Prop where
  taken : r'.taken = r.taken
  onlyWords : r'.onlyWords = r.onlyWords

theorem Reading.SameWords.trans {r'' : Reading} (h : r.SameWords r') (h' : r'.SameWords r'') :
    r.SameWords r'' :=
  ⟨h'.taken.trans h.taken, h'.onlyWords.trans h.onlyWords⟩

/-! ## One token -/

theorem exists_of_bind_eq_ok {ε α β : Type} {x : Except ε α} {f : α → Except ε β} {b : β}
    (h : x >>= f = .ok b) :
    ∃ a, x = .ok a ∧ f a = .ok b := by
  cases x with
  | error => cases h
  | ok a => exact ⟨a, rfl, h⟩

theorem exists_of_map_eq_ok {ε α β : Type} {x : Except ε α} {f : α → β} {b : β}
    (h : x.map f = .ok b) :
    ∃ a, x = .ok a ∧ f a = b := by
  cases x with
  | error => cases h
  | ok a => exact ⟨a, rfl, Except.ok.inj h⟩

theorem encode_of_mapM_decode? {texts : List String} (h : tokens.mapM Utf8.decode? = some texts) :
    texts.map Utf8.encode = tokens := by
  induction tokens generalizing texts with
  | nil =>
      cases h
      rfl
  | cons token tokens ih =>
      rw [List.mapM_cons] at h
      obtain ⟨text, htext, h⟩ := Option.bind_eq_some_iff.mp h
      obtain ⟨rest, hrest, h⟩ := Option.bind_eq_some_iff.mp h
      rw [← Option.some.inj h, List.map_cons, ih hrest, Utf8.encode_of_decode? htext]

theorem mapM_decode?_encode (texts : List String) :
    (texts.map Utf8.encode).mapM Utf8.decode? = some texts := by
  induction texts with
  | nil => rfl
  | cons text texts ih =>
      rw [List.map_cons, List.mapM_cons, Utf8.decode?_encode, ih]
      rfl

namespace Reading

theorem sameWords_record {spec : OptionSpec} {value : Except UsageError String}
    (h : r.record spec value = .ok r') :
    r.SameWords r' ∧ r'.pending = r.pending := by
  rw [record] at h
  split at h
  · cases h
  · cases value with
    | error => cases h
    | ok text =>
        cases h
        exact ⟨⟨rfl, rfl⟩, rfl⟩

theorem sameWords_settle (h : r.settle = .ok r') :
    r.SameWords r' ∧ r'.pending = none := by
  obtain ⟨found, pending, onlyWords⟩ := r
  rw [settle] at h
  split at h
  next heq =>
    cases h
    exact ⟨⟨rfl, rfl⟩, heq⟩
  next => cases h
  next spec value heq =>
    cases heq
    split at h
    next =>
      obtain ⟨hsame, hpending⟩ := sameWords_record h
      exact ⟨⟨hsame.taken, hsame.onlyWords⟩, hpending⟩
    next =>
      cases h
      exact ⟨⟨rfl, rfl⟩, rfl⟩
  next words heq =>
    cases heq
    split at h
    next => cases h
    next texts htexts =>
      cases h
      refine ⟨⟨?_, rfl⟩, rfl⟩
      simp [taken, Pending.wordTokens, encode_of_mapM_decode? htexts]

/-- What is pending in place of nothing changes no words, as long as it is an option. -/
theorem sameWords_awaiting {spec : OptionSpec} (h : r.settle = .ok r') :
    r.SameWords { r' with pending := some (.option spec none) } := by
  obtain ⟨hsame, hpending⟩ := sameWords_settle h
  refine hsame.trans ⟨?_, rfl⟩
  simp [taken, hpending, Pending.wordTokens]

theorem sameWords_meet {spec : OptionSpec} {attached : Option Bytes}
    (h : r.meet spec attached = .ok r') :
    r.SameWords r' := by
  unfold meet at h
  split at h
  next =>
    obtain ⟨settled, hsettled, h⟩ := exists_of_bind_eq_ok h
    cases h
    exact sameWords_awaiting hsettled
  next =>
    obtain ⟨settled, hsettled, h⟩ := exists_of_bind_eq_ok h
    exact (sameWords_settle hsettled).1.trans (sameWords_record h).1
  next => cases h
  next =>
    obtain ⟨settled, hsettled, h⟩ := exists_of_bind_eq_ok h
    exact (sameWords_settle hsettled).1.trans (sameWords_record h).1
  next =>
    obtain ⟨_, -, h⟩ := exists_of_bind_eq_ok h
    cases h
  next =>
    obtain ⟨_, -, h⟩ := exists_of_bind_eq_ok h
    cases h

theorem taken_word (h : r.word token = .ok r') :
    r'.taken = r.taken ++ [token] ∧ r'.onlyWords = r.onlyWords := by
  rw [word] at h
  split at h
  next tokens hpending =>
    cases h
    simp [taken, hpending, Pending.wordTokens]
  next =>
    obtain ⟨settled, hsettled, h⟩ := exists_of_bind_eq_ok h
    obtain ⟨hsame, hpending⟩ := sameWords_settle hsettled
    cases h
    refine ⟨?_, hsame.onlyWords⟩
    rw [← hsame.taken]
    simp [taken, hpending, Pending.wordTokens]

end Reading

namespace Grammar

theorem sameWords_readLetters {letters : List (Option Char)}
    (h : g.readLetters r letters = .ok r') :
    r.SameWords r' := by
  induction letters generalizing r with
  | nil =>
      cases h
      exact ⟨rfl, rfl⟩
  | cons letter letters ih =>
      cases letter with
      | none => cases h
      | some c =>
          rw [readLetters] at h
          split at h
          next =>
            obtain ⟨met, hmet, h⟩ := exists_of_bind_eq_ok h
            exact (Reading.sameWords_meet hmet).trans (ih h)
          next => cases h

end Grammar

/-- What can become of a token that is read: a word, or something else, and only the escape changes
what the tokens after it can become. -/
inductive Taking (r : Reading) (token : Bytes) (r' : Reading) : Prop
  | word : r.onlyWords = true ∨ shapeOf token = .plain → r'.taken = r.taken ++ [token] →
      r'.onlyWords = r.onlyWords → Taking r token r'
  | passed : r.onlyWords = false → r'.taken = r.taken →
      r'.onlyWords = r.onlyWords ∨ shapeOf token = .escape → Taking r token r'

theorem taking_readToken (h : g.readToken r token = .ok r') : Taking r token r' := by
  have hword (h : g.readWord r token = .ok r') :
      r'.taken = r.taken ++ [token] ∧ r'.onlyWords = r.onlyWords := by
    rw [Grammar.readWord] at h
    split at h
    next => exact Reading.taken_word h
    next => cases h
  rw [Grammar.readToken] at h
  split at h
  next honly => exact .word (.inl honly) (hword h).1 (hword h).2
  next honly =>
    rw [Bool.not_eq_true] at honly
    split at h
    next hshape =>
      cases h
      exact .passed honly rfl (.inr hshape)
    next =>
      split at h
      next =>
        have hsame := Reading.sameWords_meet h
        exact .passed honly hsame.taken (.inl hsame.onlyWords)
      next => cases h
    next =>
      have hsame := Grammar.sameWords_readLetters h
      exact .passed honly hsame.taken (.inl hsame.onlyWords)
    next hpending =>
      cases h
      refine .passed honly ?_ (.inl rfl)
      simp [Reading.taken, hpending, Pending.wordTokens]
    next hshape _ => exact .word (.inr hshape) (hword h).1 (hword h).2

/-! ## Whole command lines -/

/-- The tokens that became words, of those that were read. -/
structure Kept (onlyWords : Bool) (tokens kept : List Bytes) : Prop where
  sublist : kept.Sublist tokens
  /-- All tokens became words only if none had the look of an option. -/
  plain_of_eq : onlyWords = false → kept = tokens → ∀ token ∈ tokens, shapeOf token = .plain
  /-- Without an escape only plain tokens became words. -/
  plain : onlyWords = false → (∀ token ∈ tokens, shapeOf token ≠ .escape) →
    ∀ token ∈ kept, shapeOf token = .plain

theorem kept_nil (onlyWords : Bool) : Kept onlyWords tokens [] where
  sublist := List.nil_sublist tokens
  plain_of_eq _ heq := by simp [← heq]
  plain _ _ := by simp

/-- A token that became a word comes before those that became words after it. -/
theorem Kept.word (h : Kept r.onlyWords tokens kept)
    (hword : r.onlyWords = true ∨ shapeOf token = .plain) :
    Kept r.onlyWords (token :: tokens) (token :: kept) := by
  have hplain (honly : r.onlyWords = false) : shapeOf token = .plain :=
    hword.resolve_left (by simp [honly])
  constructor
  · exact h.sublist.cons_cons token
  · intro honly heq
    have hrest := h.plain_of_eq honly (List.cons.inj heq).2
    exact List.forall_mem_cons.mpr ⟨hplain honly, hrest⟩
  · intro honly hescape
    have hrest := h.plain honly fun other hother =>
      hescape other (List.mem_cons_of_mem _ hother)
    exact List.forall_mem_cons.mpr ⟨hplain honly, hrest⟩

/-- A token that became no word leaves its place empty. -/
theorem Kept.passed {onlyWords : Bool} (h : Kept onlyWords tokens kept)
    (honly : onlyWords = r.onlyWords ∨ shapeOf token = .escape) :
    Kept r.onlyWords (token :: tokens) kept where
  sublist := h.sublist.cons token
  plain_of_eq _ heq := by
    have hle := h.sublist.length_le
    rw [heq, List.length_cons] at hle
    omega
  plain hfalse hescape := by
    have hsame := honly.resolve_right (hescape token List.mem_cons_self)
    exact h.plain (hsame.trans hfalse) fun other hother =>
      hescape other (List.mem_cons_of_mem _ hother)

theorem exists_kept_read {next : Option (String × List Bytes)}
    (h : g.read r tokens = .ok (r', next)) :
    ∃ kept, r'.taken = r.taken ++ kept ∧ Kept r.onlyWords tokens kept := by
  induction tokens generalizing r with
  | nil =>
      cases h
      exact ⟨[], (List.append_nil _).symm, kept_nil _⟩
  | cons token rest ih =>
      rw [Grammar.read] at h
      split at h
      next =>
        cases h
        exact ⟨[], (List.append_nil _).symm, kept_nil _⟩
      next =>
        obtain ⟨read, hread, h⟩ := exists_of_bind_eq_ok h
        obtain ⟨kept, htaken, hkept⟩ := ih h
        cases taking_readToken hread with
        | word hword hread honly =>
            refine ⟨token :: kept, ?_, (honly ▸ hkept).word hword⟩
            rw [htaken, hread, List.append_assoc, List.singleton_append]
        | passed _ hread honly =>
            exact ⟨kept, by rw [htaken, hread], hkept.passed honly⟩

/-- The words of a command are tokens of its command line. -/
theorem kept_parseFlat {found : Matches} (h : g.parseFlat tokens = .ok found) :
    Kept false tokens (found.words.map Utf8.encode) := by
  obtain ⟨⟨read, next⟩, hread, h⟩ := exists_of_bind_eq_ok h
  obtain ⟨settled, hsettled, h⟩ := exists_of_bind_eq_ok h
  obtain ⟨kept, htaken, hkept⟩ := exists_kept_read hread
  obtain ⟨hsame, hpending⟩ := Reading.sameWords_settle hsettled
  cases h
  have hwords : settled.found.words.map Utf8.encode = kept := by
    have heq := hsame.taken.trans htaken
    simpa [Reading.taken, hpending, Pending.wordTokens, Reading.start] using heq
  rw [hwords]
  exact hkept

/-! ## Plain tokens -/

section Plain

variable {found : Matches}

theorem subcommand?_eq_none (h : g.subcommands = []) : g.subcommand? token = none := by
  rw [Grammar.subcommand?, h]
  split <;> rfl

theorem read_cons (hnone : g.subcommands = []) :
    g.read r (token :: tokens) = g.readToken r token >>= fun r => g.read r tokens := by
  rw [Grammar.read, subcommand?_eq_none hnone]
  split
  next h => split at h <;> cases h
  next => rfl

/-- Plain tokens join the words that are pending. -/
theorem read_plain (hwords : g.collectsWords = true) (hnone : g.subcommands = [])
    (hplain : ∀ token ∈ tokens, shapeOf token = .plain) (taken : List Bytes) :
    g.read ⟨found, some (.words taken), false⟩ tokens =
      .ok (⟨found, some (.words (taken ++ tokens)), false⟩, none) := by
  induction tokens generalizing taken with
  | nil => rw [List.append_nil, Grammar.read]
  | cons token tokens ih =>
      obtain ⟨htoken, htokens⟩ := List.forall_mem_cons.mp hplain
      have hread : g.readToken ⟨found, some (.words taken), false⟩ token =
          .ok ⟨found, some (.words (taken ++ [token])), false⟩ := by
        simp only [Grammar.readToken, htoken, Grammar.readWord, hwords]
        rfl
      have hrest := ih htokens (taken ++ [token])
      rw [List.append_assoc, List.singleton_append] at hrest
      rw [read_cons hnone, hread]
      exact hrest

/-- Texts that have not the look of an option are read to themselves. -/
theorem parseFlat_plain (hwords : g.collectsWords = true) (hnone : g.subcommands = [])
    {texts : List String} (hplain : ∀ text ∈ texts, shapeOf (Utf8.encode text) = .plain) :
    g.parseFlat (texts.map Utf8.encode) = .ok ⟨[], texts⟩ := by
  cases texts with
  | nil => rfl
  | cons text texts =>
      have hplain' : ∀ token ∈ (text :: texts).map Utf8.encode, shapeOf token = .plain := by
        simpa using hplain
      obtain ⟨htext, htexts⟩ := List.forall_mem_cons.mp hplain'
      have hfirst : g.readToken .start (Utf8.encode text) =
          .ok ⟨⟨[], []⟩, some (.words [Utf8.encode text]), false⟩ := by
        simp only [Grammar.readToken, Reading.start, htext, Grammar.readWord, hwords]
        rfl
      have hread : g.read .start ((text :: texts).map Utf8.encode) =
          .ok (⟨⟨[], []⟩, some (.words ((text :: texts).map Utf8.encode)), false⟩, none) := by
        rw [List.map_cons, read_cons hnone, hfirst]
        exact read_plain hwords hnone htexts _
      have hsettle : Reading.settle
          ⟨⟨[], []⟩, some (.words ((text :: texts).map Utf8.encode)), false⟩ =
            .ok ⟨⟨[], text :: texts⟩, none, false⟩ := by
        simp only [Reading.settle, mapM_decode?_encode]
        rfl
      rw [Grammar.parseFlat, hread]
      exact congrArg (Except.map fun settled : Reading => settled.found) hsettle

end Plain

/-! ## Plain texts -/

/-- Whether a text has not the look of an option: it does not begin with a dash, or is nothing but
that dash. -/
def isPlain (text : String) : Bool :=
  match text.toList with
  | '-' :: _ :: _ => false
  | _ => true

theorem shapeOf_of_ne_dash {b : UInt8} {rest : Bytes} (h : b ≠ dash) :
    shapeOf (b :: rest) = .plain := by
  unfold shapeOf
  exact if_neg (by simpa using h)

theorem shapeOf_dash_cons_ne {b : UInt8} {rest : Bytes} :
    shapeOf (dash :: b :: rest) ≠ .plain := by
  rw [shapeOf, if_pos (beq_self_eq_true dash)]
  split
  · split
    · nofun
    · split <;> nofun
  · nofun

/-- Only a dash is encoded with the byte of a dash in front. -/
theorem exists_utf8EncodeChar_eq_cons {c : Char} (h : c ≠ '-') :
    ∃ b rest, String.utf8EncodeChar c = b :: rest ∧ b ≠ dash := by
  have hencoded := Utf8.encoded_utf8EncodeChar c
  generalize String.utf8EncodeChar c = bytes at hencoded
  cases hencoded with
  | @one n hn =>
      refine ⟨_, _, rfl, ?_⟩
      intro heq
      apply h
      have hnat := congrArg UInt8.toNat heq
      rw [Utf8.toNat_ofNat (by omega)] at hnat
      rw [hnat]
      rfl
  | two | three | four =>
      refine ⟨_, _, rfl, ?_⟩
      intro heq
      have hnat := congrArg UInt8.toNat heq
      rw [Utf8.toNat_ofNat (by omega)] at hnat
      have hdash : dash.toNat = 0x2D := rfl
      omega

theorem shapeOf_encode_eq_plain_iff {text : String} :
    shapeOf (Utf8.encode text) = .plain ↔ isPlain text = true := by
  rw [Utf8.encode, Utf8.encodeChars, isPlain]
  cases text.toList with
  | nil => simp [shapeOf]
  | cons c rest =>
      rw [List.flatMap_cons]
      by_cases hc : c = '-'
      · subst hc
        rw [show String.utf8EncodeChar '-' = [dash] from by decide, List.singleton_append]
        cases rest with
        | nil => simp [shapeOf]
        | cons d rest =>
            obtain ⟨b, bytes, hbytes⟩ :=
              List.exists_cons_of_ne_nil (String.utf8EncodeChar_ne_nil (c := d))
            rw [List.flatMap_cons, hbytes, List.cons_append]
            simp [shapeOf_dash_cons_ne]
      · obtain ⟨b, bytes, hbytes, hb⟩ := exists_utf8EncodeChar_eq_cons hc
        rw [hbytes, List.cons_append]
        simp [shapeOf_of_ne_dash hb, hc]

/-- Only the escape has its shape. -/
theorem eq_of_shapeOf_eq_escape (h : shapeOf token = .escape) : token = Utf8.encode "--" := by
  unfold shapeOf at h
  split at h
  next d rest =>
    split at h
    next hd =>
      split at h
      next => cases h
      next e name =>
        split at h
        next he =>
          split at h
          next hname =>
            rw [eq_of_beq hd, eq_of_beq he, List.isEmpty_iff.mp hname]
            decide
          next => split at h <;> cases h
        next => cases h
    next => cases h
  next => cases h

end StackControl.Arguments
