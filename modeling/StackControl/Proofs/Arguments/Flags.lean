import Mathlib.Data.List.Induction
import StackControl.Arguments.Split
import StackControl.Proofs.Text.Lossy
import StackControl.Proofs.Text.Search

/-!
# Runs of configuration flags

The configuration flags of a command line are items, each a flag with its value, attached to it or
as the token after it.  The split takes items until a token can begin none; forwarding takes out the
items that name a configuration file.  Both go token by token, and they stay in step because a value
that is a token of its own does not begin like a flag.
-/

namespace StackControl.Arguments

/-- A configuration flag with its value, which is attached to it or is the token after it. -/
inductive FlagItem
  | attached (flag : String) (value : Bytes)
  | separate (flag : String) (value : Bytes)
deriving DecidableEq

namespace FlagItem

/-- The flag of an item. -/
def flag : FlagItem → String
  | attached flag _ | separate flag _ => flag

/-- The tokens of an item. -/
def tokens : FlagItem → List Bytes
  | attached flag value => [Utf8.encode flag ++ byteOf '=' :: value]
  | separate flag value => [Utf8.encode flag, value]

/-- The value is a token of its own and begins with two dashes. -/
def HasDashedValue : FlagItem → Prop
  | attached _ _ => False
  | separate _ value => Utf8.encode "--" <+: value

instance : DecidablePred HasDashedValue
  | attached _ _ => inferInstanceAs (Decidable False)
  | separate _ value => inferInstanceAs (Decidable (Utf8.encode "--" <+: value))

end FlagItem

/-- Items of known flags are spelled out by tokens. -/
structure SpellOut (items : List FlagItem) (tokens : List Bytes) : Prop where
  known : ∀ item ∈ items, item.flag ∈ configurationFlags
  tokens_eq : tokens = items.flatMap FlagItem.tokens

variable {flag : String} {token value : Bytes} {tokens : List Bytes} {item : FlagItem}
  {items : List FlagItem}

/-! ## Single tokens -/

/-- A configuration flag begins with two dashes, and is spelled in ASCII without an equals sign. -/
theorem spelling_of_mem_configurationFlags (h : flag ∈ configurationFlags) :
    "--".toList <+: flag.toList ∧ ∀ c ∈ flag.toList, c.toNat < 0x80 ∧ (c == '=') = false := by
  have hall : configurationFlags.all (fun flag => "--".toList.isPrefixOf flag.toList &&
      flag.toList.all fun c => c.toNat < 0x80 && !(c == '=')) = true := by
    decide +kernel
  have hflag := List.all_eq_true.mp hall flag h
  rw [Bool.and_eq_true, List.isPrefixOf_iff_prefix, List.all_eq_true] at hflag
  refine ⟨hflag.1, ?_⟩
  intro c hc
  simpa using hflag.2 c hc

theorem ascii_of_mem_configurationFlags (h : flag ∈ configurationFlags) :
    ∀ c ∈ flag.toList, c.toNat < 0x80 := by
  intro c hc
  exact ((spelling_of_mem_configurationFlags h).2 c hc).1

theorem not_equals_of_mem_configurationFlags (h : flag ∈ configurationFlags) :
    ∀ c ∈ flag.toList, (c == '=') = false := by
  intro c hc
  exact ((spelling_of_mem_configurationFlags h).2 c hc).2

theorem encode_equals : Utf8.encode "=" = [byteOf '='] :=
  Utf8.encode_ascii (by simp)

/-- A flag with an attached value is decoded part by part. -/
theorem toList_decodeLossy_attached (flag : String) (value : Bytes) :
    (Utf8.decodeLossy (Utf8.encode flag ++ byteOf '=' :: value)).toList =
      flag.toList ++ '=' :: (Utf8.decodeLossy value).toList := by
  have hvalue := Utf8.decodeLossy_encode_append "=" value
  rw [encode_equals, List.singleton_append] at hvalue
  rw [Utf8.decodeLossy_encode_append, hvalue]
  rfl

theorem cutAt?_flag (h : flag ∈ configurationFlags) :
    Text.cutAt? (· == '=') flag.toList = none :=
  Text.cutAt?_eq_none_iff.mpr (not_equals_of_mem_configurationFlags h)

theorem cutAt?_attached (h : flag ∈ configurationFlags) (rest : List Char) :
    Text.cutAt? (· == '=') (flag.toList ++ '=' :: rest) = some (flag.toList, rest) :=
  Text.cutAt?_eq_some_iff.mpr ⟨'=', rfl, not_equals_of_mem_configurationFlags h, rfl⟩

theorem flagNeedsValue?_flag (h : flag ∈ configurationFlags) :
    flagNeedsValue? (Utf8.encode flag) = some true := by
  rw [flagNeedsValue?, Utf8.decodeLossy_encode, cutAt?_flag h]
  simpa using h

theorem flagNeedsValue?_attached (h : flag ∈ configurationFlags) (value : Bytes) :
    flagNeedsValue? (Utf8.encode flag ++ byteOf '=' :: value) = some false := by
  rw [flagNeedsValue?, toList_decodeLossy_attached, cutAt?_attached h]
  simpa using h

/-- A token that is read as a flag is one, alone or with a value attached. -/
theorem exists_flag_of_flagNeedsValue? {needsValue : Bool}
    (h : flagNeedsValue? token = some needsValue) :
    ∃ flag ∈ configurationFlags,
      (needsValue = true ∧ token = Utf8.encode flag) ∨
        (needsValue = false ∧ ∃ value, token = Utf8.encode flag ++ byteOf '=' :: value) := by
  unfold flagNeedsValue? at h
  dsimp only at h
  cases hcut : Text.cutAt? (· == '=') (Utf8.decodeLossy token).toList with
  | none =>
      rw [hcut] at h
      dsimp only at h
      rw [String.ofList_toList] at h
      by_cases hflag : Utf8.decodeLossy token ∈ configurationFlags
      · have hneeds : needsValue = true := by simpa [hflag] using h.symm
        have htoken := Utf8.eq_encode_of_decodeLossy (ascii_of_mem_configurationFlags hflag) rfl
        exact ⟨_, hflag, .inl ⟨hneeds, htoken⟩⟩
      · simp [hflag] at h
  | some parts =>
      obtain ⟨front, back⟩ := parts
      rw [hcut] at h
      dsimp only at h
      by_cases hflag : String.ofList front ∈ configurationFlags
      · have hneeds : needsValue = false := by simpa [hflag] using h.symm
        obtain ⟨c, hc, -, htext⟩ := Text.cutAt?_eq_some_iff.mp hcut
        rw [eq_of_beq hc, ← String.toList_ofList (l := front)] at htext
        obtain ⟨tail, rfl, htail⟩ :=
          Utf8.exists_of_decodeLossy_eq_append (ascii_of_mem_configurationFlags hflag) htext
        have hequals : ∀ c ∈ "=".toList, c.toNat < 0x80 := by simp
        obtain ⟨value, rfl, -⟩ := Utf8.exists_of_decodeLossy_eq_append hequals htail
        rw [encode_equals]
        exact ⟨_, hflag, .inr ⟨hneeds, value, rfl⟩⟩
      · simp [hflag] at h

/-! ## Runs of items -/

theorem SpellOut.nil : SpellOut [] [] :=
  ⟨by simp, rfl⟩

theorem SpellOut.cons (hflag : item.flag ∈ configurationFlags) (h : SpellOut items tokens) :
    SpellOut (item :: items) (item.tokens ++ tokens) where
  known := List.forall_mem_cons.mpr ⟨hflag, h.known⟩
  tokens_eq := by rw [List.flatMap_cons, h.tokens_eq]

theorem leadingFlags_item (h : item.flag ∈ configurationFlags) (rest : List Bytes) :
    leadingFlags false (item.tokens ++ rest) = item.tokens ++ leadingFlags false rest := by
  cases item with
  | attached flag value =>
      have hneeds := flagNeedsValue?_attached h value
      simp only [FlagItem.flag] at hneeds
      simp only [FlagItem.tokens, List.singleton_append, leadingFlags, hneeds]
  | separate flag value =>
      have hneeds := flagNeedsValue?_flag h
      simp only [FlagItem.flag] at hneeds
      simp only [FlagItem.tokens, List.cons_append, List.nil_append, leadingFlags, hneeds]

/-- The split takes a run of items whole. -/
theorem leadingFlags_append (h : SpellOut items tokens) (rest : List Bytes) :
    leadingFlags false (tokens ++ rest) = tokens ++ leadingFlags false rest := by
  obtain ⟨hknown, rfl⟩ := h
  induction items with
  | nil => rfl
  | cons item items ih =>
      obtain ⟨hflag, hitems⟩ := List.forall_mem_cons.mp hknown
      rw [List.flatMap_cons, List.append_assoc, leadingFlags_item hflag, ih hitems,
        List.append_assoc]

/-- Tokens begin with a run of items; after it they end, or end with a flag alone, or go on with a
token that is no flag. -/
theorem exists_run (tokens : List Bytes) :
    ∃ items run rest, SpellOut items run ∧ tokens = run ++ rest ∧
      (rest = [] ∨ (∃ flag ∈ configurationFlags, rest = [Utf8.encode flag]) ∨
        ∃ token others, rest = token :: others ∧ flagNeedsValue? token = none) := by
  induction tokens using List.twoStepInduction with
  | nil => exact ⟨[], [], [], .nil, rfl, .inl rfl⟩
  | singleton token =>
      cases hneeds : flagNeedsValue? token with
      | none => exact ⟨[], [], [token], .nil, rfl, .inr (.inr ⟨token, [], rfl, hneeds⟩)⟩
      | some needsValue =>
          obtain ⟨flag, hflag, ⟨-, rfl⟩ | ⟨-, value, rfl⟩⟩ :=
            exists_flag_of_flagNeedsValue? hneeds
          · exact ⟨[], [], _, .nil, rfl, .inr (.inl ⟨flag, hflag, rfl⟩)⟩
          · have hitem : SpellOut [.attached flag value] _ := SpellOut.nil.cons hflag
            exact ⟨_, _, [], hitem, rfl, .inl rfl⟩
  | cons_cons token next tokens ih ih' =>
      cases hneeds : flagNeedsValue? token with
      | none => exact ⟨[], [], _, .nil, rfl, .inr (.inr ⟨token, _, rfl, hneeds⟩)⟩
      | some needsValue =>
          obtain ⟨flag, hflag, ⟨-, rfl⟩ | ⟨-, value, rfl⟩⟩ :=
            exists_flag_of_flagNeedsValue? hneeds
          · obtain ⟨items, run, rest, hrun, rfl, hrest⟩ := ih
            have hitem : SpellOut (.separate flag next :: items) _ := hrun.cons hflag
            exact ⟨_, _, rest, hitem, rfl, hrest⟩
          · obtain ⟨items, run, rest, hrun, htokens, hrest⟩ := ih' next
            have hitem : SpellOut (.attached flag value :: items) _ := hrun.cons hflag
            refine ⟨_, _, rest, hitem, ?_, hrest⟩
            rw [htokens]
            rfl

/-- Where tokens are left over, the split took a run of items. -/
theorem exists_spellOut_leadingFlags (h : (leadingFlags false tokens).length < tokens.length) :
    ∃ items, SpellOut items (leadingFlags false tokens) := by
  obtain ⟨items, run, rest, hrun, rfl, hrest⟩ := exists_run tokens
  rw [leadingFlags_append hrun] at h ⊢
  rcases hrest with rfl | ⟨flag, hflag, rfl⟩ | ⟨token, others, rfl, hnone⟩
  · simp [leadingFlags] at h
  · simp [leadingFlags, flagNeedsValue?_flag hflag] at h
  · refine ⟨items, ?_⟩
    rw [leadingFlags, hnone, List.append_nil]
    exact hrun

/-! ## One reading only -/

theorem notMem_encode_flag (h : flag ∈ configurationFlags) :
    ∀ b ∈ Utf8.encode flag, (b == byteOf '=') = false := by
  intro b hb
  rw [Utf8.encode_ascii (ascii_of_mem_configurationFlags h)] at hb
  obtain ⟨c, hc, rfl⟩ := List.mem_map.mp hb
  have hne := not_equals_of_mem_configurationFlags h c hc
  rw [beq_eq_false_iff_ne] at hne ⊢
  intro hbyte
  exact hne (Utf8.byteOf_inj (ascii_of_mem_configurationFlags h c hc) (by decide) hbyte)

theorem cutAt?_encode_flag (h : flag ∈ configurationFlags) :
    Text.cutAt? (· == byteOf '=') (Utf8.encode flag) = none :=
  Text.cutAt?_eq_none_iff.mpr (notMem_encode_flag h)

theorem cutAt?_encode_attached (h : flag ∈ configurationFlags) (value : Bytes) :
    Text.cutAt? (· == byteOf '=') (Utf8.encode flag ++ byteOf '=' :: value) =
      some (Utf8.encode flag, value) :=
  Text.cutAt?_eq_some_iff.mpr ⟨byteOf '=', beq_self_eq_true _, notMem_encode_flag h, rfl⟩

theorem item_tokens_append_inj {item' : FlagItem} {rest rest' : List Bytes}
    (h : item.flag ∈ configurationFlags) (h' : item'.flag ∈ configurationFlags)
    (heq : item.tokens ++ rest = item'.tokens ++ rest') :
    item = item' ∧ rest = rest' := by
  have hcut (token token' : Bytes) (others others' : List Bytes)
      (heq : token :: others = token' :: others') :
      Text.cutAt? (· == byteOf '=') token = Text.cutAt? (· == byteOf '=') token' := by
    rw [(List.cons.inj heq).1]
  cases item <;> cases item' <;> simp only [FlagItem.flag] at h h'
  case attached.attached flag value flag' value' =>
    have hparts := hcut _ _ _ _ heq
    rw [cutAt?_encode_attached h, cutAt?_encode_attached h'] at hparts
    obtain ⟨hflag, hvalue⟩ := Prod.mk.inj (Option.some.inj hparts)
    rw [Utf8.encode_injective hflag, hvalue]
    exact ⟨rfl, (List.cons.inj heq).2⟩
  case attached.separate flag value flag' value' =>
    have hparts := hcut _ _ _ _ heq
    rw [cutAt?_encode_attached h, cutAt?_encode_flag h'] at hparts
    cases hparts
  case separate.attached flag value flag' value' =>
    have hparts := hcut _ _ _ _ heq
    rw [cutAt?_encode_flag h, cutAt?_encode_attached h'] at hparts
    cases hparts
  case separate.separate flag value flag' value' =>
    obtain ⟨hflag, htail⟩ := List.cons.inj heq
    obtain ⟨hvalue, hrest⟩ := List.cons.inj htail
    rw [Utf8.encode_injective hflag, hvalue]
    exact ⟨rfl, hrest⟩

/-- Tokens spell out at most one list of items. -/
theorem SpellOut.unique {items' : List FlagItem} (h : SpellOut items tokens)
    (h' : SpellOut items' tokens) :
    items = items' := by
  obtain ⟨hknown, rfl⟩ := h
  obtain ⟨hknown', heq⟩ := h'
  have htokens (item : FlagItem) : item.tokens ≠ [] := by
    cases item <;> exact List.cons_ne_nil _ _
  induction items generalizing items' with
  | nil =>
      cases items' with
      | nil => rfl
      | cons item' items' =>
          have hnil := (List.append_eq_nil_iff.mp heq.symm).1
          exact absurd hnil (htokens item')
  | cons item items ih =>
      cases items' with
      | nil =>
          have hnil := (List.append_eq_nil_iff.mp heq).1
          exact absurd hnil (htokens item)
      | cons item' items' =>
          obtain ⟨hflag, hitems⟩ := List.forall_mem_cons.mp hknown
          obtain ⟨hflag', hitems'⟩ := List.forall_mem_cons.mp hknown'
          obtain ⟨rfl, hrest⟩ := item_tokens_append_inj hflag hflag' heq
          rw [ih hitems hitems' hrest]

/-! ## Forwarding -/

/-- Whether an item is forwarded: it does not name a configuration file. -/
def FlagItem.isForwarded (item : FlagItem) : Bool :=
  item.flag != configPathFlag

theorem mem_configurationFlags_configPathFlag : configPathFlag ∈ configurationFlags :=
  List.mem_cons_self

theorem toList_configPathFlag_equals :
    (configPathFlag ++ "=").toList = configPathFlag.toList ++ ['='] := by
  simp

/-- A text is no flag that names a configuration file if its first part is another flag. -/
theorem not_prefix_of_cutAt? {text : String} {parts : Option (List Char × List Char)}
    (hcut : Text.cutAt? (· == '=') text.toList = parts)
    (hparts : ∀ rest, parts ≠ some (configPathFlag.toList, rest)) :
    ¬(configPathFlag ++ "=").toList <+: text.toList := by
  rintro ⟨rest, hrest⟩
  rw [toList_configPathFlag_equals, List.append_assoc, List.singleton_append] at hrest
  rw [← hrest, cutAt?_attached mem_configurationFlags_configPathFlag] at hcut
  exact hparts rest hcut.symm

/-- Lenient decoding brings no dashes to the front. -/
theorem not_dashes_decodeLossy (h : ¬Utf8.encode "--" <+: value) :
    ¬"--".toList <+: (Utf8.decodeLossy value).toList := by
  rintro ⟨rest, hrest⟩
  have hdashes : ∀ c ∈ "--".toList, c.toNat < 0x80 := by simp
  obtain ⟨tail, htail, -⟩ := Utf8.exists_of_decodeLossy_eq_append hdashes hrest.symm
  exact h ⟨tail, htail.symm⟩

theorem withoutConfigPath_keep {text : String} {rest : List String} (hne : text ≠ configPathFlag)
    (hother : ¬(configPathFlag ++ "=").toList <+: text.toList) :
    withoutConfigPath false (text :: rest) = text :: withoutConfigPath false rest := by
  have hstarts : text.startsWith (configPathFlag ++ "=") = false :=
    String.startsWith_string_eq_false_iff.mpr hother
  rw [withoutConfigPath, hstarts]
  simp [hne]

theorem withoutConfigPath_attached (h : flag ∈ configurationFlags) (value : Bytes)
    (rest : List String) :
    withoutConfigPath false
        (Utf8.decodeLossy (Utf8.encode flag ++ byteOf '=' :: value) :: rest) =
      (if flag = configPathFlag then []
        else [Utf8.decodeLossy (Utf8.encode flag ++ byteOf '=' :: value)]) ++
          withoutConfigPath false rest := by
  have htext := toList_decodeLossy_attached flag value
  generalize Utf8.decodeLossy (Utf8.encode flag ++ byteOf '=' :: value) = text at htext
  have hcut := cutAt?_attached h (Utf8.decodeLossy value).toList
  rw [← htext] at hcut
  have hne : text ≠ configPathFlag := by
    rintro rfl
    rw [cutAt?_flag mem_configurationFlags_configPathFlag] at hcut
    cases hcut
  by_cases hpath : flag = configPathFlag
  · have hstarts : text.startsWith (configPathFlag ++ "=") = true := by
      rw [String.startsWith_string_iff, htext, toList_configPathFlag_equals, hpath]
      exact ⟨(Utf8.decodeLossy value).toList, by simp⟩
    rw [withoutConfigPath, hstarts, if_pos hpath]
    simp [hne]
  · rw [if_neg hpath, List.singleton_append]
    apply withoutConfigPath_keep hne
    apply not_prefix_of_cutAt? hcut
    intro rest heq
    apply hpath
    exact String.toList_injective (Prod.mk.inj (Option.some.inj heq)).1

theorem withoutConfigPath_separate (h : flag ∈ configurationFlags)
    (hvalue : ¬Utf8.encode "--" <+: value) (rest : List String) :
    withoutConfigPath false (flag :: Utf8.decodeLossy value :: rest) =
      (if flag = configPathFlag then [] else [flag, Utf8.decodeLossy value]) ++
        withoutConfigPath false rest := by
  by_cases hpath : flag = configPathFlag
  · rw [if_pos hpath, hpath, withoutConfigPath, beq_self_eq_true]
    rfl
  · have hdashes := not_dashes_decodeLossy hvalue
    have hpathDashes :=
      (spelling_of_mem_configurationFlags mem_configurationFlags_configPathFlag).1
    have hne : Utf8.decodeLossy value ≠ configPathFlag := by
      intro heq
      rw [heq] at hdashes
      exact hdashes hpathDashes
    have hflag : ¬(configPathFlag ++ "=").toList <+: flag.toList :=
      not_prefix_of_cutAt? (cutAt?_flag h) fun _ => nofun
    have htext : ¬(configPathFlag ++ "=").toList <+: (Utf8.decodeLossy value).toList := by
      rw [toList_configPathFlag_equals]
      intro hstarts
      exact hdashes ((hpathDashes.trans (List.prefix_append _ _)).trans hstarts)
    rw [if_neg hpath, withoutConfigPath_keep hpath hflag, withoutConfigPath_keep hne htext]
    rfl

/-- What is forwarded of a run are its items, but for those that name a configuration file. -/
theorem withoutConfigPath_decodeLossy (h : SpellOut items tokens)
    (hvalues : ∀ item ∈ items, ¬item.HasDashedValue) :
    withoutConfigPath false (tokens.map Utf8.decodeLossy) =
      ((items.filter FlagItem.isForwarded).flatMap FlagItem.tokens).map Utf8.decodeLossy := by
  obtain ⟨hknown, rfl⟩ := h
  induction items with
  | nil => rfl
  | cons item items ih =>
      obtain ⟨hflag, hitems⟩ := List.forall_mem_cons.mp hknown
      obtain ⟨hvalue, hvalues⟩ := List.forall_mem_cons.mp hvalues
      have hrest := ih hvalues hitems
      cases item <;> simp only [FlagItem.flag] at hflag
      case attached flag value =>
        simp only [List.flatMap_cons, FlagItem.tokens, List.map_cons, List.singleton_append]
        rw [withoutConfigPath_attached hflag, hrest, List.filter_cons]
        simp only [FlagItem.isForwarded, FlagItem.flag]
        by_cases hpath : flag = configPathFlag
        · simp [hpath]
        · simp [hpath, FlagItem.tokens]
      case separate flag value =>
        simp only [List.flatMap_cons, FlagItem.tokens, List.map_cons, List.cons_append,
          List.nil_append, Utf8.decodeLossy_encode]
        rw [withoutConfigPath_separate hflag hvalue, hrest, List.filter_cons]
        simp only [FlagItem.isForwarded, FlagItem.flag]
        by_cases hpath : flag = configPathFlag
        · simp [hpath]
        · simp [hpath, FlagItem.tokens, Utf8.decodeLossy_encode]

/-! ## The flags inside the container -/

theorem flagNeedsValue?_of_not_dashes {name : Bytes} (h : ¬Utf8.encode "--" <+: name) :
    flagNeedsValue? name = none := by
  have hdashes {flag : String} (hflag : flag ∈ configurationFlags) :
      Utf8.encode "--" <+: Utf8.encode flag :=
    Utf8.encode_prefix_encode (spelling_of_mem_configurationFlags hflag).1
  cases hneeds : flagNeedsValue? name with
  | none => rfl
  | some needsValue =>
      obtain ⟨flag, hmem, ⟨-, rfl⟩ | ⟨-, value, rfl⟩⟩ := exists_flag_of_flagNeedsValue? hneeds
      · exact absurd (hdashes hmem) h
      · exact absurd ((hdashes hmem).trans (List.prefix_append _ _)) h

theorem isPrefix_leadingFlags (pending : Bool) (tokens : List Bytes) :
    leadingFlags pending tokens <+: tokens := by
  induction tokens generalizing pending with
  | nil => cases pending <;> exact List.prefix_rfl
  | cons token tokens ih =>
      cases pending with
      | true => exact (List.prefix_cons_inj token).mpr (ih false)
      | false =>
          rw [leadingFlags]
          cases flagNeedsValue? token with
          | none => exact List.nil_prefix
          | some needsValue => exact (List.prefix_cons_inj token).mpr (ih needsValue)

theorem split_cons (program : Bytes) (tokens : List Bytes) :
    split (program :: tokens) =
      ⟨program :: leadingFlags false tokens, (leadingFlags false tokens).length + 1⟩ := rfl

theorem commandArguments_cons (program : Bytes) (tokens : List Bytes) :
    commandArguments (program :: tokens) =
      program :: tokens.drop (leadingFlags false tokens).length := rfl

/-- Items of tokens that are texts are texts again after they were decoded. -/
theorem encode_decodeLossy_filter {texts : List String} {keep : FlagItem → Bool}
    (h : SpellOut items tokens) (htokens : ∀ token ∈ tokens, token ∈ texts.map Utf8.encode) :
    (((items.filter keep).flatMap FlagItem.tokens).map Utf8.decodeLossy).map Utf8.encode =
      (items.filter keep).flatMap FlagItem.tokens := by
  rw [List.map_map]
  refine (List.map_congr_left ?_).trans (List.map_id _)
  intro token htoken
  obtain ⟨item, hitem, htoken⟩ := List.mem_flatMap.mp htoken
  have hmem : token ∈ tokens := by
    rw [h.tokens_eq]
    exact List.mem_flatMap.mpr ⟨item, (List.mem_filter.mp hitem).1, htoken⟩
  obtain ⟨text, -, rfl⟩ := List.mem_map.mp (htokens token hmem)
  rw [Function.comp_apply, Utf8.decodeLossy_encode, id]

/-- The configuration flags that were split off are items in one way only.  If no value of theirs
that is a token of its own begins like a flag, the forwarded flags are these items without those
that name a configuration file, and the split takes off exactly the forwarded flags again, whatever
command follows them. -/
theorem split_forwardedFlags (arguments : List String)
    (hcommand : (split (arguments.map Utf8.encode)).commandStart < arguments.length) :
    (∃! items, SpellOut items ((split (arguments.map Utf8.encode)).configuration.drop 1)) ∧
      ∀ items forwarded,
        SpellOut items ((split (arguments.map Utf8.encode)).configuration.drop 1) →
        (∀ item ∈ items, ¬item.HasDashedValue) →
        forwarded = (forwardedFlags (split (arguments.map Utf8.encode)).configuration).map
          Utf8.encode →
        SpellOut (items.filter FlagItem.isForwarded) forwarded ∧
          ∀ (program name : Bytes) (rest : List Bytes), ¬Utf8.encode "--" <+: name →
            split (program :: forwarded ++ name :: rest) =
                ⟨program :: forwarded, forwarded.length + 1⟩ ∧
              commandArguments (program :: forwarded ++ name :: rest) =
                program :: name :: rest := by
  cases arguments with
  | nil => cases hcommand
  | cons tool texts =>
      rw [List.map_cons, split_cons] at hcommand ⊢
      simp only [List.drop_one, List.tail_cons, forwardedFlags]
      have hlength : (leadingFlags false (texts.map Utf8.encode)).length <
          (texts.map Utf8.encode).length := by
        simpa using hcommand
      obtain ⟨items, hitems⟩ := exists_spellOut_leadingFlags hlength
      constructor
      · exact ⟨items, hitems, fun items' hitems' => hitems'.unique hitems⟩
      intro items forwarded hitems hvalues hforwarded
      have htokens := (isPrefix_leadingFlags false (texts.map Utf8.encode)).subset
      rw [withoutConfigPath_decodeLossy hitems hvalues,
        encode_decodeLossy_filter hitems htokens] at hforwarded
      have hspell : SpellOut (items.filter FlagItem.isForwarded) forwarded :=
        ⟨fun item hitem => hitems.known item (List.mem_filter.mp hitem).1, hforwarded⟩
      refine ⟨hspell, ?_⟩
      intro program name rest hname
      have hleading : leadingFlags false (forwarded ++ name :: rest) = forwarded := by
        rw [leadingFlags_append hspell, leadingFlags, flagNeedsValue?_of_not_dashes hname,
          List.append_nil]
      rw [List.cons_append, split_cons, commandArguments_cons, hleading, List.drop_left]
      exact ⟨rfl, rfl⟩

/-- Of a command line with every kind of item, the container gets the flags but those that name a
configuration file, and splits off the same. -/
theorem split_forwardedFlags_shell :
    split (["stackctl", "--test-command", "pytest -x", "--log-filter=debug", "shell"].map
        Utf8.encode) =
      ⟨["stackctl", "--test-command", "pytest -x", "--log-filter=debug"].map Utf8.encode, 4⟩ := by
  have hspell : SpellOut
      [.separate "--config-path" (Utf8.encode "me.toml"),
        .separate "--test-command" (Utf8.encode "pytest -x"),
        .attached "--config-path" (Utf8.encode "etc.toml"),
        .attached "--log-filter" (Utf8.encode "debug")]
      ((split (["stackctl", "--config-path", "me.toml", "--test-command", "pytest -x",
        "--config-path=etc.toml", "--log-filter=debug", "shell"].map
          Utf8.encode)).configuration.drop 1) :=
    ⟨by decide +kernel, by decide +kernel⟩
  obtain ⟨-, hforwarded⟩ := split_forwardedFlags
    ["stackctl", "--config-path", "me.toml", "--test-command", "pytest -x",
      "--config-path=etc.toml", "--log-filter=debug", "shell"] (by decide +kernel)
  obtain ⟨-, hsplit⟩ := hforwarded _
    (["--test-command", "pytest -x", "--log-filter=debug"].map Utf8.encode) hspell
    (by decide +kernel) (by decide +kernel)
  exact (hsplit (Utf8.encode "stackctl") (Utf8.encode "shell") [] (by decide +kernel)).1

end StackControl.Arguments
