import StackControl.Proofs.Arguments.Flags

/-!
# The longest run of configuration flags

The split cuts a command line in front of the first token that can begin no configuration flag.
What it takes is the longest prefix that consists of flags with their values; only where the
command line ends right after a flag does that flag go without one.  So the cut depends on nothing
behind that token, and neither part is cut again when it is split once more.
-/

namespace StackControl.Arguments

variable {tokens front rest : List Bytes}

/-- A prefix of tokens that is made of flags with their values, and may end with a flag alone if
the tokens end there. -/
inductive FlagPrefix (tokens : List Bytes) : List Bytes → Prop
  | items {items : List FlagItem} {run : List Bytes} :
      SpellOut items run → run <+: tokens → FlagPrefix tokens run
  | dangling {items : List FlagItem} {run : List Bytes} {flag : String} :
      SpellOut items run → flag ∈ configurationFlags → tokens = run ++ [Utf8.encode flag] →
        FlagPrefix tokens tokens

theorem leadingFlags_flag {flag : String} (h : flag ∈ configurationFlags) :
    leadingFlags false [Utf8.encode flag] = [Utf8.encode flag] := by
  simp [leadingFlags, flagNeedsValue?_flag h]

/-- The split takes at least every such prefix. -/
theorem FlagPrefix.isPrefix_leadingFlags (h : FlagPrefix tokens front) :
    front <+: leadingFlags false tokens := by
  cases h with
  | items hrun hprefix =>
      obtain ⟨rest, rfl⟩ := hprefix
      rw [leadingFlags_append hrun]
      exact List.prefix_append _ _
  | dangling hrun hflag htokens =>
      refine ⟨[], ?_⟩
      rw [htokens, leadingFlags_append hrun, leadingFlags_flag hflag, List.append_nil]

theorem FlagPrefix.self (h : FlagPrefix tokens front) : FlagPrefix front front := by
  cases h with
  | items hrun => exact .items hrun List.prefix_rfl
  | dangling hrun hflag htokens => exact .dangling hrun hflag htokens

/-- What the split takes is such a prefix itself, and what it leaves begins with no flag. -/
theorem exists_leadingFlags_append (tokens : List Bytes) :
    ∃ rest, tokens = leadingFlags false tokens ++ rest ∧ leadingFlags false rest = [] ∧
      FlagPrefix tokens (leadingFlags false tokens) := by
  obtain ⟨items, run, rest, hrun, rfl, hrest⟩ := exists_run tokens
  rw [leadingFlags_append hrun]
  rcases hrest with rfl | ⟨flag, hflag, rfl⟩ | ⟨token, others, rfl, hnone⟩
  · simp only [leadingFlags, List.append_nil]
    exact ⟨[], (List.append_nil run).symm, rfl, .items hrun List.prefix_rfl⟩
  · rw [leadingFlags_flag hflag]
    exact ⟨[], (List.append_nil _).symm, rfl, .dangling hrun hflag rfl⟩
  · have hstops : leadingFlags false (token :: others) = [] := by
      rw [leadingFlags, hnone]
    rw [hstops, List.append_nil]
    exact ⟨token :: others, rfl, hstops, .items hrun (List.prefix_append _ _)⟩

theorem leadingFlags_leadingFlags (tokens : List Bytes) :
    leadingFlags false (leadingFlags false tokens) = leadingFlags false tokens := by
  obtain ⟨rest, -, -, hprefix⟩ := exists_leadingFlags_append tokens
  have hshort := isPrefix_leadingFlags false (leadingFlags false tokens)
  have hlong := hprefix.self.isPrefix_leadingFlags
  exact hshort.eq_of_length_le hlong.length_le

/-- A token that begins no flag stops the split, whatever stands behind it. -/
theorem leadingFlags_eq_nil_of_cons {stop : Bytes} {others : List Bytes}
    (h : leadingFlags false (stop :: others) = []) (others' : List Bytes) :
    leadingFlags false (stop :: others') = [] := by
  rw [leadingFlags] at h ⊢
  cases hstop : flagNeedsValue? stop with
  | none => rfl
  | some needsValue =>
      rw [hstop] at h
      cases h

/-- So what stands behind such a token may be replaced. -/
theorem leadingFlags_append_stop {stop : Bytes} {others : List Bytes}
    (htokens : tokens = leadingFlags false tokens ++ stop :: others)
    (hstops : leadingFlags false (stop :: others) = []) (others' : List Bytes) :
    leadingFlags false (leadingFlags false tokens ++ stop :: others') =
      leadingFlags false tokens := by
  have hlength : (leadingFlags false tokens).length < tokens.length := by
    conv_rhs => rw [htokens]
    simp
  obtain ⟨items, hitems⟩ := exists_spellOut_leadingFlags hlength
  rw [leadingFlags_append hitems, leadingFlags_eq_nil_of_cons hstops, List.append_nil]

/-- The split loses and reorders nothing: what it takes and what it leaves are the command line,
and neither changes when it is split again.  It takes the longest prefix that is made of flags with
their values, and a flag at the very end; the tokens behind the one that stops it do not matter. -/
theorem split_takes_longest_run (program : Bytes) (tokens : List Bytes) :
    let parts := split (program :: tokens)
    parts.configuration ++ (program :: tokens).drop parts.commandStart = program :: tokens ∧
      parts.commandStart = parts.configuration.length ∧
      commandArguments (program :: tokens) =
        program :: (program :: tokens).drop parts.commandStart ∧
      split parts.configuration = parts ∧
      split (commandArguments (program :: tokens)) = ⟨[program], 1⟩ ∧
      (∃ flags, parts.configuration = program :: flags ∧ FlagPrefix tokens flags ∧
        ∀ front, FlagPrefix tokens front → front <+: flags) ∧
      ∀ stop others others', (program :: tokens).drop parts.commandStart = stop :: others →
        (split (parts.configuration ++ stop :: others')).configuration = parts.configuration := by
  obtain ⟨rest, htokens, hrest, hprefix⟩ := exists_leadingFlags_append tokens
  have hlongest (front : List Bytes) (h : FlagPrefix tokens front) :
      front <+: leadingFlags false tokens :=
    h.isPrefix_leadingFlags
  have hidempotent := leadingFlags_leadingFlags tokens
  have hstop {stop : Bytes} {others : List Bytes} (others' : List Bytes)
      (h : rest = stop :: others) :
      leadingFlags false (leadingFlags false tokens ++ stop :: others') =
        leadingFlags false tokens :=
    leadingFlags_append_stop (h ▸ htokens) (h ▸ hrest) others'
  intro parts
  simp only [parts, split_cons, commandArguments_cons, List.drop_succ_cons, List.cons_append]
  generalize leadingFlags false tokens = flags at htokens hprefix hlongest hidempotent hstop
  subst htokens
  simp only [List.drop_left]
  rw [hidempotent, hrest]
  refine ⟨trivial, rfl, trivial, rfl, rfl, ⟨flags, rfl, hprefix, hlongest⟩, ?_⟩
  intro stop others others' hothers
  rw [hstop others' hothers]

/-- Behind a flag with its value, `up` stops the split, and another argument of `up` makes no
difference. -/
theorem split_stops_at_up :
    (split (["stackctl", "--engine", "--log-filter=x", "up", "down"].map
        Utf8.encode)).configuration =
      ["stackctl", "--engine", "--log-filter=x"].map Utf8.encode := by
  have hparts : split (["stackctl", "--engine", "--log-filter=x", "up", "--rebuild"].map
      Utf8.encode) = ⟨["stackctl", "--engine", "--log-filter=x"].map Utf8.encode, 3⟩ := by
    decide +kernel
  have hrun := split_takes_longest_run (Utf8.encode "stackctl")
    (["--engine", "--log-filter=x", "up", "--rebuild"].map Utf8.encode)
  rw [← List.map_cons, hparts] at hrun
  exact hrun.2.2.2.2.2.2 (Utf8.encode "up") [Utf8.encode "--rebuild"] [Utf8.encode "down"] rfl

end StackControl.Arguments
