import StackControl.Proofs.Text.Spacing
import StackControl.Runner

/-!
# Configured command lines and their text

The text that displays a command line has the words of the configured text, with single spaces
between them and nothing around them.  It is therefore read as the same command line again, and two
texts are the same command line exactly when they have the same words.
-/

namespace StackControl.CommandLine

open Text (IsTrimmed words)

variable {raw : String} {line : CommandLine}

theorem parse?_eq_none_iff : parse? raw = none ↔ ∀ c ∈ raw.toList, Text.isBlank c = true := by
  rw [← Text.words_eq_nil_iff, parse?]
  cases words raw.toList <;> simp

theorem exists_parse?_iff :
    (∃ line, parse? raw = some line) ↔ ∃ c ∈ raw.toList, Text.isBlank c = false := by
  rw [← Option.ne_none_iff_exists', ne_eq, parse?_eq_none_iff]
  simp

theorem words_of_parse? (h : parse? raw = some line) :
    (line.program :: line.arguments).map String.toList = words raw.toList := by
  unfold parse? at h
  cases hwords : words raw.toList with
  | nil =>
      rw [hwords] at h
      cases h
  | cons program arguments =>
      rw [hwords] at h
      rw [← Option.some.inj h]
      simp

theorem parse?_eq_some_iff :
    parse? raw = some line ↔
      (line.program :: line.arguments).map String.toList = words raw.toList := by
  constructor
  · exact words_of_parse?
  · intro h
    simp [parse?, ← h]

theorem isWord_of_parse? (h : parse? raw = some line) :
    ∀ word ∈ line.program :: line.arguments, Text.IsWord word.toList := by
  intro word hword
  have hmem : word.toList ∈ Text.words raw.toList := by
    rw [← words_of_parse? h]
    exact List.mem_map_of_mem hword
  exact Text.isWord_of_mem_words hmem

theorem toList_display (h : parse? raw = some line) :
    line.display.toList = [' '].intercalate (words raw.toList) := by
  rw [display, String.toList_intercalate, words_of_parse? h]
  rfl

theorem isTrimmed_display (h : parse? raw = some line) : IsTrimmed line.display.toList := by
  have hne : words raw.toList ≠ [] := by
    rw [← words_of_parse? h]
    exact List.cons_ne_nil _ _
  rw [toList_display h]
  exact (Text.isTrimmed_intercalate hne fun _ => Text.isWord_of_mem_words).2

/-- A command occurs in the text that displays it only if it is that text. -/
theorem infix_display_iff (h : parse? raw = some line) :
    raw.toList <:+: line.display.toList ↔ raw = line.display := by
  constructor
  · intro hoccurs
    apply String.toList_injective
    apply Text.eq_of_infix hoccurs (isTrimmed_display h)
    rw [toList_display h, Text.withoutBlanks_intercalate, Text.flatten_words]
    exact (List.filter_eq_self.mpr fun _ hc => (List.mem_filter.mp hc).2).symm
  · intro heq
    refine ⟨[], [], ?_⟩
    rw [List.nil_append, List.append_nil, heq]

theorem parse?_display (h : parse? raw = some line) : parse? line.display = some line := by
  rw [parse?_eq_some_iff, toList_display h, words_of_parse? h, Text.words_intercalate]
  exact fun _ => Text.isWord_of_mem_words

/-- Two texts are the same command line when they have the same words. -/
theorem parse?_congr_iff {raw' : String} :
    (∀ line, parse? raw = some line ↔ parse? raw' = some line) ↔
      words raw.toList = words raw'.toList := by
  constructor
  · intro h
    cases hraw : parse? raw with
    | none =>
        have hraw' : parse? raw' = none :=
          Option.eq_none_iff_forall_ne_some.mpr fun line hline => by
            simp [(h line).mpr hline] at hraw
        rw [Text.words_eq_nil_iff.mpr (parse?_eq_none_iff.mp hraw),
          Text.words_eq_nil_iff.mpr (parse?_eq_none_iff.mp hraw')]
    | some line => rw [← words_of_parse? hraw, words_of_parse? ((h line).mp hraw)]
  · intro h line
    rw [parse?_eq_some_iff, parse?_eq_some_iff, h]

end StackControl.CommandLine

namespace StackControl.Runner

open Text (isBlank runs withoutBlanks Spaced)

variable {raw : String} {line : CommandLine}

theorem commandLine_eq_ok_iff : commandLine raw = .ok line ↔ CommandLine.parse? raw = some line := by
  unfold commandLine
  cases CommandLine.parse? raw <;> simp

theorem commandLine_eq_error_iff :
    commandLine raw = .error (.emptyCommand raw) ↔ CommandLine.parse? raw = none := by
  unfold commandLine
  cases CommandLine.parse? raw <;> simp

/-- A text is no command exactly when it is blank.  Any other is read as its words: they are what it
holds without its blanks, there is a blank between any two of them, and the text that displays them
is read as the same command.  Two texts are read alike when they have the same maximal runs without
a blank. -/
theorem commandLine_splits_and_displays (raw : String) :
    (commandLine raw = .error (.emptyCommand raw) ↔ ∀ c ∈ raw.toList, isBlank c = true) ∧
      ((∃ c ∈ raw.toList, isBlank c = false) → ∃ line, commandLine raw = .ok line ∧
        (∀ word ∈ line.program :: line.arguments,
          word ≠ "" ∧ ∀ c ∈ word.toList, isBlank c = false) ∧
        String.join (line.program :: line.arguments) = String.ofList (withoutBlanks raw.toList) ∧
        Spaced ((line.program :: line.arguments).map String.toList) raw.toList ∧
        commandLine line.display = .ok line) ∧
      ∀ raw', (∀ line, commandLine raw = .ok line ↔ commandLine raw' = .ok line) ↔
        runs raw.toList = runs raw'.toList := by
  refine ⟨commandLine_eq_error_iff.trans CommandLine.parse?_eq_none_iff, ?_, ?_⟩
  · intro hsolid
    obtain ⟨line, hparse⟩ := CommandLine.exists_parse?_iff.mpr hsolid
    have hwords := CommandLine.words_of_parse? hparse
    refine ⟨line, commandLine_eq_ok_iff.mpr hparse, ?_, ?_, ?_, ?_⟩
    · intro word hword
      have hsolid := CommandLine.isWord_of_parse? hparse word hword
      refine ⟨?_, hsolid.solid⟩
      rintro rfl
      exact hsolid.ne_nil rfl
    · rw [← Text.flatten_words, ← hwords]
      apply String.toList_injective
      simp [List.flatMap_def]
    · rw [hwords]
      exact Text.spaced_words _
    · exact commandLine_eq_ok_iff.mpr (CommandLine.parse?_display hparse)
  · intro raw'
    simp only [commandLine_eq_ok_iff, ← Text.words_eq_runs]
    exact CommandLine.parse?_congr_iff

/-- A command with a no-break space, an ideographic space and a tab keeps its three words. -/
theorem commandLine_mixed_blanks :
    ∃ line, commandLine "\u00a0python3\u3000 -m\tproxy\n" = .ok line ∧
      String.join (line.program :: line.arguments) = "python3-mproxy" ∧
      commandLine line.display = .ok line := by
  obtain ⟨line, hline, -, hjoin, -, hdisplay⟩ :=
    (commandLine_splits_and_displays "\u00a0python3\u3000 -m\tproxy\n").2.1
      ⟨'p', by decide, by decide⟩
  exact ⟨line, hline, hjoin, hdisplay⟩

end StackControl.Runner
