import StackControl.Proofs.Text.Number
import StackControl.Proofs.Text.Replacement
import StackControl.Proofs.Text.Search
import StackControl.Proofs.Text.Words
import StackControl.Reaper.Listing

/-!
# Reading process listings

A row that shows a process is read as that process, however its columns are padded.  A listing is
searched row by row: a process is found in it if a row shows it, it is another one, and a pattern
occurs in its command line.
-/

namespace StackControl.Reaper

open Text (IsTrimmed)

variable {listing pattern : String} {patterns : List String} {ownPid : Nat}
  {handle : ProcessHandle} {row : List Char}

/-- A row shows a process: blanks, its number in decimal, at least one blank, its command line. -/
def IsRowOf (handle : ProcessHandle) (row : List Char) : Prop :=
  ∃ indent gap : List Char,
    (∀ c ∈ indent, Text.isBlank c = true) ∧ (∀ c ∈ gap, Text.isBlank c = true) ∧ gap ≠ [] ∧
      row = indent ++ (handle.pid.toNat.repr.toList ++ gap ++ handle.commandLine.toList)

/-- A listing shows a process if one of its lines does. -/
def Shows (listing : String) (handle : ProcessHandle) : Prop :=
  ∃ row ∈ Text.lines listing.toList, IsRowOf handle row

/-- A row with its columns padded as usual shows its process. -/
theorem shows_indented {listing line : String} {pid : UInt32}
    (h : "   ".toList ++ (pid.toNat.repr.toList ++ " ".toList ++ line.toList) ∈
      Text.lines listing.toList) :
    Shows listing ⟨pid, line⟩ := by
  refine ⟨_, h, _, _, ?_, ?_, by simp, rfl⟩
  · exact List.all_eq_true.mp (by decide)
  · exact List.all_eq_true.mp (by decide)

/-! ## Single rows -/

theorem isBlank_of_isDigit {c : Char} (h : c.isDigit = true) : Text.isBlank c = false := by
  have hrange := Char.isDigit_iff_toNat.mp h
  have hlow : '0'.toNat = 48 := rfl
  have hhigh : '9'.toNat = 57 := rfl
  simp only [Text.isBlank, Bool.or_eq_false_iff, Bool.and_eq_false_iff, decide_eq_false_iff_not,
    beq_eq_false_iff_ne]
  omega

theorem pid?_repr (pid : UInt32) : pid? pid.toNat.repr.toList = some pid := by
  have hle : pid.toNat ≤ Text.maxUnsigned 32 := by
    have hlt : pid.toNat < 2 ^ 32 := pid.toNat_lt
    have hmax : Text.maxUnsigned 32 = 2 ^ 32 - 1 := rfl
    omega
  rw [pid?, Nat.toList_repr, Text.natural?_toDigits hle, Option.map_some, UInt32.ofNat_toNat]

/-- A row is read as the process that it shows, with its command line trimmed. -/
theorem handleOf?_of_isRowOf (h : IsRowOf handle row) :
    handleOf? row = some ⟨handle.pid, Text.trimmed handle.commandLine⟩ := by
  obtain ⟨indent, gap, hindent, hgap, hne, rfl⟩ := h
  have hsolid : ∀ c ∈ handle.pid.toNat.repr.toList, Text.isBlank c = false := by
    intro c hc
    rw [Nat.toList_repr] at hc
    exact isBlank_of_isDigit (Nat.isDigit_of_mem_toDigits (by omega) (by omega) hc)
  have hdigits : handle.pid.toNat.repr.toList ≠ [] := by
    rw [Nat.toList_repr]
    exact Nat.toDigits_ne_nil
  obtain ⟨b, gap, rfl⟩ := List.exists_cons_of_ne_nil hne
  obtain ⟨hb, hgap⟩ := List.forall_mem_cons.mp hgap
  have hstart : Text.trimStart (indent ++
      (handle.pid.toNat.repr.toList ++ b :: gap ++ handle.commandLine.toList)) =
        handle.pid.toNat.repr.toList ++ b :: (gap ++ handle.commandLine.toList) := by
    rw [List.append_assoc, List.cons_append]
    apply Text.trimStart_append hindent
    intro c hc
    rw [List.head?_append_of_ne_nil _ hdigits] at hc
    exact hsolid c (List.mem_of_mem_head? hc)
  have hcut : Text.cutAt? Text.isBlank
      (handle.pid.toNat.repr.toList ++ b :: (gap ++ handle.commandLine.toList)) =
        some (handle.pid.toNat.repr.toList, gap ++ handle.commandLine.toList) :=
    Text.cutAt?_eq_some_iff.mpr ⟨b, hb, hsolid, rfl⟩
  simp only [handleOf?, hstart, hcut, Option.bind_eq_bind, Option.bind_some, pid?_repr,
    Text.trim_append_of_blank hgap, Text.trimmed, Option.pure_def]

/-- A command line that is read is a part of its row. -/
theorem sublist_of_handleOf? (h : handleOf? row = some handle) :
    handle.commandLine.toList.Sublist row := by
  simp only [handleOf?, Option.bind_eq_bind, Option.bind_eq_some_iff] at h
  obtain ⟨⟨number, rest⟩, hcut, pid, -, hhandle⟩ := h
  obtain ⟨c, -, -, hrow⟩ := Text.cutAt?_eq_some_iff.mp hcut
  have hrest : rest.Sublist row := by
    have hstart : (Text.trimStart row).Sublist row := List.dropWhile_sublist Text.isBlank
    rw [hrow] at hstart
    exact ((List.sublist_cons_self c rest).trans (List.sublist_append_right number _)).trans hstart
  rw [← Option.some.inj hhandle, String.toList_ofList]
  exact (Text.sublist_trim rest).trans hrest

/-! ## Searches -/

theorem ProcessHandle.matchesPattern_iff :
    handle.matchesPattern pattern = true ↔
      pattern ≠ "" ∧ pattern.toList <:+: handle.commandLine.toList := by
  simp [matchesPattern, Text.contains_iff_infix]

theorem ProcessHandle.matchesAny_iff :
    handle.matchesAny patterns = true ↔
      ∃ pattern ∈ patterns, pattern ≠ "" ∧ pattern.toList <:+: handle.commandLine.toList := by
  simp [matchesAny, matchesPattern_iff]

theorem mem_matching_iff :
    handle ∈ matching listing patterns ownPid ↔
      (∃ row ∈ Text.lines listing.toList, handleOf? row = some handle) ∧
        handle.pid.toNat ≠ ownPid ∧ handle.matchesAny patterns = true := by
  simp only [matching, List.mem_filter, List.mem_filterMap, bne_iff_ne, and_assoc]

/-- A process that a listing shows is found, by its trimmed command line, exactly if a pattern
selects it. -/
theorem trimmed_mem_matching_iff (h : Shows listing handle) (hother : handle.pid.toNat ≠ ownPid) :
    ⟨handle.pid, Text.trimmed handle.commandLine⟩ ∈ matching listing patterns ownPid ↔
      (⟨handle.pid, Text.trimmed handle.commandLine⟩ : ProcessHandle).matchesAny patterns =
        true := by
  obtain ⟨row, hrow, hshows⟩ := h
  rw [mem_matching_iff]
  exact ⟨fun h => h.2.2, fun h => ⟨⟨row, hrow, handleOf?_of_isRowOf hshows⟩, hother, h⟩⟩

theorem mem_matching_of_shows (h : Shows listing handle)
    (htrimmed : IsTrimmed handle.commandLine.toList) (hother : handle.pid.toNat ≠ ownPid)
    (hmatches : handle.matchesAny patterns = true) :
    handle ∈ matching listing patterns ownPid := by
  have hline : Text.trimmed handle.commandLine = handle.commandLine := by
    rw [Text.trimmed, Text.trim_of_isTrimmed htrimmed, String.ofList_toList]
  have hfound := (trimmed_mem_matching_iff h hother).mpr (by rwa [hline])
  rwa [hline] at hfound

/-- No command line of a listing breaks into lines. -/
theorem newline_notMem_commandLine (h : handle ∈ matching listing patterns ownPid) :
    '\n' ∉ handle.commandLine.toList := by
  obtain ⟨⟨row, hrow, hhandle⟩, -, -⟩ := mem_matching_iff.mp h
  intro hmem
  exact Text.newline_notMem_of_mem_lines hrow ((sublist_of_handleOf? hhandle).subset hmem)

end StackControl.Reaper
