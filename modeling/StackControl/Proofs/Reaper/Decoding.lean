import Mathlib.Data.List.Infix
import Mathlib.Data.List.TakeWhile
import StackControl.Proofs.Reaper.Listing

/-!
# Decoding process listings

A listing is decoded row by row.  Rows that show processes give these processes, in order, and rows
that show none give nothing, wherever they stand; so a search of a listing is a selection among the
processes that it was printed from.
-/

namespace StackControl.Reaper

open Text (IsTrimmed IsWord Spells withoutReturn)

variable {patterns : List String} {ownPid : Nat} {handle : ProcessHandle}
  {handles : List ProcessHandle} {row : List Char} {rows : List (List Char)}

/-- A row that shows no process: it is blank, or its first field is the last thing in it or no
process number. -/
inductive IsStray : List Char → Prop
  | blank {row : List Char} : (∀ c ∈ row, Text.isBlank c = true) → IsStray row
  | alone {indent field : List Char} :
      (∀ c ∈ indent, Text.isBlank c = true) → IsWord field → IsStray (indent ++ field)
  | unnumbered {indent field rest : List Char} {gap : Char} :
      (∀ c ∈ indent, Text.isBlank c = true) → IsWord field → Text.isBlank gap = true →
        (∀ n, Spells n field → UInt32.size ≤ n) → IsStray (indent ++ (field ++ gap :: rest))

/-- The rows of a listing of processes, among which there may be others. -/
inductive Lists : List (List Char) → List ProcessHandle → Prop
  | nil : Lists [] []
  | process {handle : ProcessHandle} {handles : List ProcessHandle} {row : List Char}
      {rows : List (List Char)} :
      IsRowOf handle row → Lists rows handles → Lists (row :: rows) (handle :: handles)
  | stray {handles : List ProcessHandle} {row : List Char} {rows : List (List Char)} :
      IsStray row → Lists rows handles → Lists (row :: rows) handles

/-- The text of a listing: its rows, with a line feed between them and perhaps one at the end. -/
def listingOf (rows : List (List Char)) (ended : Bool) : String :=
  String.ofList (['\n'].intercalate rows ++ if ended then ['\n'] else [])

/-- What a search selects: other processes with a pattern in their command line. -/
def Selected (patterns : List String) (ownPid : Nat) (handle : ProcessHandle) : Prop :=
  handle.pid.toNat ≠ ownPid ∧
    ∃ pattern ∈ patterns, pattern ≠ "" ∧ pattern.toList <:+: handle.commandLine.toList

instance : DecidablePred (Selected patterns ownPid) := fun _ =>
  inferInstanceAs (Decidable (_ ∧ _))

/-! ## Single rows -/

/-- The process of a row, if the row shows one that is selected. -/
def selectedOf? (patterns : List String) (ownPid : Nat) (row : List Char) :
    Option ProcessHandle :=
  (handleOf? row).filter (Selected patterns ownPid)

/-- What has no command line is never selected. -/
theorem not_selected_of_empty (pid : UInt32) : ¬Selected patterns ownPid ⟨pid, ""⟩ := by
  rintro ⟨-, pattern, -, hne, hinfix⟩
  exact hne (String.toList_eq_nil_iff.mp (List.infix_nil.mp hinfix))

theorem pid?_eq_none {field : List Char} (h : ∀ n, Spells n field → UInt32.size ≤ n) :
    pid? field = none := by
  rw [pid?, Option.map_eq_none_iff, Option.eq_none_iff_forall_ne_some]
  intro n hread
  obtain ⟨hspells, hle⟩ := Text.natural?_eq_some_iff.mp hread
  have hmax : Text.maxUnsigned 32 < UInt32.size := by decide
  exact absurd (Nat.le_trans (h n hspells) hle) (Nat.not_le.mpr hmax)

theorem handleOf?_of_isStray (h : IsStray row) : handleOf? row = none := by
  cases h with
  | blank hblank =>
      have hstart : Text.trimStart row = [] := List.dropWhile_eq_nil_iff.mpr hblank
      rw [handleOf?, hstart]
      rfl
  | alone hindent hfield =>
      rw [handleOf?, Text.trimStart_append hindent hfield.isTrimmed.head,
        Text.cutAt?_eq_none_iff.mpr hfield.solid]
      rfl
  | @unnumbered indent field rest gap hindent hfield hgap hnumber =>
      have hhead : ∀ c ∈ (field ++ gap :: rest).head?, Text.isBlank c = false := by
        rw [List.head?_append_of_ne_nil _ hfield.ne_nil]
        exact hfield.isTrimmed.head
      have hcut : Text.cutAt? Text.isBlank (field ++ gap :: rest) = some (field, rest) :=
        Text.cutAt?_eq_some_iff.mpr ⟨gap, hgap, hfield.solid, rfl⟩
      rw [handleOf?, Text.trimStart_append hindent hhead, hcut]
      simp only [Option.bind_eq_bind, Option.bind_some, pid?_eq_none hnumber, Option.bind_none]

/-- A carriage return at the end of a row does not matter: at most it shows a process without a
command line. -/
theorem selectedOf?_append_return (row : List Char) :
    selectedOf? patterns ownPid (row ++ ['\r']) = selectedOf? patterns ownPid row := by
  have hreturn : ∀ c ∈ ['\r'], Text.isBlank c = true := by simp; decide
  simp only [selectedOf?, handleOf?, Text.trimStart, List.dropWhile_append]
  generalize row.dropWhile Text.isBlank = start
  by_cases hempty : start = []
  · subst hempty
    rfl
  rw [if_neg (by simpa using hempty)]
  rcases hcut : Text.cutAt? Text.isBlank start with _ | ⟨number, rest⟩
  · have hsolid := Text.cutAt?_eq_none_iff.mp hcut
    have hcut' : Text.cutAt? Text.isBlank (start ++ ['\r']) = some (start, []) :=
      Text.cutAt?_eq_some_iff.mpr ⟨'\r', hreturn _ (by simp), hsolid, rfl⟩
    rw [hcut']
    cases hpid : pid? start with
    | none => simp [hpid]
    | some pid =>
        have hempty : Text.trim [] = [] := rfl
        simp only [hpid, Option.bind_eq_bind, Option.bind_some, Option.bind_none, Option.pure_def,
          hempty, String.ofList_nil, Option.filter_none]
        exact if_neg (by simpa using not_selected_of_empty pid)
  · obtain ⟨gap, hgap, hsolid, hstart⟩ := Text.cutAt?_eq_some_iff.mp hcut
    have hcut' : Text.cutAt? Text.isBlank (start ++ ['\r']) = some (number, rest ++ ['\r']) :=
      Text.cutAt?_eq_some_iff.mpr ⟨gap, hgap, hsolid, by simp [hstart]⟩
    simp only [hcut', Option.bind_eq_bind, Option.bind_some, Text.trim_append_blank hreturn]

theorem selectedOf?_withoutReturn (row : List Char) :
    selectedOf? patterns ownPid (withoutReturn row) = selectedOf? patterns ownPid row := by
  rcases Text.withoutReturn_eq_or row with heq | heq
  · rw [heq]
  · conv_rhs => rw [heq, selectedOf?_append_return]

/-! ## Whole listings -/

theorem matching_eq (listing : String) :
    matching listing patterns ownPid =
      (Text.lines listing.toList).filterMap (selectedOf? patterns ownPid) := by
  have hselected (handle : ProcessHandle) :
      (handle.pid.toNat != ownPid && handle.matchesAny patterns) =
        decide (Selected patterns ownPid handle) := by
    rw [Bool.eq_iff_iff, Bool.and_eq_true, bne_iff_ne, ProcessHandle.matchesAny_iff,
      decide_eq_true_iff]
    exact Iff.rfl
  rw [matching, List.filter_filter, List.filter_filterMap]
  refine List.filterMap_congr fun row _ => ?_
  rw [selectedOf?]
  congr 1
  funext handle
  rw [← hselected, Bool.and_comm]

/-- The rows that a listing was made of are the rows that count in it. -/
theorem matching_listingOf (h : ∀ row ∈ rows, '\n' ∉ row) (ended : Bool) :
    matching (listingOf rows ended) patterns ownPid =
      rows.filterMap (selectedOf? patterns ownPid) := by
  rw [matching_eq, listingOf, String.toList_ofList]
  induction rows with
  | nil => cases ended <;> rfl
  | cons row rows ih =>
      obtain ⟨hrow, hrows⟩ := List.forall_mem_cons.mp h
      cases rows with
      | nil =>
          rw [List.intercalate_singleton]
          cases ended with
          | true =>
              rw [if_pos rfl, Text.lines_append_newline hrow]
              simp only [List.filterMap_cons, selectedOf?_withoutReturn]
              rfl
          | false =>
              rw [if_neg Bool.false_ne_true, List.append_nil]
              by_cases hempty : row = []
              · subst hempty
                rfl
              · rw [Text.lines_of_newline_notMem hempty hrow]
      | cons row' rows =>
          rw [List.intercalate_cons_cons, List.append_assoc, List.append_assoc,
            List.singleton_append, Text.lines_append_newline hrow, List.filterMap_cons,
            List.filterMap_cons, selectedOf?_withoutReturn, ih hrows]

theorem selectedOf?_of_isStray (h : IsStray row) : selectedOf? patterns ownPid row = none := by
  rw [selectedOf?, handleOf?_of_isStray h, Option.filter_none]

theorem selectedOf?_of_isRowOf (h : IsRowOf handle row)
    (htrimmed : IsTrimmed handle.commandLine.toList) :
    selectedOf? patterns ownPid row =
      if Selected patterns ownPid handle then some handle else none := by
  have hline : Text.trimmed handle.commandLine = handle.commandLine := by
    rw [Text.trimmed, Text.trim_of_isTrimmed htrimmed, String.ofList_toList]
  rw [selectedOf?, handleOf?_of_isRowOf h, hline, Option.filter_some]
  simp only [decide_eq_true_eq]

theorem Lists.filterMap_selectedOf? (h : Lists rows handles)
    (htrimmed : ∀ handle ∈ handles, IsTrimmed handle.commandLine.toList) :
    rows.filterMap (selectedOf? patterns ownPid) =
      handles.filter (Selected patterns ownPid) := by
  induction h with
  | nil => rfl
  | @process handle handles row rows hrow _ ih =>
      obtain ⟨hhandle, hhandles⟩ := List.forall_mem_cons.mp htrimmed
      rw [List.filterMap_cons, selectedOf?_of_isRowOf hrow hhandle, ih hhandles]
      by_cases hselected : Selected patterns ownPid handle
      · rw [if_pos hselected, List.filter_cons_of_pos (by simpa using hselected)]
      · rw [if_neg hselected, List.filter_cons_of_neg (by simpa using hselected)]
  | stray hrow _ ih =>
      rw [List.filterMap_cons, selectedOf?_of_isStray hrow]
      exact ih htrimmed

/-- A search of a listing finds, among the processes that its rows show, exactly those selected, in
their order and as they are; and a row that shows none can be put in anywhere. -/
theorem listing_decoded (h : Lists rows handles) (hrows : ∀ row ∈ rows, '\n' ∉ row)
    (htrimmed : ∀ handle ∈ handles, IsTrimmed handle.commandLine.toList)
    (patterns : List String) (ownPid : Nat) (ended : Bool) :
    matching (listingOf rows ended) patterns ownPid =
        handles.filter (Selected patterns ownPid) ∧
      ∀ before after stray, rows = before ++ after → IsStray stray → '\n' ∉ stray →
        matching (listingOf (before ++ stray :: after) ended) patterns ownPid =
          matching (listingOf rows ended) patterns ownPid := by
  refine ⟨(matching_listingOf hrows ended).trans (h.filterMap_selectedOf? htrimmed), ?_⟩
  rintro before after stray rfl hstray hline
  obtain ⟨hbefore, hafter⟩ := List.forall_mem_append.mp hrows
  have hall : ∀ row ∈ before ++ stray :: after, '\n' ∉ row :=
    List.forall_mem_append.mpr ⟨hbefore, List.forall_mem_cons.mpr ⟨hline, hafter⟩⟩
  rw [matching_listingOf hrows, matching_listingOf hall, List.filterMap_append,
    List.filterMap_append, List.filterMap_cons, selectedOf?_of_isStray hstray]

/-- Neither a word alone nor a blank row nor a row that begins with no number comes between a search
and the one process that its patterns select; the other one is the process that asks. -/
theorem decoded_among_strays :
    let listing := listingOf ["garbage".toList, [], "   7 python3 -m proxy".toList,
      " 9  python3 -m proxy".toList] true
    listing = "garbage\n\n   7 python3 -m proxy\n 9  python3 -m proxy\n" ∧
      matching listing ["", "-m proxy"] 9 = [⟨7, "python3 -m proxy"⟩] ∧
      matching "garbage\n\n   7 python3 -m proxy\nx8 -m proxy\n 9  python3 -m proxy\n"
          ["", "-m proxy"] 9 =
        matching listing ["", "-m proxy"] 9 := by
  have hword (field : List Char) (hne : field ≠ [])
      (hsolid : field.all (!Text.isBlank ·) = true) : IsWord field :=
    ⟨hne, fun c hc => by simpa using List.all_eq_true.mp hsolid c hc⟩
  have hrow (indent gap : List Char) (pid : UInt32) (line : String)
      (hindent : indent.all Text.isBlank = true) (hgap : gap.all Text.isBlank = true)
      (hne : gap ≠ []) :
      IsRowOf ⟨pid, line⟩ (indent ++ (pid.toNat.repr.toList ++ gap ++ line.toList)) :=
    ⟨indent, gap, List.all_eq_true.mp hindent, List.all_eq_true.mp hgap, hne, rfl⟩
  have hlists : Lists ["garbage".toList, [], "   7 python3 -m proxy".toList,
      " 9  python3 -m proxy".toList] [⟨7, "python3 -m proxy"⟩, ⟨9, "python3 -m proxy"⟩] :=
    .stray (@IsStray.alone [] _ nofun (hword _ (by decide) (by decide)))
      (.stray (.blank nofun)
        (.process (hrow "   ".toList " ".toList 7 "python3 -m proxy" (by decide) (by decide)
          (by decide))
          (.process (hrow " ".toList "  ".toList 9 "python3 -m proxy" (by decide) (by decide)
            (by decide)) .nil)))
  have htrimmed : IsTrimmed "python3 -m proxy".toList :=
    Text.isTrimmed_of_ends (show _ = some 'p' by decide) (by decide) (show _ = some 'y' by decide)
      (by decide)
  have hnumber (n : Nat) : ¬Spells n "x8".toList := by
    rintro ⟨digits, -, hdigits, rfl | hplus, -⟩
    · exact absurd (hdigits 'x' (by decide)) (by decide)
    · cases hplus
  obtain ⟨hfound, hstray⟩ := listing_decoded hlists (by decide)
    (by simpa using htrimmed) ["", "-m proxy"] 9 true
  refine ⟨rfl, hfound, ?_⟩
  exact hstray ["garbage".toList, [], "   7 python3 -m proxy".toList]
    [" 9  python3 -m proxy".toList] "x8 -m proxy".toList rfl
    (@IsStray.unnumbered [] "x8".toList "-m proxy".toList ' ' nofun
      (hword _ (by decide) (by decide)) (by decide) fun n h => absurd h (hnumber n)) (by decide)

end StackControl.Reaper
