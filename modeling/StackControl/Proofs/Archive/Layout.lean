import Mathlib.Data.List.Induction
import StackControl.Archive.Unpack
import StackControl.Proofs.FileTree.Growing

/-!
# What an archive lays out

What unpacking leaves below the target can be read off the entries: at the names of a file stands
the last file with these names, and a directory stands at the names of a directory entry and above
the names of every entry.  One more entry changes the layout at its own names, and adds the
directories above them that were missing.
-/

namespace StackControl.Archive

open FileTree

/-- A component after the first one leads elsewhere. -/
def Entry.escapes (entry : Entry) : Bool :=
  (entry.path.components.drop 1).any fun
    | .name _ | .here => false
    | .root | .up => true

/-- The names on the path of an entry after its first component. -/
def Entry.names (entry : Entry) : List Name :=
  (entry.path.components.drop 1).filterMap fun
    | .name n => some n
    | _ => none

/-- An entry is a file with these names. -/
def Entry.IsFileAt (entry : Entry) (names : List Name) : Prop :=
  entry.kind = .file ∧ entry.names = names

/-- An entry is a directory with these names. -/
def Entry.IsDirectoryAt (entry : Entry) (names : List Name) : Prop :=
  entry.kind = .directory ∧ entry.names = names

/-- The names are those of a directory above the entry's own. -/
def Entry.IsBelow (entry : Entry) (names : List Name) : Prop :=
  names <+: entry.names ∧ names ≠ entry.names

instance (entry : Entry) (names : List Name) : Decidable (entry.IsFileAt names) :=
  inferInstanceAs (Decidable (_ ∧ _))

instance (entry : Entry) (names : List Name) : Decidable (entry.IsDirectoryAt names) :=
  inferInstanceAs (Decidable (_ ∧ _))

instance (entry : Entry) (names : List Name) : Decidable (entry.IsBelow names) :=
  inferInstanceAs (Decidable (_ ∧ _))

/-- The permissions that are stated, or else the given ones. -/
def permissions (stated : Option Nat) (default : Nat) : Nat :=
  (stated.map (· &&& 0o777)).getD default

/-- The last file with these names. -/
def lastFile? (entries : List Entry) (names : List Name) : Option Entry :=
  (entries.filter (·.IsFileAt names)).getLast?

/-- The permissions that the directory entries with these names state last. -/
def statedMode? (entries : List Entry) (names : List Name) : Option Nat :=
  ((entries.filter (·.IsDirectoryAt names)).filterMap Entry.mode).getLast?

/-- Some entry needs a directory at these names. -/
def NeedsDirectory (entries : List Entry) (names : List Name) : Prop :=
  ∃ entry ∈ entries, entry.IsDirectoryAt names ∨ entry.IsBelow names

instance (entries : List Entry) (names : List Name) : Decidable (NeedsDirectory entries names) :=
  inferInstanceAs (Decidable (∃ entry ∈ entries, _))

/-- What the entries lay out. -/
def layout (entries : List Entry) : Plan := fun names =>
  match lastFile? entries names with
  | some entry => some (.file ⟨permissions entry.mode fileMode, entry.content⟩)
  | none =>
    if NeedsDirectory entries names then
      some (.directory (permissions (statedMode? entries names) directoryMode))
    else none

/-- No file stands where another entry needs a directory, or has a directory. -/
def Apart (entries : List Entry) : Prop :=
  ∀ file ∈ entries, file.kind = .file → file.names ≠ [] → ∀ entry ∈ entries,
    file.names <+: entry.names → entry.IsFileAt file.names

instance (entries : List Entry) : Decidable (Apart entries) :=
  inferInstanceAs (Decidable (∀ file ∈ entries, _))

/-- An entry can be put after the given ones: no directory on its way withholds searching, and none
in which something is added or replaced withholds writing. -/
structure MayPut (done : List Entry) (entry : Entry) : Prop where
  passes (front : List Name) (mode : Nat) : front ≠ [] → entry.IsBelow front →
    layout done front = some (.directory mode) → searchable mode = true
  adds (front : List Name) (n : Name) (mode : Nat) : front ≠ [] → front ++ [n] <+: entry.names →
    layout done (front ++ [n]) = none ∨ entry.IsFileAt (front ++ [n]) →
      layout done front = some (.directory mode) → writable mode = true

variable {done entries : List Entry} {entry : Entry} {front names : List Name} {last : Name}
  {mode : Nat}

theorem namesBelowTop?_eq (entry : Entry) :
    namesBelowTop? entry.path = if entry.escapes then none else some entry.names := by
  rw [namesBelowTop?, Entry.escapes, Entry.names]
  induction entry.path.components.drop 1 with
  | nil => rfl
  | cons c cs ih =>
      rw [List.foldr_cons, ih]
      cases c <;> cases hany : cs.any _ <;> simp_all

/-! ## One more entry -/

theorem lastFile?_concat (done : List Entry) (entry : Entry) (names : List Name) :
    lastFile? (done ++ [entry]) names =
      if entry.IsFileAt names then some entry else lastFile? done names := by
  rw [lastFile?, List.filter_append]
  by_cases h : entry.IsFileAt names
  · simp [h]
  · simp [h, lastFile?]

theorem statedMode?_concat (done : List Entry) (entry : Entry) (names : List Name) :
    statedMode? (done ++ [entry]) names =
      if entry.IsDirectoryAt names then entry.mode.or (statedMode? done names)
      else statedMode? done names := by
  rw [statedMode?, List.filter_append, List.filterMap_append]
  by_cases h : entry.IsDirectoryAt names
  · cases hmode : entry.mode <;> simp [h, hmode, statedMode?]
  · simp [h, statedMode?]

theorem needsDirectory_concat :
    NeedsDirectory (done ++ [entry]) names ↔
      NeedsDirectory done names ∨ entry.IsDirectoryAt names ∨ entry.IsBelow names := by
  simp only [NeedsDirectory, List.mem_append, List.mem_singleton, or_and_right, exists_or,
    exists_eq_left]

theorem statedMode?_eq_none (h : ¬NeedsDirectory done names) : statedMode? done names = none := by
  have hnone : done.filter (·.IsDirectoryAt names) = [] := by
    rw [List.filter_eq_nil_iff]
    intro entry hentry hdirectory
    exact h ⟨entry, hentry, .inl (of_decide_eq_true hdirectory)⟩
  rw [statedMode?, hnone]
  rfl

theorem layout_eq_none_iff :
    layout done names = none ↔ lastFile? done names = none ∧ ¬NeedsDirectory done names := by
  rw [layout]
  cases lastFile? done names with
  | some file => simp
  | none => simp

/-- One more entry adds a directory above its names where nothing was. -/
theorem layout_concat_of_ne (hne : entry.names ≠ names) :
    layout (done ++ [entry]) names =
      if layout done names = none ∧ entry.IsBelow names then some (.directory directoryMode)
      else layout done names := by
  have hfile : ¬entry.IsFileAt names := fun h => hne h.2
  have hdirectory : ¬entry.IsDirectoryAt names := fun h => hne h.2
  have hneeds : NeedsDirectory (done ++ [entry]) names ↔
      NeedsDirectory done names ∨ entry.IsBelow names := by
    rw [needsDirectory_concat, or_iff_right hdirectory]
  rw [layout, lastFile?_concat, statedMode?_concat, if_neg hfile, if_neg hdirectory]
  cases hlast : lastFile? done names with
  | some file => simp [layout, hlast]
  | none =>
      by_cases hdone : NeedsDirectory done names
      · simp [layout, hlast, hneeds, hdone]
      · by_cases hbelow : entry.IsBelow names <;>
          simp [layout, hlast, hneeds, hdone, hbelow, statedMode?_eq_none hdone, permissions]

/-- The permissions in a layout are those that directory entries state, or those of a new
directory. -/
theorem mode_of_layout (h : layout done names = some (.directory mode)) :
    mode = directoryMode ∨ ∃ entry ∈ done, ∃ stated, entry.kind = .directory ∧
      entry.mode = some stated ∧ mode = stated &&& 0o777 := by
  simp only [layout] at h
  split at h
  next => cases h
  next =>
    split at h
    next =>
      cases h
      cases hstated : statedMode? done names with
      | none => exact .inl rfl
      | some stated =>
          right
          obtain ⟨entry, hentry, hmode⟩ :=
            List.mem_filterMap.mp (List.mem_of_getLast? hstated)
          obtain ⟨hmem, hat⟩ := List.mem_filter.mp hentry
          have hdirectory : entry.IsDirectoryAt names := of_decide_eq_true hat
          exact ⟨entry, hmem, stated, hdirectory.1, hmode, rfl⟩
    next => cases h

/-- Entries that close no directory let every entry be put after them. -/
theorem mayPut_of_open
    (h : ∀ entry ∈ done, entry.kind = .directory → ∀ stated ∈ entry.mode,
      writable (stated &&& 0o777) = true ∧ searchable (stated &&& 0o777) = true) :
    MayPut done entry := by
  have hopen {names : List Name} {mode : Nat} (hlaid : layout done names = some (.directory mode)) :
      writable mode = true ∧ searchable mode = true := by
    rcases mode_of_layout hlaid with rfl | ⟨other, hother, stated, hkind, hstated, rfl⟩
    · decide
    · exact h other hother hkind stated hstated
  exact ⟨fun _ _ _ _ hlaid => (hopen hlaid).2, fun _ _ _ _ _ _ hlaid => (hopen hlaid).1⟩

/-! ## The plan of a target -/

/-- The layout below a target that has the given permissions. -/
def targetPlan (mode : Nat) (entries : List Entry) : Plan :=
  Function.update (layout entries) [] (some (.directory mode))

@[simp] theorem targetPlan_nil : targetPlan mode entries [] = some (.directory mode) :=
  Function.update_self ..

theorem targetPlan_of_ne_nil (h : names ≠ []) :
    targetPlan mode entries names = layout entries names :=
  Function.update_of_ne h ..

/-- What is laid out is needed by some entry, at its names or above them. -/
theorem exists_entry_of_layout (h : layout done names ≠ none) :
    ∃ entry ∈ done, names <+: entry.names := by
  rw [Ne, layout_eq_none_iff, not_and_or, not_not] at h
  rcases h with hfile | ⟨entry, hentry, hdirectory | hbelow⟩
  · obtain ⟨entry, hentry⟩ := Option.ne_none_iff_exists'.mp hfile
    have hmem := List.mem_filter.mp (List.mem_of_getLast? hentry)
    have hfileAt : entry.IsFileAt names := of_decide_eq_true hmem.2
    exact ⟨entry, hmem.1, hfileAt.2 ▸ List.prefix_rfl⟩
  · exact ⟨entry, hentry, hdirectory.2 ▸ List.prefix_rfl⟩
  · exact ⟨entry, hentry, hbelow.1⟩

theorem targetPlan_closed {pre : List Name} (hpre : pre <+: names)
    (hnone : targetPlan mode done pre = none) : targetPlan mode done names = none := by
  by_cases hnil : pre = []
  · simp [hnil] at hnone
  have hnames : names ≠ [] := fun h => hnil (List.prefix_nil.mp (h ▸ hpre))
  rw [targetPlan_of_ne_nil hnil, layout_eq_none_iff] at hnone
  rw [targetPlan_of_ne_nil hnames]
  by_contra hsome
  obtain ⟨entry, hentry, hbelow⟩ := exists_entry_of_layout hsome
  by_cases heq : pre = names
  · subst heq
    exact hsome (layout_eq_none_iff.mpr hnone)
  · refine hnone.2 ⟨entry, hentry, .inr ⟨hpre.trans hbelow, ?_⟩⟩
    rintro rfl
    exact heq (hpre.eq_of_length (Nat.le_antisymm hpre.length_le hbelow.length_le))

section Concat

variable (hapart : Apart (done ++ [entry]))

include hapart

/-- Above the names of an entry no file stands. -/
theorem Apart.lastFile?_of_isBelow (hne : names ≠ []) (hbelow : entry.IsBelow names) :
    lastFile? done names = none := by
  rw [lastFile?, List.getLast?_eq_none_iff, List.filter_eq_nil_iff]
  intro file hfile hat
  obtain ⟨hkind, rfl⟩ : file.IsFileAt names := of_decide_eq_true hat
  have hsame := hapart file (List.mem_append_left _ hfile) hkind hne entry (by simp) hbelow.1
  exact hbelow.2 hsame.2.symm

theorem Apart.lastFile?_of_directory (hne : entry.names ≠ []) (hkind : entry.kind = .directory) :
    lastFile? done entry.names = none := by
  rw [lastFile?, List.getLast?_eq_none_iff, List.filter_eq_nil_iff]
  intro file hfile hat
  obtain ⟨hfileKind, hnames⟩ : file.IsFileAt entry.names := of_decide_eq_true hat
  have hsame := hapart file (List.mem_append_left _ hfile) hfileKind (hnames ▸ hne) entry
    (by simp) (hnames ▸ List.prefix_rfl)
  rw [hsame.1] at hkind
  cases hkind

theorem Apart.not_needsDirectory (hne : entry.names ≠ []) (hkind : entry.kind = .file) :
    ¬NeedsDirectory done entry.names := by
  rintro ⟨other, hother, hdirectory | hbelow⟩
  · have hsame := hapart entry (by simp) hkind hne other (List.mem_append_left _ hother)
      (hdirectory.2 ▸ List.prefix_rfl)
    have hfile := hsame.1
    rw [hdirectory.1] at hfile
    cases hfile
  · have hsame := hapart entry (by simp) hkind hne other (List.mem_append_left _ hother) hbelow.1
    exact hbelow.2 hsame.2.symm

/-- The way to an entry can be made when the entry may be put. -/
theorem MayPut.clear (hput : MayPut done entry) (hsearch : searchable mode = true)
    (hwrite : writable mode = true) (hnames : entry.names = front ++ [last]) :
    (targetPlan mode done).Clear front := by
  have hbelow {pre : List Name} (hpre : pre <+: front) : entry.IsBelow pre := by
    rw [Entry.IsBelow, hnames]
    exact ⟨hpre.trans (List.prefix_append _ _), ne_concat_of_isPrefix hpre⟩
  constructor
  · simp
  · exact targetPlan_closed
  · intro pre hpre
    by_cases hnil : pre = []
    · exact .inr ⟨mode, by simp [hnil], hsearch⟩
    · rw [targetPlan_of_ne_nil hnil]
      have hfile := hapart.lastFile?_of_isBelow hnil (hbelow hpre)
      cases hplan : layout done pre with
      | none => exact .inl rfl
      | some standing =>
          cases standing with
          | file body => simp [layout, hfile] at hplan
          | directory mode' =>
              exact .inr ⟨mode', rfl, hput.passes pre mode' hnil (hbelow hpre) hplan⟩
  · intro pre n mode' hpre hnone hmode'
    by_cases hnil : pre = []
    · rw [hnil, targetPlan_nil] at hmode'
      cases hmode'
      exact hwrite
    · rw [targetPlan_of_ne_nil hnil] at hmode'
      rw [targetPlan_of_ne_nil (by simp)] at hnone
      exact hput.adds pre n mode' hnil (hpre.trans (hbelow List.prefix_rfl).1) (.inl hnone) hmode'

/-- What an entry adds or replaces in a directory can be added there. -/
theorem MayPut.editable (hput : MayPut done entry) (hsearch : searchable mode = true)
    (hwrite : writable mode = true) (hnames : entry.names = front ++ [last])
    (hadds : layout done entry.names = none ∨ entry.kind = .file) :
    ((targetPlan mode done).grown front).Editable front := by
  refine (hput.clear hapart hsearch hwrite hnames).editable_grown fun mode' hmode' => ?_
  by_cases hnil : front = []
  · rw [hnil, targetPlan_nil] at hmode'
    cases hmode'
    exact hwrite
  · rw [targetPlan_of_ne_nil hnil] at hmode'
    rw [hnames] at hadds
    exact hput.adds front last mode' hnil (hnames ▸ List.prefix_rfl)
      (hadds.imp_right fun hkind => ⟨hkind, hnames⟩) hmode'

omit hapart in
theorem grown_targetPlan_self (hnames : entry.names = front ++ [last]) :
    (targetPlan mode done).grown front (front ++ [last]) = layout done entry.names := by
  rw [Plan.grown_concat_self, targetPlan_of_ne_nil (by simp), hnames]

/-- Before a directory is put, nothing or a directory is there. -/
theorem MayPut.planned_directory (hput : MayPut done entry) (hsearch : searchable mode = true)
    (hwrite : writable mode = true) (hkind : entry.kind = .directory)
    (hnames : entry.names = front ++ [last]) :
    (targetPlan mode done).grown front (front ++ [last]) = none ∧
        ((targetPlan mode done).grown front).Editable front ∧
        permissions (statedMode? done entry.names) directoryMode = directoryMode ∨
      (targetPlan mode done).grown front (front ++ [last]) =
        some (.directory (permissions (statedMode? done entry.names) directoryMode)) := by
  have hlast := hapart.lastFile?_of_directory (by simp [hnames]) hkind
  rw [grown_targetPlan_self hnames]
  by_cases hneeds : NeedsDirectory done entry.names
  · right
    rw [layout, hlast]
    exact if_pos hneeds
  · have hnone : layout done entry.names = none := layout_eq_none_iff.mpr ⟨hlast, hneeds⟩
    refine .inl ⟨hnone, hput.editable hapart hsearch hwrite hnames (.inl hnone), ?_⟩
    rw [statedMode?_eq_none hneeds]
    rfl

/-- Before a file is put, nothing or a file is there. -/
theorem Apart.planned_file (mode : Nat) (hkind : entry.kind = .file)
    (hnames : entry.names = front ++ [last]) :
    (targetPlan mode done).grown front (front ++ [last]) = none ∨
      ∃ body, (targetPlan mode done).grown front (front ++ [last]) = some (.file body) := by
  rw [grown_targetPlan_self hnames, layout]
  cases lastFile? done entry.names with
  | some file => exact .inr ⟨_, rfl⟩
  | none => exact .inl (if_neg (hapart.not_needsDirectory (by simp [hnames]) hkind))

/-- What stands at the names of an entry once it has been put after the given ones. -/
def standingOf (done : List Entry) (entry : Entry) : Standing :=
  match entry.kind with
  | .file => .file ⟨permissions entry.mode fileMode, entry.content⟩
  | _ => .directory (permissions (entry.mode.or (statedMode? done entry.names)) directoryMode)

theorem layout_concat_self (hkind : entry.kind = .directory ∨ entry.kind = .file)
    (hne : entry.names ≠ []) :
    layout (done ++ [entry]) entry.names = some (standingOf done entry) := by
  rw [layout, lastFile?_concat, statedMode?_concat, standingOf]
  rcases hkind with hkind | hkind
  · have hneeds : NeedsDirectory (done ++ [entry]) entry.names :=
      needsDirectory_concat.mpr (.inr (.inl ⟨hkind, rfl⟩))
    simp [Entry.IsFileAt, Entry.IsDirectoryAt, hkind, hneeds,
      hapart.lastFile?_of_directory hne hkind]
  · simp [Entry.IsFileAt, hkind]

/-- One more entry stands at its names, and the directories above it are there. -/
theorem targetPlan_concat (hkind : entry.kind = .directory ∨ entry.kind = .file)
    (hnames : entry.names = front ++ [last]) :
    targetPlan mode (done ++ [entry]) =
      Function.update ((targetPlan mode done).grown front) entry.names
        (some (standingOf done entry)) := by
  funext names
  by_cases hnil : names = []
  · have hne : [] ≠ entry.names := by simp [hnames]
    rw [hnil, Function.update_of_ne hne, targetPlan_nil, Plan.grown, targetPlan_nil,
      if_neg (by simp)]
  rw [targetPlan_of_ne_nil hnil]
  by_cases heq : entry.names = names
  · subst heq
    rw [Function.update_self]
    exact layout_concat_self hapart hkind hnil
  · have hbelow : entry.IsBelow names ↔ names <+: front := by
      rw [Entry.IsBelow, hnames, List.prefix_concat_iff, ← hnames, and_iff_left (Ne.symm heq)]
      exact or_iff_right (Ne.symm heq)
    rw [Function.update_of_ne (Ne.symm heq), layout_concat_of_ne heq, Plan.grown,
      targetPlan_of_ne_nil hnil]
    simp only [hbelow]

end Concat

/-- An entry without names lays nothing out. -/
theorem targetPlan_concat_of_names_eq_nil (hnames : entry.names = []) :
    targetPlan mode (done ++ [entry]) = targetPlan mode done := by
  funext names
  by_cases hnil : names = []
  · simp [hnil]
  have hat : entry.names ≠ names := fun h => hnil (h ▸ hnames)
  have hbelow : ¬entry.IsBelow names := fun h => hnil (List.prefix_nil.mp (hnames ▸ h.1))
  rw [targetPlan_of_ne_nil hnil, targetPlan_of_ne_nil hnil, layout_concat_of_ne hat,
    if_neg fun h => hbelow h.2]

end StackControl.Archive
