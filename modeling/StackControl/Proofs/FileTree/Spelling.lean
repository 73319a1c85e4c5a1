import Mathlib.Data.List.Basic
import StackControl.Proofs.FileTree.Ways
import StackControl.Proofs.Text.Replacement

/-!
# How paths above a path are spelled

What lies above a path is spelled with some of the parts of the path, so it is no longer, has no
other bytes, and passes every check that the path passes.  It lacks only steps that stand still, so
a way that the path has is a way for it, too.
-/

namespace StackControl.Path

theorem intercalate_sublist {sep : Bytes} {parts parts' : List Bytes} (h : parts'.Sublist parts) :
    (sep.intercalate parts').Sublist (sep.intercalate parts) := by
  induction h with
  | slnil => exact .slnil
  | @cons parts' parts part h ih =>
      cases parts with
      | nil =>
          rw [List.sublist_nil.mp h]
          exact List.nil_sublist _
      | cons =>
          rw [Text.intercalate_cons (List.cons_ne_nil _ _)]
          exact (ih.trans (List.sublist_append_right sep _)).trans (List.sublist_append_right _ _)
  | @cons_cons parts' parts part h ih =>
      cases parts' with
      | nil =>
          cases parts with
          | nil => exact .refl _
          | cons =>
              rw [Text.intercalate_cons (List.cons_ne_nil _ _), List.intercalate_singleton]
              exact List.sublist_append_left _ _
      | cons =>
          have hne : parts ≠ [] := by
            rintro rfl
            cases h
          rw [Text.intercalate_cons (List.cons_ne_nil _ _), Text.intercalate_cons hne]
          exact .append_left (.append_left ih sep) part

theorem map_part_startOf (first : Bytes) : (startOf first).map Component.part = [first] := by
  simp only [startOf]
  split
  next hempty => simp [Component.part, List.isEmpty_iff.mp hempty]
  next hempty =>
    split
    next hdot => simp [Component.part, beq_iff_eq.mp hdot]
    next hdot =>
      have hsome : (innerComponent? first).isSome = true := by
        rw [isSome_innerComponent?, bne]
        simpa using ⟨by simpa using hempty, by simpa using hdot⟩
      obtain ⟨c, hc⟩ := Option.isSome_iff_exists.mp hsome
      simp [hc, innerComponent?_eq_some hc]

/-- The components of a path are some of its parts. -/
theorem map_part_components_sublist (path : Path) :
    (path.components.map Component.part).Sublist (Text.splitAt (· == separator) path) := by
  by_cases hne : path = []
  · subst hne
    exact List.nil_sublist _
  cases hsplit : Text.splitAt (· == separator) path with
  | nil => simp [Text.splitAt_eq_splitOnP] at hsplit
  | cons first others =>
      rw [components_of_splitAt hne hsplit, List.map_append, map_part_filterMap]
      rw [map_part_startOf]
      exact .cons_cons _ List.filter_sublist

theorem separator_mem_of_root_mem {path : Path} (h : .root ∈ path.components) :
    separator ∈ path := by
  have horder := inOrder_components path
  have habsolute := absolute_eq path
  cases hcs : path.components with
  | nil =>
      rw [hcs] at h
      cases h
  | cons c cs =>
      rw [hcs] at h horder habsolute
      rcases List.mem_cons.mp h with hroot | hinner
      · rw [← hroot] at habsolute
        exact List.mem_of_head? (beq_iff_eq.mp habsolute)
      · exact absurd rfl (horder.2 .root hinner).part_ne.1

/-- Some of the components of a path are spelled with some of its bytes. -/
theorem ofComponents_sublist {path : Path} {cs : List Component} (h : cs.Sublist path.components) :
    (ofComponents cs).Sublist path := by
  have hparts : ([separator].intercalate (cs.map Component.part)).Sublist
      ([separator].intercalate (Text.splitAt (· == separator) path)) :=
    intercalate_sublist ((h.map Component.part).trans (map_part_components_sublist path))
  rw [Text.splitAt_eq_splitOnP, ← List.splitOn_eq_splitOnP, List.intercalate_splitOn] at hparts
  by_cases hroot : cs = [.root]
  · subst hroot
    have hmem : .root ∈ path.components := h.subset List.mem_cons_self
    exact List.singleton_sublist.mpr (separator_mem_of_root_mem hmem)
  · rw [ofComponents]
    · exact hparts
    · exact hroot

/-- What lies above a path with one more component, nearest first. -/
theorem above_concat {cs : List Component} (c : Component) (h : cs ≠ []) :
    above (cs ++ [c]) = ofComponents cs :: above cs := by
  have hlast : (cs ++ [c]).take cs.length = cs := List.take_left' rfl
  have hhead : (cs ++ [c]).head? = cs.head? := List.head?_append_of_ne_nil _ h
  rw [above, List.length_append, List.length_singleton, List.range_succ, List.reverse_append,
    List.reverse_singleton, List.singleton_append, List.filterMap_cons_some]
  · rw [above]
    refine congrArg _ (List.filterMap_congr fun n hn => ?_)
    have hle : n ≤ cs.length := Nat.le_of_lt (List.mem_range.mp (List.mem_reverse.mp hn))
    rw [hhead, List.take_append_of_le_length hle]
  · simp [hlast, h]

theorem components_eq_nil {path : Path} : path.components = [] ↔ path = [] := by
  refine ⟨fun h => ?_, fun h => h ▸ rfl⟩
  by_contra hne
  cases hsplit : Text.splitAt (· == separator) path with
  | nil => simp [Text.splitAt_eq_splitOnP] at hsplit
  | cons first others =>
      rw [components_of_splitAt hne hsplit, List.append_eq_nil_iff] at h
      exact startOf_ne_nil first h.1

/-- The components of a path are its steps, except for some that stand still. -/
theorem exists_steps_eq (path : Path) :
    ∃ front rest, (route path).steps = front ++ rest ∧
      (path.components.map Component.part).filter (!·.isEmpty) =
        front ++ rest.filter (· != dot) := by
  by_cases hne : path = []
  · subst hne
    exact ⟨[], [], rfl, rfl⟩
  cases hsplit : Text.splitAt (· == separator) path with
  | nil => simp [Text.splitAt_eq_splitOnP] at hsplit
  | cons first others =>
      have hothers : ((others.filterMap innerComponent?).map Component.part).filter
          (!·.isEmpty) = (others.filter (!·.isEmpty)).filter (· != dot) := by
        rw [map_part_filterMap, List.filter_filter, List.filter_filter]
        congr 1
        funext part
        cases part.isEmpty <;> simp
      refine ⟨[first].filter (!·.isEmpty), others.filter (!·.isEmpty), ?_, ?_⟩
      · rw [route, hsplit, ← List.filter_append, List.singleton_append]
      · rw [components_of_splitAt hne hsplit, List.map_append, List.filter_append, hothers]
        rw [map_part_startOf]

end StackControl.Path

namespace StackControl.FileTree

variable {tree : FileTree} {path : Path} {names : List Name} {links left : Nat}
  {loc dest : Location}

theorem mem_intercalate {b : UInt8} (hb : b ≠ Path.separator) (parts : List Bytes) :
    b ∈ [Path.separator].intercalate parts ↔ ∃ part ∈ parts, b ∈ part := by
  induction parts with
  | nil => simp
  | cons part rest ih =>
      by_cases hrest : rest = []
      · simp [hrest]
      · rw [Text.intercalate_cons hrest]
        simp [ih, hb]

/-- A path is given a zero byte by the names that follow it. -/
theorem zero_mem_join {target : Path} (htarget : 0 ∉ target) (hnames : ∀ n ∈ names, Path.IsOrdinary n) :
    0 ∈ Path.join target ([Path.separator].intercalate names) ↔ ∃ n ∈ names, 0 ∈ n := by
  have hseparator : (0 : UInt8) ≠ Path.separator := by decide
  rw [← mem_intercalate hseparator]
  rcases Path.join_cases target (Path.isAbsolute_names hnames) with
    ⟨-, hjoin⟩ | ⟨front, rfl, hjoin⟩ | ⟨-, hjoin⟩
  · rw [hjoin]
  · rw [hjoin]
    simp [hseparator, show (0 : UInt8) ∉ front from fun h => htarget (List.mem_append_left _ h)]
  · rw [hjoin]
    simp [hseparator, htarget]

theorem zero_mem_ofComponents (cs : List Path.Component) :
    0 ∈ Path.ofComponents cs ↔ ∃ c ∈ cs, 0 ∈ c.part := by
  by_cases hroot : cs = [.root]
  · subst hroot
    decide
  · rw [Path.ofComponents]
    · rw [mem_intercalate (by decide)]
      simp
    · exact hroot

theorem checkPath_eq_ok_iff :
    checkPath path = .ok () ↔ 0 ∉ path ∧ path ≠ [] ∧ path.length < pathLimit := by
  simp only [checkPath, List.contains_iff_mem, List.isEmpty_iff, ge_iff_le]
  split
  next hnul => simp [hnul]
  next hnul =>
    split
    next hempty => simp [hempty]
    next hempty =>
      split
      next hlong => simp [Nat.not_lt.mpr hlong]
      next hlong => simp [hnul, hempty, Nat.not_le.mp hlong]

/-- Some components of a path that can be used make a path that can be used. -/
theorem checkPath_ofComponents {cs : List Path.Component} (h : checkPath path = .ok ())
    (hcs : cs.Sublist path.components) (horder : Path.InOrder cs) (hne : cs ≠ []) :
    checkPath (Path.ofComponents cs) = .ok () := by
  obtain ⟨hnul, -, hlength⟩ := checkPath_eq_ok_iff.mp h
  have hsublist := Path.ofComponents_sublist hcs
  refine checkPath_eq_ok_iff.mpr ⟨fun hmem => hnul (hsublist.subset hmem), ?_, ?_⟩
  · rwa [Ne, Path.ofComponents_eq_nil horder]
  · exact Nat.lt_of_le_of_lt hsublist.length_le hlength

/-- The path of a directory below a path. -/
def directoryPath (path : Path) (names : List Name) : Path :=
  Path.ofComponents (path.components ++ names.map Path.Component.name)

theorem start_directoryPath (hpath : path ≠ []) (hnames : ∀ n ∈ names, Path.IsOrdinary n) :
    tree.start (directoryPath path names) = tree.start path := by
  have hn : (path.components ++ names.map Path.Component.name).length ≠ 0 := by
    simp [Path.components_eq_nil, hpath]
  have habove : tree.start (pathAbove path names _) = tree.start path := start_pathAbove hnames hn
  rwa [pathAbove, List.take_length] at habove

/-- A way of a path can be taken with the steps of its components. -/
theorem Way.components (h : Way tree links loc (Path.route path).steps left dest) :
    Way tree links loc ((path.components.map Path.Component.part).filter (!·.isEmpty)) left
      dest := by
  obtain ⟨front, rest, hsteps, hcomponents⟩ := Path.exists_steps_eq path
  rw [hsteps] at h
  rw [hcomponents]
  exact h.filter_ne_dot

end StackControl.FileTree
