import StackControl.Proofs.FileTree.Directories
import StackControl.Proofs.FileTree.Writing

/-!
# What directories hold

A directory that was made for a path is empty: whatever else was made lies above it, and nothing can
stand below a place where there was no directory.  So making the directory of a path that held
nothing leaves it holding nothing, as long as the path does not go up.
-/

namespace StackControl.FileTree

/-- A path names a directory that can be listed and holds something. -/
def HoldsSomething (tree : FileTree) (path : Path) : Prop :=
  ∃ name names, tree.list path = .ok (name :: names)

/-- Every node lies in a directory. -/
def WellFormed (tree : FileTree) : Prop :=
  ∀ loc name, tree.node? (loc ++ [name]) ≠ none → ∃ mode, tree.node? loc = some (.directory mode)

variable {tree made : FileTree} {path : Path} {loc dest : Location} {name : Name}
  {steps : List Name}

theorem mem_names : name ∈ tree.names loc ↔ tree.node? (loc ++ [name]) ≠ none := by
  rw [node?_eq_lookup (by simp), Ne, List.lookup_eq_none_iff, names, List.mem_filterMap]
  constructor
  · rintro ⟨⟨l, node⟩, hmem, hl⟩ hnone
    have heq : l = loc ++ [name] := by
      rcases List.eq_nil_or_concat l with rfl | ⟨front, last, rfl⟩
      · simp at hl
      · simp only [List.concat_eq_append, List.getLast?_concat, List.dropLast_concat,
          beq_iff_eq, Option.ite_none_right_eq_some, Option.some.injEq] at hl
        rw [List.concat_eq_append, hl.1, hl.2]
    simpa [heq] using hnone _ hmem
  · intro hsome
    simp only [Classical.not_forall] at hsome
    obtain ⟨⟨l, node⟩, hmem, hl⟩ := hsome
    have heq : loc ++ [name] = l := by simpa using hl
    exact ⟨(l, node), hmem, by simp [← heq]⟩

/-- What stands below a directory that was added was added, too. -/
theorem leads_of_added {paths : List Path} (hadded : DirectoriesAdded paths tree made)
    (htree : tree.WellFormed) (hsteps : Path.dotDot ∉ steps) (h : made.Leads loc steps dest)
    (hloc : tree.node? loc = none) :
    loc <+: dest ∧ tree.node? dest = none := by
  induction h with
  | stay => exact ⟨List.prefix_rfl, hloc⟩
  | here _ ih => exact ih (fun hmem => hsteps (List.mem_cons_of_mem _ hmem)) hloc
  | up => exact absurd List.mem_cons_self hsteps
  | @enter loc mode step _ _ _ _ _ ih =>
      have hnext : tree.node? (loc ++ [step]) = none := by
        by_cases hnone : tree.node? (loc ++ [step]) = none
        · exact hnone
        · obtain ⟨mode', hmode⟩ := htree loc step hnone
          simp [hloc] at hmode
      obtain ⟨hpre, hdest⟩ := ih (fun hmem => hsteps (List.mem_cons_of_mem _ hmem)) hnext
      exact ⟨(List.prefix_append _ _).trans hpre, hdest⟩
  | @follow loc target step _ _ _ hnode _ _ =>
      obtain ⟨mode, hmode⟩ := htree loc step (by simp [hadded.node?_eq_link hnode])
      simp [hloc] at hmode

/-- Every directory that was added lies on the way to the path, at or above its end. -/
theorem prefix_of_added
    (hadded : DirectoriesAdded (path :: Path.above path.components) tree made)
    (htree : tree.WellFormed) (hpath : Path.dotDot ∉ (Path.route path).steps)
    (hdest : made.LeadsTo path dest) (hloc : tree.node? loc = none)
    (hnode : made.node? loc ≠ none) :
    loc <+: dest ∧ tree.node? dest = none := by
  rcases hadded.node loc with heq | ⟨-, -, p, hp, hne, hleads⟩
  · exact absurd (heq.trans hloc) hnode
  rcases List.mem_cons.mp hp with rfl | hp
  · cases hleads.unique hdest
    exact ⟨List.prefix_rfl, hloc⟩
  obtain ⟨n, hn⟩ := Path.exists_take_of_mem_above hp
  have hp' : p = pathAbove path [] n := by simpa [pathAbove] using hn
  have hordinary : ∀ n ∈ ([] : List Name), Path.IsOrdinary n := by simp
  have hn0 : n ≠ 0 := by
    rintro rfl
    exact hne (by simp [hn, Path.ofComponents])
  subst hp'
  rw [LeadsTo, start_pathAbove hordinary hn0, steps_pathAbove hordinary, List.take_nil,
    List.append_nil] at hleads
  have hall := hdest.components
  have hdotDot : Path.dotDot ∉
      (path.components.map Path.Component.part).filter (!·.isEmpty) := by
    intro hmem
    have hstep : Path.dotDot ∈ (Path.route path).steps.filter (· != Path.dot) := by
      rw [← Path.filter_steps]
      exact List.mem_filter.mpr ⟨hmem, by decide⟩
    exact hpath (List.mem_filter.mp hstep).1
  rw [← List.take_append_drop n path.components, List.map_append, List.filter_append]
    at hall hdotDot
  obtain ⟨mid, hmid, hrest⟩ := hall.exists_mid
  cases hleads.unique hmid
  exact leads_of_added hadded htree (fun hmem => hdotDot (List.mem_append_right _ hmem)) hrest hloc

theorem list_eq_ok {names : List Name} :
    tree.list path = .ok names ↔
      ∃ loc mode, tree.stat path = .ok (loc, .directory mode) ∧ readable mode = true ∧
        tree.names loc = names := by
  simp only [list]
  cases hstat : tree.stat path with
  | error e => simp [bind, Except.bind]
  | ok found =>
      obtain ⟨loc, node⟩ := found
      cases node with
      | directory mode =>
          simp only [bind, Except.bind]
          split
          next hreadable =>
            constructor
            · intro h
              cases h
              exact ⟨loc, mode, rfl, hreadable, rfl⟩
            · rintro ⟨loc', mode', heq, -, rfl⟩
              cases heq
              rfl
          next hreadable =>
            constructor
            · intro h
              cases h
            · rintro ⟨loc', mode', heq, hreadable', -⟩
              cases heq
              exact absurd hreadable' hreadable
      | link => simp [bind, Except.bind]
      | file => simp [bind, Except.bind]

/-- Making the directory of a path that held nothing leaves it holding nothing. -/
theorem not_holdsSomething_makeDirectories (htree : tree.WellFormed)
    (hpath : Path.dotDot ∉ (Path.route path).steps) (hnot : ¬tree.HoldsSomething path) :
    ¬((Edit.makeDirectories path).run tree).2.HoldsSomething path := by
  have hadded := directoriesAdded_makeDirectories tree path
  generalize ((Edit.makeDirectories path).run tree).2 = made at hadded ⊢
  rintro ⟨name, names, hlist⟩
  obtain ⟨top, mode, hstat, hreadable, hnames⟩ := list_eq_ok.mp hlist
  have hdest : made.LeadsTo path top := (passage_of_stat hstat).leads
  have hname : made.node? (top ++ [name]) ≠ none :=
    mem_names.mp (hnames ▸ List.mem_cons_self)
  have hold : tree.node? (top ++ [name]) ≠ none := by
    intro hnone
    have hlength := (prefix_of_added hadded htree hpath hdest hnone hname).1.length_le
    simp only [List.length_append, List.length_singleton] at hlength
    omega
  obtain ⟨mode', hmode⟩ := htree top name hold
  -- The directory was there before, so none was added on the way to it, and none elsewhere.
  have hsame : SamePlaces tree made := by
    refine ⟨?_, hadded.workingDirectory⟩
    intro loc
    rcases hadded.node loc with heq | ⟨hnone, hdirectory, -⟩
    · exact heq
    · have htop := (prefix_of_added hadded htree hpath hdest hnone (by simp [hdirectory])).2
      simp [hmode] at htop
  rw [hsame.stat_eq] at hstat
  cases hcons : tree.names top with
  | nil =>
      have hmem := mem_names.mpr hold
      simp [hcons] at hmem
  | cons name' names' =>
      exact hnot ⟨name', names', list_eq_ok.mpr ⟨top, mode, hstat, hreadable, hcons⟩⟩

end StackControl.FileTree
