import StackControl.Proofs.FileTree.Mirrored

/-!
# The same names below two targets

The same names after the paths of two empty directories make counterparts, and so do the paths of
the directories above, as long as none of these paths is too long for the system.  So what is
missing above an entry is made in step.
-/

namespace StackControl.FileTree

variable {before before' tree tree' : FileTree} {top top' : Location} {path path' : Path}
  {target target' : Path} {names : List Name}

/-! ## Paths that can be used -/

theorem zero_mem_directoryPath (names : List Name) (htarget : 0 ∉ target) :
    0 ∈ directoryPath target names ↔ ∃ n ∈ names, 0 ∈ n := by
  have hcomponents : ¬∃ c ∈ target.components, 0 ∈ c.part := by
    rw [← zero_mem_ofComponents]
    exact fun hmem => htarget ((Path.ofComponents_sublist (.refl _)).subset hmem)
  rw [directoryPath, zero_mem_ofComponents]
  constructor
  · rintro ⟨c, hc, hzero⟩
    rcases List.mem_append.mp hc with hc | hc
    · exact absurd ⟨c, hc, hzero⟩ hcomponents
    · obtain ⟨n, hn, rfl⟩ := List.mem_map.mp hc
      exact ⟨n, hn, hzero⟩
  · rintro ⟨n, hn, hzero⟩
    exact ⟨.name n, List.mem_append_right _ (List.mem_map_of_mem hn), hzero⟩

/-- Paths are equally good if they fit and have a zero byte or have none. -/
theorem checkPath_eq_of (hnul : 0 ∈ path ↔ 0 ∈ path') (hne : path ≠ []) (hne' : path' ≠ [])
    (hfits : path.length < pathLimit) (hfits' : path'.length < pathLimit) :
    checkPath path = checkPath path' := by
  simp [checkPath, hnul, hne, hne', Nat.not_le.mpr hfits, Nat.not_le.mpr hfits']

/-- A path of components that ends in a name does not end in a separator. -/
theorem directory_directoryPath (hnames : ∀ n ∈ names, Path.IsOrdinary n) (hne : names ≠ []) :
    (Path.route (directoryPath target names)).directory = false := by
  obtain ⟨front, last, rfl⟩ := List.eq_nil_or_concat names |>.resolve_left hne
  rw [List.concat_eq_append] at hnames ⊢
  have hlast := (hnames last (by simp)).part_ne.1
  rw [Path.route, ← Bool.not_eq_true]
  intro hends
  obtain ⟨whole, hwhole⟩ := List.getLast?_eq_some_iff.mp (beq_iff_eq.mp hends)
  have hsplit := Path.splitAt_append_separator whole []
  rw [← hwhole, directoryPath, Path.splitAt_ofComponents
    ((Path.inOrder_components target).append (Path.isInner_of_mem_names hnames)) (by simp)
    (fun heq => ?_)] at hsplit
  · rw [List.map_append, List.map_append, List.map_append, ← List.append_assoc] at hsplit
    exact hlast (List.singleton_inj.mp (List.append_inj_right' hsplit rfl))
  · have hroot := congrArg List.getLast? heq
    simp at hroot

/-- The path of a directory below a target is no longer than that of what is put in it. -/
theorem length_directoryPath_le (hnames : ∀ n ∈ names, Path.IsOrdinary n) (hne : names ≠ [])
    {pre : List Name} (hpre : pre <+: names) :
    (directoryPath target pre).length ≤
      (Path.join target ([Path.separator].intercalate names)).length := by
  refine (Path.ofComponents_sublist ?_).length_le
  rw [Path.components_join hne hnames]
  exact (List.Sublist.refl _).append (hpre.sublist.map _)

theorem directoryPath_ne_nil (hnames : ∀ n ∈ names, Path.IsOrdinary n)
    (hne : target.components ++ names.map Path.Component.name ≠ []) :
    directoryPath target names ≠ [] := by
  rwa [directoryPath, Ne, Path.ofComponents_eq_nil
    ((Path.inOrder_components target).append (Path.isInner_of_mem_names hnames))]

/-! ## Names below two targets -/

namespace Vacant

variable (hvacant : Vacant before target top) (hnames : ∀ n ∈ names, Path.IsOrdinary n)

include hvacant hnames

theorem goesBelow_join (hne : names ≠ []) :
    before.GoesBelow (Path.join target ([Path.separator].intercalate names)) top names := by
  obtain ⟨left, hway⟩ := hvacant.way
  refine ⟨_, left, Path.steps_join hne hnames, ?_⟩
  rwa [start, Path.absolute_join hnames]

theorem goesBelow_directoryPath : before.GoesBelow (directoryPath target names) top names := by
  obtain ⟨left, hway⟩ := hvacant.way
  refine ⟨_, left, steps_directoryPath hnames, ?_⟩
  rw [start_directoryPath (checkPath_eq_ok_iff.mp hvacant.check).2.1 hnames]
  exact hway.components

omit hnames in
/-- The target itself is there. -/
theorem run_makeAlong_target (h : Filled before top tree) :
    (Edit.makeAlong (directoryPath target [] ::
      Path.above (target.components ++ List.map Path.Component.name []))).run tree =
        (.ok (), tree) := by
  obtain ⟨mode, htop, -⟩ := h.exists_top
  have hbelow : before.GoesBelow (directoryPath target []) top [] :=
    hvacant.goesBelow_directoryPath nofun
  obtain ⟨steps, left, hsteps, hway⟩ := h.goesBelow hbelow
  have hcheck : checkPath (directoryPath target []) = .ok () := by
    refine checkPath_ofComponents hvacant.check (by simp) ?_ ?_
    · simpa using Path.inOrder_components target
    · simpa [Path.components_eq_nil] using (checkPath_eq_ok_iff.mp hvacant.check).2.1
  rw [List.append_nil] at hsteps
  have hends : Ends (Edit.makeAlong (directoryPath target [] ::
      Path.above (target.components ++ List.map Path.Component.name []))) tree
        fun result after => (result, after) = (.ok (), tree) :=
    (ends_makeAlong_present (stat_of_way hcheck (hsteps ▸ hway) htop)).mpr rfl
  exact hends

end Vacant

variable (hvacant : Vacant before target top) (hvacant' : Vacant before' target' top')
  (hnames : ∀ n ∈ names, Path.IsOrdinary n) (hne : names ≠ [])
  (hfits : (Path.join target ([Path.separator].intercalate names)).length < pathLimit)
  (hfits' : (Path.join target' ([Path.separator].intercalate names)).length < pathLimit)

include hvacant hvacant' hnames hne hfits hfits'

/-- The same names after two targets make counterparts. -/
theorem counterparts_join :
    Counterparts before before' top top' (Path.join target ([Path.separator].intercalate names))
      (Path.join target' ([Path.separator].intercalate names)) names where
  check := by
    have hnul := zero_mem_join (checkPath_eq_ok_iff.mp hvacant.check).1 hnames
    have hnul' := zero_mem_join (checkPath_eq_ok_iff.mp hvacant'.check).1 hnames
    refine checkPath_eq_of (hnul.trans hnul'.symm) ?_ ?_ hfits hfits'
    · rw [Ne, ← Path.components_eq_nil, Path.components_join hne hnames]
      simp [hne]
    · rw [Ne, ← Path.components_eq_nil, Path.components_join hne hnames]
      simp [hne]
  directory := Path.directory_join hne hnames
  directory' := Path.directory_join hne hnames
  below := hvacant.goesBelow_join hnames hne
  below' := hvacant'.goesBelow_join hnames hne

/-- So they do for each of the directories above. -/
theorem counterparts_directoryPath {pre : List Name} (hpre : pre <+: names) (hpre' : pre ≠ []) :
    Counterparts before before' top top' (directoryPath target pre) (directoryPath target' pre)
      pre where
  check := by
    have hnul := zero_mem_directoryPath pre (checkPath_eq_ok_iff.mp hvacant.check).1
    have hnul' := zero_mem_directoryPath pre (checkPath_eq_ok_iff.mp hvacant'.check).1
    refine checkPath_eq_of (hnul.trans hnul'.symm) ?_ ?_ ?_ ?_
    · exact directoryPath_ne_nil (fun n hn => hnames n (hpre.subset hn)) (by simp [hpre'])
    · exact directoryPath_ne_nil (fun n hn => hnames n (hpre.subset hn)) (by simp [hpre'])
    · exact Nat.lt_of_le_of_lt (length_directoryPath_le hnames hne hpre) hfits
    · exact Nat.lt_of_le_of_lt (length_directoryPath_le hnames hne hpre) hfits'
  directory := directory_directoryPath (fun n hn => hnames n (hpre.subset hn)) hpre'
  directory' := directory_directoryPath (fun n hn => hnames n (hpre.subset hn)) hpre'
  below := hvacant.goesBelow_directoryPath fun n hn => hnames n (hpre.subset hn)
  below' := hvacant'.goesBelow_directoryPath fun n hn => hnames n (hpre.subset hn)

/-- Making a directory below two targets, with what is missing above it, goes in step. -/
theorem inStep_makeAlong {pre : List Name} (hpre : pre <+: names)
    (h : Mirrored before before' top top' tree tree') :
    InStep (Mirrored before before' top top')
      (Edit.makeAlong (directoryPath target pre ::
        Path.above (target.components ++ pre.map Path.Component.name)))
      (Edit.makeAlong (directoryPath target' pre ::
        Path.above (target'.components ++ pre.map Path.Component.name))) tree tree' := by
  induction pre using List.reverseRecOn generalizing tree tree' with
  | nil =>
      rw [InStep, hvacant.run_makeAlong_target h.left, hvacant'.run_makeAlong_target h.right]
      exact ⟨rfl, h⟩
  | append_singleton front n ih =>
      have hfront : front <+: names := (List.prefix_append _ _).trans hpre
      have hcomponents {target : Path} (hcheck : checkPath target = .ok ()) :
          target.components ++ front.map Path.Component.name ≠ [] := by
        simp [Path.components_eq_nil, (checkPath_eq_ok_iff.mp hcheck).2.1]
      rw [List.map_append, List.map_singleton, ← List.append_assoc, ← List.append_assoc,
        Path.above_concat _ (hcomponents hvacant.check),
        Path.above_concat _ (hcomponents hvacant'.check)]
      have hordinary : ∀ n' ∈ front ++ [n], Path.IsOrdinary n' :=
        fun n' hn => hnames n' (hpre.subset hn)
      have hpaths := counterparts_directoryPath hvacant hvacant' hnames hne hfits hfits' hpre
        (by simp)
      exact Mirrored.inStep_makeAlong_cons hpaths hordinary (by simp)
        (directoryPath_ne_nil hordinary (by simp)) (directoryPath_ne_nil hordinary (by simp)) h
        (ih hfront)

end StackControl.FileTree
