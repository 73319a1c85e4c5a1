import StackControl.Proofs.FileTree.Components
import StackControl.Proofs.FileTree.Ends

/-!
# Making directories

Making a directory with its missing ancestors puts directories where nothing stood, at places that
the path or one of its ancestors leads to.  Whatever each of these steps preserves, the whole
preserves, and when it succeeds the path leads to a directory.
-/

namespace StackControl.FileTree

/-- Where the steps of a path are taken from. -/
def start (tree : FileTree) (path : Path) : Location :=
  if (Path.route path).absolute then [] else tree.workingDirectory

/-- A path leads to a location. -/
def LeadsTo (tree : FileTree) (path : Path) (loc : Location) : Prop :=
  tree.Leads (tree.start path) (Path.route path).steps loc

variable {tree tree' : FileTree} {path : Path} {loc dest : Location}

theorem LeadsTo.unique (h : tree.LeadsTo path loc) (h' : tree.LeadsTo path dest) : loc = dest :=
  Leads.unique h h'

theorem leadsTo_nil : tree.LeadsTo [] tree.workingDirectory := .stay

/-- The directories, the links and the working directory of a tree are those of another, too. -/
structure Keeps (tree tree' : FileTree) : Prop where
  workingDirectory : tree'.workingDirectory = tree.workingDirectory
  directory {loc : Location} {mode : Nat} :
    tree.node? loc = some (.directory mode) → ∃ mode', tree'.node? loc = some (.directory mode')
  link {loc : Location} {target : Path} :
    tree.node? loc = some (.link target) → tree'.node? loc = some (.link target)

theorem Keeps.leadsTo (h : Keeps tree tree') (hpath : tree.LeadsTo path loc) :
    tree'.LeadsTo path loc := by
  rw [LeadsTo, start, h.workingDirectory]
  exact Leads.mono (fun _ _ => h.directory) (fun _ _ => h.link) hpath

theorem keeps_put {node : Node} (hloc : loc ≠ []) (habsent : tree.node? loc = none) :
    Keeps tree (tree.put loc node) where
  workingDirectory := rfl
  directory {other mode} hnode := by
    have hne : other ≠ loc := by
      rintro rfl
      simp [habsent] at hnode
    exact ⟨mode, by rw [node?_put hloc, if_neg hne, hnode]⟩
  link {other target} hnode := by
    have hne : other ≠ loc := by
      rintro rfl
      simp [habsent] at hnode
    rw [node?_put hloc, if_neg hne, hnode]

/-- A directory is only given other permissions. -/
theorem keeps_put_directory {mode mode' : Nat} (hloc : loc ≠ [])
    (hnode : tree.node? loc = some (.directory mode)) :
    Keeps tree (tree.put loc (.directory mode')) where
  workingDirectory := rfl
  directory {other mode''} hother := by
    rw [node?_put hloc]
    split
    · exact ⟨mode', rfl⟩
    · exact ⟨mode'', hother⟩
  link {other target} hother := by
    have hne : other ≠ loc := by
      rintro rfl
      simp [hnode] at hother
    rw [node?_put hloc, if_neg hne, hother]

theorem keeps_putFile {body : FileBody} (hloc : loc ≠ []) (habsent : tree.node? loc = none) :
    Keeps tree (tree.putFile loc body) :=
  have hput : Keeps tree (tree.put loc (.file tree.bodies.length)) := keeps_put hloc habsent
  ⟨hput.workingDirectory, hput.directory, hput.link⟩

/-- What is found at the end of a path is at the end of a passage. -/
theorem passage_of_locateRoute {follow directory : Bool} {place : Place}
    (h : tree.locateRoute follow (Path.route path) directory = .ok place) :
    Passage tree follow (tree.start path) (Path.route path).steps directory place := by
  simp only [locateRoute] at h
  split at h
  next found hfound =>
    cases h
    exact passage_of_walk hfound
  next => cases h

theorem passage_of_locate {follow : Bool} {place : Place}
    (h : tree.locate follow path = .ok place) :
    Passage tree follow (tree.start path) (Path.route path).steps
      (Path.route path).directory place := by
  simp only [locate] at h
  cases hcheck : checkPath path with
  | error e =>
      rw [hcheck] at h
      cases h
  | ok _ =>
      rw [hcheck] at h
      exact passage_of_locateRoute h

theorem passage_of_stat {node : Node} (h : tree.stat path = .ok (loc, node)) :
    Passage tree true (tree.start path) (Path.route path).steps
      (Path.route path).directory (.present loc node) := by
  simp only [stat] at h
  cases hlocate : tree.locate true path with
  | error e =>
      rw [hlocate] at h
      cases h
  | ok place =>
      rw [hlocate] at h
      cases place with
      | absent => cases h
      | present loc' node' =>
          cases h
          exact passage_of_locate hlocate

theorem passage_of_linkStat {node : Node} (h : tree.linkStat path = .ok (loc, node)) :
    Passage tree false (tree.start path) (Path.route path).steps
      (Path.route path).directory (.present loc node) := by
  simp only [linkStat] at h
  cases hlocate : tree.locate false path with
  | error e =>
      rw [hlocate] at h
      cases h
  | ok place =>
      rw [hlocate] at h
      cases place with
      | absent => cases h
      | present loc' node' =>
          cases h
          exact passage_of_locate hlocate

theorem exists_leadsTo_of_isDirectory (h : tree.isDirectory path = true) :
    ∃ loc, tree.LeadsTo path loc := by
  simp only [isDirectory] at h
  split at h
  next loc mode hstat => exact ⟨loc, (passage_of_stat hstat).leads⟩
  next => cases h

/-- Where a path leads nothing is missing. -/
theorem LeadsTo.not_absent (h : tree.LeadsTo path dest)
    (habsent : Passage tree false (tree.start path) (Path.route path).steps false (.absent loc)) :
    False := by
  obtain ⟨front, step, mid, hsteps, hname, hleads, rfl, hnode, -⟩ := habsent.exists_leads_of_absent
  rw [LeadsTo, hsteps] at h
  obtain ⟨mid', hfront, hstep⟩ := h.exists_mid
  cases hleads.unique hfront
  exact hstep.node?_ne_none hname hnode

/-- A path leads to the directory that was made for it. -/
theorem leadsTo_put
    (h : Passage tree false (tree.start path) (Path.route path).steps false (.absent loc)) :
    (tree.put loc (.directory directoryMode)).LeadsTo path loc := by
  obtain ⟨front, step, mid, hsteps, hname, hleads, rfl, hnode, -⟩ := h.exists_leads_of_absent
  have hloc : mid ++ [step] ≠ [] := by simp
  have hkeeps : Keeps tree (tree.put (mid ++ [step]) (.directory directoryMode)) :=
    keeps_put hloc hnode
  have hfront : (tree.put (mid ++ [step]) (.directory directoryMode)).Leads (tree.start path)
      front mid :=
    hleads.mono (fun _ _ => hkeeps.directory) (fun _ _ => hkeeps.link)
  rw [LeadsTo, hsteps]
  have hmade : (tree.put (mid ++ [step]) (.directory directoryMode)).node? (mid ++ [step]) =
      some (.directory directoryMode) := by
    rw [node?_put hloc, if_pos rfl]
  exact hfront.append (.enter hname hmade .stay)

/-! ## Above a path below another -/

/-- The steps of the components of a path lead where its own steps lead. -/
theorem LeadsTo.components (h : tree.LeadsTo path dest) :
    tree.Leads (tree.start path) ((path.components.map Path.Component.part).filter (!·.isEmpty))
      dest := by
  rw [← leads_filter_ne_dot, Path.filter_steps, leads_filter_ne_dot]
  exact h

section Names

variable {names : List Name} {n : Nat}

/-- The path of the first components of names below a path. -/
def pathAbove (path : Path) (names : List Name) (n : Nat) : Path :=
  Path.ofComponents ((path.components ++ names.map Path.Component.name).take n)

theorem inOrder_take (hnames : ∀ n ∈ names, Path.IsOrdinary n) :
    Path.InOrder ((path.components ++ names.map Path.Component.name).take n) :=
  ((Path.inOrder_components path).append (Path.isInner_of_mem_names hnames)).take n

theorem start_pathAbove (hnames : ∀ n ∈ names, Path.IsOrdinary n) (hn : n ≠ 0) :
    tree.start (pathAbove path names n) = tree.start path := by
  obtain ⟨k, rfl⟩ := Nat.exists_eq_succ_of_ne_zero hn
  have hhead : ((path.components ++ names.map Path.Component.name).take (k + 1)).head? ==
      some .root ↔ path.components.head? == some .root := by
    cases path.components with
    | nil => cases names <;> simp
    | cons => simp
  rw [start, start, Path.absolute_eq, Path.absolute_eq, pathAbove,
    Path.components_ofComponents (inOrder_take hnames)]
  simp only [hhead]

theorem steps_pathAbove (hnames : ∀ n ∈ names, Path.IsOrdinary n) :
    (Path.route (pathAbove path names n)).steps =
      ((path.components.take n).map Path.Component.part).filter (!·.isEmpty) ++
        names.take (n - path.components.length) := by
  have hordinary : ((names.take (n - path.components.length)).filter fun n => !n.isEmpty) =
      names.take (n - path.components.length) := by
    rw [List.filter_eq_self]
    intro n hn
    simpa [Path.Component.part] using (hnames n (List.mem_of_mem_take hn)).part_ne.1
  have hpart : Path.Component.part ∘ Path.Component.name = id := rfl
  rw [pathAbove, Path.steps_ofComponents (inOrder_take hnames), List.take_append,
    List.map_append, List.filter_append, ← List.map_take, List.map_map, hpart, List.map_id,
    hordinary]

/-- Above what names below a path name, something can only be missing below that path. -/
theorem LeadsTo.exists_of_absent
    (h : tree.LeadsTo path dest) (hnames : ∀ n ∈ names, Path.IsOrdinary n)
    (habsent : Passage tree false (tree.start (pathAbove path names n))
      (Path.route (pathAbove path names n)).steps false (.absent loc)) :
    ∃ front step mid, front ++ [step] <+: names ∧ tree.Leads dest front mid ∧
      loc = mid ++ [step] := by
  have hnot (loc' : Location) : ¬tree.LeadsTo (pathAbove path names n) loc' :=
    fun hleads => hleads.not_absent habsent
  obtain ⟨front, step, mid, hsteps, -, hfront, rfl, -⟩ := habsent.exists_leads_of_absent
  have hn : n ≠ 0 := by
    rintro rfl
    simp [steps_pathAbove hnames] at hsteps
  have hcomponents := h.components
  simp only [LeadsTo, start_pathAbove hnames hn] at hnot hfront
  rw [steps_pathAbove hnames] at hsteps hnot
  rw [← List.take_append_drop n path.components, List.map_append, List.filter_append,
    leads_append] at hcomponents
  obtain ⟨mid', hmid', hdest⟩ := hcomponents
  rcases Nat.le_total n path.components.length with hle | hle
  · rw [Nat.sub_eq_zero_of_le hle, List.take_zero, List.append_nil] at hnot
    exact absurd hmid' (hnot mid')
  · rw [List.drop_eq_nil_of_le hle] at hdest
    cases hdest
    rcases List.eq_nil_or_concat (names.take (n - path.components.length)) with
      hnil | ⟨done, last, hconcat⟩
    · rw [hnil, List.append_nil] at hnot
      exact absurd hmid' (hnot _)
    · rw [hconcat, List.concat_eq_append, ← List.append_assoc] at hsteps
      obtain ⟨rfl, hlast⟩ := List.append_inj' hsteps rfl
      cases hlast
      obtain ⟨mid'', hbase, hdone⟩ := hfront.exists_mid
      cases hbase.unique hmid'
      refine ⟨done, step, mid, ?_, hdone, rfl⟩
      rw [← List.concat_eq_append, ← hconcat]
      exact List.take_prefix _ _

end Names

/-! ## A directory and its ancestors -/

section MakeAlong

variable {paths : List Path} {I : FileTree → Prop}

/-- A failure is passed over if the path is a directory after all. -/
theorem ends_unless_isDirectory {e : Fault} {post : Except Fault Unit → FileTree → Prop}
    (herror : post (.error e) tree) (hok : tree.isDirectory path = true → post (.ok ()) tree) :
    Ends (do unless (← get).isDirectory path do throw e : Edit Unit) tree post := by
  rw [ends_bind, ends_get]
  by_cases h : tree.isDirectory path
  · simpa [h] using hok h
  · simpa [h] using herror

/-- Making directories keeps what each new directory keeps, and success leaves a directory. -/
theorem ends_makeAlong
    (hstep : ∀ p ∈ paths, ∀ u loc, I u →
      Passage u false (u.start p) (Path.route p).steps false (.absent loc) →
        I (u.put loc (.directory directoryMode)))
    (h : I tree) :
    Ends (Edit.makeAlong paths) tree fun result after =>
      I after ∧ (result = .ok () → ∀ p ∈ paths.head?, ∃ loc, after.LeadsTo p loc) := by
  induction paths generalizing tree with
  | nil =>
      simp only [Edit.makeAlong, ends_fail]
      exact ⟨h, fun hok => by cases hok⟩
  | cons p ancestors ih =>
      simp only [List.head?_cons, Option.mem_some_iff, forall_eq']
      simp only [Edit.makeAlong]
      split
      next hempty =>
        rw [List.isEmpty_iff.mp hempty, ends_pure]
        exact ⟨h, fun _ => ⟨_, leadsTo_nil⟩⟩
      next =>
        have hsettle (u : FileTree) (hu : I u) (e : Fault) :
            Ends (do unless (← get).isDirectory p do throw e : Edit Unit) u fun result after =>
              I after ∧ (result = .ok () → ∃ loc, after.LeadsTo p loc) :=
          ends_unless_isDirectory ⟨hu, fun hok => by cases hok⟩
            fun hdirectory => ⟨hu, fun _ => exists_leadsTo_of_isDirectory hdirectory⟩
        have hmade (u : FileTree) (hu : I u) (loc : Location)
            (hloc : u.locateRoute false p.route false = .ok (.absent loc)) :
            I (u.put loc (.directory directoryMode)) ∧
              ∃ loc', (u.put loc (.directory directoryMode)).LeadsTo p loc' :=
          have hpassage := passage_of_locateRoute hloc
          ⟨hstep p List.mem_cons_self u loc hu hpassage, loc, leadsTo_put hpassage⟩
        rw [ends_bind, ends_outcomeOf]
        apply ends_makeDirectory
        · intro e
          dsimp only
          split
          next hok => cases hok
          next e' _ =>
            split
            next =>
              rw [ends_bind]
              refine (ih (fun q hq => hstep q (List.mem_cons_of_mem _ hq)) h).mono ?_
              intro result after hafter
              split
              next =>
                rw [ends_tryCatch]
                apply ends_makeDirectory (fun e => hsettle after hafter.1 e)
                intro loc hloc
                have hmade := hmade after hafter.1 loc hloc
                exact ⟨hmade.1, fun _ => hmade.2⟩
              next => exact ⟨hafter.1, fun hok => by cases hok⟩
            next => exact hsettle tree h _
          next => exact hsettle tree h _
        · intro loc hloc
          exact ⟨(hmade tree h loc hloc).1, fun _ => (hmade tree h loc hloc).2⟩

end MakeAlong

/-- A tree is another with directories added where one of the given paths leads. -/
structure DirectoriesAdded (paths : List Path) (tree made : FileTree) : Prop where
  workingDirectory : made.workingDirectory = tree.workingDirectory
  bodies : made.bodies = tree.bodies
  node (loc : Location) : made.node? loc = tree.node? loc ∨
    tree.node? loc = none ∧ made.node? loc = some (.directory directoryMode) ∧
      ∃ p ∈ paths, p ≠ [] ∧ made.LeadsTo p loc

/-- Links are not among what is added. -/
theorem DirectoriesAdded.node?_eq_link {paths : List Path} {target : Path}
    (h : DirectoriesAdded paths tree tree') (hnode : tree'.node? loc = some (.link target)) :
    tree.node? loc = some (.link target) := by
  rcases h.node loc with heq | ⟨-, hdirectory, -⟩
  · rw [← heq, hnode]
  · simp [hnode] at hdirectory

/-- Making a directory adds it and missing directories above it, and nothing else. -/
theorem directoriesAdded_makeDirectories (tree : FileTree) (path : Path) :
    DirectoriesAdded (path :: Path.above path.components) tree
      ((Edit.makeDirectories path).run tree).2 := by
  have hstep : ∀ p ∈ path :: Path.above path.components, ∀ u loc,
      DirectoriesAdded (path :: Path.above path.components) tree u →
        Passage u false (u.start p) (Path.route p).steps false (.absent loc) →
          DirectoriesAdded (path :: Path.above path.components) tree
            (u.put loc (.directory directoryMode)) := by
    intro p hp u loc hu hpassage
    obtain ⟨front, step, mid, hsteps, -, -, rfl, habsent, -⟩ := hpassage.exists_leads_of_absent
    have hloc : mid ++ [step] ≠ [] := by simp
    have hp' : p ≠ [] := by
      rintro rfl
      simp [Path.route, Text.splitAt] at hsteps
    have hkeeps : Keeps u (u.put (mid ++ [step]) (.directory directoryMode)) :=
      keeps_put hloc habsent
    refine ⟨hu.workingDirectory, hu.bodies, ?_⟩
    intro other
    rw [node?_put hloc]
    split
    next heq =>
      subst heq
      rcases hu.node (mid ++ [step]) with heq | ⟨-, hdirectory, -⟩
      · exact .inr ⟨heq ▸ habsent, rfl, p, hp, hp', leadsTo_put hpassage⟩
      · simp [habsent] at hdirectory
    next =>
      rcases hu.node other with heq | ⟨hnone, hdirectory, q, hq, hq', hleads⟩
      · exact .inl heq
      · exact .inr ⟨hnone, hdirectory, q, hq, hq', hkeeps.leadsTo hleads⟩
  exact (ends_makeAlong hstep ⟨rfl, rfl, fun _ => .inl rfl⟩).1

/-- A directory that could be made is led to. -/
theorem exists_leadsTo_of_makeDirectories
    (h : ((Edit.makeDirectories path).run tree).1 = .ok ()) :
    ∃ loc, ((Edit.makeDirectories path).run tree).2.LeadsTo path loc :=
  (ends_makeAlong (I := fun _ => True) (fun _ _ _ _ _ _ => trivial) trivial).2 h path rfl

end StackControl.FileTree
