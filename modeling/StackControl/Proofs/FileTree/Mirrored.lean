import StackControl.Proofs.FileTree.Growing
import StackControl.Proofs.FileTree.InStep

/-!
# Two trees with the same below two directories

Two directories that are empty at first, each in a tree of its own, are filled alike if whatever is
done in one is done in the other.  A path below the first and its counterpart below the second then
always find the same, fail for the same reason, and can be changed in the same way; so two series of
changes at counterparts go in step, whether they succeed or not.
-/

namespace StackControl.FileTree

/-! ## A directory that is filled -/

/-- A directory that holds nothing and to which names may be added. -/
structure Blank (before : FileTree) (top : Location) : Prop where
  opened : ∃ mode, before.node? top = some (.directory mode) ∧
    writable mode = true ∧ searchable mode = true
  empty {loc : Location} : Inside top loc → before.node? loc = none

/-- A tree is another in which a directory that held nothing has been filled, without symbolic
links. -/
structure Filled (before : FileTree) (top : Location) (tree : FileTree) : Prop where
  blank : before.Blank top
  workingDirectory : tree.workingDirectory = before.workingDirectory
  outside {loc : Location} : ¬Inside top loc → tree.node? loc = before.node? loc
  noLinks : NoLinkBelow tree top

/-- A path goes by a way to a location and on with the names. -/
def GoesBelow (tree : FileTree) (path : Path) (top : Location) (names : List Name) : Prop :=
  ∃ steps left, (Path.route path).steps = steps ++ names ∧
    tree.Way linkLimit (tree.start path) steps left top

variable {before before' tree tree' : FileTree} {top top' : Location} {path path' target : Path}
  {names : List Name} {node : Node}

namespace Filled

protected theorem refl (h : before.Blank top) : Filled before top before where
  blank := h
  workingDirectory := rfl
  outside _ := rfl
  noLinks loc target hloc hnode := by
    rw [h.empty hloc] at hnode
    cases hnode

variable (h : Filled before top tree)

include h

theorem exists_top : ∃ mode, tree.node? top = some (.directory mode) ∧
    writable mode = true ∧ searchable mode = true := by
  rw [h.outside fun hinside => hinside.2 rfl]
  exact h.blank.opened

/-- A way is still there, because nothing that was passed has changed. -/
theorem goesBelow (hpath : before.GoesBelow path top names) : tree.GoesBelow path top names := by
  obtain ⟨steps, left, hsteps, hway⟩ := hpath
  have hstart : tree.start path = before.start path := by
    rw [start, start, h.workingDirectory]
  refine ⟨steps, left, hsteps, ?_⟩
  rw [hstart]
  exact hway.of_outside h.blank.empty h.outside

/-- What is below the top may be changed at the end of names. -/
theorem of_change (hworking : tree'.workingDirectory = tree.workingDirectory) (hne : names ≠ [])
    (hother : ∀ loc, loc ≠ top ++ names → tree'.node? loc = tree.node? loc)
    (hlink : ∀ target, tree'.node? (top ++ names) ≠ some (.link target)) :
    Filled before top tree' where
  blank := h.blank
  workingDirectory := hworking.trans h.workingDirectory
  outside {loc} hloc := by
    rw [hother loc, h.outside hloc]
    rintro rfl
    exact hloc (inside_append_names hne)
  noLinks loc target hloc hnode := by
    by_cases heq : loc = top ++ names
    · exact hlink target (heq ▸ hnode)
    · exact h.noLinks loc target hloc (hother loc heq ▸ hnode)

end Filled

/-! ## Two directories that are filled alike -/

/-- What is below two locations is the same, and was put there since both were empty. -/
structure Mirrored (before before' : FileTree) (top top' : Location) (tree tree' : FileTree) :
    Prop where
  left : Filled before top tree
  right : Filled before' top' tree'
  node {names : List Name} : names ≠ [] → tree.node? (top ++ names) = tree'.node? (top' ++ names)
  bodies : tree.bodies = tree'.bodies

/-- Two searches end alike: with the same error, or at the same names below two locations. -/
inductive Corresponds {ε : Type} (tree : FileTree) (top top' : Location) (names : List Name) :
    Except ε Place → Except ε Place → Prop
  | error (e : ε) : Corresponds tree top top' names (.error e) (.error e)
  | absent : tree.node? (top ++ names) = none →
      Corresponds tree top top' names (.ok (.absent (top ++ names))) (.ok (.absent (top' ++ names)))
  | present (node : Node) : tree.node? (top ++ names) = some node →
      Corresponds tree top top' names (.ok (.present (top ++ names) node))
        (.ok (.present (top' ++ names) node))

/-- Two paths go on with the same names below two locations, and are in themselves equally good. -/
structure Counterparts (before before' : FileTree) (top top' : Location) (path path' : Path)
    (names : List Name) : Prop where
  check : checkPath path = checkPath path'
  directory : (Path.route path).directory = false
  directory' : (Path.route path').directory = false
  below : before.GoesBelow path top names
  below' : before'.GoesBelow path' top' names

namespace Mirrored

variable (follow directory : Bool) (left left' : Nat) {pre : List Name}

section Search

variable (h : Mirrored before before' top top' tree tree')

include h

/-- The same may be searched, or both tops. -/
theorem searchable_cases {mode : Nat} (hnode : tree.node? (top ++ names) = some (.directory mode)) :
    ∃ mode', tree'.node? (top' ++ names) = some (.directory mode') ∧
      searchable mode = searchable mode' := by
  by_cases hnil : names = []
  · subst hnil
    obtain ⟨mode₁, htop, -, hsearch⟩ := h.left.exists_top
    obtain ⟨mode₂, htop', -, hsearch'⟩ := h.right.exists_top
    rw [List.append_nil, htop] at hnode
    cases hnode
    exact ⟨mode₂, by rw [List.append_nil, htop'], hsearch.trans hsearch'.symm⟩
  · exact ⟨mode, h.node hnil ▸ hnode, rfl⟩

theorem mayEdit_eq (names : List Name) :
    tree.mayEdit (top ++ names) = tree'.mayEdit (top' ++ names) := by
  by_cases hnil : names = []
  · subst hnil
    obtain ⟨mode, htop, hwrite, hsearch⟩ := h.left.exists_top
    obtain ⟨mode', htop', hwrite', hsearch'⟩ := h.right.exists_top
    simp [mayEdit, htop, htop', hwrite, hsearch, hwrite', hsearch']
  · rw [mayEdit, mayEdit, h.node hnil]

/-- From corresponding directories, walks with the same names end alike. -/
theorem walk_corresponds (hnames : ∀ n ∈ names, IsName n) (hne : names ≠ []) {mode : Nat}
    (hmode : tree.node? (top ++ pre) = some (.directory mode)) :
    Corresponds tree top top' (pre ++ names)
      (tree.walk follow left (top ++ pre) names directory)
      (tree'.walk follow left' (top' ++ pre) names directory) := by
  -- There is no symbolic link below the tops, so how walks go on behind links does not matter.
  rw [walk_eq_walkSteps, walk_eq_walkSteps]
  generalize tree.onward follow left = onLink
  generalize tree'.onward follow left' = onLink'
  induction names generalizing pre mode with
  | nil => exact absurd rfl hne
  | cons step rest ih =>
      obtain ⟨hstep, hrest⟩ := List.forall_mem_cons.mp hnames
      obtain ⟨mode', hmode', hsearch⟩ := h.searchable_cases hmode
      have hnode : tree.node? (top ++ (pre ++ [step])) = tree'.node? (top' ++ (pre ++ [step])) :=
        h.node (by simp)
      have hsplit : pre ++ step :: rest = (pre ++ [step]) ++ rest := by simp
      simp only [walkSteps, hmode, hmode', hsearch, beq_false_of_ne hstep.1,
        beq_false_of_ne hstep.2, Bool.false_eq_true, if_false, List.append_assoc]
      split
      · exact .error _
      split
      · exact .error _
      rw [← hnode]
      rcases hfound : tree.node? (top ++ (pre ++ [step])) with _ | ⟨mode''⟩ | target | body
      · rcases rest with _ | ⟨n, rest⟩
        · exact .absent hfound
        · exact .error _
      · rcases rest with _ | ⟨n, rest⟩
        · simp only [walkSteps, hfound, ← hnode]
          exact .present _ hfound
        · rw [hsplit]
          exact ih hrest (List.cons_ne_nil _ _) hfound
      · exact absurd hfound (h.left.noLinks _ _ (inside_append_names (by simp)))
      · rcases rest with _ | ⟨n, rest⟩
        · rcases directory with _ | _
          · exact .present _ hfound
          · exact .error _
        · exact .error _

variable (hpath : Counterparts before before' top top' path path' names)
  (hnames : ∀ n ∈ names, Path.IsOrdinary n) (hne : names ≠ [])

include hpath hnames hne

theorem locateRoute_corresponds :
    Corresponds tree top top' names (tree.locateRoute follow (Path.route path) directory)
      (tree'.locateRoute follow (Path.route path') directory) := by
  obtain ⟨steps, left, hsteps, hway⟩ := h.left.goesBelow hpath.below
  obtain ⟨steps', left', hsteps', hway'⟩ := h.right.goesBelow hpath.below'
  obtain ⟨mode, htop, -⟩ := h.left.exists_top
  have hwalk := h.walk_corresponds follow directory left left' (fun n hn => (hnames n hn).isName)
    hne (show tree.node? (top ++ []) = some (.directory mode) by rwa [List.append_nil])
  rw [List.append_nil, List.append_nil, List.nil_append] at hwalk
  rw [← hway.walk_append hne, ← hway'.walk_append hne, ← hsteps, ← hsteps', start, start] at hwalk
  rw [locateRoute, locateRoute]
  generalize tree.walk follow linkLimit _ _ directory = found at hwalk
  generalize tree'.walk follow linkLimit _ _ directory = found' at hwalk
  cases hwalk with
  | error e => exact .error _
  | absent hnode => exact .absent hnode
  | present node hnode => exact .present node hnode

theorem locate_corresponds :
    Corresponds tree top top' names (tree.locate follow path) (tree'.locate follow path') := by
  have hroute := h.locateRoute_corresponds follow false hpath hnames hne
  rw [locate, locate, hpath.check, hpath.directory, hpath.directory']
  rcases checkPath path' with e | _
  · exact .error e
  · exact hroute

end Search

/-! ### Changes at counterparts -/

section Change

variable (h : Mirrored before before' top top' tree tree')

include h

/-- The same change below both tops leaves the same there. -/
theorem of_change {after after' : FileTree} (hne : names ≠ [])
    (hworking : after.workingDirectory = tree.workingDirectory)
    (hworking' : after'.workingDirectory = tree'.workingDirectory)
    (hother : ∀ loc, loc ≠ top ++ names → after.node? loc = tree.node? loc)
    (hother' : ∀ loc, loc ≠ top' ++ names → after'.node? loc = tree'.node? loc)
    (hnode : after.node? (top ++ names) = after'.node? (top' ++ names))
    (hlink : ∀ target, after.node? (top ++ names) ≠ some (.link target))
    (hbodies : after.bodies = after'.bodies) :
    Mirrored before before' top top' after after' where
  left := h.left.of_change hworking hne hother hlink
  right := h.right.of_change hworking' hne hother' fun target => hnode ▸ hlink target
  node {others} hothers := by
    by_cases heq : others = names
    · rw [heq, hnode]
    · rw [hother _ fun hsame => heq (List.append_cancel_left hsame),
        hother' _ fun hsame => heq (List.append_cancel_left hsame), h.node hothers]
  bodies := hbodies

theorem put (hne : names ≠ []) (hlink : ∀ target, node ≠ .link target) :
    Mirrored before before' top top' (tree.put (top ++ names) node)
      (tree'.put (top' ++ names) node) := by
  have hloc : top ++ names ≠ [] := by simp [hne]
  have hloc' : top' ++ names ≠ [] := by simp [hne]
  refine h.of_change hne rfl rfl (fun loc hother => ?_) (fun loc hother => ?_) ?_ ?_ h.bodies
  · rw [node?_put hloc, if_neg hother]
  · rw [node?_put hloc', if_neg hother]
  · rw [node?_put hloc, node?_put hloc', if_pos rfl, if_pos rfl]
  · intro target hnode
    rw [node?_put hloc, if_pos rfl] at hnode
    exact hlink target (Option.some.inj hnode)

theorem putFile (hne : names ≠ []) (body : FileBody) :
    Mirrored before before' top top' (tree.putFile (top ++ names) body)
      (tree'.putFile (top' ++ names) body) := by
  have hput := h.put hne (show ∀ target, Node.file tree.bodies.length ≠ .link target from nofun)
  have hbodies : tree.bodies ++ [body] = tree'.bodies ++ [body] := by rw [h.bodies]
  rw [FileTree.putFile, FileTree.putFile, ← h.bodies]
  exact ⟨⟨hput.left.blank, hput.left.workingDirectory, hput.left.outside, hput.left.noLinks⟩,
    ⟨hput.right.blank, hput.right.workingDirectory, hput.right.outside, hput.right.noLinks⟩,
    hput.node, rfl⟩

theorem drop (hne : names ≠ []) :
    Mirrored before before' top top' (tree.drop (top ++ names)) (tree'.drop (top' ++ names)) := by
  have hloc : top ++ names ≠ [] := by simp [hne]
  have hloc' : top' ++ names ≠ [] := by simp [hne]
  refine h.of_change hne rfl rfl (fun loc hother => ?_) (fun loc hother => ?_) ?_ ?_ h.bodies
  · rw [node?_drop hloc, if_neg hother]
  · rw [node?_drop hloc', if_neg hother]
  · rw [node?_drop hloc, node?_drop hloc', if_pos rfl, if_pos rfl]
  · intro target hnode
    rw [node?_drop hloc, if_pos rfl] at hnode
    cases hnode

theorem setBody (i : Nat) (body : FileBody) :
    Mirrored before before' top top' (tree.setBody i body) (tree'.setBody i body) where
  left := by
    refine ⟨h.left.blank, h.left.workingDirectory, fun hloc => ?_, fun loc target hloc => ?_⟩
    · rw [node?_setBody, h.left.outside hloc]
    · rw [node?_setBody]
      exact h.left.noLinks loc target hloc
  right := by
    refine ⟨h.right.blank, h.right.workingDirectory, fun hloc => ?_, fun loc target hloc => ?_⟩
    · rw [node?_setBody, h.right.outside hloc]
    · rw [node?_setBody]
      exact h.right.noLinks loc target hloc
  node hne := by rw [node?_setBody, node?_setBody, h.node hne]
  bodies := by rw [bodies_setBody, bodies_setBody, h.bodies]

end Change

/-! ### Operations at counterparts -/

section Operations

variable (h : Mirrored before before' top top' tree tree')
  (hpath : Counterparts before before' top top' path path' names)
  (hnames : ∀ n ∈ names, Path.IsOrdinary n) (hne : names ≠ [])

include h hne in
/-- The directories that hold two corresponding places take changes alike. -/
theorem inStep_demandEdit {change change' : Edit Unit}
    (hchange : InStep (Mirrored before before' top top') change change' tree tree') :
    InStep (Mirrored before before' top top')
      (Edit.demandEdit (top ++ names) >>= fun _ => change)
      (Edit.demandEdit (top' ++ names) >>= fun _ => change') tree tree' := by
  rw [InStep, run_bind, run_bind, run_demandEdit, run_demandEdit,
    List.dropLast_append_of_ne_nil hne, List.dropLast_append_of_ne_nil hne, h.mayEdit_eq]
  rcases tree'.mayEdit (top' ++ names.dropLast) with _ | _
  · exact ⟨rfl, h⟩
  · exact hchange

include h hpath hnames hne

theorem inStep_makeDirectory :
    InStep (Mirrored before before' top top') (Edit.makeDirectory path) (Edit.makeDirectory path')
      tree tree' := by
  have hroute := h.locateRoute_corresponds false false hpath hnames hne
  simp only [InStep, Edit.makeDirectory, run_bind, run_look, hpath.check]
  rcases checkPath path' with e | _
  · exact ⟨rfl, h⟩
  dsimp only
  generalize tree.locateRoute false (Path.route path) false = found at hroute ⊢
  generalize tree'.locateRoute false (Path.route path') false = found' at hroute ⊢
  cases hroute with
  | error e => exact ⟨rfl, h⟩
  | absent =>
      exact h.inStep_demandEdit hne ⟨rfl, h.put hne fun _ => Node.noConfusion⟩
  | present => exact ⟨rfl, h⟩

theorem inStep_create (content : Bytes) :
    InStep (Mirrored before before' top top') (Edit.create path content)
      (Edit.create path' content) tree tree' := by
  have hlocate := h.locate_corresponds false hpath hnames hne
  simp only [InStep, Edit.create, Edit.refuseDirectoryPath, run_bind, run_look, run_pure,
    hpath.check, hpath.directory, hpath.directory', Bool.false_eq_true, if_false]
  rcases checkPath path' with e | _
  · exact ⟨rfl, h⟩
  dsimp only
  generalize tree.locate false path = found at hlocate ⊢
  generalize tree'.locate false path' = found' at hlocate ⊢
  cases hlocate with
  | error e => exact ⟨rfl, h⟩
  | absent => exact h.inStep_demandEdit hne ⟨rfl, h.putFile hne _⟩
  | present => exact ⟨rfl, h⟩

theorem inStep_removeFile :
    InStep (Mirrored before before' top top') (Edit.removeFile path) (Edit.removeFile path')
      tree tree' := by
  have hlocate := h.locate_corresponds false hpath hnames hne
  simp only [InStep, Edit.removeFile, run_bind, run_look]
  generalize tree.locate false path = found at hlocate ⊢
  generalize tree'.locate false path' = found' at hlocate ⊢
  cases hlocate with
  | error e => exact ⟨rfl, h⟩
  | absent => exact ⟨rfl, h⟩
  | present node =>
      cases node with
      | directory => exact ⟨rfl, h⟩
      | link => exact h.inStep_demandEdit hne ⟨rfl, h.drop hne⟩
      | file => exact h.inStep_demandEdit hne ⟨rfl, h.drop hne⟩

/-- A hard link is made alike if what it is to be a name of is the same, and no symbolic link. -/
theorem inStep_hardLink {source : Path}
    (hsource : tree.locate false source = tree'.locate false source)
    (hlink : ∀ loc target, tree.locate false source ≠ .ok (.present loc (.link target))) :
    InStep (Mirrored before before' top top') (Edit.hardLink source path)
      (Edit.hardLink source path') tree tree' := by
  have hlocate := h.locate_corresponds false hpath hnames hne
  simp only [InStep, Edit.hardLink, run_bind, run_look, ← hsource]
  rcases hfound : tree.locate false source with e | ⟨loc, node⟩ | loc
  · exact ⟨rfl, h⟩
  · dsimp only
    simp only [run_bind, run_look]
    generalize tree.locate false path = found at hlocate ⊢
    generalize tree'.locate false path' = found' at hlocate ⊢
    cases hlocate with
    | error e => exact ⟨rfl, h⟩
    | absent =>
        refine h.inStep_demandEdit hne ?_
        cases node with
        | directory => exact ⟨rfl, h⟩
        | link target => exact absurd hfound (hlink loc target)
        | file => exact ⟨rfl, h.put hne fun _ => Node.noConfusion⟩
    | present => exact ⟨rfl, h⟩
  · exact ⟨rfl, h⟩

theorem stat_corresponds :
    (∃ e, tree.stat path = .error e ∧ tree'.stat path' = .error e) ∨
      ∃ node, tree.stat path = .ok (top ++ names, node) ∧
        tree'.stat path' = .ok (top' ++ names, node) := by
  have hlocate := h.locate_corresponds true hpath hnames hne
  rw [stat, stat]
  generalize tree.locate true path = found at hlocate ⊢
  generalize tree'.locate true path' = found' at hlocate ⊢
  cases hlocate with
  | error e => exact .inl ⟨e, rfl, rfl⟩
  | absent => exact .inl ⟨_, rfl, rfl⟩
  | present node => exact .inr ⟨node, rfl, rfl⟩

theorem linkStat_corresponds :
    (∃ e, tree.linkStat path = .error e ∧ tree'.linkStat path' = .error e) ∨
      ∃ node, tree.linkStat path = .ok (top ++ names, node) ∧
        tree'.linkStat path' = .ok (top' ++ names, node) := by
  have hlocate := h.locate_corresponds false hpath hnames hne
  rw [linkStat, linkStat]
  generalize tree.locate false path = found at hlocate ⊢
  generalize tree'.locate false path' = found' at hlocate ⊢
  cases hlocate with
  | error e => exact .inl ⟨e, rfl, rfl⟩
  | absent => exact .inl ⟨_, rfl, rfl⟩
  | present node => exact .inr ⟨node, rfl, rfl⟩

theorem inStep_setMode (mode : Nat) :
    InStep (Mirrored before before' top top') (Edit.setMode path mode) (Edit.setMode path' mode)
      tree tree' := by
  simp only [InStep, Edit.setMode, run_bind, run_look]
  rcases h.stat_corresponds hpath hnames hne with ⟨e, hstat, hstat'⟩ | ⟨node, hstat, hstat'⟩
  · rw [hstat, hstat']
    exact ⟨rfl, h⟩
  · rw [hstat, hstat']
    cases node with
    | directory => exact ⟨rfl, h.put hne fun _ => Node.noConfusion⟩
    | link => exact ⟨rfl, h⟩
    | file i =>
        simp only [run_bind, run_get, ← h.bodies]
        cases tree.bodies[i]? with
        | none => exact ⟨rfl, h⟩
        | some body => exact ⟨rfl, h.setBody i _⟩

theorem isDirectory_eq : tree.isDirectory path = tree'.isDirectory path' := by
  rw [isDirectory, isDirectory]
  rcases h.stat_corresponds hpath hnames hne with ⟨e, hstat, hstat'⟩ | ⟨node, hstat, hstat'⟩
  · rw [hstat, hstat']
  · rw [hstat, hstat']
    cases node <;> rfl

end Operations

/-! ### Making directories -/

section MakeAlong

variable (hpath : Counterparts before before' top top' path path' names)
  (hnames : ∀ n ∈ names, Path.IsOrdinary n) (hne : names ≠ [])

include hpath hnames hne

/-- A failure is passed over in both trees or in neither. -/
theorem inStep_unless_isDirectory (h : Mirrored before before' top top' tree tree') (e : Fault) :
    InStep (Mirrored before before' top top')
      (do unless (← get).isDirectory path do throw e : Edit Unit)
      (do unless (← get).isDirectory path' do throw e) tree tree' := by
  simp only [InStep, run_bind, run_get, ← h.isDirectory_eq hpath hnames hne]
  cases tree.isDirectory path with
  | false => exact ⟨rfl, h⟩
  | true => exact ⟨rfl, h⟩

/-- Making a directory goes in step if making those above it does. -/
theorem inStep_makeAlong_cons {ancestors ancestors' : List Path} (hempty : path ≠ [])
    (hempty' : path' ≠ []) (h : Mirrored before before' top top' tree tree')
    (hancestors : ∀ {tree tree'}, Mirrored before before' top top' tree tree' →
      InStep (Mirrored before before' top top') (Edit.makeAlong ancestors)
        (Edit.makeAlong ancestors') tree tree') :
    InStep (Mirrored before before' top top') (Edit.makeAlong (path :: ancestors))
      (Edit.makeAlong (path' :: ancestors')) tree tree' := by
  rw [Edit.makeAlong, Edit.makeAlong, if_neg (by simpa using hempty), if_neg (by simpa using hempty')]
  refine (h.inStep_makeDirectory hpath hnames hne).outcomeOf.bind fun answer tree tree' h => ?_
  have hsettle (e : Fault) {tree tree' : FileTree}
      (h : Mirrored before before' top top' tree tree') :=
    inStep_unless_isDirectory hpath hnames hne h e
  rcases answer with (e | _ | _) | _
  · dsimp only
    split
    · refine (hancestors h).bind fun _ tree tree' h => ?_
      exact (h.inStep_makeDirectory hpath hnames hne).tryCatch fun e _ _ h => hsettle e h
    · exact hsettle _ h
  · exact hsettle _ h
  · exact hsettle _ h
  · exact inStep_pure h ()

end MakeAlong

end Mirrored

end StackControl.FileTree
