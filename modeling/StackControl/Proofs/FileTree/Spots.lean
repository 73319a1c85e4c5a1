import StackControl.Proofs.FileTree.Removal
import StackControl.Proofs.FileTree.Ways
import StackControl.Proofs.FileTree.Writing

/-!
# What happens at the end of a way

Where a way of all steps of a path but the last is known, so is what each operation does there: it
depends only on what stands at the last step, and on whether names may be added to the directory
that holds it.
-/

namespace StackControl.FileTree

/-- A path that can be used names something in a directory that may be searched. -/
structure Spot (tree : FileTree) (path : Path) (dest : Location) (last : Name) : Prop where
  check : checkPath path = .ok ()
  way : ∃ front left, (Path.route path).steps = front ++ [last] ∧
    tree.Way linkLimit (tree.start path) front left dest
  search : tree.MaySearch dest
  name : IsEntryName last

variable {tree : FileTree} {path : Path} {dest : Location} {last : Name}
  {follow directory : Bool} {left mode i : Nat} {content : Bytes} {body : FileBody}
  {post : Except Fault Unit → FileTree → Prop}

theorem locateRoute_of_walk {place : Place}
    (h : tree.walk follow linkLimit (tree.start path) (Path.route path).steps directory =
      .ok place) :
    tree.locateRoute follow (Path.route path) directory = .ok place := by
  rw [start] at h
  rw [locateRoute, h]

theorem locate_of_locateRoute {place : Place} (hcheck : checkPath path = .ok ())
    (h : tree.locateRoute follow (Path.route path) (Path.route path).directory = .ok place) :
    tree.locate follow path = .ok place := by
  rw [locate, hcheck]
  exact h

theorem exists_way_of_locate
    (h : tree.locate follow path = .ok (.present dest (.directory mode))) :
    ∃ left, tree.Way linkLimit (tree.start path) (Path.route path).steps left dest := by
  simp only [locate] at h
  cases hcheck : checkPath path with
  | error e =>
      rw [hcheck] at h
      cases h
  | ok _ =>
      rw [hcheck] at h
      change tree.locateRoute follow path.route path.route.directory = _ at h
      rw [locateRoute] at h
      split at h
      next place hwalk =>
        cases h
        exact exists_way_of_walk hwalk
      next => cases h

/-- A directory at the end of a way is found. -/
theorem stat_of_way (hcheck : checkPath path = .ok ())
    (hway : tree.Way linkLimit (tree.start path) (Path.route path).steps left dest)
    (hdest : tree.node? dest = some (.directory mode)) :
    tree.stat path = .ok (dest, .directory mode) := by
  rw [stat, locate_of_locateRoute hcheck (locateRoute_of_walk (hway.walk_eq hdest))]
  rfl

theorem ends_makeDirectory_error {e : Fault} (hcheck : checkPath path = .ok ())
    (hroute : tree.locateRoute false (Path.route path) false = .error e) :
    Ends (Edit.makeDirectory path) tree post ↔ post (.error e) tree := by
  simp only [Edit.makeDirectory, ends_bind, ends_look, hcheck, hroute]

theorem ends_makeDirectory_present {node : Node} (hcheck : checkPath path = .ok ())
    (hroute : tree.locateRoute false (Path.route path) false = .ok (.present dest node)) :
    Ends (Edit.makeDirectory path) tree post ↔ post (.error (.os .alreadyExists)) tree := by
  simp only [Edit.makeDirectory, ends_bind, ends_look, hcheck, hroute, ends_fail]

namespace Spot

variable (h : tree.Spot path dest last)

include h

theorem locateRoute_absent (hnode : tree.node? (dest ++ [last]) = none) :
    tree.locateRoute follow (Path.route path) directory = .ok (.absent (dest ++ [last])) := by
  obtain ⟨front, left, hsteps, hway⟩ := h.way
  refine locateRoute_of_walk ?_
  rw [hsteps, hway.walk_append (List.cons_ne_nil _ _), walk_missing h.search h.name hnode,
    if_pos rfl]

theorem locateRoute_file (hnode : tree.node? (dest ++ [last]) = some (.file i)) :
    tree.locateRoute follow (Path.route path) false =
      .ok (.present (dest ++ [last]) (.file i)) := by
  obtain ⟨front, left, hsteps, hway⟩ := h.way
  refine locateRoute_of_walk ?_
  rw [hsteps, hway.walk_append (List.cons_ne_nil _ _), walk_file h.search h.name hnode]

theorem locateRoute_directory (hnode : tree.node? (dest ++ [last]) = some (.directory mode)) :
    tree.locateRoute follow (Path.route path) directory =
      .ok (.present (dest ++ [last]) (.directory mode)) := by
  obtain ⟨front, left, hsteps, hway⟩ := h.way
  refine locateRoute_of_walk ?_
  rw [hsteps, hway.walk_append (List.cons_ne_nil _ _), walk_enter h.search h.name hnode,
    walk_nil hnode]

omit h in
theorem ends_demandEdit (hedit : tree.mayEdit dest = true) :
    Ends (Edit.demandEdit (dest ++ [last])) tree post ↔ post (.ok ()) tree := by
  simp only [Edit.demandEdit, ends_bind, ends_get, List.dropLast_concat, hedit, if_true, ends_pure]

theorem ends_makeDirectory_absent (hnode : tree.node? (dest ++ [last]) = none)
    (hedit : tree.mayEdit dest = true) :
    Ends (Edit.makeDirectory path) tree post ↔
      post (.ok ()) (tree.put (dest ++ [last]) (.directory directoryMode)) := by
  simp only [Edit.makeDirectory, ends_bind, ends_look, h.check, h.locateRoute_absent hnode,
    ends_demandEdit hedit, ends_modify]

theorem ends_makeDirectory_directory
    (hnode : tree.node? (dest ++ [last]) = some (.directory mode)) :
    Ends (Edit.makeDirectory path) tree post ↔ post (.error (.os .alreadyExists)) tree :=
  ends_makeDirectory_present h.check (h.locateRoute_directory hnode)

section File

variable (hdirectory : (Path.route path).directory = false)

include hdirectory

theorem locate_file (hnode : tree.node? (dest ++ [last]) = some (.file i)) :
    tree.locate follow path = .ok (.present (dest ++ [last]) (.file i)) := by
  refine locate_of_locateRoute h.check ?_
  rw [hdirectory]
  exact h.locateRoute_file hnode

theorem ends_create_absent (hnode : tree.node? (dest ++ [last]) = none)
    (hedit : tree.mayEdit dest = true) :
    Ends (Edit.create path content) tree post ↔
      post (.ok ()) (tree.putFile (dest ++ [last]) ⟨fileMode, content⟩) := by
  have hlocate : tree.locate false path = .ok (.absent (dest ++ [last])) :=
    locate_of_locateRoute h.check (h.locateRoute_absent hnode)
  simp only [Edit.create, Edit.refuseDirectoryPath, ends_bind, ends_look, h.check, hdirectory,
    hlocate, ends_demandEdit hedit, ends_modify, Bool.false_eq_true, if_false, ends_pure]

theorem ends_create_file (hnode : tree.node? (dest ++ [last]) = some (.file i)) :
    Ends (Edit.create path content) tree post ↔ post (.error (.os .alreadyExists)) tree := by
  simp only [Edit.create, Edit.refuseDirectoryPath, ends_bind, ends_look, h.check, hdirectory,
    h.locate_file hdirectory hnode, ends_fail, Bool.false_eq_true, if_false, ends_pure]

theorem ends_removeFile (hnode : tree.node? (dest ++ [last]) = some (.file i))
    (hedit : tree.mayEdit dest = true) :
    Ends (Edit.removeFile path) tree post ↔ post (.ok ()) (tree.drop (dest ++ [last])) := by
  simp only [Edit.removeFile, ends_bind, ends_look, h.locate_file hdirectory hnode,
    ends_demandEdit hedit, ends_modify]

theorem ends_setMode_file (hnode : tree.node? (dest ++ [last]) = some (.file i))
    (hbody : tree.bodies[i]? = some body) :
    Ends (Edit.setMode path mode) tree post ↔
      post (.ok ()) (tree.setBody i { body with mode := mode }) := by
  have hstat : tree.stat path = .ok (dest ++ [last], .file i) := by
    rw [stat, h.locate_file hdirectory hnode]
    rfl
  simp only [Edit.setMode, ends_bind, ends_look, hstat, ends_get, hbody, ends_modify]

/-- Where nothing stands, a file is made. -/
theorem run_write_absent (hnode : tree.node? (dest ++ [last]) = none)
    (hedit : tree.mayEdit dest = true) :
    (Edit.write path content).run tree =
      (.ok (), tree.putFile (dest ++ [last]) ⟨fileMode, content⟩) := by
  have hlocate : tree.locate true path = .ok (.absent (dest ++ [last])) :=
    locate_of_locateRoute h.check (h.locateRoute_absent hnode)
  have hends : Ends (Edit.write path content) tree fun result after =>
      result = .ok () ∧ after = tree.putFile (dest ++ [last]) ⟨fileMode, content⟩ := by
    simp [Edit.write, Edit.refuseDirectoryPath, h.check, hdirectory, hlocate,
      ends_demandEdit hedit]
  exact Prod.ext hends.1 hends.2

/-- A file that may be written gets new content. -/
theorem run_write_file (hnode : tree.node? (dest ++ [last]) = some (.file i))
    (hbody : tree.bodies[i]? = some body) (hwritable : writable body.mode = true) :
    (Edit.write path content).run tree =
      (.ok (), tree.setBody i { body with content := content }) := by
  have hstat : tree.stat path = .ok (dest ++ [last], .file i) := by
    rw [stat, h.locate_file hdirectory hnode]
    rfl
  exact run_write hstat hdirectory hbody hwritable

end File

theorem locate_directory (hnode : tree.node? (dest ++ [last]) = some (.directory mode)) :
    tree.locate follow path = .ok (.present (dest ++ [last]) (.directory mode)) :=
  locate_of_locateRoute h.check (h.locateRoute_directory hnode)

theorem ends_setMode_directory {mode' : Nat}
    (hnode : tree.node? (dest ++ [last]) = some (.directory mode)) :
    Ends (Edit.setMode path mode') tree post ↔
      post (.ok ()) (tree.put (dest ++ [last]) (.directory mode')) := by
  have hstat : tree.stat path = .ok (dest ++ [last], .directory mode) := by
    rw [stat, h.locate_directory hnode]
    rfl
  simp only [Edit.setMode, ends_bind, ends_look, hstat, ends_modify]

end Spot

/-! ## Directories along a path -/

section MakeAlong

variable {ancestors : List Path}

theorem ne_nil_of_checkPath (h : checkPath path = .ok ()) : path.isEmpty = false := by
  cases path with
  | nil => cases h
  | cons => rfl

/-- A directory that is there is left as it is. -/
theorem ends_makeAlong_present (hstat : tree.stat path = .ok (dest, .directory mode)) :
    Ends (Edit.makeAlong (path :: ancestors)) tree post ↔ post (.ok ()) tree := by
  obtain ⟨hcheck, hlocate⟩ := locate_of_stat hstat
  rw [locate, hcheck] at hlocate
  have hasking : false = true → (Path.route path).directory = true := Bool.noConfusion
  obtain ⟨dest', node', hpresent⟩ := exists_locateRoute_of_asking hasking hlocate
  have hdirectory : tree.isDirectory path = true := by rw [isDirectory, hstat]
  simp only [Edit.makeAlong, ne_nil_of_checkPath hcheck, Bool.false_eq_true, if_false, ends_bind,
    ends_outcomeOf, ends_makeDirectory_present hcheck hpresent]
  rw [if_neg (by decide)]
  simp only [ends_bind, ends_get, hdirectory, if_true, ends_pure]

theorem ends_makeAlong_absent (h : tree.Spot path dest last)
    (hnode : tree.node? (dest ++ [last]) = none) (hedit : tree.mayEdit dest = true) :
    Ends (Edit.makeAlong (path :: ancestors)) tree post ↔
      post (.ok ()) (tree.put (dest ++ [last]) (.directory directoryMode)) := by
  simp only [Edit.makeAlong, ne_nil_of_checkPath h.check, Bool.false_eq_true, if_false, ends_bind,
    ends_outcomeOf, h.ends_makeDirectory_absent hnode hedit, ends_pure]

/-- If something is missing on the way, the directories above come first. -/
theorem ends_makeAlong_missing (hcheck : checkPath path = .ok ())
    (hmissing : tree.locateRoute false (Path.route path) false = .error (.os .notFound))
    (hancestors : Ends (Edit.makeAlong ancestors) tree fun result after =>
      result = .ok () ∧ ∃ dest last, after.Spot path dest last ∧
        after.node? (dest ++ [last]) = none ∧ after.mayEdit dest = true ∧
          post (.ok ()) (after.put (dest ++ [last]) (.directory directoryMode))) :
    Ends (Edit.makeAlong (path :: ancestors)) tree post := by
  simp only [Edit.makeAlong, ne_nil_of_checkPath hcheck, Bool.false_eq_true, if_false, ends_bind,
    ends_outcomeOf, ends_makeDirectory_error hcheck hmissing, if_true]
  refine hancestors.mono ?_
  rintro _ after ⟨rfl, dest, last, hspot, hnode, hedit, hpost⟩
  dsimp only
  rwa [ends_tryCatch, hspot.ends_makeDirectory_absent hnode hedit]

end MakeAlong

end StackControl.FileTree
