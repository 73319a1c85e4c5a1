import StackControl.Proofs.FileTree.Spots

/-!
# Writing files into one directory

Whether a path can be opened for writing is decided by where it leads and by permissions.  Writing
files of one directory, one after the other, changes nothing else: not what stands anywhere else,
not the other files, and not which of the files that are still to come can be opened.
-/

namespace StackControl

namespace Path

variable {base : Path} {name : Name}

theorem steps_join_name (h : IsOrdinary name) :
    (route (join base name)).steps = (route base).steps ++ [name] := by
  have hjoin : (route (join base ([separator].intercalate [name]))).steps = _ :=
    steps_join (List.cons_ne_nil name []) (by simpa using h)
  simpa using hjoin

theorem absolute_join_name (h : IsOrdinary name) :
    (route (join base name)).absolute = (route base).absolute := by
  have hjoin : (route (join base ([separator].intercalate [name]))).absolute = _ :=
    absolute_join (by simpa using h)
  simpa using hjoin

theorem directory_join_name (h : IsOrdinary name) : (route (join base name)).directory = false := by
  have hjoin : (route (join base ([separator].intercalate [name]))).directory = _ :=
    directory_join (List.cons_ne_nil name []) (by simpa using h)
  simpa using hjoin

end Path

namespace FileTree

/-- Whether a path can be opened for writing: it names a file that may be written, or it is missing
in a directory to which names may be added. -/
def mayWrite (tree : FileTree) (path : Path) : Bool :=
  match tree.locate true path with
  | .ok (.present _ (.file i)) => (tree.bodies[i]?).any fun body => writable body.mode
  | .ok (.absent loc) => tree.mayEdit loc.dropLast
  | _ => false

/-- The file at a location. -/
def fileAt? (tree : FileTree) (loc : Location) : Option FileBody :=
  match tree.node? loc with
  | some (.file i) => tree.bodies[i]?
  | _ => none

/-- A file can be written under a name in a directory: there is one that may be written, or one can
be added. -/
def Admits (tree : FileTree) (dest : Location) (name : Name) : Prop :=
  (tree.node? (dest ++ [name]) = none ∧ tree.mayEdit dest = true) ∨
    ∃ i body, tree.node? (dest ++ [name]) = some (.file i) ∧ tree.bodies[i]? = some body ∧
      writable body.mode = true

variable {before tree : FileTree} {base path : Path} {top loc : Location} {name : Name}
  {content : Bytes}

/-- A path that cannot be opened for writing is not written. -/
theorem exists_run_write_error (h : tree.mayWrite path = false) :
    ∃ e, (Edit.write path content).run tree = (.error e, tree) := by
  have hends : Ends (Edit.write path content) tree fun result after =>
      (∃ e, result = .error e) ∧ after = tree := by
    refine ends_write_cases (fun e => ⟨⟨e, rfl⟩, rfl⟩) (fun loc _ hlocate hedit => ?_)
      fun loc i body _ hlocate hbody hwritable => ?_
    · simp [mayWrite, hlocate, hedit] at h
    · simp [mayWrite, hlocate, hbody, hwritable] at h
  obtain ⟨⟨e, he⟩, hafter⟩ := hends
  exact ⟨e, Prod.ext he hafter⟩

/-! ## A name below a path -/

theorem start_join_name (h : Path.IsOrdinary name) :
    tree.start (Path.join base name) = tree.start base := by
  rw [start, start, Path.absolute_join_name h]

theorem LeadsTo.spot_of_locate {place : Place} (hbase : tree.LeadsTo base top)
    (hname : Path.IsOrdinary name) (h : tree.locate true (Path.join base name) = .ok place) :
    tree.Spot (Path.join base name) top name := by
  simp only [locate] at h
  rcases hcheck : checkPath (Path.join base name) with e | ⟨⟩
  · rw [hcheck] at h
    cases h
  · rw [hcheck] at h
    replace h : tree.locateRoute true (Path.route (Path.join base name))
        (Path.route (Path.join base name)).directory = .ok place := h
    rw [locateRoute] at h
    split at h
    next found hwalk =>
      rw [Path.steps_join_name hname] at hwalk
      obtain ⟨left, dest, hway, hsearch, hentry⟩ := exists_way_of_walk_append hname.isName hwalk
      have hstart : tree.start base =
          if (Path.route (Path.join base name)).absolute then [] else tree.workingDirectory :=
        (start_join_name hname).symm
      rw [← hstart] at hway
      obtain rfl := hway.leads.unique hbase
      exact ⟨hcheck, ⟨_, left, Path.steps_join_name hname, by rwa [start_join_name hname]⟩,
        hsearch, hentry⟩
    next => cases h

/-- A name below a path can be opened exactly if the way there can be gone and a file can be
written under the name. -/
theorem LeadsTo.mayWrite_iff (hbase : tree.LeadsTo base top) (hname : Path.IsOrdinary name)
    (hlink : ∀ target, tree.node? (top ++ [name]) ≠ some (.link target)) :
    tree.mayWrite (Path.join base name) = true ↔
      tree.Spot (Path.join base name) top name ∧ tree.Admits top name := by
  constructor
  · intro h
    have hspot : tree.Spot (Path.join base name) top name := by
      rw [mayWrite] at h
      rcases hlocate : tree.locate true (Path.join base name) with e | place
      · rw [hlocate] at h
        nomatch h
      · exact hbase.spot_of_locate hname hlocate
    refine ⟨hspot, ?_⟩
    rcases hnode : tree.node? (top ++ [name]) with _ | mode | target | i
    · rw [mayWrite, locate_of_locateRoute hspot.check (hspot.locateRoute_absent hnode)] at h
      exact .inl ⟨hnode, by simpa using h⟩
    · rw [mayWrite, hspot.locate_directory hnode] at h
      nomatch h
    · exact absurd hnode (hlink target)
    · rw [mayWrite, hspot.locate_file (Path.directory_join_name hname) hnode] at h
      rcases hbody : tree.bodies[i]? with _ | body
      · simp [hbody] at h
      · exact .inr ⟨i, body, hnode, hbody, by simpa [hbody] using h⟩
  · rintro ⟨hspot, ⟨hnode, hedit⟩ | ⟨i, body, hnode, hbody, hwritable⟩⟩
    · rw [mayWrite, locate_of_locateRoute hspot.check (hspot.locateRoute_absent hnode)]
      simpa using hedit
    · rw [mayWrite, hspot.locate_file (Path.directory_join_name hname) hnode]
      simpa [hbody] using hwritable

/-! ## Files written one after the other -/

/-- Every file of a tree has a body. -/
def HasBodies (tree : FileTree) : Prop :=
  ∀ loc i, tree.node? loc = some (.file i) → i < tree.bodies.length

theorem hasBodies_empty (workingDirectory : Location) : (empty workingDirectory).HasBodies := by
  intro loc i hnode
  obtain ⟨mode, hmode⟩ := exists_directory_of_empty hnode
  cases hmode

/-- Directories that are added have none to want for. -/
theorem HasBodies.of_directoriesAdded {paths : List Path} {made : FileTree} (h : tree.HasBodies)
    (hadded : DirectoriesAdded paths tree made) : made.HasBodies := by
  intro loc i hnode
  rw [hadded.bodies]
  rcases hadded.node loc with heq | ⟨-, hdirectory, -⟩
  · exact h loc i (heq ▸ hnode)
  · simp [hnode] at hdirectory

/-- Names in a directory under which files can be told apart: none is a symbolic link, and no two
name the same file. -/
structure Distinct (tree : FileTree) (top : Location) (names : List Name) : Prop where
  not_link {name : Name} {target : Path} :
    name ∈ names → tree.node? (top ++ [name]) ≠ some (.link target)
  apart {name other : Name} {i : Nat} :
    name ∈ names → other ∈ names → tree.node? (top ++ [name]) = some (.file i) →
      tree.node? (top ++ [other]) = some (.file i) → name = other

/-- A tree is another with files of one directory written, and nothing else changed. -/
structure Written (before : FileTree) (top : Location) (rows : List (Name × Bytes))
    (tree : FileTree) : Prop where
  workingDirectory : tree.workingDirectory = before.workingDirectory
  length_le : before.bodies.length ≤ tree.bodies.length
  node {loc : Location} : (∀ row ∈ rows, loc ≠ top ++ [row.1]) → tree.node? loc = before.node? loc
  body {i : Nat} {body : FileBody} : before.bodies[i]? = some body →
    (∀ row ∈ rows, before.node? (top ++ [row.1]) ≠ some (.file i)) → tree.bodies[i]? = some body
  /-- What is written is in the file that was there, with its permissions, or in a new one. -/
  row {name : Name} {content : Bytes} : (name, content) ∈ rows →
    ∃ i, tree.node? (top ++ [name]) = some (.file i) ∧
      tree.bodies[i]? =
        some ⟨((before.fileAt? (top ++ [name])).map (·.mode)).getD fileMode, content⟩ ∧
      (before.node? (top ++ [name]) = some (.file i) ∨
        before.node? (top ++ [name]) = none ∧ before.bodies.length ≤ i)

namespace Written

variable {rows : List (Name × Bytes)}

protected theorem nil (tree : FileTree) (top : Location) : Written tree top [] tree where
  workingDirectory := rfl
  length_le := Nat.le_refl _
  node _ := rfl
  body hbody _ := hbody
  row hrow := nomatch hrow

variable (h : Written before top rows tree)

include h

/-- Where something else stands than before, a new file stands in place of nothing. -/
theorem node_cases (loc : Location) :
    tree.node? loc = before.node? loc ∨
      before.node? loc = none ∧
        ∃ i, before.bodies.length ≤ i ∧ tree.node? loc = some (.file i) := by
  by_cases hloc : ∃ row ∈ rows, loc = top ++ [row.1]
  · obtain ⟨⟨name, content⟩, hrow, rfl⟩ := hloc
    obtain ⟨i, hi, -, hold | ⟨hnone, hnew⟩⟩ := h.row hrow
    · exact .inl (hi.trans hold.symm)
    · exact .inr ⟨hnone, i, hnew, hi⟩
  · exact .inl (h.node fun row hrow heq => hloc ⟨row, hrow, heq⟩)

/-- Directories and links are what they were. -/
theorem node_iff {loc : Location} {node : Node} (hnode : ∀ i, node ≠ .file i) :
    tree.node? loc = some node ↔ before.node? loc = some node := by
  rcases h.node_cases loc with heq | ⟨hnone, i, -, hfile⟩
  · rw [heq]
  · rw [hnone, hfile]
    simp [Ne.symm (hnode i)]

theorem directory_iff {mode : Nat} :
    tree.node? loc = some (.directory mode) ↔ before.node? loc = some (.directory mode) :=
  h.node_iff fun _ => Node.noConfusion

theorem link_iff {target : Path} :
    tree.node? loc = some (.link target) ↔ before.node? loc = some (.link target) :=
  h.node_iff fun _ => Node.noConfusion

theorem mayEdit_eq (dest : Location) : tree.mayEdit dest = before.mayEdit dest := by
  rcases h.node_cases dest with heq | ⟨hnone, i, -, hfile⟩
  · rw [mayEdit, mayEdit, heq]
  · rw [mayEdit, mayEdit, hnone, hfile]

theorem start_eq (path : Path) : tree.start path = before.start path := by
  rw [start, start, h.workingDirectory]

theorem leadsTo (hbase : before.LeadsTo base loc) : tree.LeadsTo base loc := by
  rw [LeadsTo, h.start_eq]
  exact hbase.mono (fun _ mode hnode => ⟨mode, h.directory_iff.mpr hnode⟩)
    fun _ _ hnode => h.link_iff.mpr hnode

theorem maySearch_iff : tree.MaySearch loc ↔ before.MaySearch loc := by
  simp only [MaySearch, h.directory_iff]

theorem spot_iff : tree.Spot path loc name ↔ before.Spot path loc name := by
  constructor
  · intro hspot
    obtain ⟨front, left, hsteps, hway⟩ := hspot.way
    rw [h.start_eq] at hway
    exact ⟨hspot.check, ⟨front, left, hsteps, hway.mono fun _ _ hnode => (h.node_iff hnode).mp⟩,
      h.maySearch_iff.mp hspot.search, hspot.name⟩
  · intro hspot
    obtain ⟨front, left, hsteps, hway⟩ := hspot.way
    rw [← h.start_eq] at hway
    exact ⟨hspot.check, ⟨front, left, hsteps, hway.mono fun _ _ hnode => (h.node_iff hnode).mpr⟩,
      h.maySearch_iff.mpr hspot.search, hspot.name⟩

section More

variable (hnew : ∀ row ∈ rows, row.1 ≠ name)
  (hapart : ∀ row ∈ rows, ∀ i, before.node? (top ++ [name]) = some (.file i) →
    before.node? (top ++ [row.1]) ≠ some (.file i))
  (hbodies : before.HasBodies)

include hnew

theorem node_new : tree.node? (top ++ [name]) = before.node? (top ++ [name]) :=
  h.node fun row hrow heq => hnew row hrow (by simpa using heq.symm)

include hapart hbodies

omit hnew in
theorem body_new {i : Nat} (hnode : before.node? (top ++ [name]) = some (.file i)) :
    tree.bodies[i]? = before.bodies[i]? := by
  have hbody := List.getElem?_eq_getElem (hbodies _ i hnode)
  rw [hbody]
  exact h.body hbody fun row hrow => hapart row hrow i hnode

/-- What can be written under a name that is still to come is what could be. -/
theorem admits_iff : tree.Admits top name ↔ before.Admits top name := by
  rw [Admits, Admits, h.node_new hnew, h.mayEdit_eq]
  refine or_congr_right ⟨?_, ?_⟩
  · rintro ⟨i, body, hnode, hbody, hwritable⟩
    exact ⟨i, body, hnode, (h.body_new hapart hbodies hnode).symm.trans hbody, hwritable⟩
  · rintro ⟨i, body, hnode, hbody, hwritable⟩
    exact ⟨i, body, hnode, (h.body_new hapart hbodies hnode).trans hbody, hwritable⟩

omit hapart hbodies in
/-- A new file is added to what is written. -/
theorem putFile (hnode : tree.node? (top ++ [name]) = none) :
    Written before top (rows ++ [(name, content)])
      (tree.putFile (top ++ [name]) ⟨fileMode, content⟩) := by
  have hloc : top ++ [name] ≠ [] := by simp
  have hbefore : before.node? (top ++ [name]) = none := (h.node_new hnew).symm.trans hnode
  have hkept {i : Nat} {body : FileBody} (hbody : tree.bodies[i]? = some body) :
      (tree.putFile (top ++ [name]) ⟨fileMode, content⟩).bodies[i]? = some body := by
    rw [FileTree.putFile, List.getElem?_append_left (List.getElem?_eq_some_iff.mp hbody).1, hbody]
  refine ⟨h.workingDirectory, ?_, fun {loc} hother => ?_, fun hbody hother => ?_, ?_⟩
  · exact Nat.le_trans h.length_le (by simp [FileTree.putFile])
  · rw [node?_putFile hloc, if_neg (hother (name, content) (by simp))]
    exact h.node fun row hrow => hother row (List.mem_append_left _ hrow)
  · exact hkept (h.body hbody fun row hrow => hother row (List.mem_append_left _ hrow))
  · intro name' content' hrow
    rcases List.mem_append.mp hrow with hrow | hrow
    · obtain ⟨i, hi, hbody, hold⟩ := h.row hrow
      refine ⟨i, ?_, hkept hbody, hold⟩
      rw [node?_putFile hloc, if_neg (by simpa using hnew _ hrow), hi]
    · obtain ⟨rfl, rfl⟩ := Prod.mk.inj (List.mem_singleton.mp hrow)
      refine ⟨tree.bodies.length, ?_, ?_, .inr ⟨hbefore, h.length_le⟩⟩
      · rw [node?_putFile hloc, if_pos rfl]
      · rw [fileAt?, hbefore]
        simp [FileTree.putFile]

/-- A file that was there is added to what is written. -/
theorem setBody {i : Nat} {body : FileBody} (hnode : tree.node? (top ++ [name]) = some (.file i))
    (hbody : tree.bodies[i]? = some body) :
    Written before top (rows ++ [(name, content)])
      (tree.setBody i { body with content := content }) := by
  have hbefore : before.node? (top ++ [name]) = some (.file i) :=
    (h.node_new hnew).symm.trans hnode
  refine ⟨h.workingDirectory, ?_, fun {loc} hother => ?_, fun {j body'} hbody' hother => ?_, ?_⟩
  · simpa using h.length_le
  · rw [node?_setBody]
    exact h.node fun row hrow => hother row (List.mem_append_left _ hrow)
  · have hne : i ≠ j := by
      rintro rfl
      exact hother (name, content) (by simp) hbefore
    rw [bodies_setBody, List.getElem?_set_ne hne]
    exact h.body hbody' fun row hrow => hother row (List.mem_append_left _ hrow)
  · intro name' content' hrow
    rcases List.mem_append.mp hrow with hrow | hrow
    · obtain ⟨j, hj, hbody', hold⟩ := h.row hrow
      have hne : i ≠ j := by
        rintro rfl
        rcases hold with hold | ⟨-, hlate⟩
        · exact hapart _ hrow i hbefore hold
        · exact absurd (hbodies _ i hbefore) (Nat.not_lt.mpr hlate)
      exact ⟨j, by rw [node?_setBody, hj], by rw [bodies_setBody, List.getElem?_set_ne hne, hbody'],
        hold⟩
    · obtain ⟨rfl, rfl⟩ := Prod.mk.inj (List.mem_singleton.mp hrow)
      refine ⟨i, by rw [node?_setBody, hnode], ?_, .inl hbefore⟩
      rw [getElem?_bodies_setBody hbody, fileAt?, hbefore]
      simp [← h.body_new hapart hbodies hbefore, hbody]

/-- A file that is not written is what it was. -/
theorem fileAt?_eq : tree.fileAt? (top ++ [name]) = before.fileAt? (top ++ [name]) := by
  rw [fileAt?, fileAt?, h.node_new hnew]
  rcases hnode : before.node? (top ++ [name]) with _ | mode | target | i
  · rfl
  · rfl
  · rfl
  · exact h.body_new hapart hbodies hnode

/-- A file that is still to come can be opened if it could be before. -/
theorem mayWrite_eq (hbase : before.LeadsTo base top) (hname : Path.IsOrdinary name)
    (hlink : ∀ target, before.node? (top ++ [name]) ≠ some (.link target)) :
    tree.mayWrite (Path.join base name) = before.mayWrite (Path.join base name) := by
  rw [Bool.eq_iff_iff, hbase.mayWrite_iff hname hlink,
    (h.leadsTo hbase).mayWrite_iff hname fun target hnode => hlink target (h.link_iff.mp hnode),
    h.spot_iff, h.admits_iff hnew hapart hbodies]

/-- One more file is written. -/
theorem exists_run_write (hspot : before.Spot path top name)
    (hdirectory : (Path.route path).directory = false) (hadmits : before.Admits top name) :
    ∃ after, (Edit.write path content).run tree = (.ok (), after) ∧
      Written before top (rows ++ [(name, content)]) after := by
  have hspot : tree.Spot path top name := h.spot_iff.mpr hspot
  rcases (h.admits_iff hnew hapart hbodies).mpr hadmits with
    ⟨hnode, hedit⟩ | ⟨i, body, hnode, hbody, hwritable⟩
  · exact ⟨_, hspot.run_write_absent hdirectory hnode hedit, h.putFile hnew hnode⟩
  · exact ⟨_, hspot.run_write_file hdirectory hnode hbody hwritable,
      h.setBody hnew hapart hbodies hnode hbody⟩

end More

/-- The path of what is written names its file. -/
theorem exists_stat (hbase : before.LeadsTo base top) (hname : Path.IsOrdinary name)
    (hlink : ∀ target, before.node? (top ++ [name]) ≠ some (.link target))
    (hmay : before.mayWrite (Path.join base name) = true) (hrow : (name, content) ∈ rows) :
    ∃ i, tree.stat (Path.join base name) = .ok (top ++ [name], .file i) ∧
      tree.bodies[i]? =
        some ⟨((before.fileAt? (top ++ [name])).map (·.mode)).getD fileMode, content⟩ := by
  obtain ⟨i, hnode, hbody, -⟩ := h.row hrow
  have hspot : tree.Spot (Path.join base name) top name :=
    h.spot_iff.mpr ((hbase.mayWrite_iff hname hlink).mp hmay).1
  refine ⟨i, ?_, hbody⟩
  rw [stat, hspot.locate_file (Path.directory_join_name hname) hnode]
  rfl

end Written

end FileTree

end StackControl
