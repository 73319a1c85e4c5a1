import StackControl.Proofs.FileTree.Ends

/-!
# Writing existing files

Writing a file that is there changes its content and nothing else: the same paths lead to the same
nodes before and after, and what is read back is what was written.
-/

namespace StackControl.FileTree

variable {tree tree' : FileTree} {path : Path} {content : Bytes}

/-! ## Where paths lead depends on nodes only -/

/-- The same stands at each location of two trees, and they have the same working directory. -/
structure SamePlaces (tree tree' : FileTree) : Prop where
  node?_eq (loc : Location) : tree'.node? loc = tree.node? loc
  workingDirectory : tree'.workingDirectory = tree.workingDirectory

namespace SamePlaces

variable (h : SamePlaces tree tree')

include h

theorem walkSteps_eq
    (onLink : Location → List Name → Bool → Except Errno Place) (follow : Bool)
    (loc : Location) (steps : List Name) (directory : Bool) :
    tree'.walkSteps onLink follow loc steps directory =
      tree.walkSteps onLink follow loc steps directory := by
  induction steps generalizing loc with
  | nil => simp only [walkSteps, h.node?_eq]
  | cons step rest ih => simp only [walkSteps, h.node?_eq, ih]

theorem walk_eq (follow : Bool) (links : Nat) :
    tree'.walk follow links = tree.walk follow links := by
  induction links with
  | zero =>
      funext loc steps directory
      exact h.walkSteps_eq _ follow loc steps directory
  | succ links ih =>
      funext loc steps directory
      simp only [walk, ih, h.walkSteps_eq]

theorem locate_eq (follow : Bool) (path : Path) :
    tree'.locate follow path = tree.locate follow path := by
  simp only [locate, locateRoute, h.walk_eq, h.workingDirectory]

theorem stat_eq (path : Path) : tree'.stat path = tree.stat path := by
  simp only [stat, h.locate_eq]

end SamePlaces

/-- Two trees have the same nodes, in the same order, and the same working directory. -/
structure SameNodes (tree tree' : FileTree) : Prop where
  nodes : tree'.nodes = tree.nodes
  workingDirectory : tree'.workingDirectory = tree.workingDirectory

namespace SameNodes

protected theorem refl (tree : FileTree) : SameNodes tree tree := ⟨rfl, rfl⟩

protected theorem trans {tree'' : FileTree} (h : SameNodes tree tree')
    (h' : SameNodes tree' tree'') : SameNodes tree tree'' :=
  ⟨h'.nodes.trans h.nodes, h'.workingDirectory.trans h.workingDirectory⟩

theorem samePlaces (h : SameNodes tree tree') : SamePlaces tree tree' where
  node?_eq loc := by
    cases loc with
    | nil => rfl
    | cons n loc => simp only [node?, h.nodes]
  workingDirectory := h.workingDirectory

theorem list_eq (h : SameNodes tree tree') (path : Path) : tree'.list path = tree.list path := by
  simp only [list, h.samePlaces.stat_eq, names, h.nodes]

end SameNodes

theorem sameNodes_setBody {i : Nat} {body : FileBody} : SameNodes tree (tree.setBody i body) :=
  ⟨rfl, rfl⟩

/-! ## Writing and reading back -/

/-- What is read is the content of a file. -/
theorem exists_stat_of_read (h : tree.read path = .ok content) :
    ∃ loc i body, tree.stat path = .ok (loc, .file i) ∧ tree.bodies[i]? = some body ∧
      readable body.mode = true ∧ body.content = content := by
  simp only [read] at h
  cases hstat : tree.stat path with
  | error e =>
      rw [hstat] at h
      cases h
  | ok found =>
      rw [hstat] at h
      obtain ⟨loc, node⟩ := found
      cases node with
      | directory mode =>
          simp only [bind, Except.bind] at h
          split at h <;> cases h
      | link target => cases h
      | file i =>
          simp only [bind, Except.bind] at h
          split at h
          next body hbody =>
            split at h
            next hreadable =>
              cases h
              exact ⟨loc, i, body, rfl, hbody, hreadable, rfl⟩
            next => cases h
          next => cases h

/-- A text that is read is the decoded content. -/
theorem exists_read_of_readText {text : String} (h : tree.readText path = .ok text) :
    ∃ bytes, tree.read path = .ok bytes ∧ Utf8.decode? bytes = some text := by
  simp only [readText] at h
  cases hread : tree.read path with
  | error e =>
      rw [hread] at h
      cases h
  | ok bytes =>
      rw [hread] at h
      simp only [bind, Except.bind] at h
      split at h
      next text' htext =>
        cases h
        exact ⟨bytes, rfl, htext⟩
      next => cases h

theorem readText_of_read {bytes : Bytes} {text : String}
    (hread : tree.read path = .ok bytes) (htext : Utf8.decode? bytes = some text) :
    tree.readText path = .ok text := by
  simp only [readText, hread, bind, Except.bind, htext]

theorem read_of_stat {loc : Location} {i : Nat} {body : FileBody}
    (hstat : tree.stat path = .ok (loc, .file i)) (hbody : tree.bodies[i]? = some body)
    (hreadable : readable body.mode = true) :
    tree.read path = .ok body.content := by
  simp [read, hstat, hbody, hreadable, bind, Except.bind]

theorem locate_of_stat {loc : Location} {node : Node} (h : tree.stat path = .ok (loc, node)) :
    checkPath path = .ok () ∧ tree.locate true path = .ok (.present loc node) := by
  simp only [stat, locate] at h ⊢
  cases hcheck : checkPath path with
  | error e =>
      rw [hcheck] at h
      cases h
  | ok _ =>
      rw [hcheck] at h
      refine ⟨rfl, ?_⟩
      change tree.locateRoute true path.route path.route.directory = _
      cases hplace : tree.locateRoute true path.route path.route.directory with
      | error e =>
          rw [hplace] at h
          cases h
      | ok place =>
          rw [hplace] at h
          cases place with
          | absent => cases h
          | present loc' node' =>
              cases h
              rfl

theorem ends_write {loc : Location} {i : Nat} {post : Except Fault Unit → FileTree → Prop}
    (hstat : tree.stat path = .ok (loc, .file i))
    (herror : ∀ e, post (.error e) tree)
    (hok : ∀ body, path.route.directory = false → tree.bodies[i]? = some body →
      writable body.mode = true → post (.ok ()) (tree.setBody i { body with content := content })) :
    Ends (Edit.write path content) tree post := by
  have hfound := (locate_of_stat hstat).2
  refine ends_write_cases herror (fun loc' _ hlocate _ => ?_)
    fun loc' i' body hdirectory hlocate hbody hwritable => ?_
  · rw [hfound] at hlocate
    cases hlocate
  · rw [hfound] at hlocate
    cases hlocate
    exact hok body hdirectory hbody hwritable

/-- A file that may be written is written. -/
theorem run_write {loc : Location} {i : Nat} {body : FileBody}
    (hstat : tree.stat path = .ok (loc, .file i)) (hdirectory : path.route.directory = false)
    (hbody : tree.bodies[i]? = some body) (hwritable : writable body.mode = true) :
    (Edit.write path content).run tree =
      (.ok (), tree.setBody i { body with content := content }) := by
  obtain ⟨hcheck, hlocate⟩ := locate_of_stat hstat
  have hends : Ends (Edit.write path content) tree fun result after =>
      result = .ok () ∧ after = tree.setBody i { body with content := content } := by
    simp [Edit.write, Edit.refuseDirectoryPath, hcheck, hdirectory, hlocate, hbody, hwritable]
  exact Prod.ext hends.1 hends.2

/-- Writing a file that is there leaves all nodes as they are. -/
theorem sameNodes_write {loc : Location} {i : Nat} (hstat : tree.stat path = .ok (loc, .file i)) :
    SameNodes tree ((Edit.write path content).run tree).2 := by
  have hends : Ends (Edit.write path content) tree fun _ after => SameNodes tree after :=
    ends_write hstat (fun _ => .refl tree) fun _ _ _ _ => sameNodes_setBody
  exact hends

theorem sameNodes_write_of_read {old : Bytes} (hread : tree.read path = .ok old)
    (content : Bytes) :
    SameNodes tree ((Edit.write path content).run tree).2 := by
  obtain ⟨loc, i, body, hstat, -⟩ := exists_stat_of_read hread
  exact sameNodes_write hstat

theorem stat_setBody {loc : Location} {i : Nat} {body : FileBody}
    (hstat : tree.stat path = .ok (loc, .file i)) :
    (tree.setBody i body).stat path = .ok (loc, .file i) := by
  rw [sameNodes_setBody.samePlaces.stat_eq, hstat]

theorem getElem?_bodies_setBody {i : Nat} {body body' : FileBody}
    (hbody : tree.bodies[i]? = some body) :
    (tree.setBody i body').bodies[i]? = some body' := by
  rw [bodies_setBody, List.getElem?_set_self]
  exact (List.getElem?_eq_some_iff.mp hbody).1

/-- What is written to a file that can be read is read back. -/
theorem read_write {old : Bytes} (hread : tree.read path = .ok old)
    (hwrite : ((Edit.write path content).run tree).1 = .ok ()) :
    ((Edit.write path content).run tree).2.read path = .ok content := by
  obtain ⟨loc, i, body, hstat, hbody, hreadable, -⟩ := exists_stat_of_read hread
  have hends : Ends (Edit.write path content) tree fun result after =>
      result = .ok () → after.read path = .ok content := by
    apply ends_write hstat (fun e hok => by cases hok)
    intro body' _ hbody' _ _
    cases hbody.symm.trans hbody'
    exact read_of_stat (stat_setBody hstat) (getElem?_bodies_setBody hbody) hreadable
  exact hends hwrite

theorem setBody_setBody {i : Nat} {body body' : FileBody} (hbody : tree.bodies[i]? = some body) :
    (tree.setBody i body').setBody i body = tree := by
  obtain ⟨hi, hget⟩ := List.getElem?_eq_some_iff.mp hbody
  have hbodies : (tree.bodies.set i body').set i body = tree.bodies := by
    rw [List.set_set, ← hget, List.set_getElem_self]
  rw [setBody, bodies_setBody, hbodies]
  rfl

/-- Writing back what a file held leaves the tree as it was before the file was written. -/
theorem write_back {old : Bytes} (hread : tree.read path = .ok old)
    (hwrite : ((Edit.write path content).run tree).1 = .ok ()) :
    (Edit.write path old).run ((Edit.write path content).run tree).2 = (.ok (), tree) := by
  obtain ⟨loc, i, body, hstat, hbody, -, rfl⟩ := exists_stat_of_read hread
  have hends : Ends (Edit.write path content) tree fun result after =>
      result = .ok () → (Edit.write path body.content).run after = (.ok (), tree) := by
    apply ends_write hstat (fun e hok => by cases hok)
    intro body' hdirectory hbody' hwritable _
    cases hbody.symm.trans hbody'
    have hwritten : (tree.setBody i { body with content := content }).bodies[i]? =
        some { body with content := content } :=
      getElem?_bodies_setBody hbody
    rw [run_write (stat_setBody hstat) hdirectory hwritten hwritable, setBody_setBody hbody]
  exact hends hwrite

end StackControl.FileTree
