import StackControl.FileTree.Edit
import StackControl.Proofs.FileTree.Passage

/-!
# How changes of a file tree end

`Ends change tree post` says that the answer of a change and the tree it leaves satisfy a
condition.  The condition moves backwards through the monad, and each operation on files has one
rule: it fails and leaves the tree as it was, or it succeeds with the one change it is for.
-/

namespace StackControl.FileTree

section Monad

variable {ε ε' α β : Type}

/-- What a change answers, and the tree it leaves, satisfy a condition. -/
def Ends (change : ExceptT ε (StateM FileTree) α) (tree : FileTree)
    (post : Except ε α → FileTree → Prop) : Prop :=
  post (change.run tree).1 (change.run tree).2

theorem Ends.mono {change : ExceptT ε (StateM FileTree) α} {tree : FileTree}
    {post post' : Except ε α → FileTree → Prop}
    (h : Ends change tree post) (hpost : ∀ result after, post result after → post' result after) :
    Ends change tree post' :=
  hpost _ _ h

variable (tree : FileTree)

@[simp] theorem ends_pure (a : α) (post : Except ε α → FileTree → Prop) :
    Ends (pure a) tree post ↔ post (.ok a) tree := Iff.rfl

@[simp] theorem ends_throw (e : ε) (post : Except ε α → FileTree → Prop) :
    Ends (throw e) tree post ↔ post (.error e) tree := Iff.rfl

@[simp] theorem ends_bind (change : ExceptT ε (StateM FileTree) α)
    (f : α → ExceptT ε (StateM FileTree) β) (post : Except ε β → FileTree → Prop) :
    Ends (change >>= f) tree post ↔
      Ends change tree fun result after =>
        match result with
        | .ok a => Ends (f a) after post
        | .error e => post (.error e) after := by
  change post (ExceptT.bindCont f (change.run tree).1 (change.run tree).2).1
    (ExceptT.bindCont f (change.run tree).1 (change.run tree).2).2 ↔ _
  unfold Ends
  cases (change.run tree).1 <;> rfl

@[simp] theorem ends_get (post : Except ε FileTree → FileTree → Prop) :
    Ends get tree post ↔ post (.ok tree) tree := Iff.rfl

@[simp] theorem ends_modify (f : FileTree → FileTree) (post : Except ε PUnit → FileTree → Prop) :
    Ends (modify f) tree post ↔ post (.ok ⟨⟩) (f tree) := Iff.rfl

@[simp] theorem ends_outcomeOf (change : ExceptT ε (StateM FileTree) α)
    (post : Except ε (Except ε α) → FileTree → Prop) :
    Ends (outcomeOf change) tree post ↔
      Ends change tree fun result after => post (.ok result) after := Iff.rfl

@[simp] theorem ends_tryCatch (change : ExceptT ε (StateM FileTree) α)
    (handler : ε → ExceptT ε (StateM FileTree) α) (post : Except ε α → FileTree → Prop) :
    Ends (tryCatch change handler) tree post ↔
      Ends change tree fun result after =>
        match result with
        | .ok a => post (.ok a) after
        | .error e => Ends (handler e) after post := by
  change post ((match (change.run tree).1 with
      | .ok a => pure (Except.ok a)
      | .error e => (handler e).run : StateM FileTree _) (change.run tree).2).1
    ((match (change.run tree).1 with
      | .ok a => pure (Except.ok a)
      | .error e => (handler e).run : StateM FileTree _) (change.run tree).2).2 ↔ _
  unfold Ends
  cases (change.run tree).1 <;> rfl

@[simp] theorem ends_adapt (g : ε → ε') (change : ExceptT ε (StateM FileTree) α)
    (post : Except ε' α → FileTree → Prop) :
    Ends (change.adapt g) tree post ↔
      Ends change tree fun result after => post (result.mapError g) after := Iff.rfl

@[simp] theorem ends_look (f : FileTree → Except Fault α)
    (post : Except Fault α → FileTree → Prop) :
    Ends (Edit.look f) tree post ↔ post (f tree) tree := by
  simp only [Edit.look, ends_bind, ends_get]
  cases f tree <;> rfl

@[simp] theorem ends_fail (e : Errno) (post : Except Fault α → FileTree → Prop) :
    Ends (Edit.fail e) tree post ↔ post (.error (.os e)) tree := Iff.rfl

end Monad

/-! ## Operations on files -/

variable {tree : FileTree} {path target source : Path} {content : Bytes} {mode : Nat}
  {post : Except Fault Unit → FileTree → Prop}

theorem ends_demandEdit {loc : Location}
    (herror : post (.error (.os .accessDenied)) tree) (hok : post (.ok ()) tree) :
    Ends (Edit.demandEdit loc) tree post := by
  simp only [Edit.demandEdit, ends_bind, ends_get]
  split
  · exact hok
  · exact herror

theorem ends_makeDirectory
    (herror : ∀ e, post (.error e) tree)
    (hok : ∀ loc, tree.locateRoute false path.route false = .ok (.absent loc) →
      post (.ok ()) (tree.put loc (.directory directoryMode))) :
    Ends (Edit.makeDirectory path) tree post := by
  simp only [Edit.makeDirectory, ends_bind, ends_look]
  split
  next =>
    split
    next place hplace =>
      split
      next => exact herror _
      next loc =>
        rw [ends_bind]
        exact ends_demandEdit (herror _) (hok loc hplace)
    next => exact herror _
  next => exact herror _

theorem ends_refuseDirectoryPath
    (herror : ∀ e, post (.error e) tree)
    (hok : path.route.directory = false → post (.ok ()) tree) :
    Ends (Edit.refuseDirectoryPath path) tree post := by
  simp only [Edit.refuseDirectoryPath, ends_bind, ends_look]
  split
  next =>
    split
    next hdirectory =>
      simp only [ends_bind, ends_look]
      split <;> exact herror _
    next hdirectory => exact hok (by simpa using hdirectory)
  next => exact herror _

theorem ends_create
    (herror : ∀ e, post (.error e) tree)
    (hok : ∀ loc, path.route.directory = false → tree.locate false path = .ok (.absent loc) →
      post (.ok ()) (tree.putFile loc ⟨fileMode, content⟩)) :
    Ends (Edit.create path content) tree post := by
  simp only [Edit.create, ends_bind, ends_look]
  refine ends_refuseDirectoryPath herror fun hdirectory => ?_
  dsimp only
  split
  next place hplace =>
    split
    next => exact herror _
    next loc =>
      rw [ends_bind]
      exact ends_demandEdit (herror _) (hok loc hdirectory hplace)
  next => exact herror _

theorem ends_removeFile
    (herror : ∀ e, post (.error e) tree)
    (hok : ∀ loc node, tree.locate false path = .ok (.present loc node) →
      (∀ mode, node ≠ .directory mode) → post (.ok ()) (tree.drop loc)) :
    Ends (Edit.removeFile path) tree post := by
  simp only [Edit.removeFile, ends_bind, ends_look]
  split
  next place hplace =>
    split
    next => exact herror _
    next loc node hnode =>
      rw [ends_bind]
      exact ends_demandEdit (herror _) (hok loc node hplace hnode)
    next => exact herror _
  next => exact herror _

theorem ends_link
    (herror : ∀ e, post (.error e) tree)
    (hok : ∀ loc, tree.locate false path = .ok (.absent loc) →
      post (.ok ()) (tree.put loc (.link target))) :
    Ends (Edit.link target path) tree post := by
  simp only [Edit.link, ends_bind, ends_look]
  split
  next =>
    split
    next place hplace =>
      split
      next => exact herror _
      next loc =>
        rw [ends_bind]
        exact ends_demandEdit (herror _) (hok loc hplace)
    next => exact herror _
  next => exact herror _

/-- A hard link is made to what its source names. -/
theorem ends_hardLink_source
    (herror : ∀ e, post (.error e) tree)
    (hok : ∀ found loc node, tree.locate false source = .ok (.present found node) →
      tree.locate false path = .ok (.absent loc) → (∀ mode, node ≠ .directory mode) →
        post (.ok ()) (tree.put loc node)) :
    Ends (Edit.hardLink source path) tree post := by
  simp only [Edit.hardLink, ends_bind, ends_look]
  split
  next found hfound =>
    split
    next => exact herror _
    next node =>
      simp only [ends_bind, ends_look]
      split
      next place hplace =>
        split
        next => exact herror _
        next loc =>
          rw [ends_bind]
          refine ends_demandEdit (herror _) ?_
          dsimp only
          split
          next => exact herror _
          next hnode => exact hok _ loc _ hfound hplace hnode
      next => exact herror _
  next => exact herror _

theorem ends_hardLink
    (herror : ∀ e, post (.error e) tree)
    (hok : ∀ loc node, tree.locate false path = .ok (.absent loc) →
      (∀ mode, node ≠ .directory mode) → post (.ok ()) (tree.put loc node)) :
    Ends (Edit.hardLink source path) tree post :=
  ends_hardLink_source herror fun _ loc node _ => hok loc node

/-- Writing fails and leaves the tree, makes a file, or replaces the content of one. -/
theorem ends_write_cases
    (herror : ∀ e, post (.error e) tree)
    (hnew : ∀ loc, path.route.directory = false → tree.locate true path = .ok (.absent loc) →
      tree.mayEdit loc.dropLast = true →
        post (.ok ()) (tree.putFile loc ⟨fileMode, content⟩))
    (hold : ∀ loc i body, path.route.directory = false →
      tree.locate true path = .ok (.present loc (.file i)) → tree.bodies[i]? = some body →
        writable body.mode = true →
          post (.ok ()) (tree.setBody i { body with content := content })) :
    Ends (Edit.write path content) tree post := by
  simp only [Edit.write, ends_bind]
  refine ends_refuseDirectoryPath herror fun hdirectory => ?_
  simp only [ends_look]
  rcases hlocate : tree.locate true path with e | place
  · exact herror e
  · rcases place with ⟨loc, mode | target | i⟩ | loc
    · exact herror _
    · exact herror _
    · simp only [ends_bind, ends_get]
      split
      next body hbody =>
        split
        next hwritable => exact hold loc i body hdirectory hlocate hbody hwritable
        next => exact herror _
      next => exact herror _
    · simp only [Edit.demandEdit, ends_bind, ends_get]
      split
      next hedit => exact hnew loc hdirectory hlocate hedit
      next => exact herror _

theorem ends_setMode
    (herror : ∀ e, post (.error e) tree)
    (hdirectory : ∀ loc mode', tree.stat path = .ok (loc, .directory mode') →
      post (.ok ()) (tree.put loc (.directory mode)))
    (hfile : ∀ loc i body, tree.stat path = .ok (loc, .file i) → tree.bodies[i]? = some body →
      post (.ok ()) (tree.setBody i { body with mode := mode })) :
    Ends (Edit.setMode path mode) tree post := by
  simp only [Edit.setMode, ends_bind, ends_look]
  split
  next found hfound =>
    split
    next loc mode' => exact hdirectory loc mode' hfound
    next loc i =>
      simp only [ends_bind, ends_get]
      split
      next body hbody => exact hfile loc i body hfound hbody
      next => exact herror _
    next => exact herror _
  next => exact herror _

end StackControl.FileTree
