import StackControl.Proofs.FileTree.Directories

/-!
# The location that a path reaches

A path that ends in a name reaches a location: its other steps lead to the directory that the
location is in, whatever stands there.  Each operation on files works at the location that its path
reaches, and leaves everything else as it is.
-/

namespace StackControl.FileTree

/-- All steps of a path but the last, which is a name, lead to the directory of a location. -/
def Reaches (tree : FileTree) (path : Path) (loc : Location) : Prop :=
  ∃ front last mid, (Path.route path).steps = front ++ [last] ∧ IsName last ∧
    tree.Leads (tree.start path) front mid ∧ loc = mid ++ [last]

/-- A path ends in a name, without a separator behind it. -/
structure EndsInName (path : Path) : Prop where
  directory : (Path.route path).directory = false
  steps : ∃ front last, (Path.route path).steps = front ++ [last] ∧ IsName last

/-- Two trees differ at one location at most, and in files that only the second one has. -/
structure SameBut (loc : Location) (before after : FileTree) : Prop where
  workingDirectory : after.workingDirectory = before.workingDirectory
  node {other : Location} : other ≠ loc → after.node? other = before.node? other
  bodies : before.bodies <+: after.bodies

variable {before tree tree' mid after : FileTree} {path source dest : Path} {loc loc' : Location}
  {node node' : Node} {content : Bytes}

/-! ## Reaching a location -/

theorem Reaches.ne_nil (h : tree.Reaches path loc) : loc ≠ [] := by
  obtain ⟨_, _, _, -, -, -, rfl⟩ := h
  simp

theorem Reaches.unique (h : tree.Reaches path loc) (h' : tree.Reaches path loc') : loc = loc' := by
  obtain ⟨front, last, dest, hsteps, -, hleads, rfl⟩ := h
  obtain ⟨front', last', dest', hsteps', -, hleads', rfl⟩ := h'
  obtain ⟨rfl, hlast⟩ := List.append_inj' (hsteps.symm.trans hsteps') rfl
  rw [hleads.unique hleads', hlast]

theorem Reaches.keeps (h : tree.Reaches path loc) (hkeeps : Keeps tree tree') :
    tree'.Reaches path loc := by
  obtain ⟨front, last, dest, hsteps, hname, hleads, rfl⟩ := h
  refine ⟨front, last, dest, hsteps, hname, ?_, rfl⟩
  rw [start, hkeeps.workingDirectory]
  exact hleads.mono (fun _ _ => hkeeps.directory) (fun _ _ => hkeeps.link)

/-- What is taken away was on no way that is still there. -/
theorem Reaches.of_drop (h : (tree.drop loc').Reaches path loc) (hloc : loc' ≠ []) :
    tree.Reaches path loc := by
  refine h.keeps ⟨rfl, fun {other mode} hother => ⟨mode, ?_⟩, fun {other target} hother => ?_⟩
  all_goals
    rw [node?_drop hloc] at hother
    split at hother
    · cases hother
    · exact hother

/-- A path that ends in a name is found at the location that it reaches. -/
theorem EndsInName.reaches {place : Place} (hpath : EndsInName path)
    (h : Passage tree false (tree.start path) (Path.route path).steps false place) :
    (∃ loc, place = .absent loc ∧ tree.Reaches path loc ∧ tree.node? loc = none) ∨
      ∃ loc node, place = .present loc node ∧ tree.Reaches path loc ∧
        tree.node? loc = some node := by
  obtain ⟨front, last, hsteps, hname⟩ := hpath.steps
  rw [hsteps] at h
  obtain ⟨dest, hleads, hlast⟩ := h.exists_leads
  have hreaches : tree.Reaches path (dest ++ [last]) :=
    ⟨front, last, dest, hsteps, hname, hleads, rfl⟩
  rcases hlast.last_cases hname with ⟨hplace, hnode, -⟩ | ⟨node, hplace, hnode⟩ | ⟨hfollow, -⟩
  · exact .inl ⟨_, hplace, hreaches, hnode⟩
  · exact .inr ⟨_, node, hplace, hreaches, hnode⟩
  · cases hfollow

theorem EndsInName.reaches_absent (hpath : EndsInName path)
    (h : tree.locate false path = .ok (.absent loc)) :
    tree.Reaches path loc ∧ tree.node? loc = none := by
  rcases hpath.reaches (hpath.directory ▸ passage_of_locate h) with
    ⟨_, hplace, hfound⟩ | ⟨_, _, hplace, -⟩
  · cases hplace
    exact hfound
  · cases hplace

theorem EndsInName.reaches_present (hpath : EndsInName path)
    (h : tree.locate false path = .ok (.present loc node)) :
    tree.Reaches path loc ∧ tree.node? loc = some node := by
  rcases hpath.reaches (hpath.directory ▸ passage_of_locate h) with
    ⟨_, hplace, -⟩ | ⟨_, _, hplace, hfound⟩
  · cases hplace
  · cases hplace
    exact hfound

/-- Where no link stands nothing is followed. -/
theorem Reaches.of_stat (h : tree.Reaches path loc) (hpath : EndsInName path)
    (hnode : tree.node? loc = some node) (hlink : ∀ target, node ≠ .link target)
    (hstat : tree.stat path = .ok (loc', node')) : loc' = loc ∧ node' = node := by
  obtain ⟨front, last, dest, hsteps, hname, hleads, rfl⟩ := h
  have hpassage := passage_of_stat hstat
  rw [hpath.directory, hsteps] at hpassage
  obtain ⟨dest', hleads', hlast⟩ := hpassage.exists_leads
  obtain rfl := hleads'.unique hleads
  rcases hlast.last_cases hname with ⟨hplace, -⟩ | ⟨found, hplace, hfound⟩ | ⟨-, target, hfound⟩
  · cases hplace
  · cases hplace
    exact ⟨rfl, Option.some.inj (hfound.symm.trans hnode)⟩
  · exact absurd (Option.some.inj (hnode.symm.trans hfound)) (hlink target)

/-! ## Changes at one location -/

namespace SameBut

protected theorem refl (loc : Location) (tree : FileTree) : SameBut loc tree tree :=
  ⟨rfl, fun _ => rfl, List.prefix_rfl⟩

protected theorem trans (h : SameBut loc before mid) (h' : SameBut loc mid after) :
    SameBut loc before after where
  workingDirectory := h'.workingDirectory.trans h.workingDirectory
  node hother := (h'.node hother).trans (h.node hother)
  bodies := h.bodies.trans h'.bodies

theorem put (hloc : loc ≠ []) : SameBut loc tree (tree.put loc node) where
  workingDirectory := rfl
  node hother := by rw [node?_put hloc, if_neg hother]
  bodies := List.prefix_rfl

theorem putFile {body : FileBody} (hloc : loc ≠ []) : SameBut loc tree (tree.putFile loc body) where
  workingDirectory := rfl
  node hother := by rw [node?_putFile hloc, if_neg hother]
  bodies := List.prefix_append _ _

theorem drop (hloc : loc ≠ []) : SameBut loc tree (tree.drop loc) where
  workingDirectory := rfl
  node hother := by rw [node?_drop hloc, if_neg hother]
  bodies := List.prefix_rfl

/-- Only the body of a file that was not there before is changed. -/
theorem setBody {i : Nat} {body : FileBody} (h : SameBut loc before tree)
    (hi : before.bodies.length ≤ i) : SameBut loc before (tree.setBody i body) where
  workingDirectory := h.workingDirectory
  node hother := by rw [node?_setBody, h.node hother]
  bodies := by
    obtain ⟨new, hnew⟩ := h.bodies
    rw [bodies_setBody, ← hnew, List.set_append_right _ _ hi]
    exact List.prefix_append _ _

end SameBut

/-- A tree differs from another at most where a path reaches. -/
def Untouched (path : Path) (before tree : FileTree) : Prop :=
  ∀ loc, tree.Reaches path loc → SameBut loc before tree

/-- A tree differs from another where a path reaches, in what stands there. -/
def SetAt (path : Path) (stands : FileTree → Location → Prop) (before after : FileTree) : Prop :=
  ∃ loc, after.Reaches path loc ∧ SameBut loc before after ∧ stands after loc

theorem SetAt.mono {stands stands' : FileTree → Location → Prop}
    (h : SetAt path stands before after) (hstands : ∀ loc, stands after loc → stands' after loc) :
    SetAt path stands' before after := by
  obtain ⟨loc, hreaches, hsame, hloc⟩ := h
  exact ⟨loc, hreaches, hsame, hstands loc hloc⟩

theorem untouched_refl (path : Path) (tree : FileTree) : Untouched path tree tree :=
  fun loc _ => .refl loc tree

/-- What is put where nothing was is at the end of the path. -/
theorem Untouched.setAt_put (h : Untouched path before tree) (hreaches : tree.Reaches path loc)
    (habsent : tree.node? loc = none) :
    SetAt path (fun after loc => after.node? loc = some node) before (tree.put loc node) := by
  refine ⟨loc, hreaches.keeps (keeps_put hreaches.ne_nil habsent),
    (h loc hreaches).trans (.put hreaches.ne_nil), ?_⟩
  exact (node?_put hreaches.ne_nil).trans (if_pos rfl)

/-- A new file, with its permissions and content. -/
def NewFile (before : FileTree) (body : FileBody) (after : FileTree) (loc : Location) : Prop :=
  ∃ i, before.bodies.length ≤ i ∧ after.node? loc = some (.file i) ∧ after.bodies[i]? = some body

theorem Untouched.setAt_putFile {body : FileBody} (h : Untouched path before tree)
    (hreaches : tree.Reaches path loc) (habsent : tree.node? loc = none) :
    SetAt path (NewFile before body) before (tree.putFile loc body) := by
  have hsame := h loc hreaches
  refine ⟨loc, hreaches.keeps (keeps_putFile hreaches.ne_nil habsent),
    hsame.trans (.putFile hreaches.ne_nil), tree.bodies.length, hsame.bodies.length_le, ?_, ?_⟩
  · rw [node?_putFile hreaches.ne_nil, if_pos rfl]
  · exact List.getElem?_concat_length

theorem Untouched.drop (h : Untouched path before tree) (hreaches : tree.Reaches path loc) :
    Untouched path before (tree.drop loc) := by
  intro other hother
  obtain rfl := (hother.of_drop hreaches.ne_nil).unique hreaches
  exact (h other hreaches).trans (.drop hreaches.ne_nil)

end StackControl.FileTree
