import StackControl.Proofs.FileTree.Filling

/-!
# Trees without symbolic links

Where there are no symbolic links, a path alone says where it leads: each name goes down, and `..`
goes up.  So a file that is written through a path is found, or made, in a directory that can be
told from the path, whatever else the tree holds.
-/

namespace StackControl

namespace Location

/-- Where steps lead from a location if no name on the way is a symbolic link. -/
def after (loc : Location) : List Name → Location
  | [] => loc
  | step :: rest =>
    if step = Path.dot then after loc rest
    else if step = Path.dotDot then after loc.dropLast rest
    else after (loc ++ [step]) rest

theorem after_append (loc : Location) (front rest : List Name) :
    loc.after (front ++ rest) = (loc.after front).after rest := by
  induction front generalizing loc with
  | nil => rfl
  | cons step front ih =>
      simp only [List.cons_append, after]
      split
      · exact ih _
      · split
        · exact ih _
        · exact ih _

end Location

namespace FileTree

/-- Nothing in the tree is a symbolic link. -/
def NoLinks (tree : FileTree) : Prop :=
  ∀ loc target, tree.node? loc ≠ some (.link target)

variable {tree before : FileTree} {path : Path} {loc dest : Location} {front : List Name}
  {step : Name} {place : Place} {content : Bytes}

/-! ## Where paths lead -/

theorem Leads.eq_after {steps : List Name} (hlinks : tree.NoLinks)
    (h : tree.Leads loc steps dest) : dest = loc.after steps := by
  induction h with
  | stay => rfl
  | here _ ih => simpa [Location.after] using ih
  | up _ ih => simpa [Location.after, Path.dot, Path.dotDot] using ih
  | enter hname _ _ ih => simpa [Location.after, hname.1, hname.2] using ih
  | follow _ hnode => exact absurd hnode (hlinks _ _)

/-- A name in the last place is taken where the steps before it lead. -/
theorem Passage.eq_after {follow : Bool} (hlinks : tree.NoLinks) (hname : IsName step)
    (h : Passage tree follow loc (front ++ [step]) false place) :
    (place = .absent (loc.after front ++ [step]) ∧
        tree.node? (loc.after front ++ [step]) = none) ∨
      ∃ node, place = .present (loc.after front ++ [step]) node ∧
        tree.node? (loc.after front ++ [step]) = some node := by
  obtain ⟨mid, hlead, hlast⟩ := h.exists_leads
  obtain rfl := hlead.eq_after hlinks
  rcases hlast.last_cases hname with ⟨hplace, hnone, -⟩ | hpresent | ⟨-, target, hlink⟩
  · exact .inl ⟨hplace, hnone⟩
  · exact .inr hpresent
  · exact absurd hlink (hlinks _ _)

/-- Directories that are added are no links. -/
theorem NoLinks.of_directoriesAdded {paths : List Path} {made : FileTree} (h : tree.NoLinks)
    (hadded : DirectoriesAdded paths tree made) : made.NoLinks :=
  fun loc target hnode => h loc target (hadded.node?_eq_link hnode)

theorem noLinks_empty (workingDirectory : Location) : (empty workingDirectory).NoLinks := by
  intro loc target hnode
  obtain ⟨mode, hmode⟩ := exists_directory_of_empty hnode
  cases hmode

/-! ## Where files are written -/

/-- A file that is written through a path is the one at a location: it stands there, or it is made
there. -/
def WritesAt (tree : FileTree) (path : Path) (loc : Location) : Prop :=
  tree.locate true path = .ok (.absent loc) ∨
    ∃ i, tree.locate true path = .ok (.present loc (.file i))

/-- What is written is written at some location. -/
theorem exists_writesAt (h : ((Edit.write path content).run tree).1 = .ok ()) :
    path.route.directory = false ∧ ∃ loc, tree.WritesAt path loc := by
  have hends : Ends (Edit.write path content) tree fun result _ =>
      result = .ok () → path.route.directory = false ∧ ∃ loc, tree.WritesAt path loc :=
    ends_write_cases nofun (fun loc hdirectory hlocate _ _ => ⟨hdirectory, loc, .inl hlocate⟩)
      fun loc i _ hdirectory hlocate _ _ _ => ⟨hdirectory, loc, .inr ⟨i, hlocate⟩⟩
  exact hends h

/-- Without links, a file is written in the directory that the steps before its name lead to. -/
theorem writesAt_after (hlinks : tree.NoLinks) (hsteps : (Path.route path).steps = front ++ [step])
    (hname : IsName step) (h : ((Edit.write path content).run tree).1 = .ok ()) :
    tree.WritesAt path ((tree.start path).after front ++ [step]) := by
  obtain ⟨hdirectory, loc, hlocate⟩ := exists_writesAt h
  have hplace {place : Place} (hplace : tree.locate true path = .ok place) :=
    Passage.eq_after hlinks hname (hsteps ▸ hdirectory ▸ passage_of_locate hplace)
  rcases hlocate with hlocate | ⟨i, hlocate⟩
  · rcases hplace hlocate with ⟨hloc, -⟩ | ⟨node, hloc, -⟩
    · exact .inl (hloc ▸ hlocate)
    · cases hloc
  · rcases hplace hlocate with ⟨hloc, -⟩ | ⟨node, hloc, -⟩
    · cases hloc
    · obtain ⟨rfl, -⟩ := Place.present.inj hloc
      exact .inr ⟨i, hlocate⟩

/-! ## Files of one directory -/

/-- A tree is another in which files were written under some names of one directory, and nothing
else was changed. -/
structure FilesIn (before : FileTree) (dest : Location) (names : List Name) (tree : FileTree) :
    Prop where
  workingDirectory : tree.workingDirectory = before.workingDirectory
  length_le : before.bodies.length ≤ tree.bodies.length
  /-- What stands elsewhere than before is a new file. -/
  node (loc : Location) : tree.node? loc = before.node? loc ∨
    before.node? loc = none ∧ (∃ name ∈ names, loc = dest ++ [name]) ∧
      ∃ i, before.bodies.length ≤ i ∧ tree.node? loc = some (.file i)
  /-- A file that is changed had one of the names. -/
  body {i : Nat} {body : FileBody} : before.bodies[i]? = some body →
    tree.bodies[i]? = some body ∨ ∃ name ∈ names, before.node? (dest ++ [name]) = some (.file i)

namespace FilesIn

variable {names : List Name} {name : Name}

protected theorem refl (tree : FileTree) (dest : Location) (names : List Name) :
    FilesIn tree dest names tree where
  workingDirectory := rfl
  length_le := Nat.le_refl _
  node _ := .inl rfl
  body := .inl

variable (h : FilesIn before dest names tree)
include h

theorem noLinks (hlinks : before.NoLinks) : tree.NoLinks := by
  intro loc target hnode
  rcases h.node loc with hsame | ⟨-, -, i, -, hfile⟩
  · exact hlinks loc target (hsame ▸ hnode)
  · rw [hfile] at hnode
    cases hnode

variable (hname : name ∈ names)
include hname

theorem putFile (hnone : tree.node? (dest ++ [name]) = none) :
    FilesIn before dest names (tree.putFile (dest ++ [name]) ⟨fileMode, content⟩) where
  workingDirectory := h.workingDirectory
  length_le := by
    have := h.length_le
    simp [FileTree.putFile]
    omega
  node loc := by
    rw [node?_putFile (by simp)]
    split
    next heq =>
      subst heq
      have hbefore : before.node? (dest ++ [name]) = none := by
        rcases h.node (dest ++ [name]) with hsame | ⟨hbefore, -⟩
        · rw [← hsame, hnone]
        · exact hbefore
      exact .inr ⟨hbefore, ⟨name, hname, rfl⟩, tree.bodies.length, h.length_le, rfl⟩
    next => exact h.node loc
  body {i body} hbody := by
    refine (h.body hbody).imp_left fun hkept => ?_
    exact List.getElem?_append_left (List.getElem?_eq_some_iff.mp hkept).1 ▸ hkept

theorem setBody {i : Nat} {new : FileBody} (hnode : tree.node? (dest ++ [name]) = some (.file i)) :
    FilesIn before dest names (tree.setBody i new) where
  workingDirectory := h.workingDirectory
  length_le := by simpa using h.length_le
  node loc := by simpa using h.node loc
  body {j body} hbody := by
    rcases eq_or_ne j i with rfl | hne
    · right
      rcases h.node (dest ++ [name]) with hsame | ⟨-, -, k, hnew, hfile⟩
      · exact ⟨name, hname, hsame ▸ hnode⟩
      · -- A new file is none of those that were there.
        obtain rfl : j = k := by
          rw [hnode] at hfile
          simpa using hfile
        have := (List.getElem?_eq_some_iff.mp hbody).1
        omega
    · refine (h.body hbody).imp_left fun hkept => ?_
      rw [bodies_setBody, List.getElem?_set_ne hne.symm]
      exact hkept

/-- Writing at one of the names adds no other change. -/
theorem ends_write (hlinks : before.NoLinks) (hisName : IsName name)
    (hsteps : (Path.route path).steps = front ++ [name])
    (hdest : (before.start path).after front = dest) :
    Ends (Edit.write path content) tree fun _ after => FilesIn before dest names after := by
  have hplace {place : Place} (hdirectory : (Path.route path).directory = false)
      (hplace : tree.locate true path = .ok place) :=
    Passage.eq_after (h.noLinks hlinks) hisName (hsteps ▸ hdirectory ▸ passage_of_locate hplace)
  have hstart : (tree.start path).after front = dest := by
    rw [start, h.workingDirectory]
    exact hdest
  rw [hstart] at hplace
  refine ends_write_cases (fun _ => h) (fun loc hdirectory hlocate _ => ?_)
    fun loc i body hdirectory hlocate _ _ => ?_
  · rcases hplace hdirectory hlocate with ⟨hloc, hnone⟩ | ⟨node, hloc, -⟩
    · cases hloc
      exact h.putFile hname hnone
    · cases hloc
  · rcases hplace hdirectory hlocate with ⟨hloc, -⟩ | ⟨node, hloc, hnode⟩
    · cases hloc
    · cases hloc
      exact h.setBody hname hnode

end FilesIn

end FileTree

end StackControl
