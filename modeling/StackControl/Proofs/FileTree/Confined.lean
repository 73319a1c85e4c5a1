import StackControl.Proofs.FileTree.Directories

/-!
# Confined changes

A change is confined to a directory when everything it makes, overwrites or takes away lies below
that directory.  Locations are names from the root with every symbolic link resolved, so a confined
change reaches nothing outside through a link either.
-/

namespace StackControl.FileTree

/-- A location lies below another, and is not that location itself. -/
def Inside (top loc : Location) : Prop :=
  top <+: loc ∧ loc ≠ top

/-- All changes from a tree to another lie below a location.  Directories stay directories, and no
file that was there before has another content or other permissions. -/
structure Confined (before : FileTree) (top : Location) (after : FileTree) : Prop where
  workingDirectory : after.workingDirectory = before.workingDirectory
  outside {loc : Location} : ¬Inside top loc → after.node? loc = before.node? loc
  directory {loc : Location} {mode : Nat} :
    before.node? loc = some (.directory mode) → ∃ mode', after.node? loc = some (.directory mode')
  bodies : before.bodies <+: after.bodies

/-- No symbolic link lies below a location. -/
def NoLinkBelow (tree : FileTree) (top : Location) : Prop :=
  ∀ loc target, Inside top loc → tree.node? loc ≠ some (.link target)

variable {tree before mid after : FileTree} {top loc : Location} {step : Name} {path : Path}

theorem inside_append (h : top <+: loc) : Inside top (loc ++ [step]) := by
  refine ⟨h.trans (List.prefix_append _ _), ?_⟩
  rintro rfl
  have hlength := h.length_le
  simp only [List.length_append, List.length_singleton] at hlength
  omega

theorem Inside.ne_nil (h : Inside top loc) : loc ≠ [] := by
  rintro rfl
  exact h.2 (List.prefix_nil.mp h.1).symm

namespace Confined

protected theorem refl (tree : FileTree) (top : Location) : Confined tree top tree where
  workingDirectory := rfl
  outside _ := rfl
  directory h := ⟨_, h⟩
  bodies := List.prefix_rfl

protected theorem trans (h : Confined before top mid) (h' : Confined mid top after) :
    Confined before top after where
  workingDirectory := h'.workingDirectory.trans h.workingDirectory
  outside hloc := (h'.outside hloc).trans (h.outside hloc)
  directory hnode := by
    obtain ⟨mode, hmid⟩ := h.directory hnode
    exact h'.directory hmid
  bodies := h.bodies.trans h'.bodies

/-- A node below a location replaces what stood there, and a directory by a directory. -/
theorem put {node : Node} (hloc : Inside top loc)
    (hnode : ∀ mode, tree.node? loc = some (.directory mode) → ∃ mode', node = .directory mode') :
    Confined tree top (tree.put loc node) where
  workingDirectory := rfl
  outside {other} hother := by
    have hne : other ≠ loc := by
      rintro rfl
      exact hother hloc
    rw [node?_put hloc.ne_nil, if_neg hne]
  directory {other mode} hdirectory := by
    rw [node?_put hloc.ne_nil]
    split
    next heq =>
      obtain ⟨mode', rfl⟩ := hnode mode (heq ▸ hdirectory)
      exact ⟨mode', rfl⟩
    next => exact ⟨mode, hdirectory⟩
  bodies := List.prefix_rfl

theorem put_absent {node : Node} (hloc : Inside top loc) (habsent : tree.node? loc = none) :
    Confined tree top (tree.put loc node) :=
  put hloc fun mode hmode => by simp [habsent] at hmode

theorem putFile {body : FileBody} (hloc : Inside top loc) (habsent : tree.node? loc = none) :
    Confined tree top (tree.putFile loc body) :=
  have hput : Confined tree top (tree.put loc (.file tree.bodies.length)) :=
    put_absent hloc habsent
  { hput with bodies := List.prefix_append _ _ }

theorem drop {node : Node} (hloc : Inside top loc) (hnode : tree.node? loc = some node)
    (hdirectory : ∀ mode, node ≠ .directory mode) :
    Confined tree top (tree.drop loc) where
  workingDirectory := rfl
  outside {other} hother := by
    have hne : other ≠ loc := by
      rintro rfl
      exact hother hloc
    rw [node?_drop hloc.ne_nil, if_neg hne]
  directory {other mode} hother := by
    have hne : other ≠ loc := by
      rintro rfl
      rw [hnode, Option.some.injEq] at hother
      exact hdirectory mode hother
    exact ⟨mode, by rw [node?_drop hloc.ne_nil, if_neg hne, hother]⟩
  bodies := List.prefix_rfl

/-- Only the body of a file that was not there before is changed. -/
theorem setBody {i : Nat} {body : FileBody} (h : Confined before top tree)
    (hi : before.bodies.length ≤ i) :
    Confined before top (tree.setBody i body) where
  workingDirectory := h.workingDirectory
  outside hloc := by rw [node?_setBody, h.outside hloc]
  directory hnode := by simpa using h.directory hnode
  bodies := by
    obtain ⟨new, hnew⟩ := h.bodies
    rw [bodies_setBody, ← hnew, List.set_append_right _ _ hi]
    exact List.prefix_append _ _

/-- A path leads on where it led before, if no link that may have changed was on its way. -/
theorem leadsTo {dest : Location} (h : Confined before top after) (hlinks : NoLinkBelow before top)
    (hpath : before.LeadsTo path dest) :
    after.LeadsTo path dest := by
  rw [LeadsTo, start, h.workingDirectory]
  refine Leads.mono (fun _ _ => h.directory) ?_ hpath
  intro loc target hnode
  have hnot : ¬Inside top loc := fun hloc => hlinks loc target hloc hnode
  rw [h.outside hnot, hnode]

end Confined

end StackControl.FileTree
