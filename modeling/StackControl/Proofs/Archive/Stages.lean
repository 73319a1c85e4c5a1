import StackControl.Archive.Unpack
import StackControl.Proofs.FileTree.Ends

/-!
# The stages of unpacking

Unpacking first makes the target, and goes on to the entries only if that succeeds.  Until the first
entry that is put somewhere, nothing more happens to the tree.
-/

namespace StackControl.Archive

open FileTree

/-- The tree in which the target has been made, or part of the way to it. -/
def prepared (target : Path) (tree : FileTree) : FileTree :=
  ((Edit.makeDirectories target).run tree).2

/-- The tree that unpacking leaves, whatever comes of it. -/
def unpacked (contents : Contents) (target : Path) (tree : FileTree) : FileTree :=
  ((unpack contents target).run tree).2

variable {contents : Contents} {target : Path} {tree : FileTree} {entries : List Entry}

/-- Entries are unpacked only into a target that could be made. -/
theorem unpacked_eq (contents : Contents) (target : Path) (tree : FileTree) :
    unpacked contents target tree =
      match ((Edit.makeDirectories target).run tree).1 with
      | .ok _ => ((unpackEntries target contents.entries).run (prepared target tree)).2
      | .error _ => prepared target tree := by
  have hentries (u : FileTree) :
      Ends (do
          unpackEntries target contents.entries
          if contents.damaged then throw .damaged) u fun _ after =>
        after = ((unpackEntries target contents.entries).run u).2 := by
    rw [ends_bind]
    unfold Ends
    dsimp only
    split
    · split <;> rfl
    · rfl
  have hends : Ends (unpack contents target) tree fun _ after => after =
      match ((Edit.makeDirectories target).run tree).1 with
      | .ok _ => ((unpackEntries target contents.entries).run (prepared target tree)).2
      | .error _ => prepared target tree := by
    rw [unpack, ends_bind, ends_adapt]
    unfold Ends
    cases ((Edit.makeDirectories target).run tree).1 with
    | error => rfl
    | ok => exact hentries (prepared target tree)
  exact hends

/-- The entries end, or one of them is refused, before any is put anywhere. -/
def PutNothing : List Entry → Prop
  | [] => True
  | entry :: rest =>
    namesBelowTop? entry.path = none ∨ namesBelowTop? entry.path = some [] ∧ PutNothing rest

theorem unpackEntries_of_putNothing (h : PutNothing entries) :
    ((unpackEntries target entries).run tree).2 = tree := by
  induction entries with
  | nil => rfl
  | cons entry rest ih =>
      have hends : Ends (unpackEntries target (entry :: rest)) tree fun _ after =>
          after = tree := by
        rw [unpackEntries, ends_bind, unpackEntry]
        rcases h with hnone | ⟨hskip, hrest⟩
        · rw [hnone]
          exact rfl
        · rw [hskip]
          exact ih hrest
      exact hends

/-- Nothing more happens than to the target when it cannot be made, or no entry is put. -/
theorem unpacked_eq_prepared
    (h : PutNothing contents.entries ∨
      ∃ fault, ((Edit.makeDirectories target).run tree).1 = .error fault) :
    unpacked contents target tree = prepared target tree := by
  rw [unpacked_eq]
  rcases h with h | ⟨fault, hfault⟩
  · rw [unpackEntries_of_putNothing h]
    split <;> rfl
  · rw [hfault]

end StackControl.Archive
