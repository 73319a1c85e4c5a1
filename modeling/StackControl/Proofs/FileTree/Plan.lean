import Mathlib.Logic.Function.Basic
import StackControl.Proofs.FileTree.Confined

/-!
# Plans of what stands below a location

A plan says for all names what stands there below some location: a directory, a file, or nothing.  A
tree is laid out by a plan if that is what stands there, if it differs from an earlier tree nowhere
else, and if its files below the location are new and have one name each.  Then every change of one
node is a change of the plan at one point.
-/

namespace StackControl.FileTree

/-- What a tree shows at a location where no symbolic link stands. -/
inductive Standing
  | directory (mode : Nat)
  | file (body : FileBody)
deriving DecidableEq

/-- What stands at a location, if anything. -/
def Shows (tree : FileTree) (loc : Location) : Option Standing → Prop
  | none => tree.node? loc = none
  | some (.directory mode) => tree.node? loc = some (.directory mode)
  | some (.file body) => ∃ i, tree.node? loc = some (.file i) ∧ tree.bodies[i]? = some body

/-- What is to stand below a location. -/
abbrev Plan := List Name → Option Standing

/-- A tree differs from an earlier one only below a location, where it is as planned; the files
there are new, and each has one name. -/
structure LaidOut (before : FileTree) (top : Location) (plan : Plan) (tree : FileTree) :
    Prop where
  confined : Confined before top tree
  root : ∃ mode, plan [] = some (.directory mode)
  shows (names : List Name) : tree.Shows (top ++ names) (plan names)
  new {loc : Location} {i : Nat} :
    Inside top loc → tree.node? loc = some (.file i) → before.bodies.length ≤ i
  apart {loc loc' : Location} {i : Nat} :
    Inside top loc → Inside top loc' →
      tree.node? loc = some (.file i) → tree.node? loc' = some (.file i) → loc = loc'

variable {before tree tree' : FileTree} {top loc : Location} {plan : Plan} {names : List Name}
  {standing : Option Standing} {mode : Nat} {body body' : FileBody}

theorem inside_append_names (hne : names ≠ []) : Inside top (top ++ names) :=
  ⟨List.prefix_append _ _, by simpa using hne⟩

/-- What is on the way of names ends before a name that comes after them. -/
theorem ne_concat_of_isPrefix {pre front : List Name} {last : Name} (hpre : pre <+: front) :
    pre ≠ front ++ [last] := by
  rintro rfl
  have hlength := hpre.length_le
  rw [List.length_append, List.length_singleton] at hlength
  exact Nat.not_succ_le_self _ hlength

theorem Shows.of_eq (h : tree.Shows loc standing) (hnode : tree'.node? loc = tree.node? loc)
    (hbody : ∀ i body, tree.node? loc = some (.file i) → tree.bodies[i]? = some body →
      tree'.bodies[i]? = some body) :
    tree'.Shows loc standing := by
  cases standing with
  | none => exact hnode.trans h
  | some standing =>
      cases standing with
      | directory mode => exact hnode.trans h
      | file body =>
          obtain ⟨i, hfile, hbodies⟩ := h
          exact ⟨i, hnode.trans hfile, hbody i body hfile hbodies⟩

namespace LaidOut

variable (h : LaidOut before top plan tree)

include h

theorem node?_none (hplan : plan names = none) : tree.node? (top ++ names) = none := by
  have hshows := h.shows names
  rwa [hplan] at hshows

theorem node?_directory (hplan : plan names = some (.directory mode)) :
    tree.node? (top ++ names) = some (.directory mode) := by
  have hshows := h.shows names
  rwa [hplan] at hshows

theorem exists_node?_file (hplan : plan names = some (.file body)) :
    ∃ i, tree.node? (top ++ names) = some (.file i) ∧ tree.bodies[i]? = some body := by
  have hshows := h.shows names
  rwa [hplan] at hshows

theorem lt_length {i : Nat} (hloc : Inside top loc) (hnode : tree.node? loc = some (.file i)) :
    i < tree.bodies.length := by
  obtain ⟨names, rfl⟩ := hloc.1
  cases hplan : plan names with
  | none => simp [h.node?_none hplan] at hnode
  | some standing =>
      cases standing with
      | directory mode => simp [h.node?_directory hplan] at hnode
      | file body =>
          obtain ⟨j, hfile, hbody⟩ := h.exists_node?_file hplan
          rw [hnode, Option.some.injEq, Node.file.injEq] at hfile
          exact hfile ▸ (List.getElem?_eq_some_iff.mp hbody).1

/-- A change of one node, which leaves the bodies of files where they are. -/
theorem update (hne : names ≠ []) (hconfined : Confined before top tree')
    (hstanding : tree'.Shows (top ++ names) standing)
    (hother : ∀ loc, loc ≠ top ++ names → tree'.node? loc = tree.node? loc)
    (hbody : ∀ loc i body, loc ≠ top ++ names → tree.node? loc = some (.file i) → Inside top loc →
      tree.bodies[i]? = some body → tree'.bodies[i]? = some body)
    (hnew : ∀ i, tree'.node? (top ++ names) = some (.file i) → before.bodies.length ≤ i ∧
      ∀ loc, loc ≠ top ++ names → Inside top loc → tree.node? loc ≠ some (.file i)) :
    LaidOut before top (Function.update plan names standing) tree' where
  confined := hconfined
  root := by
    rw [Function.update_of_ne (Ne.symm hne)]
    exact h.root
  shows other := by
    by_cases heq : other = names
    · rw [heq, Function.update_self]
      exact hstanding
    · have hloc : top ++ other ≠ top ++ names := by simpa using heq
      rw [Function.update_of_ne heq]
      refine (h.shows other).of_eq (hother _ hloc) fun i body hnode => ?_
      by_cases hnil : other = []
      · obtain ⟨mode, hroot⟩ := h.root
        rw [hnil, h.node?_directory hroot] at hnode
        cases hnode
      · exact hbody _ i body hloc hnode (inside_append_names hnil)
  new {loc i} hloc hnode := by
    by_cases heq : loc = top ++ names
    · subst heq
      exact (hnew i hnode).1
    · exact h.new hloc (hother loc heq ▸ hnode)
  apart {loc loc' i} hloc hloc' hnode hnode' := by
    by_cases heq : loc = top ++ names
    · by_cases heq' : loc' = top ++ names
      · rw [heq, heq']
      · subst heq
        exact absurd (hother loc' heq' ▸ hnode') ((hnew i hnode).2 loc' heq' hloc')
    · by_cases heq' : loc' = top ++ names
      · subst heq'
        exact absurd (hother loc heq ▸ hnode) ((hnew i hnode').2 loc heq hloc)
      · exact h.apart hloc hloc' (hother loc heq ▸ hnode) (hother loc' heq' ▸ hnode')

theorem put (hne : names ≠ []) (mode : Nat) :
    LaidOut before top (Function.update plan names (some (.directory mode)))
      (tree.put (top ++ names) (.directory mode)) := by
  have hloc : Inside top (top ++ names) := inside_append_names hne
  have hput : (tree.put (top ++ names) (.directory mode)).node? (top ++ names) =
      some (.directory mode) := by rw [node?_put hloc.ne_nil, if_pos rfl]
  refine h.update hne (h.confined.trans (.put hloc fun _ _ => ⟨mode, rfl⟩)) hput ?_ ?_ ?_
  · intro loc hne
    rw [node?_put hloc.ne_nil, if_neg hne]
  · intro loc i body _ _ _ hbody
    exact hbody
  · intro i hi
    rw [hput] at hi
    cases hi

theorem putFile (hne : names ≠ []) (hplan : plan names = none) :
    LaidOut before top (Function.update plan names (some (.file body)))
      (tree.putFile (top ++ names) body) := by
  have hloc : Inside top (top ++ names) := inside_append_names hne
  have hput : (tree.putFile (top ++ names) body).node? (top ++ names) =
      some (.file tree.bodies.length) := by rw [node?_putFile hloc.ne_nil, if_pos rfl]
  have hbodies : (tree.putFile (top ++ names) body).bodies = tree.bodies ++ [body] := rfl
  refine h.update hne (h.confined.trans (.putFile hloc (h.node?_none hplan))) ?_ ?_ ?_ ?_
  · exact ⟨_, hput, by simp [hbodies]⟩
  · intro loc hne
    rw [node?_putFile hloc.ne_nil, if_neg hne]
  · intro loc i body' _ _ _ hbody
    rw [hbodies, List.getElem?_append_left (List.getElem?_eq_some_iff.mp hbody).1]
    exact hbody
  · intro i hi
    rw [hput] at hi
    cases hi
    refine ⟨h.confined.bodies.length_le, fun loc _ hinside hnode => ?_⟩
    exact Nat.lt_irrefl _ (h.lt_length hinside hnode)

theorem drop (hne : names ≠ []) (hplan : plan names = some (.file body)) :
    LaidOut before top (Function.update plan names none) (tree.drop (top ++ names)) := by
  have hloc : Inside top (top ++ names) := inside_append_names hne
  obtain ⟨i, hfile, -⟩ := h.exists_node?_file hplan
  have hdrop : (tree.drop (top ++ names)).node? (top ++ names) = none := by
    rw [node?_drop hloc.ne_nil, if_pos rfl]
  refine h.update hne (h.confined.trans (.drop hloc hfile nofun)) hdrop ?_ ?_ ?_
  · intro loc hne
    rw [node?_drop hloc.ne_nil, if_neg hne]
  · intro loc i body _ _ _ hbody
    exact hbody
  · intro i hi
    rw [hdrop] at hi
    cases hi

theorem setBody {i : Nat} (hne : names ≠ [])
    (hfile : tree.node? (top ++ names) = some (.file i)) (hi : i < tree.bodies.length)
    (body : FileBody) :
    LaidOut before top (Function.update plan names (some (.file body)))
      (tree.setBody i body) := by
  have hloc : Inside top (top ++ names) := inside_append_names hne
  refine h.update hne (h.confined.setBody (h.new hloc hfile)) ?_ ?_ ?_ ?_
  · exact ⟨i, by rwa [node?_setBody], by rw [bodies_setBody, List.getElem?_set_self hi]⟩
  · intro loc _
    exact node?_setBody
  · intro loc j body' hother hnode hinside hbody
    have hij : i ≠ j := by
      rintro rfl
      exact hother (h.apart hinside hloc hnode hfile)
    rw [bodies_setBody, List.getElem?_set_ne hij]
    exact hbody
  · intro j hj
    rw [node?_setBody, hfile] at hj
    cases hj
    exact ⟨h.new hloc hfile, fun loc hother hinside hnode =>
      hother (h.apart hinside hloc hnode hfile)⟩

end LaidOut

end StackControl.FileTree
