import StackControl.FileTree.Basic

/-!
# Nodes of a file tree

What stands at a location after a node was put there, taken away, or given another body.  A change
of one location leaves every other location alone, and new files never share a body with old ones.
-/

namespace StackControl.FileTree

section Rows

variable {κ α : Type} [BEq κ] [LawfulBEq κ]

theorem lookup_upsert (key k : κ) (value : α) (rows : List (κ × α)) :
    (upsert key value rows).lookup k =
      if k == key then some value else rows.lookup k := by
  induction rows with
  | nil => cases h : k == key <;> simp [upsert, List.lookup_cons, h]
  | cons row rest ih =>
      obtain ⟨k', v⟩ := row
      by_cases hkey : k' = key
      · subst hkey
        cases h : k == k' <;> simp [upsert, List.lookup_cons, h]
      · by_cases h : k = k'
        · subst h
          simp [upsert, hkey]
        · have hne : (k == k') = false := beq_false_of_ne h
          simp [upsert, List.lookup_cons, hkey, hne, ih]

theorem lookup_filter_ne (key k : κ) (rows : List (κ × α)) :
    (rows.filter (·.1 != key)).lookup k =
      if k == key then none else rows.lookup k := by
  induction rows with
  | nil => simp
  | cons row rest ih =>
      obtain ⟨k', v⟩ := row
      by_cases hkey : k' = key
      · subst hkey
        by_cases h : k = k'
        · subst h
          simpa using ih
        · have hbeq : (k == k') = false := beq_false_of_ne h
          simp only [bne_self_eq_false, Bool.false_eq_true, not_false_eq_true,
            List.filter_cons_of_neg, ih, List.lookup_cons, hbeq, if_false]
      · by_cases h : k = k'
        · subst h
          simp [hkey]
        · have hbeq : (k == k') = false := beq_false_of_ne h
          simp [List.lookup_cons, hkey, hbeq, ih]

end Rows

variable {tree : FileTree} {loc other : Location} {node : Node} {body : FileBody}

@[simp] theorem node?_root : tree.node? [] = some (.directory directoryMode) := rfl

theorem node?_eq_lookup (h : loc ≠ []) : tree.node? loc = tree.nodes.lookup loc := by
  cases loc with
  | nil => exact absurd rfl h
  | cons => rfl

/-- A tree that holds nothing consists of the directories above the working directory. -/
theorem exists_directory_of_empty {workingDirectory : Location}
    (h : (empty workingDirectory).node? loc = some node) : ∃ mode, node = .directory mode := by
  by_cases hroot : loc = []
  · subst hroot
    exact ⟨_, (Option.some.inj h).symm⟩
  · rw [node?_eq_lookup hroot, List.lookup_eq_some_iff] at h
    obtain ⟨front, rest, hnodes, -⟩ := h
    have hmem : (loc, node) ∈ (empty workingDirectory).nodes := by simp [hnodes]
    obtain ⟨n, -, hrow⟩ := List.mem_map.mp hmem
    exact ⟨_, (congrArg Prod.snd hrow).symm⟩

theorem node?_put (h : loc ≠ []) :
    (tree.put loc node).node? other = if other = loc then some node else tree.node? other := by
  by_cases hother : other = []
  · subst hother
    simp [Ne.symm h]
  · rw [node?_eq_lookup hother, node?_eq_lookup hother]
    simpa only [put, beq_iff_eq] using lookup_upsert loc other node tree.nodes

theorem node?_drop (h : loc ≠ []) :
    (tree.drop loc).node? other = if other = loc then none else tree.node? other := by
  by_cases hother : other = []
  · subst hother
    simp [Ne.symm h]
  · rw [node?_eq_lookup hother, node?_eq_lookup hother]
    simpa only [drop, beq_iff_eq] using lookup_filter_ne loc other tree.nodes

theorem node?_putFile (h : loc ≠ []) :
    (tree.putFile loc body).node? other =
      if other = loc then some (.file tree.bodies.length) else tree.node? other :=
  node?_put h

@[simp] theorem node?_setBody {i : Nat} :
    (tree.setBody i body).node? loc = tree.node? loc := by
  cases loc <;> rfl

@[simp] theorem bodies_setBody {i : Nat} :
    (tree.setBody i body).bodies = tree.bodies.set i body := rfl

end StackControl.FileTree
