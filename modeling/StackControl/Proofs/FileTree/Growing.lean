import Mathlib.Data.List.Induction
import StackControl.Proofs.FileTree.Plan
import StackControl.Proofs.FileTree.Spelling
import StackControl.Proofs.FileTree.Spots

/-!
# Growing a planned tree

Below an empty directory that a path leads to, everything is as some plan says.  There the way of
names is known from the plan alone, and so is what making a directory with its ancestors comes to:
each directory on the way that the plan lacks is added to it.
-/

namespace StackControl.FileTree

/-- A path leads to a directory that holds nothing. -/
structure Vacant (before : FileTree) (target : Path) (top : Location) : Prop where
  check : checkPath target = .ok ()
  way : ∃ left, before.Way linkLimit (before.start target) (Path.route target).steps left top
  empty {loc : Location} : Inside top loc → before.node? loc = none

/-- What was put into a place that held nothing stands on no way that was there. -/
theorem Way.of_outside {before tree : FileTree} {top loc dest : Location} {steps : List Name}
    {links left : Nat} (hempty : ∀ {loc}, Inside top loc → before.node? loc = none)
    (houtside : ∀ {loc}, ¬Inside top loc → tree.node? loc = before.node? loc)
    (h : before.Way links loc steps left dest) : tree.Way links loc steps left dest := by
  refine h.mono fun other node _ hnode => ?_
  rw [houtside fun hinside => ?_, hnode]
  rw [hempty hinside] at hnode
  cases hnode

/-- Names that can be used in a path and held by directories. -/
def Usable (names : List Name) : Prop :=
  ∀ n ∈ names, Path.IsOrdinary n ∧ n.length ≤ longestName

namespace Plan

variable {plan : Plan} {front names : List Name} {last : Name}

/-- Every directory on the way of names is there and may be searched. -/
def Passable (plan : Plan) (names : List Name) : Prop :=
  ∀ pre, pre <+: names → ∃ mode, plan pre = some (.directory mode) ∧ searchable mode = true

/-- The way of names can be made: what is there may be searched, and where something is missing it
may be added. -/
structure Clear (plan : Plan) (names : List Name) : Prop where
  root : plan [] ≠ none
  closed {pre other : List Name} : pre <+: other → plan pre = none → plan other = none
  passes (pre : List Name) : pre <+: names →
    plan pre = none ∨ ∃ mode, plan pre = some (.directory mode) ∧ searchable mode = true
  adds (pre : List Name) (n : Name) (mode : Nat) : pre ++ [n] <+: names →
    plan (pre ++ [n]) = none → plan pre = some (.directory mode) → writable mode = true

/-- The plan with directories on the way of names where it had nothing. -/
def grown (plan : Plan) (names : List Name) : Plan := fun other =>
  if plan other = none ∧ other <+: names then some (.directory directoryMode) else plan other

theorem Clear.of_prefix (h : plan.Clear names) (hfront : front <+: names) : plan.Clear front where
  root := h.root
  closed := h.closed
  passes pre hpre := h.passes pre (hpre.trans hfront)
  adds pre n mode hpre := h.adds pre n mode (hpre.trans hfront)

theorem Clear.passable (h : plan.Clear names) (hplan : plan names ≠ none) :
    plan.Passable names := by
  intro pre hpre
  exact (h.passes pre hpre).resolve_left fun hnone => hplan (h.closed hpre hnone)

/-- Where names are missing, one of them is the first. -/
theorem Clear.exists_first_missing (h : plan.Clear names) (hplan : plan names = none) :
    ∃ pre n rest, names = pre ++ n :: rest ∧ plan pre ≠ none ∧ plan (pre ++ [n]) = none := by
  induction names using List.reverseRecOn with
  | nil => exact absurd hplan h.root
  | append_singleton front n ih =>
      by_cases hfront : plan front = none
      · obtain ⟨pre, n', rest, rfl, hpre, hmissing⟩ :=
          ih (h.of_prefix (List.prefix_append _ _)) hfront
        exact ⟨pre, n', rest ++ [n], by simp, hpre, hmissing⟩
      · exact ⟨front, n, [], rfl, hfront, hplan⟩

/-- Nothing grows where everything is there. -/
theorem Clear.grown_eq (h : plan.Clear names) (hplan : plan names ≠ none) :
    plan.grown names = plan := by
  funext other
  rw [grown, if_neg]
  rintro ⟨hnone, hother⟩
  exact hplan (h.closed hother hnone)

theorem grown_concat (hplan : plan (front ++ [last]) = none) :
    plan.grown (front ++ [last]) =
      Function.update (plan.grown front) (front ++ [last]) (some (.directory directoryMode)) := by
  funext other
  by_cases heq : other = front ++ [last]
  · rw [heq, Function.update_self, grown, if_pos ⟨hplan, List.prefix_rfl⟩]
  · rw [Function.update_of_ne heq, grown, grown]
    have hbelow : other <+: front ++ [last] ↔ other <+: front := by
      rw [List.prefix_concat_iff]
      exact or_iff_right heq
    simp only [hbelow]

/-- A directory is there to which names may be added. -/
def Editable (plan : Plan) (names : List Name) : Prop :=
  ∃ mode, plan names = some (.directory mode) ∧ writable mode = true ∧ searchable mode = true

/-- Names may be added to the last directory on the way, new or not. -/
theorem Clear.editable_grown (h : plan.Clear names)
    (hwrite : ∀ mode, plan names = some (.directory mode) → writable mode = true) :
    (plan.grown names).Editable names := by
  rcases h.passes names List.prefix_rfl with hnone | ⟨mode, hmode, hsearch⟩
  · exact ⟨directoryMode, if_pos ⟨hnone, List.prefix_rfl⟩, by decide, by decide⟩
  · refine ⟨mode, ?_, hwrite mode hmode, hsearch⟩
    rw [grown, if_neg (by simp [hmode]), hmode]

/-- What comes after the way is not grown. -/
theorem grown_concat_self (plan : Plan) (front : List Name) (last : Name) :
    plan.grown front (front ++ [last]) = plan (front ++ [last]) := by
  rw [grown, if_neg fun h => ne_concat_of_isPrefix h.2 rfl]

theorem Clear.passable_grown (h : plan.Clear names) : (plan.grown names).Passable names := by
  intro pre hpre
  rcases h.passes pre hpre with hnone | ⟨mode, hmode, hsearch⟩
  · exact ⟨directoryMode, if_pos ⟨hnone, hpre⟩, by decide⟩
  · refine ⟨mode, ?_, hsearch⟩
    rw [grown, if_neg (by simp [hmode]), hmode]

end Plan

variable {before tree : FileTree} {target path : Path} {top : Location} {plan : Plan}
  {front names steps : List Name} {last : Name} {links left : Nat} {loc : Location}

theorem steps_directoryPath (hnames : ∀ n ∈ names, Path.IsOrdinary n) :
    (Path.route (directoryPath target names)).steps =
      (target.components.map Path.Component.part).filter (!·.isEmpty) ++ names := by
  have habove : (Path.route (pathAbove target names
      (target.components ++ names.map Path.Component.name).length)).steps = _ :=
    steps_pathAbove hnames
  rw [pathAbove, List.take_length, List.take_of_length_le (by simp),
    List.take_of_length_le (by simp)] at habove
  exact habove

theorem Usable.of_prefix (h : Usable names) (hfront : front <+: names) : Usable front :=
  fun n hn => h n (hfront.subset hn)

theorem Usable.isEntryName (h : Usable names) {n : Name} (hn : n ∈ names) : IsEntryName n :=
  ⟨(h n hn).1.isName, (h n hn).2⟩

theorem Usable.isOrdinary (h : Usable names) : ∀ n ∈ names, Path.IsOrdinary n :=
  fun n hn => (h n hn).1

namespace LaidOut

variable (h : LaidOut before top plan tree)

include h

theorem maySearch (hpass : plan.Passable names) : tree.MaySearch (top ++ names) := by
  obtain ⟨mode, hmode, hsearch⟩ := hpass names List.prefix_rfl
  exact ⟨mode, h.node?_directory hmode, hsearch⟩

/-- A way to the top goes on with the names that the plan lets pass. -/
theorem way_append (hpass : plan.Passable front) (hnames : Usable front)
    (hway : tree.Way links loc steps left top) :
    tree.Way links loc (steps ++ front) left (top ++ front) := by
  induction front using List.reverseRecOn with
  | nil => simpa using hway
  | append_singleton front n ih =>
      have hfront : front <+: front ++ [n] := List.prefix_append _ _
      have hpass' : plan.Passable front := fun pre hpre => hpass pre (hpre.trans hfront)
      obtain ⟨mode, hmode, -⟩ := hpass _ List.prefix_rfl
      have hnode := h.node?_directory hmode
      rw [← List.append_assoc] at hnode ⊢
      rw [← List.append_assoc]
      exact (ih hpass' (hnames.of_prefix hfront)).append
        (.enter (h.maySearch hpass') (hnames.isEntryName (by simp)) hnode .stay)

theorem mayEdit (hedit : plan.Editable names) : tree.mayEdit (top ++ names) = true := by
  obtain ⟨mode, hmode, hwrite, hsearch⟩ := hedit
  rw [FileTree.mayEdit, h.node?_directory hmode]
  simp [hwrite, hsearch]

/-- A path that spells a way to the top and names after it ends in a spot. -/
theorem spot (hcheck : checkPath path = .ok ())
    (hsteps : (Path.route path).steps = steps ++ (front ++ [last]))
    (hway : tree.Way linkLimit (tree.start path) steps left top)
    (hpass : plan.Passable front) (hnames : Usable (front ++ [last])) :
    tree.Spot path (top ++ front) last where
  check := hcheck
  way := by
    refine ⟨steps ++ front, left, by rw [hsteps, List.append_assoc], ?_⟩
    exact h.way_append hpass (hnames.of_prefix (List.prefix_append _ _)) hway
  search := h.maySearch hpass
  name := hnames.isEntryName (by simp)

variable (hvacant : Vacant before target top)

include hvacant

theorem exists_way : ∃ left,
    tree.Way linkLimit (tree.start target) (Path.route target).steps left top := by
  obtain ⟨left, hway⟩ := hvacant.way
  have hstart : tree.start target = before.start target := by
    rw [start, start, h.confined.workingDirectory]
  refine ⟨left, ?_⟩
  rw [hstart]
  exact hway.of_outside hvacant.empty h.confined.outside

/-- A path that is followed by names ends in a spot. -/
theorem spot_join (hcheck : checkPath (Path.join target
      ([Path.separator].intercalate (front ++ [last]))) = .ok ())
    (hpass : plan.Passable front) (hnames : Usable (front ++ [last])) :
    tree.Spot (Path.join target ([Path.separator].intercalate (front ++ [last])))
      (top ++ front) last := by
  have hne : front ++ [last] ≠ [] := by simp
  obtain ⟨left, hway⟩ := h.exists_way hvacant
  rw [start, ← Path.absolute_join hnames.isOrdinary] at hway
  exact h.spot hcheck (Path.steps_join hne hnames.isOrdinary) hway hpass hnames

theorem exists_way_directoryPath (hnames : ∀ n ∈ names, Path.IsOrdinary n) :
    ∃ left, tree.Way linkLimit (tree.start (directoryPath target names))
      ((target.components.map Path.Component.part).filter (!·.isEmpty)) left top := by
  obtain ⟨left, hway⟩ := h.exists_way hvacant
  refine ⟨left, ?_⟩
  rw [start_directoryPath (checkPath_eq_ok_iff.mp hvacant.check).2.1 hnames]
  exact hway.components

/-! ## Making directories -/

/-- A directory that the plan has is found. -/
theorem stat_directoryPath {mode : Nat} (hcheck : checkPath (directoryPath target names) = .ok ())
    (hpass : plan.Passable names) (hnames : Usable names)
    (hplan : plan names = some (.directory mode)) :
    tree.stat (directoryPath target names) = .ok (top ++ names, .directory mode) := by
  obtain ⟨left, hway⟩ := h.exists_way_directoryPath hvacant hnames.isOrdinary
  have hnames' := h.way_append hpass hnames hway
  rw [← steps_directoryPath hnames.isOrdinary] at hnames'
  exact stat_of_way hcheck hnames' (h.node?_directory hplan)

theorem spot_directoryPath (hcheck : checkPath (directoryPath target (front ++ [last])) = .ok ())
    (hpass : plan.Passable front) (hnames : Usable (front ++ [last])) :
    tree.Spot (directoryPath target (front ++ [last])) (top ++ front) last := by
  obtain ⟨left, hway⟩ := h.exists_way_directoryPath hvacant hnames.isOrdinary
  exact h.spot hcheck (steps_directoryPath hnames.isOrdinary) hway hpass hnames

/-- Below something that is missing nothing can be made. -/
theorem locateRoute_missing (hpass : plan.Passable front)
    (hplan : plan (front ++ [last]) = none) (hrest : names ≠ [])
    (hnames : Usable (front ++ last :: names)) :
    tree.locateRoute false (Path.route (directoryPath target (front ++ last :: names))) false =
      .error (.os .notFound) := by
  obtain ⟨left, hway⟩ := h.exists_way_directoryPath hvacant hnames.isOrdinary
  have hfront := h.way_append hpass (hnames.of_prefix (List.prefix_append _ _)) hway
  have hnode := h.node?_none hplan
  rw [← List.append_assoc] at hnode
  have hwalk : tree.walk false linkLimit
      (tree.start (directoryPath target (front ++ last :: names)))
      (Path.route (directoryPath target (front ++ last :: names))).steps false =
        .error .notFound := by
    rw [steps_directoryPath hnames.isOrdinary, ← List.append_assoc,
      hfront.walk_append (List.cons_ne_nil _ _),
      walk_missing (h.maySearch hpass) (hnames.isEntryName (by simp)) hnode, if_neg hrest]
  rw [start] at hwalk
  rw [locateRoute, hwalk]

omit h hvacant in
/-- Once the directories above are made, one that is missing can be added to them. -/
theorem exists_spot_of_grown (hgrown : LaidOut before top (plan.grown front) tree)
    (hvacant : Vacant before target top) (hclear : plan.Clear (front ++ [last]))
    (hnames : Usable (front ++ [last])) (hplan : plan (front ++ [last]) = none)
    (hcheck : checkPath (directoryPath target (front ++ [last])) = .ok ()) :
    ∃ dest n, tree.Spot (directoryPath target (front ++ [last])) dest n ∧
      tree.node? (dest ++ [n]) = none ∧ tree.mayEdit dest = true ∧
        LaidOut before top (plan.grown (front ++ [last]))
          (tree.put (dest ++ [n]) (.directory directoryMode)) := by
  have hfront := hclear.of_prefix (List.prefix_append front [last])
  have hspot := hgrown.spot_directoryPath hvacant hcheck hfront.passable_grown hnames
  have hedit : (plan.grown front).Editable front :=
    hfront.editable_grown fun mode => hclear.adds front last mode List.prefix_rfl hplan
  have hmissing := hgrown.node?_none ((Plan.grown_concat_self plan front last).trans hplan)
  have hput := hgrown.put (show front ++ [last] ≠ [] by simp) directoryMode
  rw [← Plan.grown_concat hplan, ← List.append_assoc] at hput
  rw [← List.append_assoc] at hmissing
  exact ⟨_, _, hspot, hmissing, hgrown.mayEdit hedit, hput⟩

/-- A directory whose own directory is missing cannot be made at once. -/
theorem locateRoute_of_front_missing (hclear : plan.Clear front) (hplan : plan front = none)
    (hnames : Usable (front ++ [last])) :
    tree.locateRoute false (Path.route (directoryPath target (front ++ [last]))) false =
      .error (.os .notFound) := by
  obtain ⟨pre, n, rest, rfl, hpre, hmissing⟩ := hclear.exists_first_missing hplan
  have hpass : plan.Passable pre := (hclear.of_prefix (List.prefix_append _ _)).passable hpre
  rw [List.append_assoc, List.cons_append] at hnames ⊢
  exact h.locateRoute_missing hvacant hpass hmissing (by simp) hnames

/-- Making a directory with its ancestors adds to the plan what is missing on the way. -/
theorem ends_makeAlong (hclear : plan.Clear names) (hnames : Usable names)
    (hcheck : ∀ pre, pre <+: names → checkPath (directoryPath target pre) = .ok ()) :
    Ends (Edit.makeAlong (directoryPath target names ::
        Path.above (target.components ++ names.map Path.Component.name))) tree
      fun result after => result = .ok () ∧ LaidOut before top (plan.grown names) after := by
  -- The directory itself is tried first and those above it after that, so the last name is split
  -- off.
  induction names using List.reverseRecOn with
  | nil =>
      obtain ⟨mode, hroot⟩ := h.root
      have hpass : plan.Passable [] := hclear.passable hclear.root
      rw [ends_makeAlong_present (h.stat_directoryPath hvacant (hcheck [] List.prefix_rfl) hpass
        hnames hroot), hclear.grown_eq hclear.root]
      exact ⟨rfl, h⟩
  | append_singleton front n ih =>
      have hfront : front <+: front ++ [n] := List.prefix_append _ _
      have hwhole := hcheck _ List.prefix_rfl
      by_cases hplan : plan (front ++ [n]) = none
      · by_cases hpresent : plan front = none
        · have hroute := h.locateRoute_of_front_missing hvacant (hclear.of_prefix hfront) hpresent
            hnames
          have hcomponents : target.components ++ front.map Path.Component.name ≠ [] := by
            simp [Path.components_eq_nil, (checkPath_eq_ok_iff.mp hvacant.check).2.1]
          rw [List.map_append, List.map_singleton, ← List.append_assoc,
            Path.above_concat _ hcomponents]
          apply ends_makeAlong_missing hwhole hroute
          refine (ih (hclear.of_prefix hfront) (hnames.of_prefix hfront) fun pre hpre =>
            hcheck pre (hpre.trans hfront)).mono ?_
          rintro _ after ⟨rfl, hafter⟩
          obtain ⟨dest, last, hspot, hnode, hedit, hput⟩ :=
            hafter.exists_spot_of_grown hvacant hclear hnames hplan hwhole
          exact ⟨rfl, dest, last, hspot, hnode, hedit, rfl, hput⟩
        · have hgrown := (hclear.of_prefix hfront).grown_eq hpresent
          obtain ⟨dest, last, hspot, hnode, hedit, hput⟩ :=
            exists_spot_of_grown (hgrown.symm ▸ h) hvacant hclear hnames hplan hwhole
          rw [ends_makeAlong_absent hspot hnode hedit]
          exact ⟨rfl, hput⟩
      · obtain ⟨mode, hmode, -⟩ := hclear.passable hplan _ List.prefix_rfl
        rw [ends_makeAlong_present (h.stat_directoryPath hvacant hwhole (hclear.passable hplan)
          hnames hmode), hclear.grown_eq hplan]
        exact ⟨rfl, h⟩

end LaidOut

end StackControl.FileTree
