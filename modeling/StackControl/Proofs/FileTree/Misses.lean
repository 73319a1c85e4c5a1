import StackControl.Proofs.FileTree.Removal
import StackControl.Proofs.FileTree.Ways

/-!
# What a walk misses

A walk looks at nothing beyond the first place on its way where nothing stands.  So where things
were added to a tree, a path leads where it led before, unless one of them stands at the place that
was missing.
-/

namespace StackControl.FileTree

/-- The first place where nothing stands when the steps are taken from a location. -/
inductive Misses (tree : FileTree) : Location → List Name → Location → Prop
  | gone {loc steps} : tree.node? loc = none → Misses tree loc steps loc
  | here {loc rest place} :
      Misses tree loc rest place → Misses tree loc (Path.dot :: rest) place
  | up {loc rest place} :
      Misses tree loc.dropLast rest place → Misses tree loc (Path.dotDot :: rest) place
  | missing {loc step rest} :
      IsName step → tree.node? (loc ++ [step]) = none →
        Misses tree loc (step :: rest) (loc ++ [step])
  | enter {loc mode step rest place} :
      IsName step → tree.node? (loc ++ [step]) = some (.directory mode) →
        Misses tree (loc ++ [step]) rest place → Misses tree loc (step :: rest) place
  | follow {loc target step rest place} :
      IsName step → tree.node? (loc ++ [step]) = some (.link target) →
        Misses tree (linkStart target loc) ((Path.route target).steps ++ rest) place →
          Misses tree loc (step :: rest) place

variable {tree tree' : FileTree} {follow directory : Bool} {loc dest place : Location}
  {step : Name} {steps rest : List Name} {path : Path} {links i : Nat}

/-- How something is missed from the first step on. -/
theorem Misses.cons_cases (h : Misses tree loc (step :: rest) place) :
    tree.node? loc = none ∨ (step = Path.dot ∧ Misses tree loc rest place) ∨
      (step = Path.dotDot ∧ Misses tree loc.dropLast rest place) ∨
        IsName step ∧ (tree.node? (loc ++ [step]) = none ∨
          (∃ mode, tree.node? (loc ++ [step]) = some (.directory mode) ∧
            Misses tree (loc ++ [step]) rest place) ∨
          ∃ target, tree.node? (loc ++ [step]) = some (.link target) ∧
            Misses tree (linkStart target loc) ((Path.route target).steps ++ rest) place) := by
  generalize hsteps : step :: rest = steps at h
  cases h with
  | gone hnone => exact .inl hnone
  | here h =>
      cases hsteps
      exact .inr (.inl ⟨rfl, h⟩)
  | up h =>
      cases hsteps
      exact .inr (.inr (.inl ⟨rfl, h⟩))
  | missing hname hnone =>
      cases hsteps
      exact .inr (.inr (.inr ⟨hname, .inl hnone⟩))
  | enter hname hnode h =>
      cases hsteps
      exact .inr (.inr (.inr ⟨hname, .inr (.inl ⟨_, hnode, h⟩)⟩))
  | follow hname hnode h =>
      cases hsteps
      exact .inr (.inr (.inr ⟨hname, .inr (.inr ⟨_, hnode, h⟩)⟩))

/-- A walk that ends at a file has missed nothing. -/
theorem not_misses_of_walk
    (h : tree.walk follow links loc steps directory = .ok (.present dest (.file i))) :
    ¬Misses tree loc steps place := by
  intro hmisses
  -- Behind a link there are new steps but fewer links, otherwise there are fewer steps.
  induction links using Nat.strongRecOn generalizing loc steps directory with
  | ind links ihLinks =>
  induction steps generalizing loc with
  | nil =>
      cases hmisses with
      | gone hnone => simp [walk_eq_walkSteps, walkSteps, hnone] at h
  | cons step rest ihSteps =>
      obtain ⟨⟨mode, hmode, -⟩, hfirst⟩ := firstStep_of_walk h
      have hdots : Path.dotDot ≠ Path.dot := by decide
      rcases hmisses.cons_cases with hnone | ⟨rfl, hlater⟩ | ⟨rfl, hlater⟩ | ⟨hname, hlater⟩
      · rw [hmode] at hnone
        cases hnone
      · rcases hfirst with ⟨-, hrest⟩ | ⟨hup, -⟩ | ⟨hname, -⟩ | ⟨hname, -⟩ | ⟨hname, -⟩ | ⟨hname, -⟩
        · exact ihSteps hrest hlater
        · exact absurd hup.symm hdots
        all_goals exact absurd rfl hname.1.1
      · rcases hfirst with ⟨hdot, -⟩ | ⟨-, hrest⟩ | ⟨hname, -⟩ | ⟨hname, -⟩ | ⟨hname, -⟩ | ⟨hname, -⟩
        · exact absurd hdot hdots
        · exact ihSteps hrest hlater
        all_goals exact absurd rfl hname.1.2
      · -- What is missed lies behind the node that stands at the name.
        have hbehind {node : Node} (hnode : tree.node? (loc ++ [step]) = some node) :
            (∃ mode, node = .directory mode ∧ Misses tree (loc ++ [step]) rest place) ∨
              ∃ target, node = .link target ∧
                Misses tree (linkStart target loc) ((Path.route target).steps ++ rest) place := by
          simpa [hnode] using hlater
        rcases hfirst with ⟨rfl, -⟩ | ⟨rfl, -⟩ | ⟨-, -, hplace⟩ | ⟨-, hnode, hrest⟩ |
          ⟨-, hlast, -, hplace⟩ | ⟨-, hnode, rfl, hrest⟩
        · exact absurd rfl hname.1
        · exact absurd rfl hname.2
        · cases hplace
        · obtain ⟨_, -, hlater⟩ | ⟨_, hlink, -⟩ := hbehind hnode
          · exact ihSteps hrest hlater
          · cases hlink
        · have hnode := (passage_of_walk h).node?_eq
          cases hplace
          obtain ⟨_, hdirectory, -⟩ | ⟨_, hlink, -⟩ := hbehind hnode
          · cases hdirectory
          · cases hlink
        · obtain ⟨_, hdirectory, -⟩ | ⟨_, hlink, hlater⟩ := hbehind hnode
          · cases hdirectory
          · cases hlink
            exact ihLinks _ (Nat.lt_succ_self _) hrest hlater

/-- A tree is another with something added to it. -/
structure Extends (tree tree' : FileTree) : Prop where
  workingDirectory : tree'.workingDirectory = tree.workingDirectory
  node {loc : Location} {node : Node} : tree.node? loc = some node → tree'.node? loc = some node

namespace Extends

variable (h : Extends tree tree')

include h

/-- A walk is the same if nothing was added where it missed something. -/
theorem walkSteps_eq {onLink onLink' : Location → List Name → Bool → Except Errno Place}
    (honLink : ∀ loc steps directory,
      (∀ place, Misses tree loc steps place → tree'.node? place = none) →
        onLink' loc steps directory = onLink loc steps directory)
    (hmisses : ∀ place, Misses tree loc steps place → tree'.node? place = none) :
    tree'.walkSteps onLink' follow loc steps directory =
      tree.walkSteps onLink follow loc steps directory := by
  have hsame {loc : Location} (hgone : tree.node? loc = none → tree'.node? loc = none) :
      tree'.node? loc = tree.node? loc := by
    rcases hnode : tree.node? loc with _ | node
    · exact hgone hnode
    · exact h.node hnode
  induction steps generalizing loc with
  | nil => rw [walkSteps, walkSteps, hsame fun hnone => hmisses loc (.gone hnone)]
  | cons step rest ih =>
      rw [walkSteps, walkSteps, hsame fun hnone => hmisses loc (.gone hnone)]
      rcases tree.node? loc with _ | ⟨mode⟩ | target | body
      · rfl
      · dsimp only
        by_cases hdot : step = Path.dot
        · subst hdot
          simp only [beq_self_eq_true, if_true, ih fun place hplace => hmisses place (.here hplace)]
        by_cases hup : step = Path.dotDot
        · subst hup
          simp only [beq_false_of_ne hdot, Bool.false_eq_true, if_false, beq_self_eq_true, if_true,
            ih fun place hplace => hmisses place (.up hplace)]
        have hname : IsName step := ⟨hdot, hup⟩
        simp only [beq_false_of_ne hdot, beq_false_of_ne hup, Bool.false_eq_true, if_false]
        rw [hsame fun hnone => hmisses _ (.missing hname hnone)]
        rcases hnode : tree.node? (loc ++ [step]) with _ | ⟨mode'⟩ | target | body
        · rfl
        · simp only [ih fun place hplace => hmisses place (.enter hname hnode hplace)]
        · have hon := honLink (linkStart target loc) ((Path.route target).steps ++ rest)
            (directory || rest.isEmpty && (Path.route target).directory)
            fun place hplace => hmisses place (.follow hname hnode hplace)
          rw [linkStart] at hon
          simp only [hon]
        · rfl
      · rfl
      · rfl

theorem walk_eq {links : Nat}
    (hmisses : ∀ place, Misses tree loc steps place → tree'.node? place = none) :
    tree'.walk follow links loc steps directory = tree.walk follow links loc steps directory := by
  induction links generalizing loc steps directory with
  | zero => exact h.walkSteps_eq (fun _ _ _ _ => rfl) hmisses
  | succ links ih => exact h.walkSteps_eq (fun _ _ _ hmisses' => ih hmisses') hmisses

/-- A path leads where it led before if nothing was added where it missed something. -/
theorem locate_eq
    (hmisses : ∀ place, Misses tree (tree.start path) (Path.route path).steps place →
      tree'.node? place = none) :
    tree'.locate follow path = tree.locate follow path := by
  rw [locate, locate, locateRoute, locateRoute, h.workingDirectory]
  rw [start] at hmisses
  rw [h.walk_eq hmisses]

end Extends

end StackControl.FileTree
