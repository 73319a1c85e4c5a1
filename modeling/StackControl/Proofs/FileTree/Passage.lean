import StackControl.FileTree.Walk
import StackControl.Proofs.FileTree.Nodes

/-!
# Passages through a file tree

A walk that ends at a place leaves a passage behind: a derivation with one rule for each kind of
step.  Permissions, the length of names and the number of links only decide whether a walk gets
that far, so a passage says nothing about them, and what holds of passages holds of every walk
that succeeds.

`Leads` is the part of a passage that ends in a directory on the way.  It can be cut and joined
between any two steps, it has at most one end, and it survives every change that leaves the
directories directories and the links on the way as they are.
-/

namespace StackControl.FileTree

/-- A step that is the name of something, and moves neither nowhere nor up. -/
def IsName (step : Name) : Prop :=
  step ≠ Path.dot ∧ step ≠ Path.dotDot

/-- Where the target of a symbolic link in a directory is looked up. -/
def linkStart (target : Path) (loc : Location) : Location :=
  if (Path.route target).absolute then [] else loc

/-- How the steps of a path are taken from a location to a place. -/
inductive Passage (tree : FileTree) (follow : Bool) :
    Location → List Name → Bool → Place → Prop
  | stay {loc node directory} :
      tree.node? loc = some node →
        Passage tree follow loc [] directory (.present loc node)
  | here {loc rest directory place} :
      Passage tree follow loc rest directory place →
        Passage tree follow loc (Path.dot :: rest) directory place
  | up {loc rest directory place} :
      Passage tree follow loc.dropLast rest directory place →
        Passage tree follow loc (Path.dotDot :: rest) directory place
  | absent {loc mode step directory} :
      IsName step → tree.node? loc = some (.directory mode) →
        tree.node? (loc ++ [step]) = none →
          Passage tree follow loc [step] directory (.absent (loc ++ [step]))
  | enter {loc mode step rest directory place} :
      IsName step → tree.node? (loc ++ [step]) = some (.directory mode) →
        Passage tree follow (loc ++ [step]) rest directory place →
          Passage tree follow loc (step :: rest) directory place
  | file {loc body step} :
      IsName step → tree.node? (loc ++ [step]) = some (.file body) →
        Passage tree follow loc [step] false (.present (loc ++ [step]) (.file body))
  | link {loc target step} :
      IsName step → tree.node? (loc ++ [step]) = some (.link target) → follow = false →
        Passage tree follow loc [step] false (.present (loc ++ [step]) (.link target))
  | follow {loc target step rest directory place} :
      IsName step → tree.node? (loc ++ [step]) = some (.link target) →
        rest ≠ [] ∨ follow = true ∨ directory = true →
          Passage tree follow (linkStart target loc) ((Path.route target).steps ++ rest)
            (directory || rest.isEmpty && (Path.route target).directory) place →
            Passage tree follow loc (step :: rest) directory place

/-- The steps lead from a location to another, through directories and symbolic links. -/
inductive Leads (tree : FileTree) : Location → List Name → Location → Prop
  | stay {loc} : Leads tree loc [] loc
  | here {loc rest dest} :
      Leads tree loc rest dest → Leads tree loc (Path.dot :: rest) dest
  | up {loc rest dest} :
      Leads tree loc.dropLast rest dest → Leads tree loc (Path.dotDot :: rest) dest
  | enter {loc mode step rest dest} :
      IsName step → tree.node? (loc ++ [step]) = some (.directory mode) →
        Leads tree (loc ++ [step]) rest dest → Leads tree loc (step :: rest) dest
  | follow {loc target step rest dest} :
      IsName step → tree.node? (loc ++ [step]) = some (.link target) →
        Leads tree (linkStart target loc) ((Path.route target).steps ++ rest) dest →
          Leads tree loc (step :: rest) dest

variable {tree tree' : FileTree} {follow directory : Bool} {loc mid dest : Location}
  {steps front rest : List Name} {step : Name} {place : Place}

/-! ## Walks and passages -/

theorem passes_link_of_not_last
    (h : ¬(rest.isEmpty && !follow && !directory) = true) :
    rest ≠ [] ∨ follow = true ∨ directory = true := by
  cases rest <;> cases follow <;> cases directory <;> simp_all

theorem passage_of_walkSteps
    {onLink : Location → List Name → Bool → Except Errno Place}
    (honLink : ∀ loc steps directory place,
      onLink loc steps directory = .ok place →
        Passage tree follow loc steps directory place)
    (h : tree.walkSteps onLink follow loc steps directory = .ok place) :
    Passage tree follow loc steps directory place := by
  induction steps generalizing loc with
  | nil =>
      simp only [walkSteps] at h
      split at h
      next node hnode =>
        cases h
        exact .stay hnode
      next => cases h
  | cons step rest ih =>
      simp only [walkSteps] at h
      split at h
      next mode hmode =>
        split at h
        · cases h
        split at h
        next hdot =>
          rw [beq_iff_eq.mp hdot]
          exact .here (ih h)
        next hdot =>
        split at h
        next hup =>
          rw [beq_iff_eq.mp hup]
          exact .up (ih h)
        next hup =>
        have hname : IsName step := ⟨by simpa using hdot, by simpa using hup⟩
        split at h
        · cases h
        split at h
        next hnode =>
          split at h
          next hrest =>
            cases h
            rw [List.isEmpty_iff.mp hrest]
            exact .absent hname hmode hnode
          next => cases h
        next hnode => exact .enter hname hnode (ih h)
        next body hnode =>
          split at h
          next => cases h
          next hlast =>
            cases h
            simp only [Bool.or_eq_true, Bool.not_eq_true', not_or, Bool.not_eq_true,
              Bool.not_eq_false] at hlast
            rw [List.isEmpty_iff.mp hlast.1, hlast.2]
            exact .file hname hnode
        next target hnode =>
          split at h
          next hlast =>
            cases h
            simp only [Bool.and_eq_true, Bool.not_eq_true'] at hlast
            rw [List.isEmpty_iff.mp hlast.1.1, hlast.2]
            exact .link hname hnode hlast.1.2
          next hlast =>
            exact .follow hname hnode (passes_link_of_not_last hlast) (honLink _ _ _ _ h)
      next => cases h
      next => cases h

/-- A walk that ends at a place leaves a passage. -/
theorem passage_of_walk {links : Nat}
    (h : tree.walk follow links loc steps directory = .ok place) :
    Passage tree follow loc steps directory place := by
  induction links generalizing loc steps directory place with
  | zero => exact passage_of_walkSteps (fun _ _ _ _ h => by cases h) h
  | succ links ih => exact passage_of_walkSteps (fun _ _ _ _ h => ih h) h

/-! ## The end of a passage -/

/-- A passage to a directory leads there. -/
theorem Passage.leads {mode : Nat}
    (h : Passage tree follow loc steps directory (.present dest (.directory mode))) :
    Leads tree loc steps dest := by
  generalize hplace : Place.present dest (.directory mode) = place at h
  induction h with
  | stay _ =>
      cases hplace
      exact .stay
  | here _ ih => exact .here (ih hplace)
  | up _ ih => exact .up (ih hplace)
  | absent => cases hplace
  | enter hname hnode _ ih => exact .enter hname hnode (ih hplace)
  | file => cases hplace
  | link => cases hplace
  | follow hname hnode _ _ ih => exact .follow hname hnode (ih hplace)

/-- What comes before the last step of a passage leads to where that step is taken. -/
theorem Passage.exists_leads
    (h : Passage tree follow loc (front ++ [step]) directory place) :
    ∃ mid, Leads tree loc front mid ∧ Passage tree follow mid [step] directory place := by
  generalize hsteps : front ++ [step] = steps at h
  induction h generalizing front with
  | stay => exact absurd hsteps (by simp)
  | @here loc rest directory place hrest ih =>
      cases front with
      | nil =>
          cases hsteps
          exact ⟨loc, .stay, .here hrest⟩
      | cons s front =>
          injection hsteps with hs hrest'
          obtain ⟨mid, hleads, hlast⟩ := ih hrest'
          exact ⟨mid, hs ▸ .here hleads, hlast⟩
  | @up loc rest directory place hrest ih =>
      cases front with
      | nil =>
          cases hsteps
          exact ⟨loc, .stay, .up hrest⟩
      | cons s front =>
          injection hsteps with hs hrest'
          obtain ⟨mid, hleads, hlast⟩ := ih hrest'
          exact ⟨mid, hs ▸ .up hleads, hlast⟩
  | @absent loc mode s directory hname hmode hnode =>
      cases front with
      | nil =>
          cases hsteps
          exact ⟨loc, .stay, .absent hname hmode hnode⟩
      | cons => simp at hsteps
  | @enter loc mode s rest directory place hname hnode hrest ih =>
      cases front with
      | nil =>
          cases hsteps
          exact ⟨loc, .stay, .enter hname hnode hrest⟩
      | cons s' front =>
          injection hsteps with hs hrest'
          obtain ⟨mid, hleads, hlast⟩ := ih hrest'
          exact ⟨mid, .enter (hs ▸ hname) (hs ▸ hnode) (hs ▸ hleads), hlast⟩
  | @file loc body s hname hnode =>
      cases front with
      | nil =>
          cases hsteps
          exact ⟨loc, .stay, .file hname hnode⟩
      | cons => simp at hsteps
  | @link loc target s hname hnode hfollow =>
      cases front with
      | nil =>
          cases hsteps
          exact ⟨loc, .stay, .link hname hnode hfollow⟩
      | cons => simp at hsteps
  | @follow loc target s rest directory place hname hnode hon hrest ih =>
      cases front with
      | nil =>
          cases hsteps
          exact ⟨loc, .stay, .follow hname hnode hon hrest⟩
      | cons s' front =>
          injection hsteps with hs hrest'
          obtain ⟨mid, hleads, hlast⟩ :=
            @ih ((Path.route target).steps ++ front) (by simp [← hrest'])
          refine ⟨mid, .follow (hs ▸ hname) (hs ▸ hnode) hleads, ?_⟩
          have hnonempty : rest.isEmpty = false := by simp [← hrest']
          simpa [hnonempty] using hlast

/-- A name in the last place is taken at one location, unless it is a link that is followed. -/
theorem Passage.last_cases (hname : IsName step)
    (h : Passage tree follow loc [step] false place) :
    (place = .absent (loc ++ [step]) ∧ tree.node? (loc ++ [step]) = none ∧
        ∃ mode, tree.node? loc = some (.directory mode)) ∨
      (∃ node, place = .present (loc ++ [step]) node ∧
        tree.node? (loc ++ [step]) = some node) ∨
      (follow = true ∧ ∃ target, tree.node? (loc ++ [step]) = some (.link target)) := by
  cases h with
  | here => exact absurd rfl hname.1
  | up => exact absurd rfl hname.2
  | absent _ hmode hnode => exact .inl ⟨rfl, hnode, _, hmode⟩
  | enter _ hnode hrest =>
      cases hrest with
      | stay hstay => exact .inr (.inl ⟨_, rfl, hstay⟩)
  | file _ hnode => exact .inr (.inl ⟨_, rfl, hnode⟩)
  | link _ hnode _ => exact .inr (.inl ⟨_, rfl, hnode⟩)
  | follow _ hnode hon _ =>
      rcases hon with hrest | hfollow | hdirectory
      · exact absurd rfl hrest
      · exact .inr (.inr ⟨hfollow, _, hnode⟩)
      · cases hdirectory

/-- A missing place lies in a directory that all steps but the last lead to. -/
theorem Passage.exists_leads_of_absent
    (h : Passage tree false loc steps false (.absent dest)) :
    ∃ front step mid, steps = front ++ [step] ∧ IsName step ∧
      Leads tree loc front mid ∧ dest = mid ++ [step] ∧ tree.node? dest = none ∧
        ∃ mode, tree.node? mid = some (.directory mode) := by
  rcases List.eq_nil_or_concat steps with rfl | ⟨front, step, rfl⟩
  · cases h
  rw [List.concat_eq_append] at h
  obtain ⟨mid, hleads, hlast⟩ := h.exists_leads
  have hname : IsName step := by
    cases hlast with
    | here hrest => cases hrest
    | up hrest => cases hrest
    | absent hname | enter hname | follow hname => exact hname
  rcases hlast.last_cases hname with ⟨hplace, hnode, hmode⟩ | ⟨_, hplace, _⟩ | ⟨hfollow, _⟩
  · cases hplace
    exact ⟨front, step, mid, List.concat_eq_append .., hname, hleads, rfl, hnode, hmode⟩
  · cases hplace
  · cases hfollow

/-! ## Cutting and joining -/

theorem Leads.append (h : Leads tree loc front mid) (hrest : Leads tree mid rest dest) :
    Leads tree loc (front ++ rest) dest := by
  induction h with
  | stay => exact hrest
  | here _ ih => exact .here (ih hrest)
  | up _ ih => exact .up (ih hrest)
  | enter hname hnode _ ih => exact .enter hname hnode (ih hrest)
  | follow hname hnode _ ih => exact .follow hname hnode (by simpa using ih hrest)

theorem Leads.exists_mid (h : Leads tree loc (front ++ rest) dest) :
    ∃ mid, Leads tree loc front mid ∧ Leads tree mid rest dest := by
  generalize hsteps : front ++ rest = steps at h
  induction h generalizing front with
  | @stay loc =>
      obtain ⟨rfl, rfl⟩ := List.append_eq_nil_iff.mp hsteps
      exact ⟨loc, .stay, .stay⟩
  | @here loc others dest hothers ih =>
      cases front with
      | nil =>
          subst hsteps
          exact ⟨loc, .stay, .here hothers⟩
      | cons s front =>
          injection hsteps with hs hothers'
          obtain ⟨mid, hfront, hrest⟩ := ih hothers'
          exact ⟨mid, hs ▸ .here hfront, hrest⟩
  | @up loc others dest hothers ih =>
      cases front with
      | nil =>
          subst hsteps
          exact ⟨loc, .stay, .up hothers⟩
      | cons s front =>
          injection hsteps with hs hothers'
          obtain ⟨mid, hfront, hrest⟩ := ih hothers'
          exact ⟨mid, hs ▸ .up hfront, hrest⟩
  | @enter loc mode step others dest hname hnode hothers ih =>
      cases front with
      | nil =>
          subst hsteps
          exact ⟨loc, .stay, .enter hname hnode hothers⟩
      | cons s front =>
          injection hsteps with hs hothers'
          obtain ⟨mid, hfront, hrest⟩ := ih hothers'
          exact ⟨mid, .enter (hs ▸ hname) (hs ▸ hnode) (hs ▸ hfront), hrest⟩
  | @follow loc target step others dest hname hnode hothers ih =>
      cases front with
      | nil =>
          subst hsteps
          exact ⟨loc, .stay, .follow hname hnode hothers⟩
      | cons s front =>
          injection hsteps with hs hothers'
          obtain ⟨mid, hfront, hrest⟩ :=
            @ih ((Path.route target).steps ++ front) (by simp [← hothers'])
          exact ⟨mid, .follow (hs ▸ hname) (hs ▸ hnode) hfront, hrest⟩

theorem leads_append :
    Leads tree loc (front ++ rest) dest ↔
      ∃ mid, Leads tree loc front mid ∧ Leads tree mid rest dest :=
  ⟨Leads.exists_mid, fun ⟨_, hfront, hrest⟩ => hfront.append hrest⟩

/-- Steps lead to one location at most. -/
theorem Leads.unique (h : Leads tree loc steps mid) (h' : Leads tree loc steps dest) :
    mid = dest := by
  induction h with
  | stay =>
      cases h'
      rfl
  | here _ ih =>
      cases h' with
      | here h' => exact ih h'
      | enter hname | follow hname => exact absurd rfl hname.1
  | up _ ih =>
      cases h' with
      | up h' => exact ih h'
      | enter hname | follow hname => exact absurd rfl hname.2
  | enter hname hnode _ ih =>
      cases h' with
      | here => exact absurd rfl hname.1
      | up => exact absurd rfl hname.2
      | enter _ hnode' h' => exact ih h'
      | follow _ hnode' _ => simp [hnode] at hnode'
  | follow hname hnode _ ih =>
      cases h' with
      | here => exact absurd rfl hname.1
      | up => exact absurd rfl hname.2
      | enter _ hnode' _ => simp [hnode] at hnode'
      | follow _ hnode' h' =>
          simp only [hnode, Option.some.injEq, Node.link.injEq] at hnode'
          subst hnode'
          exact ih h'

/-- Steps lead on where the directories are still directories and the links are the same. -/
theorem Leads.mono
    (hdirectory : ∀ loc mode, tree.node? loc = some (.directory mode) →
      ∃ mode', tree'.node? loc = some (.directory mode'))
    (hlink : ∀ loc target, tree.node? loc = some (.link target) →
      tree'.node? loc = some (.link target))
    (h : Leads tree loc steps dest) : Leads tree' loc steps dest := by
  induction h with
  | stay => exact .stay
  | here _ ih => exact .here ih
  | up _ ih => exact .up ih
  | enter hname hnode _ ih =>
      obtain ⟨mode', hnode'⟩ := hdirectory _ _ hnode
      exact .enter hname hnode' ih
  | follow hname hnode _ ih => exact .follow hname (hlink _ _ hnode) ih

/-- A name that leads somewhere is a directory or a link. -/
theorem Leads.node?_ne_none (hname : IsName step) (h : Leads tree loc (step :: rest) dest) :
    tree.node? (loc ++ [step]) ≠ none := by
  cases h with
  | here => exact absurd rfl hname.1
  | up => exact absurd rfl hname.2
  | enter _ hnode | follow _ hnode => simp [hnode]

theorem Leads.filter_ne_dot (h : Leads tree loc (front ++ rest) dest) :
    Leads tree loc (front ++ rest.filter (· != Path.dot)) dest := by
  generalize hsteps : front ++ rest = steps at h
  induction h generalizing front rest with
  | stay =>
      obtain ⟨rfl, rfl⟩ := List.append_eq_nil_iff.mp hsteps
      exact .stay
  | here _ ih =>
      cases front with
      | nil =>
          subst hsteps
          simpa using @ih [] _ rfl
      | cons s front =>
          injection hsteps with hs hothers
          exact hs ▸ .here (ih hothers)
  | up _ ih =>
      cases front with
      | nil =>
          subst hsteps
          exact .up (@ih [] _ rfl)
      | cons s front =>
          injection hsteps with hs hothers
          exact hs ▸ .up (ih hothers)
  | enter hname hnode _ ih =>
      cases front with
      | nil =>
          subst hsteps
          simpa [hname.1] using .enter hname hnode (@ih [] _ rfl)
      | cons s front =>
          injection hsteps with hs hothers
          subst hs
          exact .enter hname hnode (ih hothers)
  | @follow _ target _ _ _ hname hnode _ ih =>
      cases front with
      | nil =>
          subst hsteps
          simpa [hname.1] using
            Leads.follow hname hnode (@ih (Path.route target).steps _ rfl)
      | cons s front =>
          injection hsteps with hs hothers
          subst hs
          refine .follow hname hnode ?_
          simpa using
            @ih ((Path.route target).steps ++ front) _ (by simp [← hothers])

theorem Leads.of_filter_ne_dot
    (h : Leads tree loc (front ++ rest.filter (· != Path.dot)) dest) :
    Leads tree loc (front ++ rest) dest := by
  induction rest generalizing front with
  | nil => exact h
  | cons step rest ih =>
      by_cases hdot : step = Path.dot
      · subst hdot
        have hrest : Leads tree loc (front ++ rest) dest := ih (by simpa using h)
        obtain ⟨mid, hfront, hrest⟩ := hrest.exists_mid
        exact hfront.append (.here hrest)
      · have hrest : Leads tree loc (front ++ [step] ++ rest) dest :=
          ih (by simpa [hdot] using h)
        simpa using hrest

/-- Steps that stand still make no difference. -/
theorem leads_filter_ne_dot :
    Leads tree loc (steps.filter (· != Path.dot)) dest ↔ Leads tree loc steps dest :=
  ⟨fun h => Leads.of_filter_ne_dot (show Leads tree loc ([] ++ steps.filter _) dest from h),
    fun h => Leads.filter_ne_dot (show Leads tree loc ([] ++ steps) dest from h)⟩

end StackControl.FileTree
