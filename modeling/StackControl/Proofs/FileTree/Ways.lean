import StackControl.Proofs.FileTree.Directories

/-!
# Ways through a file tree

A walk that comes to a directory leaves a way behind, which also keeps what let the walk get that
far: directories that may be searched, names that are short enough, and symbolic links that are not
too many.  So a way can be taken again, in every tree that has its nodes, and whatever steps follow
it are taken from its end.
-/

namespace StackControl.FileTree

/-- A directory that may be searched. -/
def MaySearch (tree : FileTree) (loc : Location) : Prop :=
  ∃ mode, tree.node? loc = some (.directory mode) ∧ searchable mode = true

/-- A name that a directory can hold. -/
def IsEntryName (name : Name) : Prop :=
  IsName name ∧ name.length ≤ longestName

/-- The steps can be taken from one location to another when the first number of symbolic links may
be passed, and the second number of them may be passed after that. -/
inductive Way (tree : FileTree) : Nat → Location → List Name → Nat → Location → Prop
  | stay {links loc} : Way tree links loc [] links loc
  | here {links loc rest left dest} :
      tree.MaySearch loc → Way tree links loc rest left dest →
        Way tree links loc (Path.dot :: rest) left dest
  | up {links loc rest left dest} :
      tree.MaySearch loc → Way tree links loc.dropLast rest left dest →
        Way tree links loc (Path.dotDot :: rest) left dest
  | enter {links loc mode step rest left dest} :
      tree.MaySearch loc → IsEntryName step →
        tree.node? (loc ++ [step]) = some (.directory mode) →
          Way tree links (loc ++ [step]) rest left dest →
            Way tree links loc (step :: rest) left dest
  | follow {links loc target step rest left dest} :
      tree.MaySearch loc → IsEntryName step →
        tree.node? (loc ++ [step]) = some (.link target) →
          Way tree links (linkStart target loc) ((Path.route target).steps ++ rest) left dest →
            Way tree (links + 1) loc (step :: rest) left dest

variable {tree tree' : FileTree} {follow directory : Bool} {links left : Nat}
  {loc dest : Location} {steps front rest : List Name} {step : Name}

/-! ## The steps of a walk -/

/-- How a walk goes on behind a symbolic link. -/
def onward (tree : FileTree) (follow : Bool) :
    Nat → Location → List Name → Bool → Except Errno Place
  | 0 => fun _ _ _ => .error .tooManyLinks
  | links + 1 => tree.walk follow links

theorem walk_eq_walkSteps (links : Nat) :
    tree.walk follow links = tree.walkSteps (tree.onward follow links) follow := by
  cases links <;> rfl

theorem walk_nil {node : Node} (h : tree.node? loc = some node) :
    tree.walk follow links loc [] directory = .ok (.present loc node) := by
  simp [walk_eq_walkSteps, walkSteps, h]

theorem walk_here (h : tree.MaySearch loc) :
    tree.walk follow links loc (Path.dot :: rest) directory =
      tree.walk follow links loc rest directory := by
  obtain ⟨mode, hmode, hsearch⟩ := h
  simp [walk_eq_walkSteps, walkSteps, hmode, hsearch]

theorem walk_up (h : tree.MaySearch loc) :
    tree.walk follow links loc (Path.dotDot :: rest) directory =
      tree.walk follow links loc.dropLast rest directory := by
  obtain ⟨mode, hmode, hsearch⟩ := h
  have hdot : Path.dotDot ≠ Path.dot := by decide
  simp [walk_eq_walkSteps, walkSteps, hmode, hsearch, hdot]

section Name

variable (h : tree.MaySearch loc) (hname : IsEntryName step)

include h hname

theorem walk_enter {mode : Nat} (hnode : tree.node? (loc ++ [step]) = some (.directory mode)) :
    tree.walk follow links loc (step :: rest) directory =
      tree.walk follow links (loc ++ [step]) rest directory := by
  obtain ⟨mode, hmode, hsearch⟩ := h
  obtain ⟨⟨hdot, hup⟩, hlength⟩ := hname
  simp [walk_eq_walkSteps, walkSteps, hmode, hsearch, hdot, hup, Nat.not_lt.mpr hlength, hnode]

theorem walk_follow {target : Path} (hnode : tree.node? (loc ++ [step]) = some (.link target))
    (hon : rest ≠ [] ∨ follow = true) :
    tree.walk follow (links + 1) loc (step :: rest) directory =
      tree.walk follow links (linkStart target loc) ((Path.route target).steps ++ rest)
        (directory || rest.isEmpty && (Path.route target).directory) := by
  obtain ⟨mode, hmode, hsearch⟩ := h
  obtain ⟨⟨hdot, hup⟩, hlength⟩ := hname
  rw [walk_eq_walkSteps]
  simp only [walkSteps, hmode, hsearch, Bool.not_true, Bool.false_eq_true, if_false,
    beq_false_of_ne hdot, beq_false_of_ne hup, Nat.not_lt.mpr hlength, hnode]
  rw [if_neg]
  · rfl
  · rcases hon with hrest | rfl
    · simp [hrest]
    · simp

/-- Where nothing stands, only the last step can be missing. -/
theorem walk_missing (hnode : tree.node? (loc ++ [step]) = none) :
    tree.walk follow links loc (step :: rest) directory =
      if rest = [] then .ok (.absent (loc ++ [step])) else .error .notFound := by
  obtain ⟨mode, hmode, hsearch⟩ := h
  obtain ⟨⟨hdot, hup⟩, hlength⟩ := hname
  simp [walk_eq_walkSteps, walkSteps, hmode, hsearch, hdot, hup, Nat.not_lt.mpr hlength, hnode]

theorem walk_file {body : Nat} (hnode : tree.node? (loc ++ [step]) = some (.file body)) :
    tree.walk follow links loc [step] false = .ok (.present (loc ++ [step]) (.file body)) := by
  obtain ⟨mode, hmode, hsearch⟩ := h
  obtain ⟨⟨hdot, hup⟩, hlength⟩ := hname
  simp [walk_eq_walkSteps, walkSteps, hmode, hsearch, hdot, hup, Nat.not_lt.mpr hlength, hnode]

end Name

/-! ## Walks and ways -/

/-- How the first step of a walk is taken. -/
inductive FirstStep (tree : FileTree) (follow : Bool) (links : Nat) (loc : Location) (step : Name)
    (rest : List Name) (directory : Bool) (place : Place) : Prop
  | here : step = Path.dot → tree.walk follow links loc rest directory = .ok place →
      FirstStep tree follow links loc step rest directory place
  | up : step = Path.dotDot → tree.walk follow links loc.dropLast rest directory = .ok place →
      FirstStep tree follow links loc step rest directory place
  | absent : IsEntryName step → rest = [] → place = .absent (loc ++ [step]) →
      FirstStep tree follow links loc step rest directory place
  | enter {mode : Nat} : IsEntryName step → tree.node? (loc ++ [step]) = some (.directory mode) →
      tree.walk follow links (loc ++ [step]) rest directory = .ok place →
        FirstStep tree follow links loc step rest directory place
  | last {node : Node} : IsEntryName step → rest = [] → (∀ mode, node ≠ .directory mode) →
      place = .present (loc ++ [step]) node →
        FirstStep tree follow links loc step rest directory place
  | follow {target : Path} {others : Nat} {directory' : Bool} :
      IsEntryName step → tree.node? (loc ++ [step]) = some (.link target) → links = others + 1 →
        tree.walk follow others (linkStart target loc) ((Path.route target).steps ++ rest)
          directory' = .ok place →
            FirstStep tree follow links loc step rest directory place

/-- A walk that goes on is in a directory that may be searched. -/
theorem firstStep_of_walk {place : Place}
    (h : tree.walk follow links loc (step :: rest) directory = .ok place) :
    tree.MaySearch loc ∧ tree.FirstStep follow links loc step rest directory place := by
  simp only [walk_eq_walkSteps, walkSteps] at h
  split at h
  next mode hmode =>
    split at h
    · cases h
    next hsearch =>
    refine ⟨⟨mode, hmode, by simpa using hsearch⟩, ?_⟩
    rw [← walk_eq_walkSteps] at h
    split at h
    next hdot => exact .here (beq_iff_eq.mp hdot) h
    next hdot =>
    split at h
    next hup => exact .up (beq_iff_eq.mp hup) h
    next hup =>
    split at h
    · cases h
    next hlength =>
    have hname : IsEntryName step :=
      ⟨⟨by simpa using hdot, by simpa using hup⟩, Nat.not_lt.mp hlength⟩
    split at h
    next =>
      split at h
      next hrest =>
        cases h
        exact .absent hname (List.isEmpty_iff.mp hrest) rfl
      next => cases h
    next hnode => exact .enter hname hnode h
    next =>
      split at h
      next => cases h
      next hlast =>
        cases h
        simp only [Bool.or_eq_true, Bool.not_eq_true', not_or, Bool.not_eq_false] at hlast
        exact .last hname (List.isEmpty_iff.mp hlast.1) (by simp) rfl
    next target hnode =>
      split at h
      next hlast =>
        cases h
        simp only [Bool.and_eq_true] at hlast
        exact .last hname (List.isEmpty_iff.mp hlast.1.1) (by simp) rfl
      next =>
        rcases links with _ | others
        · cases h
        · exact .follow hname hnode rfl h
  next => cases h
  next => cases h

/-- A walk that comes to a directory leaves a way behind. -/
theorem exists_way_of_walk {mode : Nat}
    (h : tree.walk follow links loc steps directory = .ok (.present dest (.directory mode))) :
    ∃ left, Way tree links loc steps left dest := by
  -- Behind a link there are new steps but fewer links, otherwise there are fewer steps.
  induction links using Nat.strongRecOn generalizing loc steps directory with
  | ind links ihLinks =>
  induction steps generalizing loc with
  | nil =>
      simp only [walk_eq_walkSteps, walkSteps] at h
      split at h
      next =>
        cases h
        exact ⟨links, .stay⟩
      next => cases h
  | cons step rest ihSteps =>
      obtain ⟨hloc, hfirst⟩ := firstStep_of_walk h
      rcases hfirst with ⟨rfl, hrest⟩ | ⟨rfl, hrest⟩ | ⟨-, -, hplace⟩ | ⟨hname, hnode, hrest⟩ |
        ⟨-, -, hnode, hplace⟩ | ⟨hname, hnode, rfl, hrest⟩
      · obtain ⟨left, hway⟩ := ihSteps hrest
        exact ⟨left, .here hloc hway⟩
      · obtain ⟨left, hway⟩ := ihSteps hrest
        exact ⟨left, .up hloc hway⟩
      · cases hplace
      · obtain ⟨left, hway⟩ := ihSteps hrest
        exact ⟨left, .enter hloc hname hnode hway⟩
      · cases hplace
        exact absurd rfl (hnode mode)
      · obtain ⟨left, hway⟩ := ihLinks _ (Nat.lt_succ_self _) hrest
        exact ⟨left, .follow hloc hname hnode hway⟩

/-- A walk with a name as its last step goes by a way to a directory where that step is taken. -/
theorem exists_way_of_walk_append {last : Name} {place : Place} (hlast : IsName last)
    (h : tree.walk follow links loc (front ++ [last]) directory = .ok place) :
    ∃ left dest, Way tree links loc front left dest ∧ tree.MaySearch dest ∧ IsEntryName last := by
  induction links using Nat.strongRecOn generalizing loc front directory with
  | ind links ihLinks =>
  induction front generalizing loc with
  | nil =>
      obtain ⟨hloc, hfirst⟩ := firstStep_of_walk h
      refine ⟨links, loc, .stay, hloc, ?_⟩
      rcases hfirst with ⟨rfl, -⟩ | ⟨rfl, -⟩ | ⟨hname, -⟩ | ⟨hname, -⟩ | ⟨hname, -⟩ | ⟨hname, -⟩
      · exact absurd rfl hlast.1
      · exact absurd rfl hlast.2
      all_goals exact hname
  | cons step rest ihSteps =>
      rw [List.cons_append] at h
      obtain ⟨hloc, hfirst⟩ := firstStep_of_walk h
      rcases hfirst with ⟨rfl, hrest⟩ | ⟨rfl, hrest⟩ | ⟨-, hnil, -⟩ | ⟨hname, hnode, hrest⟩ |
        ⟨-, hnil, -⟩ | ⟨hname, hnode, rfl, hrest⟩
      · obtain ⟨left, dest, hway, hend⟩ := ihSteps hrest
        exact ⟨left, dest, .here hloc hway, hend⟩
      · obtain ⟨left, dest, hway, hend⟩ := ihSteps hrest
        exact ⟨left, dest, .up hloc hway, hend⟩
      · simp at hnil
      · obtain ⟨left, dest, hway, hend⟩ := ihSteps hrest
        exact ⟨left, dest, .enter hloc hname hnode hway, hend⟩
      · simp at hnil
      · rw [← List.append_assoc] at hrest
        obtain ⟨left, dest, hway, hend⟩ := ihLinks _ (Nat.lt_succ_self _) hrest
        exact ⟨left, dest, .follow hloc hname hnode hway, hend⟩

namespace Way

/-- What follows a way is walked from its end. -/
theorem walk_append (h : Way tree links loc steps left dest) (hrest : rest ≠ []) :
    tree.walk follow links loc (steps ++ rest) directory =
      tree.walk follow left dest rest directory := by
  induction h with
  | stay => rfl
  | here hloc _ ih => rw [List.cons_append, walk_here hloc, ih]
  | up hloc _ ih => rw [List.cons_append, walk_up hloc, ih]
  | enter hloc hname hnode _ ih => rw [List.cons_append, walk_enter hloc hname hnode, ih]
  | follow hloc hname hnode _ ih =>
      rw [List.cons_append, walk_follow hloc hname hnode (.inl (by simp [hrest])),
        ← List.append_assoc, List.isEmpty_eq_false_iff.mpr (by simp [hrest]), Bool.false_and,
        Bool.or_false, ih]

/-- A way to a directory is walked to its end. -/
theorem walk_eq {mode : Nat} (h : Way tree links loc steps left dest)
    (hdest : tree.node? dest = some (.directory mode)) :
    tree.walk true links loc steps directory = .ok (.present dest (.directory mode)) := by
  induction h generalizing directory with
  | stay => exact walk_nil hdest
  | here hloc _ ih => rw [walk_here hloc, ih hdest]
  | up hloc _ ih => rw [walk_up hloc, ih hdest]
  | enter hloc hname hnode _ ih => rw [walk_enter hloc hname hnode, ih hdest]
  | follow hloc hname hnode _ ih => rw [walk_follow hloc hname hnode (.inr rfl), ih hdest]

/-- A way can be taken wherever its directories and links stand. -/
theorem mono (hnodes : ∀ loc node, (∀ i, node ≠ .file i) → tree.node? loc = some node →
      tree'.node? loc = some node)
    (h : Way tree links loc steps left dest) : Way tree' links loc steps left dest := by
  have hsearch {loc : Location} (hloc : tree.MaySearch loc) : tree'.MaySearch loc := by
    obtain ⟨mode, hmode, hopen⟩ := hloc
    exact ⟨mode, hnodes _ _ (fun _ => nofun) hmode, hopen⟩
  induction h with
  | stay => exact .stay
  | here hloc _ ih => exact .here (hsearch hloc) ih
  | up hloc _ ih => exact .up (hsearch hloc) ih
  | enter hloc hname hnode _ ih =>
      exact .enter (hsearch hloc) hname (hnodes _ _ (fun _ => nofun) hnode) ih
  | follow hloc hname hnode _ ih =>
      exact .follow (hsearch hloc) hname (hnodes _ _ (fun _ => nofun) hnode) ih

/-- A way leads to its end. -/
theorem leads (h : Way tree links loc steps left dest) : tree.Leads loc steps dest := by
  induction h with
  | stay => exact .stay
  | here _ _ ih => exact .here ih
  | up _ _ ih => exact .up ih
  | enter _ hname hnode _ ih => exact .enter hname.1 hnode ih
  | follow _ hname hnode _ ih => exact .follow hname.1 hnode ih

theorem append {mid : Location} {between : Nat} (h : Way tree links loc steps between mid)
    (hrest : Way tree between mid rest left dest) :
    Way tree links loc (steps ++ rest) left dest := by
  induction h with
  | stay => exact hrest
  | here hloc _ ih => exact .here hloc (ih hrest)
  | up hloc _ ih => exact .up hloc (ih hrest)
  | enter hloc hname hnode _ ih => exact .enter hloc hname hnode (ih hrest)
  | follow hloc hname hnode _ ih =>
      exact .follow hloc hname hnode (by simpa using ih hrest)

/-- Steps that stand still may be left out. -/
theorem filter_ne_dot (h : Way tree links loc (front ++ rest) left dest) :
    Way tree links loc (front ++ rest.filter (· != Path.dot)) left dest := by
  -- A link puts the steps of its target in front of the others; these have to stay as they are.
  generalize hsteps : front ++ rest = steps at h
  induction h generalizing front rest with
  | stay =>
      obtain ⟨rfl, rfl⟩ := List.append_eq_nil_iff.mp hsteps
      exact .stay
  | here hloc _ ih =>
      cases front with
      | nil =>
          subst hsteps
          simpa using @ih [] _ rfl
      | cons s front =>
          injection hsteps with hs hothers
          exact hs ▸ .here hloc (ih hothers)
  | up hloc _ ih =>
      cases front with
      | nil =>
          subst hsteps
          exact .up hloc (@ih [] _ rfl)
      | cons s front =>
          injection hsteps with hs hothers
          exact hs ▸ .up hloc (ih hothers)
  | enter hloc hname hnode _ ih =>
      cases front with
      | nil =>
          subst hsteps
          simpa [hname.1.1] using .enter hloc hname hnode (@ih [] _ rfl)
      | cons s front =>
          injection hsteps with hs hothers
          subst hs
          exact .enter hloc hname hnode (ih hothers)
  | @follow _ _ target _ _ _ _ hloc hname hnode _ ih =>
      cases front with
      | nil =>
          subst hsteps
          simpa [hname.1.1] using
            Way.follow hloc hname hnode (@ih (Path.route target).steps _ rfl)
      | cons s front =>
          injection hsteps with hs hothers
          subst hs
          refine .follow hloc hname hnode ?_
          simpa using
            @ih ((Path.route target).steps ++ front) _ (by simp [← hothers])

end Way

end StackControl.FileTree
