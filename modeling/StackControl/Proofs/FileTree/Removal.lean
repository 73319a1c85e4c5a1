import StackControl.Proofs.FileTree.Directories

/-!
# Taking directories away

Where something was taken away with all that it held, or was found to be missing, nothing stands
afterwards.  A walk that still came to a place there would have come to the same place before, since
taking nodes away opens no new way.
-/

namespace StackControl.FileTree

/-- Something stands at a path; it may be a symbolic link. -/
def Stands (tree : FileTree) (path : Path) : Prop :=
  ∃ found, tree.linkStat path = .ok found

variable {tree pruned : FileTree} {follow directory directory' : Bool} {loc dest : Location}
  {steps : List Name} {place place' : Place} {node : Node} {path : Path}

/-! ## The place at the end of a passage -/

theorem Passage.node?_eq (h : Passage tree follow loc steps directory (.present dest node)) :
    tree.node? dest = some node := by
  generalize hplace : Place.present dest node = place at h
  induction h with
  | stay hnode =>
      cases hplace
      exact hnode
  | here _ ih | up _ ih => exact ih hplace
  | enter _ _ _ ih | follow _ _ _ _ ih => exact ih hplace
  | absent => cases hplace
  | file _ hnode =>
      cases hplace
      exact hnode
  | link _ hnode _ =>
      cases hplace
      exact hnode

/-- A passage that needs some of the nodes only is a passage where they all stand. -/
theorem Passage.unpruned
    (hpruned : ∀ loc node, pruned.node? loc = some node → tree.node? loc = some node)
    (h : Passage pruned follow loc steps directory (.present dest node)) :
    Passage tree follow loc steps directory (.present dest node) := by
  generalize hplace : Place.present dest node = place at h ⊢
  induction h with
  | stay hnode => exact .stay (hpruned _ _ hnode)
  | here _ ih => exact .here (ih hplace)
  | up _ ih => exact .up (ih hplace)
  | absent => cases hplace
  | enter hname hnode _ ih => exact .enter hname (hpruned _ _ hnode) (ih hplace)
  | file hname hnode => exact .file hname (hpruned _ _ hnode)
  | link hname hnode hfollow => exact .link hname (hpruned _ _ hnode) hfollow
  | follow hname hnode hon _ ih => exact .follow hname (hpruned _ _ hnode) hon (ih hplace)

/-- A passage to a directory may be made to demand one. -/
theorem Passage.demand {mode : Nat}
    (h : Passage tree follow loc steps directory (.present dest (.directory mode)))
    (hdemand : directory = true → directory' = true) :
    Passage tree follow loc steps directory' (.present dest (.directory mode)) := by
  generalize hplace : Place.present dest (.directory mode) = place at h ⊢
  induction h generalizing directory' with
  | stay hnode => exact .stay hnode
  | here _ ih => exact .here (ih hdemand hplace)
  | up _ ih => exact .up (ih hdemand hplace)
  | absent | file | link => cases hplace
  | enter hname hnode _ ih => exact .enter hname hnode (ih hdemand hplace)
  | follow hname hnode hon _ ih =>
      refine .follow hname hnode (hon.imp_right (Or.imp_right hdemand)) (ih ?_ hplace)
      simp only [Bool.or_eq_true]
      exact Or.imp_left hdemand

/-- A passage comes to one place only. -/
theorem Passage.unique (h : Passage tree follow loc steps directory place)
    (h' : Passage tree follow loc steps directory place') :
    place = place' := by
  induction h with
  | stay hnode =>
      cases h' with
      | stay hnode' =>
          rw [hnode] at hnode'
          cases hnode'
          rfl
  | here _ ih =>
      cases h' with
      | here h' => exact ih h'
      | absent hname | enter hname | file hname | link hname | follow hname =>
          exact absurd rfl hname.1
  | up _ ih =>
      cases h' with
      | up h' => exact ih h'
      | absent hname | enter hname | file hname | link hname | follow hname =>
          exact absurd rfl hname.2
  | absent hname _ hnode =>
      cases h' with
      | here => exact absurd rfl hname.1
      | up => exact absurd rfl hname.2
      | absent => rfl
      | enter _ hnode' | file _ hnode' | link _ hnode' | follow _ hnode' => simp [hnode] at hnode'
  | enter hname hnode _ ih =>
      cases h' with
      | here => exact absurd rfl hname.1
      | up => exact absurd rfl hname.2
      | enter _ _ h' => exact ih h'
      | absent _ _ hnode' | file _ hnode' | link _ hnode' | follow _ hnode' =>
          simp [hnode] at hnode'
  | file hname hnode =>
      cases h' with
      | here => exact absurd rfl hname.1
      | up => exact absurd rfl hname.2
      | file _ hnode' =>
          rw [hnode] at hnode'
          cases hnode'
          rfl
      | absent _ _ hnode' | enter _ hnode' | link _ hnode' | follow _ hnode' =>
          simp [hnode] at hnode'
  | link hname hnode hfollow =>
      cases h' with
      | here => exact absurd rfl hname.1
      | up => exact absurd rfl hname.2
      | link _ hnode' _ =>
          rw [hnode] at hnode'
          cases hnode'
          rfl
      | follow _ _ hon => simp [hfollow] at hon
      | absent _ _ hnode' | enter _ hnode' | file _ hnode' => simp [hnode] at hnode'
  | follow hname hnode hon _ ih =>
      cases h' with
      | here => exact absurd rfl hname.1
      | up => exact absurd rfl hname.2
      | link _ _ hfollow => simp [hfollow] at hon
      | follow _ hnode' _ h' =>
          rw [hnode] at hnode'
          cases hnode'
          exact ih h'
      | absent _ _ hnode' | enter _ hnode' | file _ hnode' => simp [hnode] at hnode'

/-- Nothing stands at a path once the node at its end was dropped. -/
theorem not_stands_drop (hloc : loc ≠ [])
    (h : Passage tree false (tree.start path) (Path.route path).steps (Path.route path).directory
      (.present loc node)) :
    ¬(tree.drop loc).Stands path := by
  rintro ⟨⟨dest, node'⟩, hfound⟩
  have hdropped := passage_of_linkStat hfound
  have hbefore : Passage tree false (tree.start path) (Path.route path).steps
      (Path.route path).directory (.present dest node') := by
    apply hdropped.unpruned
    intro other node hnode
    rw [node?_drop hloc] at hnode
    split at hnode
    · cases hnode
    · exact hnode
  have hnode := hdropped.node?_eq
  cases h.unique hbefore
  simp [node?_drop hloc] at hnode

/-! ## Walks that ask for less -/

/-- A walk comes to something also if it is not told to follow a link in the last place, or not
asked for a directory; perhaps only to the link that it would have followed. -/
theorem exists_walkSteps_of_asking
    {onLink onLink' : Location → List Name → Bool → Except Errno Place}
    (honLink : ∀ loc steps directory directory' dest node,
      (directory' = true → directory = true) →
        onLink loc steps directory = .ok (.present dest node) →
          ∃ dest' node', onLink' loc steps directory' = .ok (.present dest' node'))
    (hasking : directory' = true → directory = true)
    (h : tree.walkSteps onLink follow loc steps directory = .ok (.present dest node)) :
    ∃ dest' node', tree.walkSteps onLink' false loc steps directory' =
      .ok (.present dest' node') := by
  induction steps generalizing loc with
  | nil => exact ⟨dest, node, h⟩
  | cons step rest ih =>
      simp only [walkSteps] at h ⊢
      split at h
      next mode hmode =>
        by_cases hsearch : (!searchable mode) = true
        · rw [if_pos hsearch] at h
          cases h
        rw [if_neg hsearch] at h ⊢
        by_cases hdot : (step == Path.dot) = true
        · rw [if_pos hdot] at h ⊢
          exact ih h
        rw [if_neg hdot] at h ⊢
        by_cases hup : (step == Path.dotDot) = true
        · rw [if_pos hup] at h ⊢
          exact ih h
        rw [if_neg hup] at h ⊢
        by_cases hlong : step.length > longestName
        · rw [if_pos hlong] at h
          cases h
        rw [if_neg hlong] at h ⊢
        split at h
        next => split at h <;> cases h
        next => exact ih h
        next body hnode =>
          by_cases hrest : (!rest.isEmpty || directory) = true
          · rw [if_pos hrest] at h
            cases h
          · rw [if_neg]
            · exact ⟨_, _, rfl⟩
            · simp only [Bool.or_eq_true] at hrest ⊢
              exact fun hmore => hrest (hmore.imp_right hasking)
        next target hnode =>
          by_cases hstop : (rest.isEmpty && !false && !directory') = true
          · rw [if_pos hstop]
            exact ⟨_, _, rfl⟩
          rw [if_neg hstop]
          by_cases hstop' : (rest.isEmpty && !follow && !directory) = true
          · cases directory' with
            | true => simp [hasking rfl] at hstop'
            | false =>
                simp only [Bool.and_eq_true] at hstop'
                simp [hstop'.1.1] at hstop
          rw [if_neg hstop'] at h
          refine honLink _ _ _ _ _ _ ?_ h
          simp only [Bool.or_eq_true]
          exact Or.imp_left hasking
      next => cases h
      next => cases h

theorem exists_walk_of_asking {links : Nat} (hasking : directory' = true → directory = true)
    (h : tree.walk follow links loc steps directory = .ok (.present dest node)) :
    ∃ dest' node', tree.walk false links loc steps directory' = .ok (.present dest' node') := by
  induction links generalizing loc steps directory directory' dest node with
  | zero => exact exists_walkSteps_of_asking (fun _ _ _ _ _ _ _ h => by cases h) hasking h
  | succ links ih =>
      exact exists_walkSteps_of_asking (fun _ _ _ _ _ _ hasking h => ih hasking h) hasking h

theorem exists_locateRoute_of_asking {route : Path.Route}
    (hasking : directory' = true → directory = true)
    (h : tree.locateRoute follow route directory = .ok (.present dest node)) :
    ∃ dest' node', tree.locateRoute false route directory' = .ok (.present dest' node') := by
  simp only [locateRoute] at h
  split at h
  next place hwalk =>
    cases h
    obtain ⟨dest', node', hwalk'⟩ := exists_walk_of_asking hasking hwalk
    refine ⟨dest', node', ?_⟩
    simp only [locateRoute, hwalk']
  next => cases h

theorem locateRoute_of_linkStat (h : tree.linkStat path = .ok (loc, node)) :
    tree.locateRoute false path.route path.route.directory = .ok (.present loc node) := by
  simp only [linkStat, locate] at h
  cases hcheck : checkPath path with
  | error e =>
      rw [hcheck] at h
      cases h
  | ok _ =>
      rw [hcheck] at h
      cases hplace : tree.locateRoute false path.route path.route.directory with
      | error e =>
          rw [hplace] at h
          cases h
      | ok place =>
          rw [hplace] at h
          cases place with
          | absent => cases h
          | present loc' node' =>
              cases h
              rfl

/-- Where nothing is found without demanding a directory, nothing stands. -/
theorem not_stands_of_locateRoute
    (h : ∀ dest node, tree.locateRoute false path.route false ≠ .ok (.present dest node)) :
    ¬tree.Stands path := by
  rintro ⟨⟨loc, node⟩, hfound⟩
  obtain ⟨dest, node', hplace⟩ : ∃ dest node',
      tree.locateRoute false path.route false = .ok (.present dest node') := by
    apply exists_locateRoute_of_asking _ (locateRoute_of_linkStat hfound)
    intro hasked
    cases hasked
  exact h dest node' hplace

/-! ## Taking away -/

/-- What a name is found to be is not the root. -/
theorem ne_nil_of_locateRoute {step : Name} (hlast : path.route.steps.getLast? = some step)
    (hname : IsName step)
    (h : tree.locateRoute false path.route false = .ok (.present loc node)) :
    loc ≠ [] := by
  obtain ⟨front, hsteps⟩ := List.getLast?_eq_some_iff.mp hlast
  have hpassage := passage_of_locateRoute h
  rw [hsteps] at hpassage
  obtain ⟨mid, -, hstep⟩ := hpassage.exists_leads
  rcases hstep.last_cases hname with ⟨hnone, -⟩ | ⟨_, hthere, -⟩ | ⟨hfollow, -⟩
  · cases hnone
  · cases hthere
    simp
  · cases hfollow

theorem ends_removeDirectory {post : Except Fault Unit → FileTree → Prop}
    (herror : ∀ e, e ≠ .os .notFound → post (.error e) tree)
    (hmissing : (∀ dest node, tree.locateRoute false path.route false ≠
      .ok (.present dest node)) → post (.error (.os .notFound)) tree)
    (hok : ∀ loc mode, loc ≠ [] →
      tree.locateRoute false path.route false = .ok (.present loc (.directory mode)) →
        post (.ok ()) (tree.drop loc)) :
    Ends (Edit.removeDirectory path) tree post := by
  simp only [Edit.removeDirectory, ends_bind, ends_look]
  cases hplace : tree.locateRoute false path.route false with
  | error e =>
      by_cases he : e = .os .notFound
      · rw [he] at hplace ⊢
        exact hmissing (by simp [hplace])
      · exact herror e he
  | ok place =>
      cases place with
      | absent => exact hmissing (by simp [hplace])
      | present loc node =>
          have hrefused (e : Errno) (he : e ≠ .notFound) : post (.error (.os e)) tree :=
            herror _ (by simpa using he)
          dsimp only
          cases hlast : path.route.steps.getLast? with
          | none => exact hrefused .busy (by decide)
          | some step =>
              dsimp only
              by_cases hdot : (step == Path.dot) = true
              · rw [if_pos hdot]
                exact hrefused .invalidArgument (by decide)
              rw [if_neg hdot]
              by_cases hup : (step == Path.dotDot) = true
              · rw [if_pos hup]
                exact hrefused .notEmpty (by decide)
              rw [if_neg hup, ends_bind]
              have hname : IsName step := ⟨by simpa using hdot, by simpa using hup⟩
              apply ends_demandEdit
              · exact hrefused .accessDenied (by decide)
              cases node with
              | directory mode =>
                  simp only [ends_bind, ends_get]
                  by_cases hempty : ((tree.names loc).isEmpty) = true
                  · rw [if_pos hempty]
                    exact hok loc mode (ne_nil_of_locateRoute hlast hname hplace) hplace
                  · rw [if_neg hempty]
                    exact hrefused .notEmpty (by decide)
              | file | link => exact hrefused .notDirectory (by decide)

/-- Nothing stands at a path that was taken away, or found to be missing. -/
theorem not_stands_of_removeDirectories
    (h : ((Edit.removeDirectories path).run tree).1 = .ok () ∨
      ((Edit.removeDirectories path).run tree).1 = .error (.os .notFound)) :
    ¬((Edit.removeDirectories path).run tree).2.Stands path := by
  have hends : Ends (Edit.removeDirectories path) tree fun result after =>
      result = .ok () ∨ result = .error (.os .notFound) → ¬after.Stands path := by
    simp only [Edit.removeDirectories, ends_bind, ends_look]
    cases hfound : tree.linkStat path with
    | error e =>
        rintro - ⟨found, hfound'⟩
        cases hfound.symm.trans hfound'
    | ok found =>
        obtain ⟨loc, node⟩ := found
        have hpassage := passage_of_linkStat hfound
        cases node with
        | file => simp [Errno.notDirectory, Errno.notFound]
        | link target =>
            have hloc : loc ≠ [] := by
              rintro rfl
              cases hpassage.node?_eq
            dsimp only
            rw [ends_bind]
            apply ends_demandEdit (by simp [Errno.accessDenied, Errno.notFound])
            rw [ends_modify]
            intro _
            exact not_stands_drop hloc hpassage
        | directory mode =>
            simp only [ends_bind, ends_get]
            split
            · simp only [ends_bind, ends_modify, ends_outcomeOf]
              apply ends_removeDirectory
              · intro e he
                simp [he]
              · intro hmissing
                simp only [if_true, ends_pure]
                intro _
                exact not_stands_of_locateRoute hmissing
              · intro top mode' htop hplace _
                exact not_stands_drop htop ((passage_of_locateRoute hplace).demand (by simp))
            · simp [Errno.accessDenied, Errno.notFound]
  exact hends h

end StackControl.FileTree
