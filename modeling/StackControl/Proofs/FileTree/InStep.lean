import StackControl.Proofs.FileTree.Ends

/-!
# Changes of two trees in step

Two changes, each of a tree of its own, go in step if they answer the same and leave trees that are
related as the trees before were.  That is kept by everything that puts changes together, so it only
has to be shown of the single operations.
-/

namespace StackControl.FileTree

variable {ε ε' α β : Type}

/-! ## How changes run -/

section Run

variable (change : ExceptT ε (StateM FileTree) α) (tree : FileTree)

theorem run_bind (f : α → ExceptT ε (StateM FileTree) β) :
    (change >>= f).run tree =
      match change.run tree with
      | (.ok a, after) => (f a).run after
      | (.error e, after) => (.error e, after) := by
  change ExceptT.bindCont f (change.run tree).1 (change.run tree).2 = _
  rcases change.run tree with ⟨_ | _, after⟩ <;> rfl

/-- Changes that succeed one after the other succeed each. -/
theorem exists_of_run_bind {f : α → ExceptT ε (StateM FileTree) β} {b : β}
    (h : ((change >>= f).run tree).1 = .ok b) :
    ∃ a after, change.run tree = (.ok a, after) ∧ ((f a).run after).1 = .ok b ∧
      ((change >>= f).run tree).2 = ((f a).run after).2 := by
  rw [run_bind] at h ⊢
  generalize change.run tree = ended at h ⊢
  obtain ⟨e | a, after⟩ := ended
  · cases h
  · exact ⟨a, after, rfl, h, rfl⟩

theorem run_pure (a : α) : (pure a : ExceptT ε (StateM FileTree) α).run tree = (.ok a, tree) := rfl

theorem run_tryCatch (handler : ε → ExceptT ε (StateM FileTree) α) :
    (tryCatch change handler).run tree =
      match change.run tree with
      | (.ok a, after) => (.ok a, after)
      | (.error e, after) => (handler e).run after := by
  have hends : Ends (tryCatch change handler) tree fun result after =>
      (result, after) =
        match change.run tree with
        | (.ok a, after) => (.ok a, after)
        | (.error e, after) => (handler e).run after := by
    rw [ends_tryCatch, Ends]
    rcases change.run tree with ⟨_ | _, after⟩ <;> rfl
  exact hends

theorem run_get : (get : Edit FileTree).run tree = (.ok tree, tree) := rfl

theorem run_outcomeOf :
    (outcomeOf change).run tree = (.ok (change.run tree).1, (change.run tree).2) := rfl

theorem run_adapt (g : ε → ε') :
    (change.adapt g).run tree = ((change.run tree).1.mapError g, (change.run tree).2) := rfl

theorem run_of_run_adapt {g : ε → ε'} {a : α} {after : FileTree}
    (h : (change.adapt g).run tree = (.ok a, after)) : change.run tree = (.ok a, after) := by
  rw [run_adapt] at h
  generalize change.run tree = ended at h ⊢
  obtain ⟨e | _, _⟩ := ended
  · cases h
  · cases h
    rfl

theorem run_look (f : FileTree → Except Fault α) :
    (Edit.look f).run tree = (f tree, tree) := by
  have hends : Ends (Edit.look f) tree fun result after => (result, after) = (f tree, tree) := by
    rw [ends_look]
  exact hends

theorem run_demandEdit (loc : Location) :
    (Edit.demandEdit loc).run tree =
      (if tree.mayEdit loc.dropLast then .ok () else .error (.os .accessDenied), tree) := by
  have hends : Ends (Edit.demandEdit loc) tree fun result after => (result, after) =
      (if tree.mayEdit loc.dropLast then .ok () else .error (.os .accessDenied), tree) := by
    simp only [Edit.demandEdit, ends_bind, ends_get]
    split <;> rfl
  exact hends

end Run

/-! ## Going in step -/

/-- Two changes answer the same and leave related trees. -/
def InStep (related : FileTree → FileTree → Prop) (change change' : ExceptT ε (StateM FileTree) α)
    (tree tree' : FileTree) : Prop :=
  (change.run tree).1 = (change'.run tree').1 ∧ related (change.run tree).2 (change'.run tree').2

section Monad

variable {related : FileTree → FileTree → Prop} {tree tree' : FileTree}
  {change change' : ExceptT ε (StateM FileTree) α}

theorem inStep_pure (h : related tree tree') (a : α) :
    InStep related (pure a : ExceptT ε (StateM FileTree) α) (pure a) tree tree' := ⟨rfl, h⟩

theorem inStep_throw (h : related tree tree') (e : ε) :
    InStep related (throw e : ExceptT ε (StateM FileTree) α) (throw e) tree tree' := ⟨rfl, h⟩

theorem InStep.bind {f f' : α → ExceptT ε (StateM FileTree) β}
    (h : InStep related change change' tree tree')
    (hf : ∀ a tree tree', related tree tree' → InStep related (f a) (f' a) tree tree') :
    InStep related (change >>= f) (change' >>= f') tree tree' := by
  rw [InStep] at h
  rw [InStep, run_bind, run_bind]
  generalize change.run tree = ended at h
  generalize change'.run tree' = ended' at h
  obtain ⟨answer, after⟩ := ended
  obtain ⟨answer', after'⟩ := ended'
  obtain ⟨rfl, htrees⟩ : answer = answer' ∧ related after after' := h
  rcases answer with e | a
  · exact ⟨rfl, htrees⟩
  · exact hf a _ _ htrees

theorem InStep.tryCatch {handler handler' : ε → ExceptT ε (StateM FileTree) α}
    (h : InStep related change change' tree tree')
    (hhandler : ∀ e tree tree', related tree tree' →
      InStep related (handler e) (handler' e) tree tree') :
    InStep related (tryCatch change handler) (tryCatch change' handler') tree tree' := by
  rw [InStep] at h
  rw [InStep, run_tryCatch, run_tryCatch]
  generalize change.run tree = ended at h
  generalize change'.run tree' = ended' at h
  obtain ⟨answer, after⟩ := ended
  obtain ⟨answer', after'⟩ := ended'
  obtain ⟨rfl, htrees⟩ : answer = answer' ∧ related after after' := h
  rcases answer with e | a
  · exact hhandler e _ _ htrees
  · exact ⟨rfl, htrees⟩

theorem InStep.adapt (h : InStep related change change' tree tree') (g : ε → ε') :
    InStep related (change.adapt g) (change'.adapt g) tree tree' :=
  ⟨congrArg (·.mapError g) h.1, h.2⟩

theorem InStep.outcomeOf (h : InStep related change change' tree tree') :
    InStep related (outcomeOf change) (outcomeOf change') tree tree' :=
  ⟨congrArg Except.ok h.1, h.2⟩

end Monad

end StackControl.FileTree
