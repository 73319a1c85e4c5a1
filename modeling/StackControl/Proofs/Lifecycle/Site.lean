import StackControl.Lifecycle.Basic
import StackControl.Machine.Files
import StackControl.Proofs.Procedure.Moments

/-!
# Sites of lifecycle commands

A site says who answers the calls of a lifecycle command.  Requests to work on files are always
answered by a file tree, which is a part of the site's state; the engine and all the others may
answer as they like, and may change the state as they like.

The result of a flow and its moments are computed step by step along the monad: a failure ends
the flow, and what was called before it stays called.
-/

namespace StackControl.Lifecycle

open Procedure (Answerer Moment)

/-- Who answers the calls of lifecycle commands, over a file tree. -/
structure Site (σ : Type) where
  answer : Answerer Call Call.Answer σ
  tree : σ → FileTree
  files_answer (request : Machine.FileRequest) (s : σ) :
    (answer (.files request) s).1 = (request.perform (tree s)).1
  files_tree (request : Machine.FileRequest) (s : σ) :
    tree (answer (.files request) s).2 = (request.perform (tree s)).2

namespace Site

variable {σ α β : Type}

/-- The site where all but the files are answered from a state of their own, beside the tree. -/
def beside (others : Answerer Call Call.Answer σ) : Site (σ × FileTree) where
  answer
    | .files request, (s, tree) =>
      ((request.perform tree).1, s, (request.perform tree).2)
    | call, (s, tree) => ((others call s).1, (others call s).2, tree)
  tree s := s.2
  files_answer _ _ := rfl
  files_tree _ _ := rfl

/-- What a flow ends with, and the state it leaves. -/
def result (site : Site σ) (flow : Flow α) (s : σ) : Except Error α × σ :=
  Procedure.run site.answer flow.run s

/-- The calls of a flow, each with its state and answer. -/
def moments (site : Site σ) (flow : Flow α) (s : σ) : List (Moment Call Call.Answer σ) :=
  Procedure.moments site.answer flow.run s

variable (site : Site σ)

@[simp] theorem moments_pure (a : α) (s : σ) :
    site.moments (pure a) s = [] := rfl

theorem result_bind (flow : Flow α) (f : α → Flow β) (s : σ) :
    site.result (flow >>= f) s =
      match site.result flow s with
      | (.ok a, after) => site.result (f a) after
      | (.error e, after) => (.error e, after) := by
  simp only [result, ExceptT.run_bind, Procedure.run_bind]
  rcases Procedure.run site.answer flow.run s with ⟨_ | _, _⟩ <;> rfl

theorem moments_bind (flow : Flow α) (f : α → Flow β) (s : σ) :
    site.moments (flow >>= f) s =
      site.moments flow s ++
        match site.result flow s with
        | (.ok a, after) => site.moments (f a) after
        | (.error _, _) => [] := by
  simp only [moments, result, ExceptT.run_bind, Procedure.moments_bind]
  rcases Procedure.run site.answer flow.run s with ⟨_ | _, _⟩ <;> rfl

@[simp] theorem result_liftM (activity : Activity α) (s : σ) :
    site.result (liftM activity : Flow α) s =
      (.ok (Procedure.run site.answer activity s).1,
        (Procedure.run site.answer activity s).2) :=
  Procedure.run_map ..

@[simp] theorem moments_liftM (activity : Activity α) (s : σ) :
    site.moments (liftM activity : Flow α) s =
      Procedure.moments site.answer activity s :=
  Procedure.moments_map ..

@[simp] theorem result_demand {ε : Type} (toError : ε → Error)
    (action : Activity (Except ε α)) (s : σ) :
    site.result (Flow.demand toError action) s =
      ((Procedure.run site.answer action s).1.mapError toError,
        (Procedure.run site.answer action s).2) :=
  Procedure.run_map ..

@[simp] theorem moments_demand {ε : Type} (toError : ε → Error)
    (action : Activity (Except ε α)) (s : σ) :
    site.moments (Flow.demand toError action) s =
      Procedure.moments site.answer action s :=
  Procedure.moments_map ..

@[simp] theorem result_outcomeOf (flow : Flow α) (s : σ) :
    site.result (outcomeOf flow) s =
      (.ok (site.result flow s).1, (site.result flow s).2) :=
  Procedure.run_map ..

@[simp] theorem moments_outcomeOf (flow : Flow α) (s : σ) :
    site.moments (outcomeOf flow) s = site.moments flow s :=
  Procedure.moments_map ..

theorem run_files (request : Machine.FileRequest) (s : σ) :
    Procedure.run site.answer (Flow.files request) s =
      ((request.perform (site.tree s)).1, (site.answer (.files request) s).2) := by
  rw [← site.files_answer]
  rfl

theorem moments_files (request : Machine.FileRequest) (s : σ) :
    Procedure.moments site.answer (Flow.files request) s =
      [⟨s, .files request, (request.perform (site.tree s)).1⟩] := by
  rw [← site.files_answer]
  rfl

theorem run_list (path : Path) (s : σ) :
    Procedure.run site.answer (Flow.files (.list path) : Activity (Except Fault (List Name))) s =
      ((site.tree s).list path, (site.answer (.files (.list path)) s).2) :=
  site.run_files (.list path) s

theorem moments_list (path : Path) (s : σ) :
    Procedure.moments site.answer
        (Flow.files (.list path) : Activity (Except Fault (List Name))) s =
      [⟨s, .files (.list path), (site.tree s).list path⟩] :=
  site.moments_files (.list path) s

theorem run_readText (path : Path) (s : σ) :
    Procedure.run site.answer (Flow.files (.readText path) : Activity (Except Fault String)) s =
      ((site.tree s).readText path, (site.answer (.files (.readText path)) s).2) :=
  site.run_files (.readText path) s

theorem moments_readText (path : Path) (s : σ) :
    Procedure.moments site.answer
        (Flow.files (.readText path) : Activity (Except Fault String)) s =
      [⟨s, .files (.readText path), (site.tree s).readText path⟩] :=
  site.moments_files (.readText path) s

theorem run_write (path : Path) (content : Bytes) (s : σ) :
    Procedure.run site.answer
        (Flow.files (.write path content) : Activity (Except Fault Unit)) s =
      (((FileTree.Edit.write path content).run (site.tree s)).1,
        (site.answer (.files (.write path content)) s).2) :=
  site.run_files (.write path content) s

theorem moments_write (path : Path) (content : Bytes) (s : σ) :
    Procedure.moments site.answer
        (Flow.files (.write path content) : Activity (Except Fault Unit)) s =
      [⟨s, .files (.write path content),
        ((FileTree.Edit.write path content).run (site.tree s)).1⟩] :=
  site.moments_files (.write path content) s

theorem run_unpack (archive : Bytes) (target : Path) (s : σ) :
    Procedure.run site.answer
        (Flow.files (.unpack archive target) : Activity (Except Archive.UnpackFault Unit)) s =
      (((Archive.unpack (Archive.read archive) target).run (site.tree s)).1,
        (site.answer (.files (.unpack archive target)) s).2) :=
  site.run_files (.unpack archive target) s

theorem moments_unpack (archive : Bytes) (target : Path) (s : σ) :
    Procedure.moments site.answer
        (Flow.files (.unpack archive target) : Activity (Except Archive.UnpackFault Unit)) s =
      [⟨s, .files (.unpack archive target),
        ((Archive.unpack (Archive.read archive) target).run (site.tree s)).1⟩] :=
  site.moments_files (.unpack archive target) s

@[simp] theorem result_engine (request : Engine.Request) (s : σ) :
    site.result (Flow.engine request) s =
      ((site.answer (.engine request) s).1.mapError .engine,
        (site.answer (.engine request) s).2) :=
  result_demand ..

@[simp] theorem moments_engine (request : Engine.Request) (s : σ) :
    site.moments (Flow.engine request) s =
      [⟨s, .engine request, (site.answer (.engine request) s).1⟩] :=
  moments_demand ..

/-- What comes after a step that succeeded. -/
theorem exists_of_result_bind {flow : Flow α} {rest : α → Flow β} {b : β} {s after : σ}
    (h : site.result (flow >>= rest) s = (.ok b, after)) :
    ∃ a between, site.result flow s = (.ok a, between) ∧
      site.result (rest a) between = (.ok b, after) ∧
      site.moments (flow >>= rest) s = site.moments flow s ++ site.moments (rest a) between := by
  rw [result_bind] at h
  rw [moments_bind]
  rcases hflow : site.result flow s with ⟨e | a, between⟩
  · rw [hflow] at h
    cases h
  · rw [hflow] at h
    exact ⟨a, between, rfl, h, rfl⟩

theorem answer_of_result_engine {request : Engine.Request} {a : request.Result} {s after : σ}
    (h : site.result (Flow.engine request) s = (.ok a, after)) :
    (site.answer (.engine request) s).1 = .ok a ∧ (site.answer (.engine request) s).2 = after := by
  rw [result_engine] at h
  rcases hanswer : (site.answer (.engine request) s).1 with e | found
  · rw [hanswer] at h
    cases h
  · rw [hanswer] at h
    cases h
    exact ⟨rfl, rfl⟩

@[simp] theorem tree_beside (others : Answerer Call Call.Answer σ) (s : σ × FileTree) :
    (beside others).tree s = s.2 := rfl

@[simp] theorem answer_beside_files (others : Answerer Call Call.Answer σ)
    (request : Machine.FileRequest) (s : σ) (tree : FileTree) :
    (beside others).answer (.files request) (s, tree) =
      ((request.perform tree).1, s, (request.perform tree).2) := rfl

@[simp] theorem answer_beside_engine (others : Answerer Call Call.Answer σ)
    (request : Engine.Request) (s : σ) (tree : FileTree) :
    (beside others).answer (.engine request) (s, tree) =
      ((others (.engine request) s).1, (others (.engine request) s).2, tree) := rfl

/-- Beside the others, only requests to work on files change the tree. -/
theorem run_beside_of_only {others : Answerer Call Call.Answer σ} {activity : Activity α}
    (h : activity.Only fun call => ∀ request, call ≠ .files request) (s : σ) (tree : FileTree) :
    (Procedure.run (beside others).answer activity (s, tree)).2.2 = tree := by
  induction activity generalizing s with
  | done => rfl
  | ask call next ih =>
      have hcall : ((beside others).answer call (s, tree)).2 = ((others call s).2, tree) := by
        cases call with
        | files request => exact absurd rfl (h.1 request)
        | _ => rfl
      simp only [Procedure.run, hcall]
      exact ih _ (h.2 _) _

/-- What only the engine is called for leaves the tree to the engine. -/
theorem tree_run_of_only {site : Site σ} {activity : Activity α}
    (hspares : ∀ request s, site.tree (site.answer (.engine request) s).2 = site.tree s)
    (h : activity.Only fun call => ∃ request, call = .engine request) (s : σ) :
    site.tree (Procedure.run site.answer activity s).2 = site.tree s := by
  induction activity generalizing s with
  | done => rfl
  | ask call next ih =>
      obtain ⟨request, rfl⟩ := h.1
      exact (ih _ (h.2 _) _).trans (hspares request s)

/-- Others who have nothing to say but the engine, which always answers alike. -/
def engineAlone (engine : (request : Engine.Request) → Call.Answer (.engine request)) :
    Answerer Call Call.Answer Unit
  | .engine request, s => (engine request, s)
  | .runner _, s => (.ok 0, s)
  | .provision _, s => (.ok (), s)
  | .processes _, s => (.error (.listFailed 1), s)
  | .files request, s => ((request.perform (FileTree.empty [])).1, s)
  | .clock .now, s => (0, s)
  | .clock (.sleep _), s => ((), s)
  | .print _ _, s => (.ok (), s)

end Site

theorem eq_ok_of_toOption {ε α : Type} {result : Except ε α} {a : α}
    (h : result.toOption = some a) : result = .ok a := by
  cases result with
  | error => cases h
  | ok b =>
      cases h
      rfl

end StackControl.Lifecycle
