import StackControl.Lifecycle.Prerequisites
import StackControl.Proofs.Lifecycle.Site
import StackControl.Proofs.Procedure.Realisation

/-!
# The course of a preparation

A preparation of a local revision is a pull, a fetch of the contracts and a build, one after the
other, each of which makes calls of its own kind.  A published revision ends with the pull.
-/

namespace StackControl.Lifecycle

open Procedure (Answerer Moment)

/-- The build, unless the image is there, and the report of all that was done. -/
def buildIfNeeded (config : Config) (settings : StackSettings) (rebuild pulled fetched : Bool) :
    Flow PrerequisiteReport := do
  let present ←
    if rebuild then pure false else Flow.engine (.imageExists settings.proxyImage)
  if present then
    return { pulled := pulled, fetchedContracts := fetched }
  let injected ← buildStamped config.revisionTemplate settings
  return {
    pulled := pulled
    fetchedContracts := fetched
    injectedRevision := injected
    built := true }

theorem prepare_of_isLocal {config : Config} {settings : StackSettings} {rebuild : Bool}
    (h : settings.isLocal = true) :
    prepare config settings rebuild = (do
      let pulled ← pullIfMissing settings
      let fetched ← fetchIfNeeded config.contractsDir settings.contractsImage
      buildIfNeeded config settings rebuild pulled fetched) := by
  unfold prepare
  congr 1
  funext pulled
  simp only [h]
  rfl

theorem prepare_of_not_isLocal {config : Config} {settings : StackSettings} {rebuild : Bool}
    (h : settings.isLocal = false) :
    prepare config settings rebuild = (do
      let pulled ← pullIfMissing settings
      return { pulled := pulled }) := by
  unfold prepare
  congr 1
  funext pulled
  simp [h]

/-! ## The calls of each step -/

section Only

variable {allowed : Call → Prop} {α β : Type}

theorem only_demand {ε : Type} {toError : ε → Error} {action : Activity (Except ε α)}
    (h : action.Only allowed) :
    (Flow.demand toError action).run.Only allowed :=
  h.map _

theorem only_liftM {activity : Activity α} (h : activity.Only allowed) :
    (liftM activity : Flow α).run.Only allowed :=
  h.map _

theorem only_outcomeOf {flow : Flow α} (h : flow.run.Only allowed) :
    (outcomeOf flow).run.Only allowed :=
  h.map _

theorem only_engine {request : Engine.Request} (h : allowed (.engine request)) :
    (Flow.engine request).run.Only allowed :=
  only_demand (Procedure.only_call.mpr h)

theorem only_files {request : Machine.FileRequest} (h : allowed (.files request)) :
    (Flow.files request).Only allowed :=
  Procedure.only_call.mpr h

end Only

/-- A call that pulls the contracts' image or asks for it. -/
def PullCall (settings : StackSettings) (call : Call) : Prop :=
  call = .engine (.imageExists settings.contractsImage) ∨
    call = .engine (.pull settings.contractsImage)

/-- A call that fetches the contracts or asks for them. -/
def FetchCall (directory image : String) (call : Call) : Prop :=
  call = .files (.list (Utf8.encode directory)) ∨
    call = .engine (.exportPath image contractsSource) ∨
      ∃ archive, call = .files (.unpack archive (Utf8.encode directory))

/-- A call of the build, of its stamping and restoring, or of the test whether it is needed. -/
def BuildCall (settings : StackSettings) (call : Call) : Prop :=
  call = .engine (.imageExists settings.proxyImage) ∨
    call = .engine (.build (proxyBuild settings)) ∨
      (∃ path, call = .files (.readText path)) ∨
        ∃ path content, call = .files (.write path content)

theorem only_pullIfMissing (settings : StackSettings) :
    (pullIfMissing settings).run.Only (PullCall settings) := by
  unfold pullIfMissing
  split
  · trivial
  · apply Procedure.Only.bind_run (only_engine (.inl rfl))
    intro present
    cases present with
    | true => trivial
    | false => exact Procedure.Only.bind_run (only_engine (.inr rfl)) fun _ => trivial

theorem only_needsContracts (directory image : String) :
    (needsContracts directory).run.Only (FetchCall directory image) := by
  unfold needsContracts
  apply Procedure.Only.bind_run (only_liftM (only_files (.inl rfl)))
  intro answer
  split
  · trivial
  · split <;> trivial
  · trivial

theorem only_fetchIfNeeded (directory image : String) :
    (fetchIfNeeded directory image).run.Only (FetchCall directory image) := by
  unfold fetchIfNeeded
  apply Procedure.Only.bind_run (only_needsContracts directory image)
  intro needed
  cases needed with
  | false => trivial
  | true =>
      apply Procedure.Only.bind_run (only_engine (.inr (.inl rfl)))
      intro archive
      apply Procedure.Only.bind_run (only_demand (only_files (.inr (.inr ⟨archive, rfl⟩))))
      intro _
      trivial

theorem only_apply (settings : StackSettings) (template revision : String) :
    (RevisionStamp.apply template revision).run.Only (BuildCall settings) := by
  unfold RevisionStamp.apply
  apply Procedure.Only.bind_run (only_liftM (only_files (.inr (.inr (.inl ⟨_, rfl⟩)))))
  intro answer
  split
  · split <;> trivial
  · trivial
  next text =>
    cases hasPlaceholder text with
    | false => trivial
    | true =>
        apply Procedure.Only.bind_run (only_demand (only_files (.inr (.inr (.inr ⟨_, _, rfl⟩)))))
        intro _
        trivial

theorem only_restore (settings : StackSettings) (stamp : Option RevisionStamp) :
    (RevisionStamp.restore stamp).Only (BuildCall settings) := by
  cases stamp with
  | none => trivial
  | some stamp => exact (only_files (.inr (.inr (.inr ⟨_, _, rfl⟩)))).bind fun _ => trivial

theorem only_buildStamped (settings : StackSettings) (template : String) :
    (buildStamped template settings).run.Only (BuildCall settings) := by
  unfold buildStamped
  apply Procedure.Only.bind_run (only_apply settings template _)
  intro stamp
  apply Procedure.Only.bind_run (only_outcomeOf (only_engine (.inr (.inl rfl))))
  intro result
  apply Procedure.Only.bind_run (only_liftM (only_restore settings stamp))
  intro _
  refine Procedure.Only.bind_run ?_ fun _ => trivial
  cases result <;> trivial

theorem only_buildIfNeeded (config : Config) (settings : StackSettings)
    (rebuild pulled fetched : Bool) :
    (buildIfNeeded config settings rebuild pulled fetched).run.Only (BuildCall settings) := by
  have hbuild (present : Bool) : (if present then
        return { pulled := pulled, fetchedContracts := fetched }
      else do
        let injected ← buildStamped config.revisionTemplate settings
        return {
          pulled := pulled
          fetchedContracts := fetched
          injectedRevision := injected
          built := true } : Flow PrerequisiteReport).run.Only (BuildCall settings) := by
    cases present with
    | true => trivial
    | false => exact Procedure.Only.bind_run (only_buildStamped settings _) fun _ => trivial
  cases rebuild with
  | true =>
      have hpure : (pure false : Flow Bool).run.Only (BuildCall settings) := trivial
      exact hpure.bind_run hbuild
  | false => exact Procedure.Only.bind_run (only_engine (.inl rfl)) hbuild

theorem only_prepare (config : Config) (settings : StackSettings) (rebuild : Bool) :
    (prepare config settings rebuild).run.Only fun call =>
      PullCall settings call ∨
        FetchCall config.contractsDir settings.contractsImage call ∨ BuildCall settings call := by
  have hpull := (only_pullIfMissing settings).mono fun call hcall =>
    (Or.inl hcall : _ ∨ FetchCall config.contractsDir settings.contractsImage call ∨
      BuildCall settings call)
  cases hlocal : settings.isLocal with
  | false =>
      rw [prepare_of_not_isLocal hlocal]
      exact hpull.bind_run fun _ => trivial
  | true =>
      rw [prepare_of_isLocal hlocal]
      apply hpull.bind_run
      intro pulled
      apply Procedure.Only.bind_run ((only_fetchIfNeeded _ _).mono fun _ hcall => .inr (.inl hcall))
      intro fetched
      exact (only_buildIfNeeded _ _ _ _ _).mono fun _ hcall => .inr (.inr hcall)

/-! ## The listing of the contracts -/

section Listing

variable {σ : Type}

/-- The moment in which the directory of the contracts is listed. -/
def Site.listing (site : Site σ) (directory : String) (s : σ) : Moment Call Call.Answer σ :=
  ⟨s, .files (.list (Utf8.encode directory)), (site.tree s).list (Utf8.encode directory)⟩

theorem Site.moments_needsContracts (site : Site σ) (directory : String) (s : σ) :
    site.moments (needsContracts directory) s = [site.listing directory s] := by
  rw [needsContracts, Site.moments_bind, Site.moments_liftM, Site.moments_list,
    Site.result_liftM, Site.run_list]
  dsimp only
  split
  · rfl
  · split <;> rfl
  · rfl

end Listing

/-! ## A site for local revisions -/

/-- Others among which the engine has every image, exports an archive and does nothing else. -/
def exporting (archive : Bytes) : Answerer Call Call.Answer Unit :=
  Site.engineAlone fun
    | .imageExists _ => .ok true
    | .exportPath _ _ => .ok archive
    | _ => .error (.missingContainerId "")

/-- The default settings with a local revision. -/
def localSettings : StackSettings :=
  StackSettings.resolve (.set .none .revision (some StackSettings.localRevision)) fun _ => none

end StackControl.Lifecycle
