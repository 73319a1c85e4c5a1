import StackControl.Proofs.Lifecycle.ContractFetch
import StackControl.Proofs.Lifecycle.RevisionTrace

/-!
# The steps of a preparation

Every call of a preparation belongs to one of three steps, which are taken in order.  Of a step that
fails, the last call is the one whose answer means the error, except that a template that was
stamped for a build is still restored; and no step comes behind it.
-/

namespace StackControl.Lifecycle

open Procedure (Moment)

variable {σ α β : Type} {site : Site σ} {config : Config} {settings : StackSettings}
  {s : σ} {moments : List (Moment Call Call.Answer σ)} {e : Error}

/-! ## The steps -/

/-- The steps of a preparation. -/
inductive PreparationStep
  | pull
  | fetch
  | build
deriving DecidableEq

/-- Which step comes before which. -/
inductive PreparationStep.Before : PreparationStep → PreparationStep → Prop
  | pull_fetch : Before .pull .fetch
  | pull_build : Before .pull .build
  | fetch_build : Before .fetch .build

/-- The step that a call belongs to. -/
def stepOf (settings : StackSettings) : Call → Option PreparationStep
  | .engine (.imageExists image) =>
    if image = settings.proxyImage then some .build else some .pull
  | .engine (.pull _) => some .pull
  | .files (.list _) | .engine (.exportPath _ _) | .files (.unpack _ _) => some .fetch
  | .files (.readText _) | .files (.write _ _) | .engine (.build _) => some .build
  | _ => none

/-- What is called in a step. -/
def ofStep (settings : StackSettings) (step : PreparationStep)
    (moments : List (Moment Call Call.Answer σ)) : List (Moment Call Call.Answer σ) :=
  moments.filter fun m => stepOf settings m.call = some step

theorem stepOf_of_pullCall {call : Call} (h : PullCall settings call) :
    stepOf settings call = some .pull := by
  rcases h with rfl | rfl
  · exact if_neg contractsImage_ne_proxyImage
  · rfl

theorem stepOf_of_fetchCall {directory image : String} {call : Call}
    (h : FetchCall directory image call) : stepOf settings call = some .fetch := by
  rcases h with rfl | rfl | ⟨_, rfl⟩ <;> rfl

theorem stepOf_of_buildCall {call : Call} (h : BuildCall settings call) :
    stepOf settings call = some .build := by
  rcases h with rfl | rfl | ⟨_, rfl⟩ | ⟨_, _, rfl⟩
  · exact if_pos rfl
  all_goals rfl

theorem stepOf_contractsImage :
    stepOf settings (.engine (.imageExists settings.contractsImage)) = some .pull :=
  stepOf_of_pullCall (.inl rfl)

theorem stepOf_proxyImage :
    stepOf settings (.engine (.imageExists settings.proxyImage)) = some .build :=
  stepOf_of_buildCall (.inl rfl)

theorem mem_ofStep_iff {step : PreparationStep} {state : σ} {call : Call}
    {answer : Call.Answer call} (hcall : stepOf settings call = some step) :
    ⟨state, call, answer⟩ ∈ ofStep settings step moments ↔ ⟨state, call, answer⟩ ∈ moments := by
  simp only [ofStep, List.mem_filter, hcall, decide_true, and_true]

/-- What only a step can show is shown by its own calls. -/
theorem filterMap_ofStep {step : PreparationStep} {f : Moment Call Call.Answer σ → Option α}
    (hf : ∀ m a, f m = some a → stepOf settings m.call = some step) :
    (ofStep settings step moments).filterMap f = moments.filterMap f := by
  rw [ofStep, List.filterMap_filter]
  apply List.filterMap_congr
  intro m _
  split
  · rfl
  next hnot =>
    cases hfound : f m with
    | none => rfl
    | some a => exact absurd (decide_eq_true (hf m a hfound)) hnot

/-- Calls that are made step by step. -/
structure Staged (settings : StackSettings)
    (moments pulls fetches builds : List (Moment Call Call.Answer σ)) : Prop where
  eq_append : moments = pulls ++ (fetches ++ builds)
  pull : ∀ m ∈ pulls, stepOf settings m.call = some .pull
  fetch : ∀ m ∈ fetches, stepOf settings m.call = some .fetch
  build : ∀ m ∈ builds, stepOf settings m.call = some .build

theorem ofStep_eq_self {step : PreparationStep}
    (h : ∀ m ∈ moments, stepOf settings m.call = some step) :
    ofStep settings step moments = moments :=
  List.filter_eq_self.mpr fun m hm => decide_eq_true (h m hm)

theorem ofStep_eq_nil {step step' : PreparationStep}
    (h : ∀ m ∈ moments, stepOf settings m.call = some step') (hne : step' ≠ step) :
    ofStep settings step moments = [] := by
  apply List.filter_eq_nil_iff.mpr
  intro m hm
  rw [h m hm]
  simpa using hne

theorem Staged.ofStep_eq {pulls fetches builds : List (Moment Call Call.Answer σ)}
    (h : Staged settings moments pulls fetches builds) :
    ofStep settings .pull moments = pulls ∧ ofStep settings .fetch moments = fetches ∧
      ofStep settings .build moments = builds := by
  have happend (step : PreparationStep) : ofStep settings step moments =
      ofStep settings step pulls ++
        (ofStep settings step fetches ++ ofStep settings step builds) := by
    rw [h.eq_append]
    simp only [ofStep, List.filter_append]
  refine ⟨?_, ?_, ?_⟩
  · rw [happend, ofStep_eq_self h.pull, ofStep_eq_nil h.fetch (by decide),
      ofStep_eq_nil h.build (by decide)]
    simp
  · rw [happend, ofStep_eq_nil h.pull (by decide), ofStep_eq_self h.fetch,
      ofStep_eq_nil h.build (by decide)]
    simp
  · rw [happend, ofStep_eq_nil h.pull (by decide), ofStep_eq_nil h.fetch (by decide),
      ofStep_eq_self h.build]
    simp

/-! ## The failure of a step -/

/-- The error that the answer to a call means, if any. -/
def failure? (config : Config) : Moment Call Call.Answer σ → Option Error
  | ⟨_, .engine _, .error e⟩ => some (.engine e)
  | ⟨_, .files (.list _), .error fault⟩ =>
    if fault = .os .notFound then none
    else some (.extractContracts config.contractsDir (.fault fault))
  | ⟨_, .files (.unpack _ _), .error fault⟩ => some (unpackError config.contractsDir fault)
  | ⟨_, .files (.readText _), .error fault⟩ =>
    if fault = .os .notFound then none else some (.revisionTemplate config.revisionTemplate fault)
  | ⟨_, .files (.write _ _), .error fault⟩ =>
    some (.revisionTemplate config.revisionTemplate fault)
  | _ => none

/-- No answer means an error. -/
def Unfailing (config : Config) (moments : List (Moment Call Call.Answer σ)) : Prop :=
  ∀ m ∈ moments, failure? config m = none

/-- The first answer that means an error means this one, and the call that it answers is the last.
Only a build that failed is followed by one more call, which restores the template. -/
def FailsWith (config : Config) (e : Error) (moments : List (Moment Call Call.Answer σ)) : Prop :=
  ∃ earlier m restoring, moments = earlier ++ m :: restoring ∧ Unfailing config earlier ∧
    failure? config m = some e ∧
    (restoring = [] ∨ isBuild m = true ∧ ∃ r, restoring = [r] ∧ isWrite r = true)

theorem failsWith_singleton {m : Moment Call Call.Answer σ} (h : failure? config m = some e) :
    FailsWith config e [m] :=
  ⟨[], m, [], rfl, List.forall_mem_nil _, h, .inl rfl⟩

theorem FailsWith.append {earlier : List (Moment Call Call.Answer σ)}
    (hearlier : Unfailing config earlier) (h : FailsWith config e moments) :
    FailsWith config e (earlier ++ moments) := by
  obtain ⟨between, m, restoring, rfl, hbetween, hm, hrestoring⟩ := h
  refine ⟨earlier ++ between, m, restoring, (List.append_assoc ..).symm, ?_, hm, hrestoring⟩
  exact fun m hm => (List.mem_append.mp hm).elim (hearlier m) (hbetween m)

/-- A flow that fails is stopped by the answer to its last call. -/
def Blames (site : Site σ) (config : Config) (flow : Flow α) : Prop :=
  ∀ s e, (site.result flow s).1 = .error e → FailsWith config e (site.moments flow s)

/-- A flow fails as soon as an answer means an error, and with no other error. -/
structure Heeds (site : Site σ) (config : Config) (flow : Flow α) : Prop where
  blames : Blames site config flow
  unfailing : ∀ s a, (site.result flow s).1 = .ok a → Unfailing config (site.moments flow s)

theorem heeds_pure (a : α) : Heeds site config (pure a : Flow α) where
  blames := nofun
  unfailing _ _ _ := List.forall_mem_nil _

/-- Of a flow with one call, the error and the meaning of the answer have to agree. -/
theorem heeds_of_call {flow : Flow α} {call : σ → Moment Call Call.Answer σ}
    (hmoments : ∀ s, site.moments flow s = [call s])
    (hresult : ∀ s e, (site.result flow s).1 = .error e ↔ failure? config (call s) = some e) :
    Heeds site config flow where
  blames s e h := hmoments s ▸ failsWith_singleton ((hresult s e).mp h)
  unfailing s a h := by
    rw [hmoments]
    refine List.forall_mem_singleton.mpr (Option.eq_none_iff_forall_ne_some.mpr fun e he => ?_)
    rw [(hresult s e).mpr he] at h
    cases h

/-- A flow that fails has failed before what comes after it, or in that. -/
theorem Blames.bind {flow : Flow α} {rest : α → Flow β} (h : Blames site config flow)
    (hrest : ∀ s a between e, site.result flow s = (.ok a, between) →
      (site.result (rest a) between).1 = .error e →
        FailsWith config e (site.moments flow s ++ site.moments (rest a) between)) :
    Blames site config (flow >>= rest) := by
  intro s e hfails
  rw [Site.result_bind] at hfails
  rw [Site.moments_bind]
  rcases hflow : site.result flow s with ⟨e' | a, between⟩
  · rw [hflow] at hfails
    obtain rfl : e' = e := Except.error.inj hfails
    rw [List.append_nil]
    exact h s e' (congrArg Prod.fst hflow)
  · rw [hflow] at hfails
    exact hrest s a between e hflow hfails

theorem Blames.bind_pure {flow : Flow α} (h : Blames site config flow) (f : α → β) :
    Blames site config (flow >>= fun a => pure (f a)) :=
  h.bind nofun

theorem Heeds.blames_bind {flow : Flow α} {rest : α → Flow β} (h : Heeds site config flow)
    (hrest : ∀ a, Blames site config (rest a)) : Blames site config (flow >>= rest) := by
  refine h.blames.bind fun s a between e hflow hfails => ?_
  exact (hrest a between e hfails).append (h.unfailing s a (congrArg Prod.fst hflow))

theorem Heeds.bind {flow : Flow α} {rest : α → Flow β} (h : Heeds site config flow)
    (hrest : ∀ a, Heeds site config (rest a)) : Heeds site config (flow >>= rest) where
  blames := h.blames_bind fun a => (hrest a).blames
  unfailing s b hok := by
    obtain ⟨a, between, hflow, hafter, hmoments⟩ := Site.exists_of_result_bind site
      (Prod.ext hok rfl : site.result (flow >>= rest) s = (.ok b, _))
    rw [hmoments]
    intro m hm
    rcases List.mem_append.mp hm with hm | hm
    · exact h.unfailing s a (congrArg Prod.fst hflow) m hm
    · exact (hrest a).unfailing between b (congrArg Prod.fst hafter) m hm

theorem heeds_engine (request : Engine.Request) : Heeds site config (Flow.engine request) := by
  refine heeds_of_call (fun s => Site.moments_engine site request s) fun s e => ?_
  rw [Site.result_engine]
  rcases (site.answer (.engine request) s).1 with _ | _ <;> simp [Except.mapError, failure?]

theorem heeds_extract (archive : Bytes) :
    Heeds site config (Flow.demand (unpackError config.contractsDir)
      (Flow.files (.unpack archive (Utf8.encode config.contractsDir)))) := by
  have hmoments (s : σ) := (Site.moments_demand site (unpackError config.contractsDir) _ s).trans
    (site.moments_unpack archive (Utf8.encode config.contractsDir) s)
  refine heeds_of_call hmoments fun s e => ?_
  rw [Site.result_demand, Site.run_unpack]
  rcases ((Archive.unpack (Archive.read archive) (Utf8.encode config.contractsDir)).run
    (site.tree s)).1 with _ | _ <;> simp [Except.mapError, failure?]

/-- A listing that fails is heeded unless it says that there is nothing to list. -/
theorem heeds_needsContracts : Heeds site config (needsContracts config.contractsDir) := by
  refine heeds_of_call (site.moments_needsContracts config.contractsDir) fun s e => ?_
  have hthrown (thrown : Error) :
      (Except.error thrown : Except Error Bool) = .error e ↔ some thrown = some e := by
    simp
  rw [needsContracts, Site.result_bind, Site.result_liftM, Site.run_list, Site.listing]
  dsimp only
  rcases (site.tree s).list (Utf8.encode config.contractsDir) with (e' | _ | _) | names
  · by_cases he : e' = .notFound
    · simp only [he, if_true, failure?]
      exact iff_of_false (fun h => by cases h) (Option.some_ne_none e).symm
    · simp only [he, if_false, failure?, Fault.os.injEq]
      exact hthrown _
  · exact hthrown _
  · exact hthrown _
  · exact iff_of_false (fun h => by cases h) (Option.some_ne_none e).symm

theorem heeds_pullIfMissing (site : Site σ) (config : Config) (settings : StackSettings) :
    Heeds site config (pullIfMissing settings) := by
  unfold pullIfMissing
  split
  · exact heeds_pure false
  · apply (heeds_engine _).bind
    intro present
    cases present with
    | true => exact heeds_pure false
    | false => exact (heeds_engine _).bind fun _ => heeds_pure true

theorem heeds_fetchIfNeeded (site : Site σ) (config : Config) (image : String) :
    Heeds site config (fetchIfNeeded config.contractsDir image) := by
  apply heeds_needsContracts.bind
  intro needed
  cases needed with
  | false => exact heeds_pure false
  | true =>
      apply (heeds_engine _).bind
      intro archive
      exact (heeds_extract archive).bind fun _ => heeds_pure true

/-- A build step fails with its last call, but for the restoring of the template. -/
theorem Stamping.failsWith {result : Except Error Bool × σ}
    (h : Stamping site config.revisionTemplate settings s result moments)
    (hfails : result.1 = .error e) : FailsWith config e moments := by
  have hbuild {s' : σ} {stamped : Bool} (hbuilt : site.built settings s' stamped = .error e) :
      failure? config (site.building settings s') = some e := by
    rw [Site.built] at hbuilt
    rw [Site.building]
    generalize (site.answer (.engine (.build (proxyBuild settings))) s').1 = answer at hbuilt ⊢
    rcases answer with e' | _
    · exact congrArg some (Except.error.inj hbuilt)
    · cases hbuilt
  have hread' {text : String}
      (hread : (site.tree s).readText (Utf8.encode config.revisionTemplate) = .ok text) :
      failure? config (site.reading config.revisionTemplate s) = none := by
    rw [Site.reading, hread]
    rfl
  cases h with
  | unread hread hfault =>
      obtain rfl := Except.error.inj hfails
      refine failsWith_singleton ?_
      rw [Site.reading, hread]
      exact if_neg hfault
  | unstamped hnone =>
      refine (failsWith_singleton (hbuild hfails)).append (List.forall_mem_singleton.mpr ?_)
      rcases hnone with hmissing | ⟨text, hread, -⟩
      · rw [Site.reading, hmissing]
        simp [failure?]
      · exact hread' hread
  | @unwritten text fault hread hplaceholder hwrite =>
      obtain rfl := Except.error.inj hfails
      refine (failsWith_singleton ?_).append (List.forall_mem_singleton.mpr (hread' hread))
      rw [Site.writing, hwrite]
      rfl
  | @stamped text s' hread hplaceholder hwrite hs' =>
      refine ⟨[_, _], _, [_], rfl, ?_, hbuild hfails, .inr ⟨rfl, _, rfl, rfl⟩⟩
      simp only [Unfailing, List.forall_mem_cons]
      refine ⟨hread' hread, ?_, List.forall_mem_nil _⟩
      rw [Site.writing, hwrite]
      rfl

theorem blames_buildStamped : Blames site config (buildStamped config.revisionTemplate settings) :=
  fun s _ hfails => (stamping_buildStamped site config.revisionTemplate settings s).failsWith hfails

theorem blames_buildIfNeeded (site : Site σ) (config : Config) (settings : StackSettings)
    (rebuild pulled fetched : Bool) :
    Blames site config (buildIfNeeded config settings rebuild pulled fetched) := by
  have hbuild (present : Bool) :
      Blames site config (buildUnlessPresent config settings pulled fetched present) := by
    cases present with
    | true => exact (heeds_pure _).blames
    | false => exact blames_buildStamped.bind_pure _
  cases rebuild with
  | true => exact hbuild false
  | false => exact (heeds_engine _).blames_bind hbuild

/-! ## The calls of the steps, and where they stop -/

theorem stepOf_pulls (site : Site σ) (settings : StackSettings) (s : σ) :
    ∀ m ∈ site.moments (pullIfMissing settings) s, stepOf settings m.call = some .pull :=
  fun _ hm => stepOf_of_pullCall ((only_pullIfMissing settings).mem_moments hm)

theorem stepOf_fetches (site : Site σ) (settings : StackSettings) (directory image : String)
    (s : σ) :
    ∀ m ∈ site.moments (fetchIfNeeded directory image) s,
      stepOf settings m.call = some .fetch :=
  fun _ hm => stepOf_of_fetchCall ((only_fetchIfNeeded directory image).mem_moments hm)

theorem stepOf_builds (site : Site σ) (config : Config) (settings : StackSettings)
    (rebuild pulled fetched : Bool) (s : σ) :
    ∀ m ∈ site.moments (buildIfNeeded config settings rebuild pulled fetched) s,
      stepOf settings m.call = some .build :=
  fun _ hm =>
    stepOf_of_buildCall ((only_buildIfNeeded config settings rebuild pulled fetched).mem_moments hm)

/-- A step failed, the steps before it did not, and those behind it were not begun. -/
structure StoppedAt (config : Config) (settings : StackSettings) (e : Error)
    (moments : List (Moment Call Call.Answer σ)) (step : PreparationStep) : Prop where
  fails : FailsWith config e (ofStep settings step moments)
  before : ∀ earlier, PreparationStep.Before earlier step →
    Unfailing config (ofStep settings earlier moments)
  behind : ∀ later, PreparationStep.Before step later → ofStep settings later moments = []

variable {pulls fetches builds : List (Moment Call Call.Answer σ)}

theorem Staged.stoppedAt_pull (h : Staged settings moments pulls [] [])
    (hfails : FailsWith config e pulls) : StoppedAt config settings e moments .pull := by
  obtain ⟨hpulls, hfetches, hbuilds⟩ := h.ofStep_eq
  refine ⟨hpulls.symm ▸ hfails, nofun, ?_⟩
  rintro _ (_ | _)
  · exact hfetches
  · exact hbuilds

theorem Staged.stoppedAt_fetch (h : Staged settings moments pulls fetches [])
    (hpull : Unfailing config pulls) (hfails : FailsWith config e fetches) :
    StoppedAt config settings e moments .fetch := by
  obtain ⟨hpulls, hfetches, hbuilds⟩ := h.ofStep_eq
  refine ⟨hfetches.symm ▸ hfails, ?_, ?_⟩
  · rintro _ ⟨⟩
    exact hpulls.symm ▸ hpull
  · rintro _ ⟨⟩
    exact hbuilds

theorem Staged.stoppedAt_build (h : Staged settings moments pulls fetches builds)
    (hpull : Unfailing config pulls) (hfetch : Unfailing config fetches)
    (hfails : FailsWith config e builds) :
    StoppedAt config settings e moments .build := by
  obtain ⟨hpulls, hfetches, hbuilds⟩ := h.ofStep_eq
  refine ⟨hbuilds.symm ▸ hfails, ?_, nofun⟩
  rintro _ (_ | _)
  · exact hpulls.symm ▸ hpull
  · exact hfetches.symm ▸ hfetch

end StackControl.Lifecycle
