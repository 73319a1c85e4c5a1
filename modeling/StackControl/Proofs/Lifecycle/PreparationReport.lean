import StackControl.Proofs.Archive.Extraction
import StackControl.Proofs.Lifecycle.PreparationSteps
import StackControl.Proofs.Lifecycle.RepeatedPreparation

/-!
# What a preparation reports

When every step of a preparation succeeds, each of them is reported exactly if it was taken, and was
taken exactly if it was needed.  The report can thus be read off the calls, and the calls off the
report.
-/

namespace StackControl.Lifecycle

open Procedure (Moment)

variable {σ α : Type} {site : Site σ} {config : Config} {settings : StackSettings}
  {s after : σ} {moments : List (Moment Call Call.Answer σ)}

/-! ## The report of a step -/

/-- A call was made, and this was the answer. -/
def Replied (moments : List (Moment Call Call.Answer σ)) (call : Call)
    (answer : Call.Answer call) : Prop :=
  ∃ state, ⟨state, call, answer⟩ ∈ moments

/-- The image that is pulled by a call. -/
def pulled? (m : Moment Call Call.Answer σ) : Option String :=
  match m.call with
  | .engine (.pull image) => some image
  | _ => none

/-- What is exported by a call: the image, and the path inside it. -/
def exported? (m : Moment Call Call.Answer σ) : Option (String × String) :=
  match m.call with
  | .engine (.exportPath image path) => some (image, path)
  | _ => none

/-- What is built by a call. -/
def built? (m : Moment Call Call.Answer σ) : Option Engine.Build :=
  match m.call with
  | .engine (.build build) => some build
  | _ => none

/-- Whether the contracts' image was pulled is told by the report.  It was, if it comes from a
registry and was missing. -/
structure PullReported (settings : StackSettings) (moments : List (Moment Call Call.Answer σ))
    (pulled : Bool) : Prop where
  pulls : moments.filterMap pulled? = if pulled then [settings.contractsImage] else []
  needed : pulled = true ↔ settings.evmCommit ≠ "local" ∧
    Replied moments (.engine (.imageExists settings.contractsImage)) (.ok false)

/-- The contracts are exported, and the archive that comes of it is read to its end and all put into
their directory. -/
def ExtractsExport (site : Site σ) (config : Config) (settings : StackSettings)
    (moments : List (Moment Call Call.Answer σ)) : Prop :=
  ∃ archive state,
    Replied moments (.engine (.exportPath settings.contractsImage contractsSource)) (.ok archive) ∧
      ⟨state, .files (.unpack archive (Utf8.encode config.contractsDir)), .ok ()⟩ ∈ moments ∧
      Archive.Extracted (Archive.read archive) (Utf8.encode config.contractsDir) (site.tree state)
        (site.tree
          (site.answer (.files (.unpack archive (Utf8.encode config.contractsDir))) state).2)

/-- Whether the contracts were exported and fully extracted is told by the report. -/
structure FetchReported (site : Site σ) (config : Config) (settings : StackSettings)
    (moments : List (Moment Call Call.Answer σ)) (fetched : Bool) : Prop where
  exports : moments.filterMap exported? =
    if fetched then [(settings.contractsImage, contractsSource)] else []
  extracted : fetched = true ↔ ExtractsExport site config settings moments

/-- The build finds another text in the template than was read before it: the stamped one. -/
def BuildsStamped (site : Site σ) (config : Config) (settings : StackSettings)
    (moments : List (Moment Call Call.Answer σ)) : Prop :=
  ∃ text before during answer,
    ⟨before, .files (.readText (Utf8.encode config.revisionTemplate)), .ok text⟩ ∈ moments ∧
      ⟨during, .engine (.build (proxyBuild settings)), answer⟩ ∈ moments ∧
      (site.tree during).readText (Utf8.encode config.revisionTemplate) =
        .ok (stampText text settings.revision) ∧
      stampText text settings.revision ≠ text

/-- Whether the proxy's image was built, and whether a revision was stamped for that, is told by the
report.  It was built, if it is local and was missing or a rebuild was asked for. -/
structure BuildReported (site : Site σ) (config : Config) (settings : StackSettings)
    (rebuild : Bool) (moments : List (Moment Call Call.Answer σ)) (built injected : Bool) :
    Prop where
  builds : moments.filterMap built? = if built then [proxyBuild settings] else []
  needed : built = true ↔ settings.revision = "local" ∧
    (rebuild = true ∨ Replied moments (.engine (.imageExists settings.proxyImage)) (.ok false))
  stamped : injected = true ↔ BuildsStamped site config settings moments

theorem replied_ofStep_iff {step : PreparationStep} {call : Call} {answer : Call.Answer call}
    (hcall : stepOf settings call = some step) :
    Replied (ofStep settings step moments) call answer ↔ Replied moments call answer :=
  exists_congr fun _ => mem_ofStep_iff hcall

theorem PullReported.of_ofStep {pulled : Bool}
    (h : PullReported settings (ofStep settings .pull moments) pulled) :
    PullReported settings moments pulled where
  pulls := by
    rw [← h.pulls]
    refine (filterMap_ofStep ?_).symm
    rintro ⟨_, call, _⟩ image himage
    simp only [pulled?] at himage
    split at himage
    · rfl
    · cases himage
  needed := by rw [h.needed, replied_ofStep_iff stepOf_contractsImage]

theorem FetchReported.of_ofStep {fetched : Bool}
    (h : FetchReported site config settings (ofStep settings .fetch moments) fetched) :
    FetchReported site config settings moments fetched where
  exports := by
    rw [← h.exports]
    refine (filterMap_ofStep ?_).symm
    rintro ⟨_, call, _⟩ path hpath
    simp only [exported?] at hpath
    split at hpath
    · rfl
    · cases hpath
  extracted := by
    rw [h.extracted]
    exact exists₂_congr fun _ _ =>
      and_congr (replied_ofStep_iff rfl) (and_congr_left fun _ => mem_ofStep_iff rfl)

theorem BuildReported.of_ofStep {rebuild built injected : Bool}
    (h : BuildReported site config settings rebuild (ofStep settings .build moments) built
      injected) :
    BuildReported site config settings rebuild moments built injected where
  builds := by
    rw [← h.builds]
    refine (filterMap_ofStep ?_).symm
    rintro ⟨_, call, _⟩ build hbuild
    simp only [built?] at hbuild
    split at hbuild
    · rfl
    · cases hbuild
  needed := by rw [h.needed, replied_ofStep_iff stepOf_proxyImage]
  stamped := by
    have hread (text : String) (before : σ) :
        ⟨before, .files (.readText (Utf8.encode config.revisionTemplate)), .ok text⟩ ∈
          ofStep settings .build moments ↔ _ := mem_ofStep_iff rfl
    have hbuild (during : σ) (answer : Except Engine.Error Unit) :
        ⟨during, .engine (.build (proxyBuild settings)), answer⟩ ∈
          ofStep settings .build moments ↔ _ := mem_ofStep_iff rfl
    rw [h.stamped]
    simp only [BuildsStamped, hread, hbuild]

theorem pullReported_pullIfMissing {pulled : Bool}
    (h : site.result (pullIfMissing settings) s = (.ok pulled, after)) :
    PullReported settings (site.moments (pullIfMissing settings) s) pulled := by
  unfold pullIfMissing at h ⊢
  by_cases hlocal : settings.contractsImageIsLocal = true
  · rw [if_pos hlocal] at h ⊢
    cases h
    have hcommit : settings.evmCommit = "local" := beq_iff_eq.mp hlocal
    exact ⟨rfl, iff_of_false nofun fun hmissing => hmissing.1 hcommit⟩
  have hcommit : settings.evmCommit ≠ "local" := fun heq => hlocal (beq_iff_eq.mpr heq)
  rw [if_neg hlocal] at h ⊢
  obtain ⟨present, asked, hask, hrest, hmoments⟩ := Site.exists_of_result_bind _ h
  obtain ⟨hanswer, rfl⟩ := Site.answer_of_result_engine _ hask
  rw [hmoments, Site.moments_engine, hanswer]
  cases present with
  | true =>
      cases hrest
      refine ⟨rfl, iff_of_false nofun ?_⟩
      rintro ⟨-, state, hmem⟩
      cases hmem with
      | tail _ hmem => cases hmem
  | false =>
      obtain ⟨_, pulled', hpull, hdone, hmoments'⟩ := Site.exists_of_result_bind _ hrest
      cases hdone
      rw [if_neg Bool.false_ne_true, hmoments', Site.moments_engine]
      exact ⟨rfl, iff_of_true rfl ⟨hcommit, s, .head _⟩⟩

/-- An archive that is unpacked with success is fully extracted. -/
theorem Site.extracted_of_result {site : Site σ} {directory : String} {archive : Bytes}
    (h : site.result (Flow.demand (unpackError directory)
      (Flow.files (.unpack archive (Utf8.encode directory)))) s = (.ok (), after)) :
    ((Archive.unpack (Archive.read archive) (Utf8.encode directory)).run (site.tree s)).1 =
        .ok () ∧
      Archive.Extracted (Archive.read archive) (Utf8.encode directory) (site.tree s)
        (site.tree (site.answer (.files (.unpack archive (Utf8.encode directory))) s).2) := by
  rw [Site.result_demand, Site.run_unpack] at h
  rcases hanswer : ((Archive.unpack (Archive.read archive) (Utf8.encode directory)).run
    (site.tree s)).1 with fault | _
  · rw [hanswer] at h
    cases h
  · rw [site.files_tree]
    exact ⟨rfl, Archive.extracted_of_unpack hanswer⟩

theorem fetchReported_fetchIfNeeded {fetched : Bool}
    (h : site.result (fetchIfNeeded config.contractsDir settings.contractsImage) s =
      (.ok fetched, after)) :
    FetchReported site config settings
      (site.moments (fetchIfNeeded config.contractsDir settings.contractsImage) s) fetched := by
  unfold fetchIfNeeded at h ⊢
  obtain ⟨needed, listed, -, hrest, hmoments⟩ := Site.exists_of_result_bind _ h
  rw [hmoments, site.moments_needsContracts]
  cases needed with
  | false =>
      cases hrest
      refine ⟨rfl, iff_of_false nofun ?_⟩
      rintro ⟨archive, state, -, hmem, -⟩
      cases hmem with
      | tail _ hmem => cases hmem
  | true =>
      obtain ⟨archive, exported, hexport, hrest', hmoments'⟩ := Site.exists_of_result_bind _ hrest
      obtain ⟨hanswer, rfl⟩ := Site.answer_of_result_engine _ hexport
      obtain ⟨_, unpacked, hunpack, hdone, hmoments''⟩ := Site.exists_of_result_bind _ hrest'
      cases hdone
      obtain ⟨hunpacked, hextracted⟩ := Site.extracted_of_result hunpack
      rw [if_pos rfl, hmoments', hmoments'', Site.moments_engine, hanswer, Site.moments_demand,
        Site.moments_unpack, hunpacked]
      exact ⟨rfl, iff_of_true rfl
        ⟨archive, _, ⟨_, .tail _ (.head _)⟩, .tail _ (.tail _ (.head _)), hextracted⟩⟩

/-- A stamped build that succeeds tells whether it was one. -/
theorem Stamping.buildsStamped_iff {result : Except Error Bool × σ} {stamped : Bool}
    (h : Stamping site config.revisionTemplate settings s result moments)
    (hlocal : settings.revision = "local") (hok : result.1 = .ok stamped) :
    moments.filterMap built? = [proxyBuild settings] ∧
      (stamped = true ↔ BuildsStamped site config settings moments) := by
  have hbuilt {s' : σ} {stamped' : Bool} (hbuilt : site.built settings s' stamped' = .ok stamped) :
      stamped' = stamped := by
    rw [Site.built] at hbuilt
    generalize (site.answer (.engine (.build (proxyBuild settings))) s').1 = answer at hbuilt
    rcases answer with _ | _
    · cases hbuilt
    · exact Except.ok.inj hbuilt
  cases h with
  | unread | unwritten => cases hok
  | unstamped hnone =>
      obtain rfl := hbuilt hok
      refine ⟨rfl, iff_of_false Bool.false_ne_true ?_⟩
      rintro ⟨text, before, during, answer, hread, hbuild, hduring, hne⟩
      simp only [Site.reading, Site.building, List.mem_cons, Procedure.Moment.mk.injEq]
        at hread hbuild
      rcases hread with ⟨rfl, -, hread⟩ | ⟨-, hcall, -⟩ | hread
      · rcases hbuild with ⟨-, hcall, -⟩ | ⟨rfl, -, -⟩ | hbuild
        · cases hcall
        · rw [site.tree_afterRead] at hduring
          exact hne (Except.ok.inj (hduring.symm.trans (eq_of_heq hread).symm))
        · cases hbuild
      · cases hcall
      · cases hread
  | @stamped text s' hread hplaceholder hwrite hs' =>
      obtain rfl := hbuilt hok
      refine ⟨rfl, iff_of_true rfl ?_⟩
      obtain ⟨bytes, hbytes, -⟩ :=
        FileTree.exists_read_of_readText (site.tree_afterRead _ s ▸ hread)
      have hduring := FileTree.read_write hbytes hwrite
      rw [← site.tree_afterWrite, ← hs'] at hduring
      refine ⟨text, s, s', _, ?_, .tail _ (.tail _ (.head _)),
        FileTree.readText_of_read hduring (Utf8.decode?_encode _), ?_⟩
      · rw [Site.reading, hread]
        exact .head _
      · intro heq
        rw [hlocal] at heq
        apply (isStamped_stampText text).clear
        rw [StackSettings.localRevision, heq]
        exact hasPlaceholder_iff.mp hplaceholder

theorem buildsStamped_asking_cons {answer : Except Engine.Error Bool} {state : σ} :
    BuildsStamped site config settings
        (⟨state, .engine (.imageExists settings.proxyImage), answer⟩ :: moments) ↔
      BuildsStamped site config settings moments := by
  simp [BuildsStamped]

theorem exists_stamping_of_ok {pulled fetched : Bool} {report : PrerequisiteReport}
    (hlocal : settings.revision = "local")
    (h : site.result (buildUnlessPresent config settings pulled fetched false) s =
      (.ok report, after)) :
    ∃ injected, report = buildReport pulled fetched (some injected) ∧
      (site.moments (buildUnlessPresent config settings pulled fetched false) s).filterMap built? =
        [proxyBuild settings] ∧
      (injected = true ↔ BuildsStamped site config settings
        (site.moments (buildUnlessPresent config settings pulled fetched false) s)) := by
  rw [(buildUnlessPresent_false site config settings s pulled fetched).2]
  rw [buildUnlessPresent, if_neg Bool.false_ne_true] at h
  obtain ⟨injected, between, hbuild, hdone, -⟩ := Site.exists_of_result_bind _ h
  cases hdone
  have hstamping := stamping_buildStamped site config.revisionTemplate settings s
  exact ⟨injected, rfl, hstamping.buildsStamped_iff hlocal (congrArg Prod.fst hbuild)⟩

theorem buildReported_buildIfNeeded {rebuild pulled fetched : Bool} {report : PrerequisiteReport}
    (hlocal : settings.revision = "local")
    (h : site.result (buildIfNeeded config settings rebuild pulled fetched) s =
      (.ok report, after)) :
    report.pulled = pulled ∧ report.fetchedContracts = fetched ∧
      BuildReported site config settings rebuild
        (site.moments (buildIfNeeded config settings rebuild pulled fetched) s) report.built
        report.injectedRevision := by
  cases rebuild with
  | true =>
      rw [buildIfNeeded_true] at h ⊢
      obtain ⟨injected, rfl, hbuilds, hstamped⟩ := exists_stamping_of_ok hlocal h
      exact ⟨rfl, rfl, hbuilds, iff_of_true rfl ⟨hlocal, .inl rfl⟩, hstamped⟩
  | false =>
      rw [buildIfNeeded_false] at h ⊢
      obtain ⟨present, asked, hask, hrest, hmoments⟩ := Site.exists_of_result_bind _ h
      obtain ⟨hanswer, rfl⟩ := Site.answer_of_result_engine _ hask
      rw [hmoments, Site.moments_engine, hanswer]
      cases present with
      | true =>
          cases hrest
          refine ⟨rfl, rfl, rfl, iff_of_false nofun ?_, iff_of_false nofun ?_⟩
          · rintro ⟨-, hnot | ⟨state, hmem⟩⟩
            · cases hnot
            · cases hmem with
              | tail _ hmem => cases hmem
          · rintro ⟨_, _, _, _, hread, -⟩
            cases hread with
            | tail _ hread => cases hread
      | false =>
          obtain ⟨injected, rfl, hbuilds, hstamped⟩ := exists_stamping_of_ok hlocal hrest
          exact ⟨rfl, rfl, hbuilds, iff_of_true rfl ⟨hlocal, .inr ⟨s, .head _⟩⟩,
            hstamped.trans buildsStamped_asking_cons.symm⟩

/-! ## The report of a preparation -/

/-- The report tells of every step whether it was taken, and every step that was needed was. -/
structure Reported (site : Site σ) (config : Config) (settings : StackSettings) (rebuild : Bool)
    (moments : List (Moment Call Call.Answer σ)) (report : PrerequisiteReport) : Prop where
  pull : PullReported settings moments report.pulled
  fetch : FetchReported site config settings moments report.fetchedContracts
  build : BuildReported site config settings rebuild moments report.built report.injectedRevision

variable {pulls fetches builds : List (Moment Call Call.Answer σ)}

theorem Staged.reported {rebuild : Bool} {report : PrerequisiteReport}
    (h : Staged settings moments pulls fetches builds)
    (hpull : PullReported settings pulls report.pulled)
    (hfetch : FetchReported site config settings fetches report.fetchedContracts)
    (hbuild : BuildReported site config settings rebuild builds report.built
      report.injectedRevision) :
    Reported site config settings rebuild moments report := by
  obtain ⟨hpulls, hfetches, hbuilds⟩ := h.ofStep_eq
  rw [← hpulls] at hpull
  rw [← hfetches] at hfetch
  rw [← hbuilds] at hbuild
  exact ⟨hpull.of_ofStep, hfetch.of_ofStep, hbuild.of_ofStep⟩

/-- What a preparation goes through, and what comes of it. -/
structure PreparationCourse (site : Site σ) (config : Config) (settings : StackSettings)
    (rebuild : Bool) (moments : List (Moment Call Call.Answer σ))
    (result : Except Error PrerequisiteReport) : Prop where
  staged : ∃ pulls fetches builds, Staged settings moments pulls fetches builds
  reported : ∀ report, result = .ok report →
    Reported site config settings rebuild moments report
  stopped : ∀ e, result = .error e → ∃ step, StoppedAt config settings e moments step

theorem course_of_local (site : Site σ) (config : Config) (rebuild : Bool) (s : σ)
    (hlocal : settings.revision = "local") :
    PreparationCourse site config settings rebuild
      (site.moments (prepare config settings rebuild) s)
      (site.result (prepare config settings rebuild) s).1 := by
  have hpulls := stepOf_pulls site settings s
  have hheeds := heeds_pullIfMissing site config settings
  rw [prepare_of_isLocal (beq_iff_eq.mpr hlocal), Site.moments_bind, Site.result_bind]
  rcases hpull : site.result (pullIfMissing settings) s with ⟨e | pulled, s₁⟩
  · have hstaged : Staged settings _ _ [] [] :=
      ⟨rfl, hpulls, List.forall_mem_nil _, List.forall_mem_nil _⟩
    refine ⟨⟨_, _, _, hstaged⟩, nofun, ?_⟩
    rintro _ ⟨⟩
    exact ⟨_, hstaged.stoppedAt_pull (hheeds.blames s e (congrArg Prod.fst hpull))⟩
  have hpullClear := hheeds.unfailing s pulled (congrArg Prod.fst hpull)
  have hpulled := pullReported_pullIfMissing hpull
  have hfetches := stepOf_fetches site settings config.contractsDir settings.contractsImage s₁
  have hheedsFetch := heeds_fetchIfNeeded site config settings.contractsImage
  dsimp only
  rw [Site.moments_bind, Site.result_bind]
  rcases hfetch : site.result (fetchIfNeeded config.contractsDir settings.contractsImage) s₁ with
    ⟨e | fetched, s₂⟩
  · have hstaged : Staged settings _ _ _ [] := ⟨rfl, hpulls, hfetches, List.forall_mem_nil _⟩
    refine ⟨⟨_, _, _, hstaged⟩, nofun, ?_⟩
    rintro _ ⟨⟩
    have hfails := hheedsFetch.blames s₁ e (congrArg Prod.fst hfetch)
    exact ⟨_, hstaged.stoppedAt_fetch hpullClear hfails⟩
  have hfetchClear := hheedsFetch.unfailing s₁ fetched (congrArg Prod.fst hfetch)
  have hfetched := fetchReported_fetchIfNeeded hfetch
  have hstaged : Staged settings _ _ _ _ :=
    ⟨rfl, hpulls, hfetches, stepOf_builds site config settings rebuild pulled fetched s₂⟩
  refine ⟨⟨_, _, _, hstaged⟩, ?_, ?_⟩
  · intro report hreport
    obtain ⟨rfl, rfl, hbuild⟩ := buildReported_buildIfNeeded hlocal
      (Prod.ext hreport rfl : site.result _ s₂ = (.ok report, _))
    exact hstaged.reported hpulled hfetched hbuild
  · intro e hfails
    exact ⟨_, hstaged.stoppedAt_build hpullClear hfetchClear
      (blames_buildIfNeeded site config settings rebuild pulled fetched s₂ e hfails)⟩

theorem course_of_published (site : Site σ) (config : Config) (rebuild : Bool) (s : σ)
    (hpublished : settings.revision ≠ "local") :
    PreparationCourse site config settings rebuild
      (site.moments (prepare config settings rebuild) s)
      (site.result (prepare config settings rebuild) s).1 := by
  have hpulls := stepOf_pulls site settings s
  have hstaged : Staged settings _ _ [] [] :=
    ⟨rfl, hpulls, List.forall_mem_nil _, List.forall_mem_nil _⟩
  have hheeds := heeds_pullIfMissing site config settings
  rw [prepare_of_not_isLocal (beq_eq_false_iff_ne.mpr hpublished), Site.moments_bind,
    Site.result_bind]
  rcases hpull : site.result (pullIfMissing settings) s with ⟨e | pulled, s₁⟩
  · refine ⟨⟨_, _, _, hstaged⟩, nofun, ?_⟩
    rintro _ ⟨⟩
    exact ⟨_, hstaged.stoppedAt_pull (hheeds.blames s e (congrArg Prod.fst hpull))⟩
  · refine ⟨⟨_, _, _, hstaged⟩, ?_, nofun⟩
    rintro _ ⟨⟩
    refine hstaged.reported (pullReported_pullIfMissing hpull) ⟨rfl, iff_of_false nofun ?_⟩
      ⟨rfl, iff_of_false nofun fun hneeded => hpublished hneeded.1, iff_of_false nofun ?_⟩
    · rintro ⟨_, _, -, hmem, -⟩
      cases hmem
    · rintro ⟨_, _, _, _, hmem, -⟩
      cases hmem

/-- A preparation pulls, fetches and builds, in this order.  When it succeeds, the report tells of
every step whether it was taken, and each was taken exactly if it was needed.  When it fails, then
with the error of one step, and no later step was begun.  For a published revision nothing is called
but what belongs to the pull, even if a rebuild is asked for, and the tree is left alone. -/
theorem preparation_reports_steps (site : Site σ) (config : Config) (settings : StackSettings)
    (rebuild : Bool) (s : σ) :
    let moments := site.moments (prepare config settings rebuild) s
    let ending := site.result (prepare config settings rebuild) s
    moments = ofStep settings .pull moments ++
        (ofStep settings .fetch moments ++ ofStep settings .build moments) ∧
      (∀ report, ending.1 = .ok report →
        Reported site config settings rebuild moments report) ∧
      (∀ e, ending.1 = .error e → ∃ step, StoppedAt config settings e moments step) ∧
      (settings.revision ≠ "local" →
        (∀ m ∈ moments, PullCall settings m.call) ∧
          ((∀ request s, site.tree (site.answer (.engine request) s).2 = site.tree s) →
            site.tree ending.2 = site.tree s)) := by
  intro moments ending
  have hcourse : PreparationCourse site config settings rebuild moments ending.1 := by
    by_cases hlocal : settings.revision = "local"
    · exact course_of_local site config rebuild s hlocal
    · exact course_of_published site config rebuild s hlocal
  obtain ⟨pulls, fetches, builds, hstaged⟩ := hcourse.staged
  obtain ⟨hpulls, hfetches, hbuilds⟩ := hstaged.ofStep_eq
  refine ⟨?_, hcourse.reported, hcourse.stopped, ?_⟩
  · rw [hpulls, hfetches, hbuilds]
    exact hstaged.eq_append
  · intro hpublished
    have honly : (prepare config settings rebuild).run.Only (PullCall settings) :=
      only_prepare_of_not_isLocal (beq_eq_false_iff_ne.mpr hpublished)
    refine ⟨fun m hm => honly.mem_moments hm, fun hspares => ?_⟩
    refine Site.tree_run_of_only hspares (honly.mono ?_) s
    rintro call (rfl | rfl)
    · exact ⟨_, rfl⟩
    · exact ⟨_, rfl⟩

/-- Nothing of a stack is there: every step is taken, and reported. -/
theorem missing_stack_reported :
    let moments := (Site.beside (storing smallArchive)).moments
      (prepare workerConfig localSettings false) ([], templateTree)
    moments.filterMap pulled? = [localSettings.contractsImage] ∧
      ExtractsExport (Site.beside (storing smallArchive)) workerConfig localSettings moments ∧
      moments.filterMap built? = [proxyBuild localSettings] ∧
      BuildsStamped (Site.beside (storing smallArchive)) workerConfig localSettings moments := by
  intro moments
  have hok : ((Site.beside (storing smallArchive)).result
      (prepare workerConfig localSettings false) ([], templateTree)).1 =
        .ok ⟨true, true, true, true⟩ :=
    eq_ok_of_toOption (by decide +kernel)
  obtain ⟨-, hreported, -, -⟩ := preparation_reports_steps (Site.beside (storing smallArchive))
    workerConfig localSettings false ([], templateTree)
  obtain ⟨hpull, hfetch, hbuild⟩ := hreported _ hok
  exact ⟨hpull.pulls, hfetch.extracted.mp rfl, hbuild.builds, hbuild.stamped.mp rfl⟩

end StackControl.Lifecycle
