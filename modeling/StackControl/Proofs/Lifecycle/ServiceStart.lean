import StackControl.Lifecycle.Managed
import StackControl.Proofs.CommandLine
import StackControl.Proofs.FileTree.Removal
import StackControl.Proofs.Lifecycle.Site
import StackControl.Proofs.Procedure.Alike

/-!
# Starting the service

The service runs only once the plugin cache is gone and one unit is provisioned.  A start goes
through its steps in one order and stops at the first that fails; only the batch may fail without
any consequence.
-/

namespace StackControl.Lifecycle

open Procedure (Alike Ignores Moment)

variable {σ α : Type} {site : Site σ} {config : Config} {line : CommandLine} {s : σ}
  {moments : List (Moment Call Call.Answer σ)} {result : Except Error Outcome × σ}

/-- The request to take the plugin cache away. -/
def clearing (config : Config) : Machine.FileRequest :=
  .removeDirectories (Utf8.encode config.pluginCacheDir)

/-- The calls of a start all of whose steps succeed. -/
def startCalls (config : Config) (line : CommandLine) : List Call :=
  [.files (clearing config), .provision (.blocking 1)] ++
    (if config.provisionBatch = 0 then []
      else [.provision (.detached config.provisionBatch)]) ++
    [.runner (.supervise line)]

/-- A step of a start succeeded.  A cache that is missing is as good as one that was taken away,
and whether the batch started does not count. -/
inductive Succeeded : Moment Call Call.Answer σ → Prop
  | removed (s : σ) (path : Path) : Succeeded ⟨s, .files (.removeDirectories path), .ok ()⟩
  | missing (s : σ) (path : Path) :
      Succeeded ⟨s, .files (.removeDirectories path), .error (.os .notFound)⟩
  | provisioned (s : σ) (count : UInt32) : Succeeded ⟨s, .provision (.blocking count), .ok ()⟩
  | batch (s : σ) (count : UInt32) (answer : Call.Answer (.provision (.detached count))) :
      Succeeded ⟨s, .provision (.detached count), answer⟩
  | supervised (s : σ) (line : CommandLine) (code : Int) :
      Succeeded ⟨s, .runner (.supervise line), .ok code⟩

/-- Starting a batch that is not waited for. -/
def IsBatch (call : Call) : Prop :=
  ∃ count, call = .provision (.detached count)

/-! ## The ways a start can go -/

/-- The call that starts the batch, unless the batch is empty. -/
def batchMoments (site : Site σ) (config : Config) (s : σ) :
    List (Moment Call Call.Answer σ) :=
  if config.provisionBatch = 0 then []
  else [⟨s, .provision (.detached config.provisionBatch),
    (site.answer (.provision (.detached config.provisionBatch)) s).1⟩]

/-- The state once the batch was started, if there is one. -/
def afterBatch (site : Site σ) (config : Config) (s : σ) : σ :=
  if config.provisionBatch = 0 then s
  else (site.answer (.provision (.detached config.provisionBatch)) s).2

/-- The ways a start of the service can go, each with its moments and what it ends with. -/
inductive Start (site : Site σ) (config : Config) (line : CommandLine) (s : σ) :
    List (Moment Call Call.Answer σ) → Except Error Outcome × σ → Prop
  | uncleared {fault : Fault} {after : σ}
      (hclear : site.answer (.files (clearing config)) s = (.error fault, after))
      (hfault : fault ≠ .os .notFound) :
      Start site config line s [⟨s, .files (clearing config), .error fault⟩]
        (.error (.pluginCache config.pluginCacheDir fault), after)
  | unprovisioned {answer : Except Fault Unit} {error : Provision.Error} {cleared after : σ}
      (hclear : site.answer (.files (clearing config)) s = (answer, cleared))
      (hgone : answer = .ok () ∨ answer = .error (.os .notFound))
      (hprovision : site.answer (.provision (.blocking 1)) cleared = (.error error, after)) :
      Start site config line s
        [⟨s, .files (clearing config), answer⟩,
          ⟨cleared, .provision (.blocking 1), .error error⟩]
        (.error (.provision error), after)
  | launched {answer : Except Fault Unit} {code : Except Runner.Error Int}
      {cleared baseline after : σ}
      (hclear : site.answer (.files (clearing config)) s = (answer, cleared))
      (hgone : answer = .ok () ∨ answer = .error (.os .notFound))
      (hprovision : site.answer (.provision (.blocking 1)) cleared = (.ok (), baseline))
      (hsupervise : site.answer (.runner (.supervise line)) (afterBatch site config baseline) =
        (code, after)) :
      Start site config line s
        ([⟨s, .files (clearing config), answer⟩, ⟨cleared, .provision (.blocking 1), .ok ()⟩] ++
          batchMoments site config baseline ++
          [⟨afterBatch site config baseline, .runner (.supervise line), code⟩])
        ((code.map Outcome.exit).mapError .runner, after)

theorem run_clearPluginCache_bind (config : Config) (rest : Flow α) :
    (clearPluginCache config.pluginCacheDir >>= fun _ => rest).run =
      .ask (.files (clearing config)) fun
        | .ok () => rest.run
        | .error fault =>
          if fault = .os .notFound then rest.run
          else .done (.error (.pluginCache config.pluginCacheDir fault)) := by
  refine congrArg (Procedure.ask _) (funext ?_)
  rintro (fault | _)
  · cases fault with
    | os e =>
        change (((if e = .notFound then pure ()
          else throw (.pluginCache config.pluginCacheDir (.os e))) : Flow Unit) >>=
            fun _ => rest).run = _
        by_cases he : e = .notFound
        · subst he
          rfl
        · have hfault : Fault.os e ≠ .os .notFound := by simpa using he
          rw [if_neg he]
          exact (if_neg hfault).symm
    | nulByte | notText => rfl
  · rfl

/-- What follows provisioning does not see how the batch went. -/
theorem run_provisionAccounts_bind (batch : UInt32) (rest : Flow α) :
    (provisionAccounts batch >>= fun _ => rest).run =
      .ask (.provision (.blocking 1)) fun
        | .error e => .done (.error (.provision e))
        | .ok () =>
          if batch = 0 then rest.run
          else .ask (.provision (.detached batch)) fun _ => rest.run := by
  unfold provisionAccounts Provision.provision
  by_cases hbatch : batch = 0
  · simp only [hbatch, if_true]
    refine congrArg (Procedure.ask _) (funext ?_)
    rintro (_ | _)
    · rfl
    · rfl
  · simp only [hbatch, if_false]
    refine congrArg (Procedure.ask _) (funext ?_)
    rintro (_ | _)
    · rfl
    · refine congrArg (Procedure.ask _) (funext ?_)
      rintro (_ | _)
      · rfl
      · rfl

theorem run_supervise (line : CommandLine) :
    (do return Outcome.exit (← Flow.runner (.supervise line)) : Flow Outcome).run =
      .ask (.runner (.supervise line)) fun code =>
        .done ((code.map Outcome.exit).mapError .runner) := by
  refine congrArg (Procedure.ask _) (funext ?_)
  rintro (_ | _)
  · rfl
  · rfl

/-- What is left of a start once the plugin cache is gone. -/
def provisionAndRun (config : Config) (line : CommandLine) : Flow Outcome := do
  let _ ← provisionAccounts config.provisionBatch
  return .exit (← Flow.runner (.supervise line))

theorem run_startService (h : CommandLine.parse? config.serviceCommand = some line) :
    (startService config).run =
      (clearPluginCache config.pluginCacheDir >>= fun _ => provisionAndRun config line).run := by
  simp only [startService, Flow.commandLine, Runner.commandLine, h]
  rfl

theorem start_of_gone {answer : Except Fault Unit} {cleared : σ}
    (hclear : site.answer (.files (clearing config)) s = (answer, cleared))
    (hgone : answer = .ok () ∨ answer = .error (.os .notFound)) :
    Start site config line s
      (⟨s, .files (clearing config), answer⟩ ::
        site.moments (provisionAndRun config line) cleared)
      (site.result (provisionAndRun config line) cleared) := by
  unfold Site.moments Site.result provisionAndRun
  rw [run_provisionAccounts_bind, run_supervise]
  rcases hprovision : site.answer (.provision (.blocking 1)) cleared with ⟨error | ⟨⟩, baseline⟩
  · simp only [Procedure.moments, Procedure.run, hprovision]
    exact .unprovisioned hclear hgone hprovision
  · have hlaunched : Start site config line s _ _ := .launched hclear hgone hprovision rfl
    simp only [Procedure.moments, Procedure.run, hprovision]
    unfold batchMoments afterBatch at hlaunched
    by_cases hbatch : config.provisionBatch = 0
    · simp only [hbatch, if_true] at hlaunched ⊢
      exact hlaunched
    · simp only [hbatch, if_false] at hlaunched ⊢
      exact hlaunched

theorem start_startService (h : CommandLine.parse? config.serviceCommand = some line) :
    Start site config line s (site.moments (startService config) s)
      (site.result (startService config) s) := by
  unfold Site.moments Site.result
  rw [run_startService h, run_clearPluginCache_bind]
  rcases hclear : site.answer (.files (clearing config)) s with ⟨fault | ⟨⟩, cleared⟩
  · by_cases hfault : fault = .os .notFound
    · simp only [Procedure.moments, Procedure.run, hclear, hfault]
      rw [hfault] at hclear
      exact start_of_gone hclear (.inr rfl)
    · simp only [Procedure.moments, Procedure.run, hclear, hfault]
      exact .uncleared hclear hfault
  · simp only [Procedure.moments, Procedure.run, hclear]
    exact start_of_gone hclear (.inl rfl)

/-! ## What holds of every start -/

theorem map_call_batchMoments (site : Site σ) (config : Config) (s : σ) :
    (batchMoments site config s).map Moment.call =
      if config.provisionBatch = 0 then [] else [.provision (.detached config.provisionBatch)] := by
  unfold batchMoments
  split
  · rfl
  · rfl

theorem mem_batchMoments {m : Moment Call Call.Answer σ} (h : m ∈ batchMoments site config s) :
    m = ⟨s, .provision (.detached config.provisionBatch),
      (site.answer (.provision (.detached config.provisionBatch)) s).1⟩ := by
  unfold batchMoments at h
  split at h
  · cases h
  · exact List.mem_singleton.mp h

theorem nodup_startCalls (config : Config) (line : CommandLine) :
    (startCalls config line).Nodup := by
  unfold startCalls
  split
  · simp
  · simp

theorem succeeded_clearing {answer : Except Fault Unit}
    (hgone : answer = .ok () ∨ answer = .error (.os .notFound)) :
    Succeeded ⟨s, .files (clearing config), answer⟩ := by
  rcases hgone with rfl | rfl
  · exact .removed s _
  · exact .missing s _

theorem Start.calls_prefix (h : Start site config line s moments result) :
    moments.map Moment.call <+: startCalls config line := by
  cases h with
  | uncleared => exact ⟨_, rfl⟩
  | unprovisioned => exact ⟨_, rfl⟩
  | launched =>
      simp only [List.map_append, map_call_batchMoments]
      exact List.prefix_rfl

theorem Start.succeeded_of_mem_dropLast (h : Start site config line s moments result)
    {m : Moment Call Call.Answer σ} (hm : m ∈ moments.dropLast) :
    Succeeded m := by
  cases h with
  | uncleared => cases hm
  | unprovisioned _ hgone =>
      cases List.mem_singleton.mp hm
      exact succeeded_clearing hgone
  | launched _ hgone =>
      rw [List.dropLast_concat] at hm
      rcases List.mem_append.mp hm with hm | hm
      · rcases List.mem_pair.mp hm with rfl | rfl
        · exact succeeded_clearing hgone
        · exact .provisioned _ _
      · cases mem_batchMoments hm
        exact .batch _ _ _

theorem Start.calls_eq (h : Start site config line s moments result)
    (hsucceeded : ∀ m ∈ moments, Succeeded m) :
    moments.map Moment.call = startCalls config line := by
  cases h with
  | uncleared _ hfault =>
      cases hsucceeded _ (List.mem_singleton_self _)
      exact absurd rfl hfault
  | unprovisioned =>
      cases hsucceeded _ (List.mem_cons_of_mem _ (List.mem_singleton_self _))
  | launched =>
      simp only [List.map_append, map_call_batchMoments]
      rfl

/-- Nothing stands at the plugin cache once it was cleared. -/
theorem not_stands_of_clearing {answer : Except Fault Unit} {cleared : σ}
    (hclear : site.answer (.files (clearing config)) s = (answer, cleared))
    (hgone : answer = .ok () ∨ answer = .error (.os .notFound)) :
    ¬(site.tree cleared).Stands (Utf8.encode config.pluginCacheDir) := by
  have hanswer := site.files_answer (clearing config) s
  have htree := site.files_tree (clearing config) s
  rw [hclear] at hanswer htree
  rw [htree]
  apply FileTree.not_stands_of_removeDirectories
  exact hgone.imp hanswer.symm.trans hanswer.symm.trans

theorem Start.not_stands_of_blocking (h : Start site config line s moments result)
    {m : Moment Call Call.Answer σ} (hm : m ∈ moments) {count : UInt32}
    (hcall : m.call = .provision (.blocking count)) :
    ¬(site.tree m.state).Stands (Utf8.encode config.pluginCacheDir) := by
  cases h with
  | uncleared =>
      cases List.mem_singleton.mp hm
      cases hcall
  | unprovisioned hclear hgone =>
      rcases List.mem_pair.mp hm with rfl | rfl
      · cases hcall
      · exact not_stands_of_clearing hclear hgone
  | launched hclear hgone =>
      simp only [List.mem_append, List.mem_pair, List.mem_singleton, or_assoc] at hm
      rcases hm with rfl | rfl | hm | rfl
      · cases hcall
      · exact not_stands_of_clearing hclear hgone
      · rw [mem_batchMoments hm] at hcall
        cases hcall
      · cases hcall

/-- A call does not put anything at a path where nothing stands. -/
def KeepsAbsent (site : Site σ) (path : Path) (m : Moment Call Call.Answer σ) : Prop :=
  ¬(site.tree m.state).Stands path → ¬(site.tree (site.answer m.call m.state).2).Stands path

theorem not_stands_afterBatch {path : Path} (habsent : ¬(site.tree s).Stands path)
    (hkeeps : ∀ m ∈ batchMoments site config s, KeepsAbsent site path m) :
    ¬(site.tree (afterBatch site config s)).Stands path := by
  unfold batchMoments at hkeeps
  unfold afterBatch
  by_cases hbatch : config.provisionBatch = 0
  · rw [if_pos hbatch]
    exact habsent
  · rw [if_neg hbatch] at hkeeps ⊢
    exact hkeeps _ (List.mem_singleton_self _) habsent

theorem Start.not_stands_of_supervise (h : Start site config line s moments result)
    (hkeeps : ∀ m ∈ moments, ∀ request, m.call = .provision request →
      KeepsAbsent site (Utf8.encode config.pluginCacheDir) m)
    {m : Moment Call Call.Answer σ} (hm : m ∈ moments) (hcall : m.call = .runner (.supervise line)) :
    ¬(site.tree m.state).Stands (Utf8.encode config.pluginCacheDir) := by
  cases h with
  | uncleared =>
      cases List.mem_singleton.mp hm
      cases hcall
  | unprovisioned =>
      rcases List.mem_pair.mp hm with rfl | rfl
      · cases hcall
      · cases hcall
  | @launched answer code cleared baseline after hclear hgone hprovision =>
      have hbaseline : ¬(site.tree baseline).Stands (Utf8.encode config.pluginCacheDir) := by
        have hblocking := hkeeps ⟨cleared, .provision (.blocking 1), .ok ()⟩ (by simp) _ rfl
          (not_stands_of_clearing hclear hgone)
        rw [hprovision] at hblocking
        exact hblocking
      simp only [List.mem_append, List.mem_pair, List.mem_singleton, or_assoc] at hm
      rcases hm with rfl | rfl | hm | rfl
      · cases hcall
      · cases hcall
      · rw [mem_batchMoments hm] at hcall
        cases hcall
      · apply not_stands_afterBatch hbaseline
        intro m hm
        refine hkeeps m (by simp [hm]) (.detached config.provisionBatch) ?_
        rw [mem_batchMoments hm]

theorem Start.exit (h : Start site config line s moments result) {before : σ} {code : Int}
    (hm : ⟨before, .runner (.supervise line), .ok code⟩ ∈ moments) :
    result.1 = .ok (.exit code) := by
  cases h with
  | uncleared => cases List.mem_singleton.mp hm
  | unprovisioned => rcases List.mem_pair.mp hm with h | h <;> cases h
  | launched =>
      simp only [List.mem_append, List.mem_pair, List.mem_singleton, or_assoc] at hm
      rcases hm with hm | hm | hm | hm
      · cases hm
      · cases hm
      · cases mem_batchMoments hm
      · cases hm
        rfl

/-- A start goes on in the same way however the batch went. -/
theorem ignores_startService (config : Config) : (startService config).run.Ignores IsBatch := by
  cases hparse : CommandLine.parse? config.serviceCommand with
  | none =>
      simp only [startService, Flow.commandLine, Runner.commandLine, hparse]
      trivial
  | some line =>
      have hsupervise : (do return Outcome.exit (← Flow.runner (.supervise line)) :
          Flow Outcome).run.Ignores IsBatch := by
        rw [run_supervise]
        refine ⟨?_, fun _ => trivial⟩
        rintro ⟨count, hcall⟩
        cases hcall
      have hprovision : (provisionAndRun config line).run.Ignores IsBatch := by
        rw [provisionAndRun, run_provisionAccounts_bind]
        constructor
        · rintro ⟨count, hcall⟩
          cases hcall
        · rintro (_ | _)
          · trivial
          · dsimp only
            split
            · exact hsupervise
            · exact ⟨fun _ _ _ => rfl, fun _ => hsupervise⟩
      rw [run_startService hparse, run_clearPluginCache_bind]
      constructor
      · rintro ⟨count, hcall⟩
        cases hcall
      · rintro (_ | _)
        · dsimp only
          split
          · exact hprovision
          · trivial
        · exact hprovision

/-- A blank service command fails before anything is called.  Otherwise the calls of a start come
in one order, each at most once and only once the ones before it succeeded, the batch aside.
Nothing stands at the plugin cache when provisioning begins, nor when the service starts unless
provisioning put it there.  The code of the service is the outcome, and how the batch went makes no
difference to the calls or the result. -/
theorem service_starts_after_baseline (site : Site σ) (config : Config) (s : σ) :
    ((∀ c ∈ config.serviceCommand.toList, Text.isBlank c = true) →
      site.moments (startService config) s = [] ∧
        site.result (startService config) s =
          (.error (.runner (.emptyCommand config.serviceCommand)), s)) ∧
      ∀ line, CommandLine.parse? config.serviceCommand = some line →
        (site.moments (startService config) s).map Moment.call <+: startCalls config line ∧
          (startCalls config line).Nodup ∧
          (∀ m ∈ (site.moments (startService config) s).dropLast, Succeeded m) ∧
          ((∀ m ∈ site.moments (startService config) s, Succeeded m) →
            (site.moments (startService config) s).map Moment.call = startCalls config line) ∧
          (∀ m ∈ site.moments (startService config) s,
            ∀ count, m.call = .provision (.blocking count) →
              ¬(site.tree m.state).Stands (Utf8.encode config.pluginCacheDir)) ∧
          ((∀ m ∈ site.moments (startService config) s, ∀ request, m.call = .provision request →
              KeepsAbsent site (Utf8.encode config.pluginCacheDir) m) →
            ∀ m ∈ site.moments (startService config) s, m.call = .runner (.supervise line) →
              ¬(site.tree m.state).Stands (Utf8.encode config.pluginCacheDir)) ∧
          (∀ before code,
            ⟨before, .runner (.supervise line), .ok code⟩ ∈
                site.moments (startService config) s →
              (site.result (startService config) s).1 = .ok (.exit code)) ∧
          ∀ (τ : Type) (site' : Site τ) (related : σ → τ → Prop) (t : τ),
            Alike IsBatch related site.answer site'.answer → related s t →
              (site.result (startService config) s).1 = (site'.result (startService config) t).1 ∧
                related (site.result (startService config) s).2
                  (site'.result (startService config) t).2 ∧
                (site.moments (startService config) s).map Moment.call =
                  (site'.moments (startService config) t).map Moment.call := by
  constructor
  · intro hblank
    have hparse := CommandLine.parse?_eq_none_iff.mpr hblank
    unfold Site.moments Site.result
    simp only [startService, Flow.commandLine, Runner.commandLine, hparse]
    exact ⟨rfl, rfl⟩
  · intro line hline
    have hstart : Start site config line s _ _ := start_startService hline
    refine ⟨hstart.calls_prefix, nodup_startCalls config line, ?_, hstart.calls_eq, ?_, ?_, ?_, ?_⟩
    · intro m hm
      exact hstart.succeeded_of_mem_dropLast hm
    · intro m hm count hcall
      exact hstart.not_stands_of_blocking hm hcall
    · intro hkeeps m hm hcall
      exact hstart.not_stands_of_supervise hkeeps hm hcall
    · intro before code hm
      exact hstart.exit hm
    · intro τ site' related t halike hrelated
      exact halike.run_eq (ignores_startService config) hrelated

/-- Others with whom the service ends with three, and the batch starts or not. -/
def serving (batch : Except Provision.Error Unit) : Procedure.Answerer Call Call.Answer Unit
  | .provision (.detached _), s => (batch, s)
  | .runner _, s => (.ok 3, s)
  | call, s => Site.engineAlone (fun _ => .error (.missingContainerId "")) call s

theorem alike_serving (batch batch' : Except Provision.Error Unit) :
    Alike IsBatch Eq (Site.beside (serving batch)).answer (Site.beside (serving batch')).answer := by
  constructor
  · rintro s _ rfl call hcall
    match call with
    | .provision (.detached count) => exact absurd ⟨count, rfl⟩ hcall
    | .provision (.blocking _) | .engine _ | .runner _ | .processes _ | .files _ | .clock .now
    | .clock (.sleep _) | .print _ _ => rfl
  · rintro s _ rfl call
    match call with
    | .provision (.detached _) | .provision (.blocking _) | .engine _ | .runner _ | .processes _
    | .files _ | .clock .now | .clock (.sleep _) | .print _ _ => rfl

/-- A tree with a plugin cache. -/
def cachedTree : FileTree :=
  (FileTree.empty []).put [Utf8.encode "cache"] (.directory 0o755)

/-- A configuration that has the plugin cache there. -/
def cachedConfig : Config :=
  { pluginCacheDir := "cache" }

/-- A blank service is not started.  The published one is, in place of its plugin cache and whether
its batch starts or not. -/
theorem published_service_starts :
    (Site.beside (serving (.ok ()))).moments (startService { serviceCommand := " " })
        ((), cachedTree) = [] ∧
      ((Site.beside (serving (.ok ()))).result (startService cachedConfig) ((), cachedTree)).1 =
        .ok (.exit 3) ∧
      (∀ m ∈ (Site.beside (serving (.ok ()))).moments (startService cachedConfig)
          ((), cachedTree),
        m.call = .runner (.supervise ⟨"python3", ["-m", "proxy"]⟩) →
          ¬m.state.2.Stands (Utf8.encode "cache")) ∧
      ((Site.beside (serving (.error (.failed "" 1)))).result (startService cachedConfig)
          ((), cachedTree)).1 = .ok (.exit 3) := by
  have hblank : " ".toList.all Text.isBlank = true := by
    decide +kernel
  have hline : CommandLine.parse? cachedConfig.serviceCommand =
      some ⟨"python3", ["-m", "proxy"]⟩ := by
    decide +kernel
  obtain ⟨-, -, -, -, -, habsent, hexit, halike⟩ := (service_starts_after_baseline
    (Site.beside (serving (.ok ()))) cachedConfig ((), cachedTree)).2 _ hline
  have hstarted := hexit _ 3 (.tail _ (.tail _ (.tail _ (.head _))))
  have hkeeps : ∀ m ∈ (Site.beside (serving (.ok ()))).moments (startService cachedConfig)
      ((), cachedTree), ∀ request, m.call = .provision request →
        KeepsAbsent (Site.beside (serving (.ok ()))) (Utf8.encode "cache") m := by
    intro m _ request hcall hnothing
    rw [hcall]
    exact hnothing
  obtain ⟨hsame, -⟩ := halike (Unit × FileTree) (Site.beside (serving (.error (.failed "" 1)))) Eq
    ((), cachedTree) (alike_serving _ _) rfl
  refine ⟨?_, hstarted, habsent hkeeps, hsame.symm.trans hstarted⟩
  exact ((service_starts_after_baseline (Site.beside (serving (.ok ()))) { serviceCommand := " " }
    ((), cachedTree)).1 (List.all_eq_true.mp hblank)).1

end StackControl.Lifecycle
