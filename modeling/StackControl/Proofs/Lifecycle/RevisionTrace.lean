import StackControl.Proofs.Lifecycle.Stamping
import StackControl.Proofs.Text.Replacement
import StackControl.Proofs.Text.Utf8

/-!
# A revision leaves no trace

A preparation may write the template only to stamp it for a build and to restore it afterwards.  If
those writes succeed and the engine leaves the template alone, every build finds the stamped
template, and the template ends as it was before the build step, whatever came of the build.
-/

namespace StackControl.Lifecycle

open Procedure (Moment)

variable {σ : Type} {site : Site σ} {template : String} {config : Config}
  {settings : StackSettings} {s : σ} {moments : List (Moment Call Call.Answer σ)}

/-! ## Stamped texts -/

/-- A text is stamped when the revision stands between the pieces into which the placeholder cuts
it, and no placeholder is left. -/
structure IsStamped (revision text stamped : String) : Prop where
  cuts : ∃ pieces, Text.Cuts revisionPlaceholder.toList text.toList pieces ∧
    stamped.toList = revision.toList.intercalate pieces
  clear : ¬revisionPlaceholder.toList <:+: stamped.toList

/-- A local revision has no letter of the placeholder. -/
theorem localRevision_apart :
    ∀ c ∈ revisionPlaceholder.toList, c ∉ StackSettings.localRevision.toList := by
  have hall : revisionPlaceholder.toList.all
      (fun c => !StackSettings.localRevision.toList.contains c) = true := by
    decide +kernel
  intro c hc
  simpa using List.all_eq_true.mp hall c hc

theorem isStamped_stampText (text : String) :
    IsStamped StackSettings.localRevision text
      (stampText text StackSettings.localRevision) where
  cuts := by
    rw [stampText, String.toList_ofList]
    exact Text.exists_cuts_replaceAll (by decide +kernel) _ text.toList
  clear := by
    rw [stampText, String.toList_ofList]
    exact Text.not_infix_replaceAll (by decide +kernel) (by decide +kernel) localRevision_apart
      text.toList

theorem hasPlaceholder_iff {text : String} :
    hasPlaceholder text = true ↔ revisionPlaceholder.toList <:+: text.toList :=
  Text.contains_iff_infix

/-- What a build finds: the stamped text, when the template was a text with a placeholder before
the build step, and otherwise what was there. -/
structure Finds (template revision : String) (before during : FileTree) : Prop where
  stamped {bytes : Bytes} {text : String} :
    before.read (Utf8.encode template) = .ok bytes → Utf8.decode? bytes = some text →
      revisionPlaceholder.toList <:+: text.toList →
        ∃ stamped, IsStamped revision text stamped ∧
          during.read (Utf8.encode template) = .ok (Utf8.encode stamped)
  plain :
    (∀ bytes text, before.read (Utf8.encode template) = .ok bytes →
      Utf8.decode? bytes = some text → ¬revisionPlaceholder.toList <:+: text.toList) →
        during.read (Utf8.encode template) = before.read (Utf8.encode template)

/-! ## Builds and writes of a run -/

/-- Whether a build is issued. -/
def isBuild (m : Moment Call Call.Answer σ) : Bool :=
  match m.call with
  | .engine (.build _) => true
  | _ => false

/-- Whether a file is written. -/
def isWrite (m : Moment Call Call.Answer σ) : Bool :=
  match m.call with
  | .files (.write _ _) => true
  | _ => false

/-- Whether a call succeeds, if it is the writing of a file that can be read. -/
def writeSucceeds (tree : FileTree) : Call → Bool
  | .files (.write path content) =>
    !(tree.read path).isOk || ((FileTree.Edit.write path content).run tree).1.isOk
  | _ => true

/-- No write of a file that can be read fails. -/
def WritesSucceed (site : Site σ) (moments : List (Moment Call Call.Answer σ)) : Prop :=
  ∀ m ∈ moments, writeSucceeds (site.tree m.state) m.call = true

/-- The engine leaves a template alone. -/
def EngineSpares (site : Site σ) (template : String) : Prop :=
  ∀ request s, (site.tree (site.answer (.engine request) s).2).read (Utf8.encode template) =
    (site.tree s).read (Utf8.encode template)

/-- A run stamps a template for its builds only, and leaves it as it was. -/
structure Traceless (site : Site σ) (template revision : String) (before after : FileTree)
    (moments : List (Moment Call Call.Answer σ)) : Prop where
  finds : ∀ m ∈ moments, isBuild m = true → Finds template revision before (site.tree m.state)
  restored : after.read (Utf8.encode template) = before.read (Utf8.encode template)
  spared : (∀ m ∈ moments, isBuild m = false) → ∀ m ∈ moments, isWrite m = false

/-! ## One stamped build -/

/-- Nothing is stamped into a template that is missing or has no placeholder. -/
theorem finds_of_unstamped {revision : String} {before during : FileTree}
    (hunstamped : before.readText (Utf8.encode template) = .error (.os .notFound) ∨
      ∃ text, before.readText (Utf8.encode template) = .ok text ∧ hasPlaceholder text = false)
    (hsame : during.read (Utf8.encode template) = before.read (Utf8.encode template)) :
    Finds template revision before during where
  stamped hbytes htext hinfix := by
    have hread := FileTree.readText_of_read hbytes htext
    rcases hunstamped with hnone | ⟨text', htext', hnot⟩
    · cases hread.symm.trans hnone
    · cases hread.symm.trans htext'
      rw [hasPlaceholder_iff.mpr hinfix] at hnot
      cases hnot
  plain _ := hsame

theorem ok_of_writeSucceeds {tree : FileTree} {path : Path} {content old : Bytes}
    (h : writeSucceeds tree (.files (.write path content)) = true)
    (hread : tree.read path = .ok old) :
    ((FileTree.Edit.write path content).run tree).1 = .ok () := by
  rw [writeSucceeds, hread] at h
  cases hwrite : ((FileTree.Edit.write path content).run tree).1 with
  | error =>
      rw [hwrite] at h
      cases h
  | ok => rfl

/-- The template is stamped before the build, and holds again what it held after it. -/
theorem traceless_of_stamped {text : String} {s' : σ} (hlocal : settings.isLocal = true)
    (hengine : EngineSpares site template)
    (hread : (site.tree s).readText (Utf8.encode template) = .ok text)
    (hplaceholder : hasPlaceholder text = true)
    (hwrite : ((FileTree.Edit.write (Utf8.encode template)
      (Utf8.encode (stampText text settings.revision))).run
        (site.tree (site.afterRead template s))).1 = .ok ())
    (hs' : s' = site.afterWrite template (site.afterRead template s)
      (stampText text settings.revision))
    (hwrites : WritesSucceed site [site.writing template (site.afterBuild settings s') text]) :
    Finds template settings.revision (site.tree s) (site.tree s') ∧
      (site.tree (site.afterWrite template (site.afterBuild settings s') text)).read
          (Utf8.encode template) = (site.tree s).read (Utf8.encode template) := by
  obtain ⟨bytes, hbytes, htext⟩ := FileTree.exists_read_of_readText hread
  have hrevision : settings.revision = StackSettings.localRevision := eq_of_beq hlocal
  rw [Site.tree_afterRead] at hwrite
  have hstamped : (site.tree s').read (Utf8.encode template) =
      .ok (Utf8.encode (stampText text settings.revision)) := by
    rw [hs', Site.tree_afterWrite, Site.tree_afterRead]
    exact FileTree.read_write hbytes hwrite
  have hbuilt : (site.tree (site.afterBuild settings s')).read (Utf8.encode template) =
      .ok (Utf8.encode (stampText text settings.revision)) :=
    (hengine ..).trans hstamped
  have hrestore := ok_of_writeSucceeds (hwrites _ List.mem_cons_self) hbuilt
  constructor
  · constructor
    · intro bytes' text' hbytes' htext' _
      cases hbytes.symm.trans hbytes'
      cases htext.symm.trans htext'
      rw [hrevision] at hstamped ⊢
      exact ⟨_, isStamped_stampText text, hstamped⟩
    · intro hnot
      exact absurd (hasPlaceholder_iff.mp hplaceholder) (hnot bytes text hbytes htext)
  · rw [Site.tree_afterWrite, FileTree.read_write hbuilt hrestore, hbytes,
      Utf8.encode_of_decode? htext]

theorem traceless_of_stamping {result : Except Error Bool × σ} (hlocal : settings.isLocal = true)
    (hengine : EngineSpares site template) (hwrites : WritesSucceed site moments)
    (h : Stamping site template settings s result moments) :
    Traceless site template settings.revision (site.tree s) (site.tree result.2) moments := by
  have hreading : isBuild (site.reading template s) ≠ true := Bool.false_ne_true
  have hwriting (s : σ) (text : String) : isBuild (site.writing template s text) ≠ true :=
    Bool.false_ne_true
  cases h with
  | unread =>
      exact ⟨List.forall_mem_singleton.mpr (absurd · hreading), by rw [Site.tree_afterRead],
        fun _ => List.forall_mem_singleton.mpr rfl⟩
  | unstamped hunstamped =>
      have hsame := site.tree_afterRead template s
      have hfinds : Finds template settings.revision (site.tree s)
          (site.tree (site.afterRead template s)) :=
        finds_of_unstamped hunstamped (by rw [hsame])
      constructor
      · exact List.forall_mem_cons.mpr
          ⟨(absurd · hreading), List.forall_mem_singleton.mpr fun _ => hfinds⟩
      · exact (hengine ..).trans (by rw [hsame])
      · simp [isBuild, Site.building]
  | @unwritten text _ hread _ hwrite =>
      obtain ⟨bytes, hbytes, -⟩ := FileTree.exists_read_of_readText hread
      rw [← site.tree_afterRead template s] at hbytes
      have hok := ok_of_writeSucceeds (hwrites (site.writing template (site.afterRead template s)
        (stampText text settings.revision)) (by simp)) hbytes
      cases hwrite.symm.trans hok
  | @stamped text s' hread hplaceholder hwrite hs' =>
      have hlast : WritesSucceed site
          [site.writing template (site.afterBuild settings s') text] :=
        fun m hm => hwrites m (by simp [List.mem_singleton.mp hm])
      obtain ⟨hfinds, hrestored⟩ :=
        traceless_of_stamped hlocal hengine hread hplaceholder hwrite hs' hlast
      refine ⟨?_, hrestored, by simp [isBuild, Site.building]⟩
      refine List.forall_mem_cons.mpr ⟨(absurd · hreading), ?_⟩
      refine List.forall_mem_cons.mpr ⟨(absurd · (hwriting _ _)), ?_⟩
      exact List.forall_mem_cons.mpr
        ⟨fun _ => hfinds, List.forall_mem_singleton.mpr (absurd · (hwriting _ _))⟩

/-! ## The build step -/

theorem Finds.of_read_eq {revision : String} {before before' during : FileTree}
    (h : Finds template revision before' during)
    (hread : before'.read (Utf8.encode template) = before.read (Utf8.encode template)) :
    Finds template revision before during := by
  obtain ⟨hstamped, hplain⟩ := h
  rw [hread] at hstamped hplain
  exact ⟨hstamped, hplain⟩

theorem Traceless.cons {revision : String} {before before' after : FileTree}
    {m : Moment Call Call.Answer σ} (h : Traceless site template revision before' after moments)
    (hread : before'.read (Utf8.encode template) = before.read (Utf8.encode template))
    (hbuild : isBuild m = false) (hwrite : isWrite m = false) :
    Traceless site template revision before after (m :: moments) where
  finds := List.forall_mem_cons.mpr
    ⟨fun hm => absurd (hbuild.symm.trans hm) (by decide),
      fun m hm hm' => (h.finds m hm hm').of_read_eq hread⟩
  restored := h.restored.trans hread
  spared hnot := List.forall_mem_cons.mpr
    ⟨hwrite, h.spared fun m hm => hnot m (List.mem_cons_of_mem _ hm)⟩

theorem traceless_of_buildStep {after : σ} (hlocal : settings.isLocal = true)
    (hengine : EngineSpares site config.revisionTemplate) (hwrites : WritesSucceed site moments)
    (h : BuildStep site config settings s after moments) :
    Traceless site config.revisionTemplate settings.revision (site.tree s) (site.tree after)
      moments := by
  cases h with
  | spared => exact ⟨by simp [isBuild, Site.asking], hengine .., by simp [isWrite, Site.asking]⟩
  | rebuilt hstamping => exact traceless_of_stamping hlocal hengine hwrites hstamping
  | built hstamping =>
      have hrest := traceless_of_stamping hlocal hengine
        (fun m hm => hwrites m (List.mem_cons_of_mem _ hm)) hstamping
      exact hrest.cons (hengine ..) rfl rfl

/-! ## The whole preparation -/

/-- What is done before the build step: whether the image was pulled, and whether the contracts
were fetched. -/
def groundwork (config : Config) (settings : StackSettings) : Flow (Bool × Bool) := do
  let pulled ← pullIfMissing settings
  let fetched ← fetchIfNeeded config.contractsDir settings.contractsImage
  return (pulled, fetched)

theorem prepare_eq_groundwork {rebuild : Bool} (h : settings.isLocal = true) :
    prepare config settings rebuild =
      groundwork config settings >>= fun done =>
        buildIfNeeded config settings rebuild done.1 done.2 := by
  rw [prepare_of_isLocal h, groundwork]
  simp only [bind_assoc, pure_bind]

/-- Neither builds nor writes are calls of what is done before the build step. -/
theorem not_build_or_write (directory image : String) {m : Moment Call Call.Answer σ}
    (h : PullCall settings m.call ∨ FetchCall directory image m.call) :
    isBuild m = false ∧ isWrite m = false := by
  rcases h with (heq | heq) | heq | heq | ⟨_, heq⟩
  all_goals simp [isBuild, isWrite, heq]

theorem only_groundwork (config : Config) (settings : StackSettings) :
    (groundwork config settings).run.Only fun call =>
      PullCall settings call ∨ FetchCall config.contractsDir settings.contractsImage call := by
  apply Procedure.Only.bind_run ((only_pullIfMissing settings).mono fun _ => .inl)
  intro _
  exact Procedure.Only.bind_run ((only_fetchIfNeeded ..).mono fun _ => .inr) fun _ => trivial

theorem only_prepare_of_not_isLocal {rebuild : Bool} (h : settings.isLocal = false) :
    (prepare config settings rebuild).run.Only (PullCall settings) := by
  rw [prepare_of_not_isLocal h]
  exact Procedure.Only.bind_run (only_pullIfMissing settings) fun _ => trivial

/-- The build step of a preparation begins in a state: the revision is local, and all that comes
before the build step has succeeded. -/
def BuildBegins (site : Site σ) (config : Config) (settings : StackSettings) (s s' : σ) : Prop :=
  settings.isLocal = true ∧
    ∃ done, site.result (groundwork config settings) s = (.ok done, s')

/-- A preparation stamps the template for its builds only.  Every build finds the stamped template,
the template ends as it was before the build step, and without a build nothing is written. -/
theorem prepare_leaves_no_trace (site : Site σ) (config : Config) (settings : StackSettings)
    (rebuild : Bool) (s : σ) (hengine : EngineSpares site config.revisionTemplate)
    (hwrites : WritesSucceed site (site.moments (prepare config settings rebuild) s)) :
    (∀ m ∈ site.moments (prepare config settings rebuild) s, isBuild m = true →
        ∃ s', BuildBegins site config settings s s' ∧
          Finds config.revisionTemplate settings.revision (site.tree s') (site.tree m.state)) ∧
      (∀ s', BuildBegins site config settings s s' →
        (site.tree (site.result (prepare config settings rebuild) s).2).read
            (Utf8.encode config.revisionTemplate) =
          (site.tree s').read (Utf8.encode config.revisionTemplate)) ∧
        ((∀ m ∈ site.moments (prepare config settings rebuild) s, isBuild m = false) →
          ∀ m ∈ site.moments (prepare config settings rebuild) s, isWrite m = false) := by
  cases hlocal : settings.isLocal with
  | false =>
      have hnone (m) (hm : m ∈ site.moments (prepare config settings rebuild) s) :=
        not_build_or_write config.contractsDir settings.contractsImage
          (.inl ((only_prepare_of_not_isLocal hlocal).mem_moments hm))
      constructor
      · intro m hm hbuild
        cases (hnone m hm).1.symm.trans hbuild
      constructor
      · rintro s' ⟨hlocal', -⟩
        cases hlocal.symm.trans hlocal'
      · intro _ m hm
        exact (hnone m hm).2
  | true =>
      have hfront (m) (hm : m ∈ site.moments (groundwork config settings) s) :=
        not_build_or_write _ _ ((only_groundwork config settings).mem_moments hm)
      rw [prepare_eq_groundwork hlocal, Site.moments_bind] at hwrites ⊢
      rw [Site.result_bind]
      rcases hdone : site.result (groundwork config settings) s with ⟨e | done, s'⟩
      · rw [List.append_nil]
        constructor
        · intro m hm hbuild
          cases (hfront m hm).1.symm.trans hbuild
        constructor
        · rintro s'' ⟨-, done, hdone'⟩
          cases hdone.symm.trans hdone'
        · intro _ m hm
          exact (hfront m hm).2
      · rw [hdone] at hwrites
        have htraceless := traceless_of_buildStep hlocal hengine
          (fun m hm => hwrites m (List.mem_append_right _ hm))
          (buildStep_buildIfNeeded site config settings s' rebuild done.1 done.2)
        constructor
        · intro m hm hbuild
          rcases List.mem_append.mp hm with hm | hm
          · cases (hfront m hm).1.symm.trans hbuild
          · exact ⟨s', ⟨hlocal, done, hdone⟩, htraceless.finds m hm hbuild⟩
        constructor
        · rintro s'' ⟨-, done', hdone'⟩
          cases hdone.symm.trans hdone'
          exact htraceless.restored
        · intro hnot m hm
          have hspared := htraceless.spared fun m hm => hnot m (List.mem_append_right _ hm)
          rcases List.mem_append.mp hm with hm | hm
          · exact (hfront m hm).2
          · exact hspared m hm

/-- A configuration with its template in the working directory. -/
def workerConfig : Config := { revisionTemplate := "worker.py" }

/-- A tree with contracts, and a template that has a placeholder. -/
def workerTree : FileTree where
  nodes := [([Utf8.encode "contracts"], .directory 0o755),
    ([Utf8.encode "contracts", Utf8.encode "a"], .directory 0o755),
    ([Utf8.encode "worker.py"], .file 0)]
  bodies := [⟨0o644, Utf8.encode revisionPlaceholder⟩]
  workingDirectory := []

theorem buildBegins_workerTree :
    BuildBegins (Site.beside (exporting [])) workerConfig localSettings ((), workerTree)
      ((), workerTree) :=
  ⟨by decide +kernel, (false, false),
    Prod.ext (eq_ok_of_toOption (by decide +kernel)) (by decide +kernel)⟩

/-- A build that fails finds the stamped template, which is restored after it. -/
theorem failed_build_leaves_no_trace :
    (∃ m ∈ (Site.beside (exporting [])).moments (prepare workerConfig localSettings true)
        ((), workerTree), isBuild m = true ∧ ∃ stamped,
          IsStamped localSettings.revision revisionPlaceholder stamped ∧
            m.state.2.read (Utf8.encode "worker.py") = .ok (Utf8.encode stamped)) ∧
      ((Site.beside (exporting [])).result (prepare workerConfig localSettings true)
          ((), workerTree)).2.2.read (Utf8.encode "worker.py") =
        .ok (Utf8.encode revisionPlaceholder) := by
  obtain ⟨hfinds, hrestored, -⟩ := prepare_leaves_no_trace (Site.beside (exporting []))
    workerConfig localSettings true ((), workerTree) (fun _ _ => rfl)
    (by unfold WritesSucceed; decide +kernel)
  simp only [Site.tree_beside] at hfinds hrestored
  have hread : workerTree.read (Utf8.encode "worker.py") = .ok (Utf8.encode revisionPlaceholder) :=
    eq_ok_of_toOption (by decide +kernel)
  obtain ⟨m, hm, hbuild⟩ : ∃ m ∈ (Site.beside (exporting [])).moments
      (prepare workerConfig localSettings true) ((), workerTree), isBuild m = true := by
    decide +kernel
  obtain ⟨s', ⟨-, done, hdone⟩, hfinds⟩ := hfinds m hm hbuild
  obtain ⟨-, done', hdone'⟩ := buildBegins_workerTree
  have hs' : s' = ((), workerTree) := (Prod.mk.inj (hdone.symm.trans hdone')).2
  rw [hs'] at hfinds
  have hafter := hrestored _ buildBegins_workerTree
  exact ⟨⟨m, hm, hbuild, hfinds.stamped hread (by decide +kernel) List.infix_rfl⟩,
    hafter.trans hread⟩

end StackControl.Lifecycle
