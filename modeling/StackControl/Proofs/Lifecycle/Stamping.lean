import StackControl.Proofs.FileTree.Writing
import StackControl.Proofs.Lifecycle.Preparation

/-!
# Stamping a revision for a build

A stamped build reads the template, writes the stamped text, builds, and writes back what it had
read.  Each step can be the last: the template may be missing, unreadable or without a placeholder,
and the writing may fail; but once the stamped text is written, it is also written back.
-/

namespace StackControl.Lifecycle

open Procedure (Moment)

variable {σ : Type} {site : Site σ} {template : String} {settings : StackSettings} {s : σ}

namespace Site

variable (site : Site σ) (template : String) (settings : StackSettings) (s : σ)

/-- The state after a template was read. -/
def afterRead : σ := (site.answer (.files (.readText (Utf8.encode template))) s).2

/-- The state after a text was written to a template. -/
def afterWrite (text : String) : σ :=
  (site.answer (.files (.write (Utf8.encode template) (Utf8.encode text))) s).2

theorem tree_afterRead : site.tree (site.afterRead template s) = site.tree s :=
  site.files_tree ..

theorem tree_afterWrite (text : String) :
    site.tree (site.afterWrite template s text) =
      ((FileTree.Edit.write (Utf8.encode template) (Utf8.encode text)).run (site.tree s)).2 :=
  site.files_tree ..

/-- The state after the build. -/
def afterBuild : σ := (site.answer (.engine (.build (proxyBuild settings))) s).2

/-- The moment in which a template is read. -/
def reading : Moment Call Call.Answer σ :=
  ⟨s, .files (.readText (Utf8.encode template)),
    (site.tree s).readText (Utf8.encode template)⟩

/-- The moment in which a text is written to a template. -/
def writing (text : String) : Moment Call Call.Answer σ :=
  ⟨s, .files (.write (Utf8.encode template) (Utf8.encode text)),
    ((FileTree.Edit.write (Utf8.encode template) (Utf8.encode text)).run (site.tree s)).1⟩

/-- The moment of the build. -/
def building : Moment Call Call.Answer σ :=
  ⟨s, .engine (.build (proxyBuild settings)),
    (site.answer (.engine (.build (proxyBuild settings))) s).1⟩

/-- What comes of a build, given whether a revision was stamped. -/
def built (stamped : Bool) : Except Error Bool :=
  ((site.answer (.engine (.build (proxyBuild settings))) s).1.mapError .engine).map
    fun _ => stamped

end Site

/-- The ways a stamped build can go. -/
inductive Stamping (site : Site σ) (template : String) (settings : StackSettings) (s : σ) :
    Except Error Bool × σ → List (Moment Call Call.Answer σ) → Prop
  | unread {fault} :
      (site.tree s).readText (Utf8.encode template) = .error fault → fault ≠ .os .notFound →
        Stamping site template settings s
          (.error (.revisionTemplate template fault), site.afterRead template s)
          [site.reading template s]
  /-- There is no template, or no placeholder in it. -/
  | unstamped :
      (site.tree s).readText (Utf8.encode template) = .error (.os .notFound) ∨
          (∃ text, (site.tree s).readText (Utf8.encode template) = .ok text ∧
            hasPlaceholder text = false) →
        Stamping site template settings s
          (site.built settings (site.afterRead template s) false,
            site.afterBuild settings (site.afterRead template s))
          [site.reading template s, site.building settings (site.afterRead template s)]
  | unwritten {text fault} :
      (site.tree s).readText (Utf8.encode template) = .ok text → hasPlaceholder text = true →
        ((FileTree.Edit.write (Utf8.encode template)
            (Utf8.encode (stampText text settings.revision))).run
              (site.tree (site.afterRead template s))).1 = .error fault →
          Stamping site template settings s
            (.error (.revisionTemplate template fault),
              site.afterWrite template (site.afterRead template s)
                (stampText text settings.revision))
            [site.reading template s,
              site.writing template (site.afterRead template s)
                (stampText text settings.revision)]
  | stamped {text s'} :
      (site.tree s).readText (Utf8.encode template) = .ok text → hasPlaceholder text = true →
        ((FileTree.Edit.write (Utf8.encode template)
            (Utf8.encode (stampText text settings.revision))).run
              (site.tree (site.afterRead template s))).1 = .ok () →
          s' = site.afterWrite template (site.afterRead template s)
              (stampText text settings.revision) →
            Stamping site template settings s
              (site.built settings s' true,
                site.afterWrite template (site.afterBuild settings s') text)
              [site.reading template s,
                site.writing template (site.afterRead template s)
                  (stampText text settings.revision),
                site.building settings s',
                site.writing template (site.afterBuild settings s') text]

/-- The build and the restoring, given what was stamped. -/
def buildAndRestore (settings : StackSettings) (stamp : Option RevisionStamp) : Flow Bool := do
  let result ← outcomeOf (Flow.engine (.build (proxyBuild settings)))
  RevisionStamp.restore stamp
  ExceptT.mk (pure result)
  return stamp.isSome

theorem buildStamped_eq :
    buildStamped template settings =
      RevisionStamp.apply template settings.revision >>= buildAndRestore settings := rfl

theorem moments_build :
    site.moments (outcomeOf (Flow.engine (.build (proxyBuild settings)))) s =
      [site.building settings s] :=
  (Site.moments_outcomeOf ..).trans (Site.moments_engine ..)

theorem result_build :
    site.result (outcomeOf (Flow.engine (.build (proxyBuild settings)))) s =
      (.ok ((site.answer (.engine (.build (proxyBuild settings))) s).1.mapError .engine),
        site.afterBuild settings s) := by
  rw [Site.result_outcomeOf, Site.result_engine]
  rfl

theorem result_buildAndRestore_none (site : Site σ) (settings : StackSettings) (s : σ) :
    site.result (buildAndRestore settings none) s =
        (site.built settings s false, site.afterBuild settings s) ∧
      site.moments (buildAndRestore settings none) s = [site.building settings s] := by
  simp only [buildAndRestore, Site.result_bind, Site.moments_bind]
  rw [result_build, moments_build]
  simp only [Site.built]
  cases (site.answer (.engine (.build (proxyBuild settings))) s).1 <;> exact ⟨rfl, rfl⟩

theorem result_buildAndRestore_some (site : Site σ) (template : String)
    (settings : StackSettings) (s : σ) (text : String) :
    site.result (buildAndRestore settings (some ⟨template, text⟩)) s =
        (site.built settings s true,
          site.afterWrite template (site.afterBuild settings s) text) ∧
      site.moments (buildAndRestore settings (some ⟨template, text⟩)) s =
        [site.building settings s,
          site.writing template (site.afterBuild settings s) text] := by
  have hrestore (s' : σ) :
      Procedure.run site.answer (RevisionStamp.restore (some ⟨template, text⟩)) s' =
          ((), site.afterWrite template s' text) ∧
        Procedure.moments site.answer (RevisionStamp.restore (some ⟨template, text⟩)) s' =
          [site.writing template s' text] := by
    rw [RevisionStamp.restore, Procedure.run_bind, Procedure.moments_bind, Site.run_write,
      Site.moments_write]
    exact ⟨rfl, rfl⟩
  simp only [buildAndRestore, Site.result_bind, Site.moments_bind]
  rw [result_build, moments_build]
  simp only [Site.built, Site.result_liftM, Site.moments_liftM, (hrestore _).1, (hrestore _).2]
  cases (site.answer (.engine (.build (proxyBuild settings))) s).1 <;> exact ⟨rfl, rfl⟩

theorem moments_read :
    Procedure.moments site.answer
        (Flow.files (.readText (Utf8.encode template)) : Activity (Except Fault String)) s =
      [site.reading template s] :=
  Site.moments_readText ..

theorem moments_stamp {text : String} :
    site.moments
        (Flow.demand (.revisionTemplate template)
          (Flow.files (.write (Utf8.encode template) (Utf8.encode text)))) s =
      [site.writing template s text] :=
  (Site.moments_demand ..).trans (Site.moments_write ..)

theorem result_stamp {text : String} :
    site.result
        (Flow.demand (.revisionTemplate template)
          (Flow.files (.write (Utf8.encode template) (Utf8.encode text)))) s =
      (((FileTree.Edit.write (Utf8.encode template) (Utf8.encode text)).run
          (site.tree s)).1.mapError (.revisionTemplate template),
        site.afterWrite template s text) := by
  rw [Site.result_demand, Site.run_write]
  rfl

theorem stamping_buildStamped (site : Site σ) (template : String) (settings : StackSettings)
    (s : σ) :
    Stamping site template settings s (site.result (buildStamped template settings) s)
      (site.moments (buildStamped template settings) s) := by
  rw [buildStamped_eq, RevisionStamp.apply]
  simp only [Site.result_bind, Site.moments_bind, Site.result_liftM, Site.moments_liftM]
  rw [Site.run_readText, moments_read]
  dsimp only
  have hnone := result_buildAndRestore_none site settings (site.afterRead template s)
  cases hread : (site.tree s).readText (Utf8.encode template) with
  | error fault =>
      by_cases hfault : fault = .os .notFound
      · subst hfault
        have hunstamped : Stamping site template settings s _ _ := .unstamped (.inl hread)
        rw [← hnone.1, ← hnone.2] at hunstamped
        exact hunstamped
      · have hunread : Stamping site template settings s _ _ := .unread hread hfault
        cases fault with
        | os e =>
            have he : e ≠ .notFound := fun heq => hfault (heq ▸ rfl)
            dsimp only
            rw [if_neg he]
            exact hunread
        | nulByte => exact hunread
        | notText => exact hunread
  | ok text =>
      dsimp only
      cases hplaceholder : hasPlaceholder text with
      | false =>
          have hunstamped : Stamping site template settings s _ _ :=
            .unstamped (.inr ⟨text, hread, hplaceholder⟩)
          rw [← hnone.1, ← hnone.2] at hunstamped
          exact hunstamped
      | true =>
          simp only [if_true, Site.result_bind, Site.moments_bind]
          rw [result_stamp, moments_stamp]
          cases hwrite : ((FileTree.Edit.write (Utf8.encode template)
              (Utf8.encode (stampText text settings.revision))).run
                (site.tree (site.answer (.files (.readText (Utf8.encode template))) s).2)).1 with
          | error fault => exact .unwritten hread hplaceholder hwrite
          | ok =>
              have hstamped := Stamping.stamped hread hplaceholder hwrite rfl
              have hsome := result_buildAndRestore_some site template settings
                (site.afterWrite template (site.afterRead template s)
                  (stampText text settings.revision)) text
              rw [← hsome.1, ← List.singleton_append, ← List.singleton_append (l := [_, _]),
                ← hsome.2] at hstamped
              exact hstamped

/-! ## The build when it is needed -/

variable {config : Config}

/-- The moment in which the engine is asked for the image that a build would make. -/
def Site.asking (site : Site σ) (settings : StackSettings) (s : σ) : Moment Call Call.Answer σ :=
  ⟨s, .engine (.imageExists settings.proxyImage),
    (site.answer (.engine (.imageExists settings.proxyImage)) s).1⟩

/-- The state after the engine was asked for that image. -/
def Site.afterAsking (site : Site σ) (settings : StackSettings) (s : σ) : σ :=
  (site.answer (.engine (.imageExists settings.proxyImage)) s).2

/-- The ways a build step can go, by the state it leaves and its moments. -/
inductive BuildStep (site : Site σ) (config : Config) (settings : StackSettings) (s : σ) :
    σ → List (Moment Call Call.Answer σ) → Prop
  /-- The image is there, or the engine does not say. -/
  | spared : BuildStep site config settings s (site.afterAsking settings s) [site.asking settings s]
  /-- A rebuild is asked for. -/
  | rebuilt {result moments} :
      Stamping site config.revisionTemplate settings s result moments →
        BuildStep site config settings s result.2 moments
  /-- The image is missing. -/
  | built {result moments} :
      Stamping site config.revisionTemplate settings (site.afterAsking settings s) result moments →
        BuildStep site config settings s result.2 (site.asking settings s :: moments)

theorem moments_ask :
    site.moments (Flow.engine (.imageExists settings.proxyImage)) s =
      [site.asking settings s] :=
  Site.moments_engine ..

/-- The build, once the engine has said whether the image is there. -/
def buildUnlessPresent (config : Config) (settings : StackSettings) (pulled fetched : Bool)
    (present : Bool) : Flow PrerequisiteReport := do
  if present then
    return { pulled := pulled, fetchedContracts := fetched }
  let injected ← buildStamped config.revisionTemplate settings
  return {
    pulled := pulled
    fetchedContracts := fetched
    injectedRevision := injected
    built := true }

theorem buildIfNeeded_true {pulled fetched : Bool} :
    buildIfNeeded config settings true pulled fetched =
      buildUnlessPresent config settings pulled fetched false := rfl

theorem buildIfNeeded_false {pulled fetched : Bool} :
    buildIfNeeded config settings false pulled fetched =
      Flow.engine (.imageExists settings.proxyImage) >>=
        buildUnlessPresent config settings pulled fetched := rfl

theorem buildUnlessPresent_false (site : Site σ) (config : Config) (settings : StackSettings)
    (s : σ) (pulled fetched : Bool) :
    (site.result (buildUnlessPresent config settings pulled fetched false) s).2 =
        (site.result (buildStamped config.revisionTemplate settings) s).2 ∧
      site.moments (buildUnlessPresent config settings pulled fetched false) s =
        site.moments (buildStamped config.revisionTemplate settings) s := by
  rw [buildUnlessPresent, if_neg Bool.false_ne_true, Site.result_bind, Site.moments_bind]
  rcases site.result (buildStamped config.revisionTemplate settings) s with ⟨_ | _, _⟩
  all_goals exact ⟨rfl, List.append_nil _⟩

theorem buildStep_buildIfNeeded (site : Site σ) (config : Config) (settings : StackSettings)
    (s : σ) (rebuild pulled fetched : Bool) :
    BuildStep site config settings s
      (site.result (buildIfNeeded config settings rebuild pulled fetched) s).2
      (site.moments (buildIfNeeded config settings rebuild pulled fetched) s) := by
  have hstamping := stamping_buildStamped site config.revisionTemplate settings
  have hbuild (s : σ) := buildUnlessPresent_false site config settings s pulled fetched
  cases rebuild with
  | true =>
      rw [buildIfNeeded_true, (hbuild s).1, (hbuild s).2]
      exact .rebuilt (hstamping s)
  | false =>
      rw [buildIfNeeded_false, Site.result_bind, Site.moments_bind, moments_ask,
        Site.result_engine]
      cases (site.answer (.engine (.imageExists settings.proxyImage)) s).1 with
      | error => exact .spared
      | ok present =>
          cases present with
          | true => exact .spared
          | false =>
              have hbuilt : BuildStep site config settings s _ _ :=
                .built (hstamping (site.afterAsking settings s))
              rw [← (hbuild _).1, ← (hbuild _).2, ← List.singleton_append] at hbuilt
              exact hbuilt

end StackControl.Lifecycle
