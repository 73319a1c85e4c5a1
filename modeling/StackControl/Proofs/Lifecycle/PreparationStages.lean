import StackControl.Proofs.Lifecycle.RevisionTrace

/-!
# The stages of a preparation

A preparation comes to the template in stages: it has not read it, is to stamp what it read, is to
build, is to write back what it stamped, or is done with it.  What is left of a preparation at any
time follows the stage it is in, whatever its calls are answered.
-/

namespace StackControl.Lifecycle

variable {α β : Type} {template : String} {config : Config} {settings : StackSettings}

/-- The call that reads a template. -/
abbrev Call.reading (template : String) : Call :=
  .files (.readText (Utf8.encode template))

/-- The call that writes a text to a template. -/
abbrev Call.writing (template text : String) : Call :=
  .files (.write (Utf8.encode template) (Utf8.encode text))

/-- The stamped form of a text. -/
abbrev stampedText (text : String) : String :=
  stampText text StackSettings.localRevision

/-- How far a preparation has come with the template. -/
inductive Stage
  /-- It has not been read. -/
  | unread
  /-- This text was read, and is to be stamped. -/
  | toStamp (text : String)
  /-- The build is next; a text that was stamped is kept. -/
  | toBuild (kept : Option String)
  /-- This text is to be written back. -/
  | toRestore (text : String)
  | finished

namespace Stage

/-- The text that a stage remembers. -/
def text? : Stage → Option String
  | toStamp text | toRestore text => some text
  | toBuild kept => kept
  | unread | finished => none

/-- Whether the template was read, for a build that is still to come. -/
def hasRead : Stage → Bool
  | toStamp _ | toBuild _ => true
  | _ => false

/-- Whether the template is to be written back. -/
def restores : Stage → Bool
  | toBuild kept => kept.isSome
  | toRestore _ => true
  | _ => false

end Stage

/-- What is left of a preparation in each stage. -/
inductive Follows (template : String) : Stage → Activity α → Prop
  | ended {value} : Follows template .unread (.done value)
  | finished {value} : Follows template .finished (.done value)
  /-- Calls before the template is read neither build nor write. -/
  | groundwork {call next} (hbuild : ∀ build, call ≠ .engine (.build build))
      (hwrite : ∀ path content, call ≠ .files (.write path content))
      (h : ∀ answer, Follows template .unread (next answer)) :
      Follows template .unread (.ask call next)
  | read {next : Except Fault String → Activity α}
      (hfault : ∀ fault, fault ≠ .os .notFound → Follows template .finished (next (.error fault)))
      (hmissing : Follows template (.toBuild none) (next (.error (.os .notFound))))
      (hplain : ∀ text, hasPlaceholder text = false →
        Follows template (.toBuild none) (next (.ok text)))
      (hmarked : ∀ text, hasPlaceholder text = true →
        Follows template (.toStamp text) (next (.ok text))) :
      Follows template .unread (.ask (.reading template) next)
  | stamp {text : String} {next : Except Fault Unit → Activity α}
      (hfault : ∀ fault, Follows template .finished (next (.error fault)))
      (hstamped : Follows template (.toBuild (some text)) (next (.ok ()))) :
      Follows template (.toStamp text) (.ask (.writing template (stampedText text)) next)
  | build {build next} (h : ∀ answer, Follows template .finished (next answer)) :
      Follows template (.toBuild none) (.ask (.engine (.build build)) next)
  | buildStamped {build next} {text : String}
      (h : ∀ answer, Follows template (.toRestore text) (next answer)) :
      Follows template (.toBuild (some text)) (.ask (.engine (.build build)) next)
  | restore {text : String} {next} (h : ∀ answer, Follows template .finished (next answer)) :
      Follows template (.toRestore text) (.ask (.writing template text) next)

theorem Follows.bind_of_only {activity : Activity α} {f : α → Activity β}
    (hactivity : activity.Only fun call =>
      (∀ build, call ≠ .engine (.build build)) ∧
        ∀ path content, call ≠ .files (.write path content))
    (hf : ∀ a, Follows template .unread (f a)) :
    Follows template .unread (activity >>= f) := by
  induction activity with
  | done value => exact hf value
  | ask call next ih =>
      exact .groundwork hactivity.1.1 hactivity.1.2 fun answer => ih answer (hactivity.2 answer)

/-- What only answers otherwise at its end is in the same stage. -/
theorem Follows.bind_of_done {stage : Stage} {activity : Activity α} {f : α → Activity β}
    (h : Follows template stage activity) (hf : ∀ a, ∃ b, f a = .done b) :
    Follows template stage (activity >>= f) := by
  induction h with
  | @ended value =>
      obtain ⟨b, hb⟩ := hf value
      rw [Procedure.done_bind, hb]
      exact .ended
  | @finished value =>
      obtain ⟨b, hb⟩ := hf value
      rw [Procedure.done_bind, hb]
      exact .finished
  | groundwork hbuild hwrite _ ih => exact .groundwork hbuild hwrite ih
  | read _ _ _ _ hfault hmissing hplain hmarked => exact .read hfault hmissing hplain hmarked
  | stamp _ _ hfault hstamped => exact .stamp hfault hstamped
  | build _ ih => exact .build ih
  | buildStamped _ ih => exact .buildStamped ih
  | restore _ ih => exact .restore ih

theorem follows_buildAndRestore_none :
    Follows template (.toBuild none) (buildAndRestore settings none).run := by
  apply Follows.build
  rintro (_ | _) <;> exact .finished

theorem follows_buildAndRestore_some (text : String) :
    Follows template (.toBuild (some text))
      (buildAndRestore settings (some ⟨template, text⟩)).run := by
  apply Follows.buildStamped
  rintro (_ | _) <;> exact .restore fun _ => .finished

theorem follows_buildStamped (hlocal : settings.isLocal = true) :
    Follows template .unread (buildStamped template settings).run := by
  have hrevision : settings.revision = StackSettings.localRevision := eq_of_beq hlocal
  rw [buildStamped_eq, RevisionStamp.apply, hrevision]
  apply Follows.read
  · rintro (errno | _ | _) hfault
    · have herrno : errno ≠ .notFound := fun h => hfault (h ▸ rfl)
      simp only [Procedure.bind, Function.comp_apply, ExceptT.bindCont, if_neg herrno]
      exact .finished
    · exact .finished
    · exact .finished
  · exact follows_buildAndRestore_none
  · intro text hplain
    simp only [Procedure.bind, Function.comp_apply, ExceptT.bindCont, hplain]
    exact follows_buildAndRestore_none
  · intro text hmarked
    simp only [Procedure.bind, Function.comp_apply, ExceptT.bindCont, hmarked]
    exact .stamp (fun _ => .finished) (follows_buildAndRestore_some text)

theorem follows_buildUnlessPresent (hlocal : settings.isLocal = true)
    (pulled fetched present : Bool) :
    Follows config.revisionTemplate .unread
      (buildUnlessPresent config settings pulled fetched present).run := by
  rcases present
  · apply Follows.bind_of_done (follows_buildStamped hlocal)
    rintro (_ | _) <;> exact ⟨_, rfl⟩
  · exact .ended

theorem follows_buildIfNeeded (hlocal : settings.isLocal = true) (rebuild pulled fetched : Bool) :
    Follows config.revisionTemplate .unread
      (buildIfNeeded config settings rebuild pulled fetched).run := by
  have hbuild (present : Bool) : Follows config.revisionTemplate .unread
      (buildUnlessPresent config settings pulled fetched present).run :=
    follows_buildUnlessPresent hlocal pulled fetched present
  rcases rebuild
  · rw [buildIfNeeded_false]
    refine Follows.groundwork (by simp) (by simp) ?_
    rintro (_ | present)
    · exact .ended
    · exact hbuild present
  · rw [buildIfNeeded_true]
    exact hbuild false

theorem follows_prepare (config : Config) (settings : StackSettings) (rebuild : Bool) :
    Follows config.revisionTemplate .unread (prepare config settings rebuild).run := by
  by_cases hlocal : settings.isLocal = true
  · rw [prepare_eq_groundwork hlocal]
    refine Follows.bind_of_only ((only_groundwork config settings).mono ?_) ?_
    · rintro call ((rfl | rfl) | rfl | rfl | ⟨_, rfl⟩) <;> simp
    · rintro (_ | ⟨pulled, fetched⟩)
      · exact .ended
      · exact follows_buildIfNeeded hlocal rebuild pulled fetched
  · rw [prepare_of_not_isLocal (eq_false_of_ne_true hlocal)]
    refine Follows.bind_of_only ((only_pullIfMissing settings).mono ?_) ?_
    · rintro call (rfl | rfl) <;> simp
    · rintro (_ | _) <;> exact .ended

end StackControl.Lifecycle
