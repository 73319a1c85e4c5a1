import StackControl.Proofs.Lifecycle.PreparationStages
import StackControl.Proofs.Procedure.Interleaving

/-!
# Builds side by side

Preparations that go on side by side in one tree share the template, and nothing keeps them apart.
The template ends as it was all the same: it is stamped only as long as someone is to write the
original back.  But a preparation may read what another has stamped, or be written over by what
another writes back, and then its build finds the placeholder.
-/

namespace StackControl.Lifecycle

open Procedure (Moment SideBySide)

variable {ι σ α : Type} {site : Site σ} {template original : String}

/-! ## What a history tells -/

/-- The moments of preparations that go on side by side, each with its preparation. -/
abbrev History (ι σ : Type) :=
  List (ι × Moment Call Call.Answer σ)

/-- The call of a moment writes a text to the template. -/
def WritesText (template text : String) (m : Moment Call Call.Answer σ) : Prop :=
  m.call = .writing template text

/-- The call of a moment reads the template. -/
def ReadsTemplate (template : String) (m : Moment Call Call.Answer σ) : Prop :=
  m.call = .reading template

/-- A preparation has read the template. -/
def HasRead (template : String) (i : ι) (history : History ι σ) : Prop :=
  ∃ earlier reading since, history = earlier ++ (i, reading) :: since ∧
    ReadsTemplate template reading

/-- The last write of a history. -/
def lastWrite? (history : History ι σ) : Option (ι × Moment Call Call.Answer σ) :=
  (history.filter fun x => isWrite x.2).getLast?

/-- Since a preparation read the template, the last that was written is what another wrote back. -/
def Overtaken (template original : String) (i : ι) (history : History ι σ) : Prop :=
  ∃ earlier reading since j back, history = earlier ++ (i, reading) :: since ∧
    ReadsTemplate template reading ∧ lastWrite? since = some (j, back) ∧ j ≠ i ∧
      WritesText template original back

variable {history : History ι σ} {i j : ι} {m : Moment Call Call.Answer σ}

theorem HasRead.concat {x : ι × Moment Call Call.Answer σ} (h : HasRead template i history) :
    HasRead template i (history ++ [x]) := by
  obtain ⟨earlier, reading, since, rfl, hreading⟩ := h
  exact ⟨earlier, reading, since ++ [x], by simp, hreading⟩

theorem WritesText.isWrite {text : String} (h : WritesText template text m) :
    isWrite m = true := by
  rw [Lifecycle.isWrite, h]

theorem lastWrite?_concat_of_write (h : isWrite m = true) :
    lastWrite? (history ++ [(i, m)]) = some (i, m) := by
  simp [lastWrite?, List.filter_append, h]

theorem lastWrite?_concat_of_not_write (h : isWrite m = false) :
    lastWrite? (history ++ [(i, m)]) = lastWrite? history := by
  simp [lastWrite?, List.filter_append, h]

theorem lastWrite?_append_cons {earlier since : History ι σ} {x y : ι × Moment Call Call.Answer σ}
    (h : lastWrite? since = some y) : lastWrite? (earlier ++ x :: since) = some y := by
  rw [lastWrite?] at h ⊢
  rw [List.append_cons, List.filter_append, List.getLast?_append, h]
  rfl

theorem Overtaken.concat (h : Overtaken template original i history)
    (hm : isWrite m = false) : Overtaken template original i (history ++ [(j, m)]) := by
  obtain ⟨earlier, reading, since, k, back, rfl, hreading, hlast, hne, hback⟩ := h
  refine ⟨earlier, reading, since ++ [(j, m)], k, back, by simp, hreading, ?_, hne, hback⟩
  rw [lastWrite?_concat_of_not_write hm, hlast]

theorem overtaken_of_write (hread : HasRead template i history)
    (hwrite : WritesText template original m) (hne : j ≠ i) :
    Overtaken template original i (history ++ [(j, m)]) := by
  obtain ⟨earlier, reading, since, rfl, hreading⟩ := hread
  exact ⟨earlier, reading, since ++ [(j, m)], j, m, by simp, hreading,
    lastWrite?_concat_of_write hwrite.isWrite, hne, hwrite⟩

theorem isWrite_eq_false (hcall : ∀ path content, m.call ≠ .files (.write path content)) :
    isWrite m = false := by
  rw [isWrite]
  split
  · exact absurd ‹_› (hcall _ _)
  · rfl

/-! ## What the template holds -/

/-- The template holds a text. -/
def Site.Holds (site : Site σ) (template text : String) (s : σ) : Prop :=
  (site.tree s).read (Utf8.encode template) = .ok (Utf8.encode text)

theorem Site.Holds.unique {text text' : String} {s : σ} (h : site.Holds template text s)
    (h' : site.Holds template text' s) : text = text' :=
  Utf8.encode_injective (Except.ok.inj (h.symm.trans h'))

theorem Site.Holds.readText {text : String} {s : σ} (h : site.Holds template text s) :
    (site.tree s).readText (Utf8.encode template) = .ok text :=
  FileTree.readText_of_read h (Utf8.decode?_encode text)

theorem hasPlaceholder_stampedText (text : String) :
    hasPlaceholder (stampedText text) = false := by
  rw [← Bool.not_eq_true, hasPlaceholder_iff]
  exact (isStamped_stampText text).clear

/-- A write of a template that can be read succeeds. -/
theorem answer_write {text held : String} {s : σ} (hheld : site.Holds template held s)
    (hsucceeds : writeSucceeds (site.tree s) (.writing template text) = true) :
    (site.answer (.writing template text) s).1 = .ok () ∧
      site.Holds template text (site.answer (.writing template text) s).2 := by
  have hok := ok_of_writeSucceeds hsucceeds hheld
  rw [site.files_answer, Site.Holds, site.files_tree]
  exact ⟨hok, FileTree.read_write hheld hok⟩

/-- The last write is the one just made, and the template holds its text. -/
theorem last_of_write {text : String} {s : σ} (hheld : site.Holds template text s)
    (hwrite : WritesText template text m) :
    ∀ x, lastWrite? (history ++ [(i, m)]) = some x → ∀ text', WritesText template text' x.2 →
      site.Holds template text' s := by
  intro x hx text' htext'
  rw [lastWrite?_concat_of_write hwrite.isWrite] at hx
  obtain rfl := Option.some.inj hx
  have hsame := hwrite.symm.trans htext'
  simp only [Call.files.injEq, Machine.FileRequest.write.injEq, true_and] at hsame
  rwa [← Utf8.encode_injective hsame]

/-- A call that writes nothing leaves the template as it was. -/
def Spares (site : Site σ) (template : String) (m : Moment Call Call.Answer σ) : Prop :=
  isWrite m = false →
    (site.tree (site.answer m.call m.state).2).read (Utf8.encode template) =
      (site.tree m.state).read (Utf8.encode template)

/-! ## What preparations share -/

/-- What holds of a preparation in a stage: it follows the stage, it remembers the original, and if
it is to build, the template is stamped unless another has overtaken it. -/
structure Placed (site : Site σ) (template original : String) (i : ι) (stage : Stage)
    (rest : Activity α) (history : History ι σ) (s : σ) : Prop where
  follows : Follows template stage rest
  kept : ∀ text, stage.text? = some text → text = original
  read : stage.hasRead = true → HasRead template i history
  building : ∀ kept, stage = .toBuild kept →
    site.Holds template (stampedText original) s ∨ Overtaken template original i history

/-- What holds at any time of preparations that share a template, given how far each has come: the
template holds its original or, as long as someone is to write that back, the stamped text. -/
structure Sharing (site : Site σ) (template original : String) (stages : ι → Stage)
    (history : History ι σ) (all : SideBySide ι Call Call.Answer α σ) : Prop where
  placed : ∀ i, Placed site template original i (stages i) (all.rest i) history all.state
  content : site.Holds template original all.state ∨
    site.Holds template (stampedText original) all.state ∧ ∃ i, (stages i).restores = true
  last : ∀ x, lastWrite? history = some x → ∀ text, WritesText template text x.2 →
    site.Holds template text all.state

/-- A preparation stays where it is while others make calls, if the template stays stamped for it
or it is overtaken. -/
theorem Placed.concat {stage : Stage} {rest : Activity α} {s s' : σ}
    {x : ι × Moment Call Call.Answer σ}
    (h : Placed site template original i stage rest history s)
    (hbuilding : stage.hasRead = true →
      site.Holds template (stampedText original) s ∨ Overtaken template original i history →
        site.Holds template (stampedText original) s' ∨
          Overtaken template original i (history ++ [x])) :
    Placed site template original i stage rest (history ++ [x]) s' where
  follows := h.follows
  kept := h.kept
  read hstage := (h.read hstage).concat
  building kept hstage := hbuilding (by rw [hstage]; rfl) (h.building kept hstage)

variable {stages : ι → Stage} {all : SideBySide ι Call Call.Answer α σ}

theorem Sharing.holds (h : Sharing site template original stages history all) :
    ∃ held, site.Holds template held all.state := by
  rcases h.content with h | ⟨h, -⟩ <;> exact ⟨_, h⟩

/-- Who builds has the build in front of it. -/
theorem Sharing.exists_toBuild (h : Sharing site template original stages history all)
    (hnext : all.next? site.answer i = some m) (hbuild : isBuild m = true) :
    ∃ kept, stages i = .toBuild kept := by
  obtain ⟨call, next, hrest, rfl⟩ := SideBySide.exists_of_next? hnext
  have hfollows := (h.placed i).follows
  rw [hrest] at hfollows
  generalize stages i = stage at hfollows
  rcases hfollows with _ | _ | ⟨hnot, -, -⟩ | _ | _ | _ | _ | _
  · rw [isBuild] at hbuild
    split at hbuild
    · exact absurd ‹_› (hnot _)
    · exact absurd hbuild Bool.false_ne_true
  all_goals first | exact ⟨_, rfl⟩ | exact absurd hbuild Bool.false_ne_true

/-- A build finds the stamped text unless its preparation is overtaken. -/
theorem Sharing.holds_of_build (h : Sharing site template original stages history all)
    (hplaceholder : hasPlaceholder original = true)
    (hnext : all.next? site.answer i = some m) (hbuild : isBuild m = true) :
    (site.Holds template original m.state ↔ Overtaken template original i history) ∧
      (¬Overtaken template original i history →
        site.Holds template (stampedText original) m.state) := by
  obtain ⟨kept, hstage⟩ := h.exists_toBuild hnext hbuild
  obtain ⟨call, next, -, rfl⟩ := SideBySide.exists_of_next? hnext
  have hbuilding := (h.placed i).building kept hstage
  refine ⟨⟨fun horiginal => hbuilding.resolve_left fun hstamped => ?_, ?_⟩,
    hbuilding.resolve_right⟩
  · have hclear := hasPlaceholder_stampedText original
    rw [← horiginal.unique hstamped, hplaceholder] at hclear
    exact absurd hclear (by decide)
  · rintro ⟨earlier, reading, since, j, back, rfl, -, hlast, -, hback⟩
    exact h.last _ (lastWrite?_append_cons hlast) _ hback

/-- When all have ended, nobody has the template stamped. -/
theorem Sharing.holds_of_ended (h : Sharing site template original stages history all)
    (hended : all.Ended) : site.Holds template original all.state := by
  refine h.content.resolve_right ?_
  rintro ⟨-, i, hrestores⟩
  obtain ⟨value, hrest⟩ := hended i
  have hfollows := (h.placed i).follows
  rw [hrest] at hfollows
  generalize stages i = stage at hfollows hrestores
  rcases hfollows with _ | _ <;> exact absurd hrestores Bool.false_ne_true

/-- Preparations with configurations and settings of their own, in one state. -/
def preparations (config : ι → Config) (settings : ι → StackSettings) (rebuild : ι → Bool)
    (s : σ) : SideBySide ι Call Call.Answer (Except Error PrerequisiteReport) σ where
  rest i := (prepare (config i) (settings i) (rebuild i)).run
  state := s

theorem sharing_preparations {config : ι → Config} {settings : ι → StackSettings}
    {rebuild : ι → Bool} {s : σ} (hshared : ∀ i, (config i).revisionTemplate = template)
    (horiginal : site.Holds template original s) :
    Sharing site template original (fun _ => .unread) []
      (preparations config settings rebuild s) where
  placed i :=
    { follows := hshared i ▸ follows_prepare (config i) (settings i) (rebuild i)
      kept := by simp [Stage.text?]
      read := by simp [Stage.hasRead]
      building := by simp }
  content := .inl horiginal
  last := by simp [lastWrite?]

/-! ## What one call preserves -/

variable [DecidableEq ι] {call : Call} {next : call.Answer → Activity α} {stage : Stage}

/-- A preparation that makes a call gets to its next stage, and the others stay in theirs. -/
theorem placed_answered {x : ι × Moment Call Call.Answer σ} {s : σ}
    (hself : Placed site template original i stage (next (site.answer call all.state).1)
      (history ++ [x]) s)
    (hothers : ∀ j, j ≠ i →
      Placed site template original j (stages j) (all.rest j) (history ++ [x]) s) (j : ι) :
    Placed site template original j (Function.update stages i stage j)
      ((all.answered site.answer i call next).rest j) (history ++ [x]) s := by
  by_cases hj : j = i
  · subst hj
    rwa [Function.update_self, SideBySide.rest_answered_self]
  · rw [Function.update_of_ne hj, SideBySide.rest_answered_of_ne hj]
    exact hothers j hj

theorem exists_restores_update (hrestores : (stages i).restores = true → stage.restores = true)
    (h : ∃ j, (stages j).restores = true) :
    ∃ j, (Function.update stages i stage j).restores = true := by
  obtain ⟨j, hj⟩ := h
  refine ⟨j, ?_⟩
  by_cases hji : j = i
  · subst hji
    rw [Function.update_self]
    exact hrestores hj
  · rwa [Function.update_of_ne hji]

/-- A call other than a write keeps what is shared, if its preparation gets to a stage in which it
still has to write back what it had to, and finds the stamped text if it is to build. -/
theorem Sharing.quiet (h : Sharing site template original stages history all)
    (hquiet : isWrite (all.momentOf site.answer call) = false)
    (hspares : Spares site template (all.momentOf site.answer call))
    (hfollows : Follows template stage (next (site.answer call all.state).1))
    (hkept : ∀ text, stage.text? = some text → text = original)
    (hrestores : (stages i).restores = true → stage.restores = true)
    (hread : stage.hasRead = true → ReadsTemplate template (all.momentOf site.answer call))
    (hbuilding : ∀ kept, stage = .toBuild kept →
      site.Holds template (stampedText original) all.state) :
    Sharing site template original (Function.update stages i stage)
      (history ++ [(i, all.momentOf site.answer call)])
      (all.answered site.answer i call next) := by
  have hsame (text : String) :
      site.Holds template text (all.answered site.answer i call next).state ↔
        site.Holds template text all.state := by
    have hread := hspares hquiet
    simp only [Site.Holds, SideBySide.answered, SideBySide.momentOf] at hread ⊢
    rw [hread]
  constructor
  · refine placed_answered ⟨hfollows, hkept, ?_, ?_⟩ ?_
    · intro hstage
      exact ⟨history, _, [], rfl, hread hstage⟩
    · intro kept hstage
      exact .inl ((hsame _).mpr (hbuilding kept hstage))
    · intro j _
      exact (h.placed j).concat fun _ => Or.imp (hsame _).mpr (Overtaken.concat · hquiet)
  · simp only [hsame]
    exact h.content.imp_right (And.imp_right (exists_restores_update hrestores))
  · rw [lastWrite?_concat_of_not_write hquiet]
    simp only [hsame]
    exact h.last

/-- Once the template is stamped, every preparation that is to build finds the stamped text. -/
theorem Sharing.stamped {next : Except Fault Unit → Activity α}
    (h : Sharing site template original stages history all)
    (hstage : stages i = .toStamp original)
    (hsucceeds : writeSucceeds (site.tree all.state)
      (.writing template (stampedText original)) = true)
    (hfollows : Follows template (.toBuild (some original)) (next (.ok ()))) :
    Sharing site template original (Function.update stages i (.toBuild (some original)))
      (history ++ [(i, all.momentOf site.answer (.writing template (stampedText original)))])
      (all.answered site.answer i (.writing template (stampedText original)) next) := by
  obtain ⟨held, hheld⟩ := h.holds
  obtain ⟨hok, hstamped⟩ := answer_write hheld hsucceeds
  constructor
  · refine placed_answered ⟨?_, by simp [Stage.text?], ?_, fun _ _ => .inl hstamped⟩ ?_
    · rwa [hok]
    · exact fun _ => ((h.placed i).concat fun _ _ => .inl hstamped).read (by rw [hstage]; rfl)
    · exact fun j _ => (h.placed j).concat fun _ _ => .inl hstamped
  · exact .inr ⟨hstamped, i, by simp [Stage.restores]⟩
  · exact last_of_write hstamped rfl

/-- Writing the template back overtakes all others that are to build. -/
theorem Sharing.restored {next : Except Fault Unit → Activity α}
    (h : Sharing site template original stages history all)
    (hsucceeds : writeSucceeds (site.tree all.state) (.writing template original) = true)
    (hfollows : ∀ answer, Follows template .finished (next answer)) :
    Sharing site template original (Function.update stages i .finished)
      (history ++ [(i, all.momentOf site.answer (.writing template original))])
      (all.answered site.answer i (.writing template original) next) := by
  obtain ⟨held, hheld⟩ := h.holds
  obtain ⟨-, hrestored⟩ := answer_write hheld hsucceeds
  constructor
  · refine placed_answered ⟨hfollows _, by simp [Stage.text?], by simp [Stage.hasRead], by simp⟩ ?_
    intro j hj
    refine (h.placed j).concat fun hread _ => .inr ?_
    exact overtaken_of_write ((h.placed j).read hread) rfl hj.symm
  · exact .inl hrestored
  · exact last_of_write hrestored rfl

/-- A preparation that reads the original is to stamp it, and one that reads the stamped text is to
build with it. -/
theorem Sharing.read {next : Except Fault String → Activity α}
    (h : Sharing site template original stages history all)
    (hplaceholder : hasPlaceholder original = true) (hstage : stages i = .unread)
    (hspares : Spares site template (all.momentOf site.answer (.reading template)))
    (hplain : ∀ text, hasPlaceholder text = false →
      Follows template (.toBuild none) (next (.ok text)))
    (hmarked : ∀ text, hasPlaceholder text = true →
      Follows template (.toStamp text) (next (.ok text))) :
    ∃ stages', Sharing site template original stages'
      (history ++ [(i, all.momentOf site.answer (.reading template))])
      (all.answered site.answer i (.reading template) next) := by
  have hnothing : (stages i).restores ≠ true := by simp [hstage, Stage.restores]
  have hanswer {text : String} (hholds : site.Holds template text all.state) :
      (site.answer (.reading template) all.state).1 = .ok text :=
    (site.files_answer ..).trans hholds.readText
  rcases h.content with horiginal | ⟨hstamped, -⟩
  · have hnext := hmarked original hplaceholder
    rw [← hanswer horiginal] at hnext
    exact ⟨_, h.quiet rfl hspares hnext (by simp [Stage.text?]) (absurd · hnothing)
      (fun _ => rfl) (by simp)⟩
  · have hnext := hplain _ (hasPlaceholder_stampedText original)
    rw [← hanswer hstamped] at hnext
    exact ⟨_, h.quiet rfl hspares hnext (by simp [Stage.text?]) (absurd · hnothing)
      (fun _ => rfl) (fun _ _ => hstamped)⟩

/-- Every call of a preparation keeps what is shared. -/
theorem Sharing.answered (h : Sharing site template original stages history all)
    (hplaceholder : hasPlaceholder original = true) (hrest : all.rest i = .ask call next)
    (hsucceeds : writeSucceeds (site.tree all.state) call = true)
    (hspares : Spares site template (all.momentOf site.answer call)) :
    ∃ stages', Sharing site template original stages'
      (history ++ [(i, all.momentOf site.answer call)])
      (all.answered site.answer i call next) := by
  have hfollows := (h.placed i).follows
  have hkept := (h.placed i).kept
  rw [hrest] at hfollows
  generalize hstage : stages i = stage at hfollows hkept
  rcases hfollows with _ | _ | ⟨-, hwrite, hnext⟩ | ⟨-, -, hplain, hmarked⟩ |
    ⟨-, hstamped⟩ | hnext | hnext | hnext
  · exact ⟨_, h.quiet (isWrite_eq_false hwrite) hspares (hnext _) (by simp [Stage.text?])
      (by simp [hstage, Stage.restores]) (by simp [Stage.hasRead]) (by simp)⟩
  · exact h.read hplaceholder hstage hspares hplain hmarked
  · obtain rfl := hkept _ rfl
    exact ⟨_, h.stamped hstage hsucceeds hstamped⟩
  · exact ⟨_, h.quiet rfl hspares (hnext _) (by simp [Stage.text?])
      (by simp [hstage, Stage.restores]) (by simp [Stage.hasRead]) (by simp)⟩
  · obtain rfl := hkept _ rfl
    exact ⟨_, h.quiet rfl hspares (hnext _) (by simp [Stage.text?])
      (fun _ => rfl) (by simp [Stage.hasRead]) (by simp)⟩
  · obtain rfl := hkept _ rfl
    exact ⟨_, h.restored hsucceeds hnext⟩

/-! ## What schedules preserve -/

/-- Along every schedule, the template is shared in the same way. -/
theorem exists_sharing {schedule : List ι}
    (hstart : Sharing site template original stages [] all)
    (hplaceholder : hasPlaceholder original = true)
    (hwrites : ∀ x ∈ all.moments site.answer schedule,
      writeSucceeds (site.tree x.2.state) x.2.call = true)
    (hspares : ∀ x ∈ all.moments site.answer schedule, Spares site template x.2) :
    ∃ stages', Sharing site template original stages' (all.moments site.answer schedule)
      (all.after site.answer schedule) := by
  have hfirst : ∃ stages, Sharing site template original stages [] all := ⟨stages, hstart⟩
  refine SideBySide.invariant
    (fun m => writeSucceeds (site.tree m.state) m.call = true ∧ Spares site template m)
    (fun history all => ∃ stages, Sharing site template original stages history all)
    ?_ hfirst fun x hx => ⟨hwrites x hx, hspares x hx⟩
  intro history all i call next hrest hgood ⟨stages, hsharing⟩
  exact hsharing.answered hplaceholder hrest hgood.1 hgood.2

/-! ## Preparations side by side -/

/-- Preparations that go on side by side with one template leave it as it was, however their calls
follow each other.  A build finds the placeholder exactly when, since its preparation read the
template, another has written it back and nothing was written after that; any other build finds the
stamped template. -/
theorem preparations_side_by_side (site : Site σ) (config : ι → Config)
    (settings : ι → StackSettings) (rebuild : ι → Bool) (s : σ) (schedule : List ι)
    (hshared : ∀ i, (config i).revisionTemplate = template)
    (horiginal : (site.tree s).read (Utf8.encode template) = .ok (Utf8.encode original))
    (hplaceholder : revisionPlaceholder.toList <:+: original.toList)
    (hwrites : ∀ x ∈ (preparations config settings rebuild s).moments site.answer schedule,
      writeSucceeds (site.tree x.2.state) x.2.call = true)
    (hspares : ∀ x ∈ (preparations config settings rebuild s).moments site.answer schedule,
      Spares site template x.2) :
    (∀ before i m later,
      (preparations config settings rebuild s).moments site.answer schedule =
          before ++ (i, m) :: later → isBuild m = true →
        ((site.tree m.state).read (Utf8.encode template) = .ok (Utf8.encode original) ↔
          Overtaken template original i before) ∧
        (¬Overtaken template original i before → ∃ stamped,
          IsStamped StackSettings.localRevision original stamped ∧
            (site.tree m.state).read (Utf8.encode template) = .ok (Utf8.encode stamped))) ∧
      (((preparations config settings rebuild s).after site.answer schedule).Ended →
        (site.tree ((preparations config settings rebuild s).after site.answer schedule).state).read
            (Utf8.encode template) = .ok (Utf8.encode original)) := by
  have hmarked := hasPlaceholder_iff.mpr hplaceholder
  have hstart : Sharing site template original (fun _ => .unread) []
      (preparations config settings rebuild s) := sharing_preparations hshared horiginal
  constructor
  · intro before i m later hmoments hbuild
    obtain ⟨earlier, rfl, hnext⟩ := SideBySide.exists_of_moments_eq hmoments
    rw [hmoments] at hwrites hspares
    obtain ⟨stages, hsharing⟩ := exists_sharing hstart hmarked
      (fun x hx => hwrites x (List.mem_append_left _ hx))
      (fun x hx => hspares x (List.mem_append_left _ hx))
    obtain ⟨hiff, hstamped⟩ := hsharing.holds_of_build hmarked hnext hbuild
    exact ⟨hiff, fun hnot => ⟨_, isStamped_stampText original, hstamped hnot⟩⟩
  · intro hended
    obtain ⟨stages, hsharing⟩ := exists_sharing hstart hmarked hwrites hspares
    exact hsharing.holds_of_ended hended

/-! ## A build that is overtaken -/

/-- Others among which the engine has every image, and every build succeeds. -/
def buildingEngine : Procedure.Answerer Call Call.Answer Unit :=
  Site.engineAlone fun
    | .imageExists _ => .ok true
    | .build _ => .ok ()
    | _ => .error (.missingContainerId "")

/-- Two preparations in one tree, both of which are to build. -/
def twoPreparations :
    SideBySide Bool Call Call.Answer (Except Error PrerequisiteReport) (Unit × FileTree) :=
  preparations (fun _ => workerConfig) (fun _ => localSettings) (fun _ => true) ((), workerTree)

/-- The second preparation reads the template while the first has it stamped, and builds after the
first has written it back. -/
def overtaking : List Bool :=
  List.replicate 4 false ++ List.replicate 3 true ++ List.replicate 2 false ++ [true]

theorem ended_twoPreparations :
    (twoPreparations.after (Site.beside buildingEngine).answer overtaking).Ended :=
  (SideBySide.ended_iff (Site.beside buildingEngine).answer).mpr (by decide +kernel)

theorem exists_overtaken_build :
    ∃ m, (true, m) ∈ twoPreparations.moments (Site.beside buildingEngine).answer overtaking ∧
      isBuild m = true ∧
        m.state.2.read (Utf8.encode "worker.py") = .ok (Utf8.encode revisionPlaceholder) := by
  obtain ⟨⟨i, m⟩, hm, hi, hbuild, hread⟩ :
      ∃ x ∈ twoPreparations.moments (Site.beside buildingEngine).answer overtaking,
        x.1 = true ∧ isBuild x.2 = true ∧
          (x.2.state.2.read (Utf8.encode "worker.py")).toOption =
            some (Utf8.encode revisionPlaceholder) := by decide +kernel
  subst hi
  exact ⟨m, hm, hbuild, eq_ok_of_toOption hread⟩

/-- A build finds the placeholder. -/
theorem overtaken_build_finds_placeholder :
    (twoPreparations.after (Site.beside buildingEngine).answer overtaking).Ended ∧
      ∃ x ∈ twoPreparations.moments (Site.beside buildingEngine).answer overtaking,
        isBuild x.2 = true ∧ ∃ text, revisionPlaceholder.toList <:+: text.toList ∧
          x.2.state.2.read (Utf8.encode "worker.py") = .ok (Utf8.encode text) := by
  obtain ⟨m, hm, hbuild, hread⟩ := exists_overtaken_build
  exact ⟨ended_twoPreparations, (true, m), hm, hbuild, revisionPlaceholder, List.infix_rfl, hread⟩

/-- Whether a call leaves the tree as it is, beside others who have nothing to do with it. -/
def keepsTree : Call → Bool
  | .files (.list _) | .files (.readText _) => true
  | .files _ => false
  | _ => true

theorem spares_of_keepsTree {others : Procedure.Answerer Call Call.Answer σ}
    {m : Moment Call Call.Answer (σ × FileTree)} (h : keepsTree m.call = true) :
    Spares (Site.beside others) template m := by
  intro _
  obtain ⟨⟨s, tree⟩, call, answer⟩ := m
  rcases call with _ | _ | _ | _ | request | _ | _
  case files => rcases request <;> first | rfl | exact absurd h Bool.false_ne_true
  all_goals rfl

/-- The build is overtaken, and the template is restored nevertheless. -/
theorem overtaken_template_restored :
    (∃ before m later,
      twoPreparations.moments (Site.beside buildingEngine).answer overtaking =
          before ++ (true, m) :: later ∧ isBuild m = true ∧
        Overtaken "worker.py" revisionPlaceholder true before) ∧
      ((Site.beside buildingEngine).tree
        (twoPreparations.after (Site.beside buildingEngine).answer overtaking).state).read
          (Utf8.encode "worker.py") = .ok (Utf8.encode revisionPlaceholder) := by
  have horiginal : workerTree.read (Utf8.encode "worker.py") =
      .ok (Utf8.encode revisionPlaceholder) :=
    eq_ok_of_toOption (by decide +kernel)
  have hwrites : ∀ x ∈ twoPreparations.moments (Site.beside buildingEngine).answer overtaking,
      writeSucceeds ((Site.beside buildingEngine).tree x.2.state) x.2.call = true := by
    decide +kernel
  have hkeeps : ∀ x ∈ twoPreparations.moments (Site.beside buildingEngine).answer overtaking,
      isWrite x.2 = true ∨ keepsTree x.2.call = true := by decide +kernel
  have hspares : ∀ x ∈ twoPreparations.moments (Site.beside buildingEngine).answer overtaking,
      Spares (Site.beside buildingEngine) "worker.py" x.2 := by
    intro x hx hquiet
    refine spares_of_keepsTree ((hkeeps x hx).resolve_left ?_) hquiet
    rw [hquiet]
    exact Bool.false_ne_true
  obtain ⟨hbuilds, hrestored⟩ := preparations_side_by_side (Site.beside buildingEngine)
    (fun _ => workerConfig) (fun _ => localSettings) (fun _ : Bool => true) ((), workerTree)
    overtaking (fun _ => rfl) horiginal List.infix_rfl hwrites hspares
  obtain ⟨m, hm, hbuild, hread⟩ := exists_overtaken_build
  obtain ⟨before, later, hsplit⟩ := List.append_of_mem hm
  have hovertaken := (hbuilds before true m later hsplit hbuild).1.mp hread
  have hended := hrestored ended_twoPreparations
  -- in the very form of the general theorem, lest the runs be evaluated to compare them
  unfold twoPreparations at hsplit ⊢
  exact ⟨⟨before, m, later, hsplit, hbuild, hovertaken⟩, hended⟩

end StackControl.Lifecycle
