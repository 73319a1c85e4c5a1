import StackControl.Proofs.Engine.Capture

/-!
# The scratch container of an export

A path of an image is exported through a container that is made for it.  Whatever the engine does,
a container that was made is removed, once and after the copy; what the export comes to is decided
by the first of the three commands that did not succeed, in their order.
-/

namespace StackControl.Engine

open Procedure (Answerer Exchange)

variable {σ : Type}

/-- The container that its creation printed: what it wrote, without the blanks around it. -/
def containerOf (created : Finished) : String :=
  Text.trimmed (Utf8.decodeLossy created.stdout)

namespace Client

variable (client : Client)

/-- The command that makes a container of an image. -/
def creation (image : String) : Launch :=
  client.command ["create", image]

/-- The command that writes a path of a container out. -/
def copying (path container : String) : Launch :=
  client.command ["cp", container ++ ":" ++ path, "-"]

/-- The command that removes a container. -/
def removal (container : String) : Launch :=
  client.command ["rm", "-f", container]

/-- What an export does, and what it comes to. -/
inductive Exports (image path : String) :
    List (Exchange Machine.Call Machine.Call.Answer) → Except Error Bytes → Prop
  | notCreated {created : Except LaunchFault Finished} {e : Error} :
      outcomeOfCapture (client.creation image) created = .error e →
        Exports image path [exchanged (client.creation image) created] (.error e)
  | unnamed {created : Except LaunchFault Finished} {finished : Finished} :
      outcomeOfCapture (client.creation image) created = .ok finished →
        containerOf finished = "" →
          Exports image path [exchanged (client.creation image) created]
            (.error (.missingContainerId (client.program ++ " create " ++ image)))
  | copied {created copied removed : Except LaunchFault Finished} {finished : Finished} :
      outcomeOfCapture (client.creation image) created = .ok finished →
        containerOf finished ≠ "" →
          Exports image path
            [exchanged (client.creation image) created,
              exchanged (client.copying path (containerOf finished)) copied,
              exchanged (client.removal (containerOf finished)) removed]
            (do
              let archive ← outcomeOfCapture (client.copying path (containerOf finished)) copied
              let _ ← outcomeOfCapture (client.removal (containerOf finished)) removed
              return archive.stdout)

/-- The part of an export that has a container. -/
def exportFrom (path container : String) : Attempt Bytes := do
  let copied ← outcomeOf (capture (client.copying path container))
  let removed ← outcomeOf (capture (client.removal container))
  let archive ← ExceptT.mk (pure copied)
  let _ ← ExceptT.mk (pure removed)
  return archive.stdout

theorem exportPath_eq (image path : String) :
    client.exportPath image path =
      capture (client.creation image) >>= fun created =>
        if (containerOf created).isEmpty then
          throw (.missingContainerId (client.program ++ " create " ++ image))
        else client.exportFrom path (containerOf created) := by
  refine congrArg (capture (client.creation image) >>= ·) (funext fun created => ?_)
  unfold containerOf
  dsimp only
  generalize Text.trimmed (Utf8.decodeLossy created.stdout) = container
  split
  · rfl
  · rfl

/-- Once there is a container, the copy and the removal are both made, and the error of the copy
comes first. -/
theorem exists_exportFrom (path container : String)
    (os : Answerer Machine.Call Machine.Call.Answer σ) (s : σ) :
    ∃ copied removed,
      Procedure.trace os (client.exportFrom path container).run s =
          [exchanged (client.copying path container) copied,
            exchanged (client.removal container) removed] ∧
        (Procedure.run os (client.exportFrom path container).run s).1 =
          (do
            let archive ← outcomeOfCapture (client.copying path container) copied
            let _ ← outcomeOfCapture (client.removal container) removed
            return archive.stdout) := by
  simp only [exportFrom, Procedure.trace_bind_run, Procedure.run_bind_run,
    Procedure.run_outcomeOf_run, Procedure.trace_outcomeOf_run, trace_capture, run_capture]
  refine ⟨(os (.launch (client.copying path container) .captured) s).1,
    (os (.launch (client.removal container) .captured)
      (os (.launch (client.copying path container) .captured) s).2).1, ?_⟩
  rcases outcomeOfCapture (client.copying path container) _ with e | archive
  · exact ⟨rfl, rfl⟩
  · rcases outcomeOfCapture (client.removal container) _ with e | gone
    · exact ⟨rfl, rfl⟩
    · exact ⟨rfl, rfl⟩

theorem exports_exportPath (image path : String)
    (os : Answerer Machine.Call Machine.Call.Answer σ) (s : σ) :
    client.Exports image path (Procedure.trace os (client.exportPath image path).run s)
      (Procedure.run os (client.exportPath image path).run s).1 := by
  rw [exportPath_eq, Procedure.trace_bind_run, Procedure.run_bind_run, trace_capture, run_capture]
  generalize (os (.launch (client.creation image) .captured) s).1 = created
  rcases hcreated : outcomeOfCapture (client.creation image) created with e | finished
  · exact .notCreated hcreated
  · dsimp only
    by_cases hblank : containerOf finished = ""
    · rw [if_pos (by simpa using hblank)]
      exact .unnamed hcreated hblank
    · rw [if_neg (by simpa using hblank)]
      obtain ⟨copied, removed, hcalls, hresult⟩ := client.exists_exportFrom path
        (containerOf finished) os (os (.launch (client.creation image) .captured) s).2
      rw [hcalls, hresult]
      exact .copied hcreated hblank

variable {client} in
/-- An export succeeds exactly if its three commands did, and is then what the copy wrote. -/
theorem Exports.eq_ok_iff {image path : String}
    {calls : List (Exchange Machine.Call Machine.Call.Answer)} {result : Except Error Bytes}
    (h : client.Exports image path calls result) (bytes : Bytes) :
    result = .ok bytes ↔
      ∃ finished archive gone : Finished,
        calls =
            [exchanged (client.creation image) (.ok finished),
              exchanged (client.copying path (containerOf finished)) (.ok archive),
              exchanged (client.removal (containerOf finished)) (.ok gone)] ∧
          finished.status.isSuccess ∧ archive.status.isSuccess ∧ gone.status.isSuccess ∧
          containerOf finished ≠ "" ∧ archive.stdout = bytes := by
  rcases h with hcreated | ⟨hcreated, hblank⟩ |
    @⟨created, copied, removed, finished, hcreated, hnamed⟩
  · simp
  · simp
  · constructor
    · intro h
      rcases hcopied : outcomeOfCapture (client.copying path (containerOf finished)) copied
        with e | archive
      · rw [hcopied] at h
        nomatch h
      · rcases hremoved : outcomeOfCapture (client.removal (containerOf finished)) removed
          with e | gone
        · rw [hcopied, hremoved] at h
          nomatch h
        · rw [hcopied, hremoved] at h
          obtain ⟨rfl, hmade⟩ := outcomeOfCapture_eq_ok_iff.mp hcreated
          obtain ⟨rfl, hwrote⟩ := outcomeOfCapture_eq_ok_iff.mp hcopied
          obtain ⟨rfl, hgone⟩ := outcomeOfCapture_eq_ok_iff.mp hremoved
          exact ⟨finished, archive, gone, rfl, hmade, hwrote, hgone, hnamed, Except.ok.inj h⟩
    · rintro ⟨made, archive, gone, hcalls, hmade, harchive, hgone, -, rfl⟩
      simp only [List.cons.injEq, Sigma.mk.injEq, true_and, heq_eq_eq, and_true] at hcalls
      obtain ⟨rfl, ⟨-, rfl⟩, -, rfl⟩ := hcalls
      rw [outcomeOfCapture_eq_ok_iff.mpr ⟨rfl, harchive⟩,
        outcomeOfCapture_eq_ok_iff.mpr ⟨rfl, hgone⟩]
      rfl

/-- An export makes no container, or removes the one it made after copying from it, whatever comes
of the copy.  The first command that did not succeed is what the export fails with, and without one
the export is what the copy wrote. -/
theorem exportPath_removes_container (image path : String)
    (os : Answerer Machine.Call Machine.Call.Answer σ) (s : σ) :
    let calls := Procedure.trace os (client.exportPath image path).run s
    let result := (Procedure.run os (client.exportPath image path).run s).1
    (∃ created,
      (∀ e, outcomeOfCapture (client.creation image) created = .error e →
        calls = [exchanged (client.creation image) created] ∧ result = .error e) ∧
      ∀ finished, outcomeOfCapture (client.creation image) created = .ok finished →
        (containerOf finished = "" →
          calls = [exchanged (client.creation image) created] ∧
            result = .error (.missingContainerId (client.program ++ " create " ++ image))) ∧
        (containerOf finished ≠ "" →
          ∃ copied removed,
            calls =
                [exchanged (client.creation image) created,
                  exchanged (client.copying path (containerOf finished)) copied,
                  exchanged (client.removal (containerOf finished)) removed] ∧
              (∀ e, outcomeOfCapture (client.copying path (containerOf finished)) copied =
                  .error e → result = .error e) ∧
              ∀ archive, outcomeOfCapture (client.copying path (containerOf finished)) copied =
                  .ok archive →
                (∀ e, outcomeOfCapture (client.removal (containerOf finished)) removed =
                    .error e → result = .error e) ∧
                ∀ gone, outcomeOfCapture (client.removal (containerOf finished)) removed =
                    .ok gone → result = .ok archive.stdout)) ∧
    ∀ bytes, result = .ok bytes ↔
      ∃ finished archive gone : Finished,
        calls =
            [exchanged (client.creation image) (.ok finished),
              exchanged (client.copying path (containerOf finished)) (.ok archive),
              exchanged (client.removal (containerOf finished)) (.ok gone)] ∧
          finished.status.isSuccess ∧ archive.status.isSuccess ∧ gone.status.isSuccess ∧
          containerOf finished ≠ "" ∧ archive.stdout = bytes := by
  intro calls result
  have hexports : client.Exports image path calls result :=
    client.exports_exportPath image path os s
  refine ⟨?_, hexports.eq_ok_iff⟩
  clear_value calls result
  rcases hexports with
    @⟨created, e, hcreated⟩ | @⟨created, finished, hcreated, hblank⟩ |
    @⟨created, copied, removed, finished, hcreated, hnamed⟩
  · refine ⟨created, fun e' he' => ⟨rfl, ?_⟩, fun finished hfinished => ?_⟩
    · rw [Except.error.inj (hcreated.symm.trans he')]
    · rw [hcreated] at hfinished
      nomatch hfinished
  · refine ⟨created, fun e' he' => ?_, fun finished' hfinished => ⟨fun _ => ⟨rfl, rfl⟩, ?_⟩⟩
    · rw [hcreated] at he'
      nomatch he'
    · obtain rfl := Except.ok.inj (hcreated.symm.trans hfinished)
      exact fun hnamed => absurd hblank hnamed
  · refine ⟨created, fun e' he' => ?_, fun finished' hfinished => ?_⟩
    · rw [hcreated] at he'
      nomatch he'
    · obtain rfl := Except.ok.inj (hcreated.symm.trans hfinished)
      refine ⟨fun hblank => absurd hblank hnamed, fun _ => ⟨copied, removed, rfl,
        fun e he => ?_, fun archive harchive => ⟨fun e he => ?_, fun gone hgone => ?_⟩⟩⟩
      · rw [he]
        rfl
      · rw [harchive, he]
        rfl
      · rw [harchive, hgone]
        rfl

end Client

end StackControl.Engine
