import StackControl.Proofs.Engine.Capture

/-!
# Asking for the logs of a service

Whether a service has a container is asked first, of the running ones and then of all; a container
is one line that is not blank.  Only then are its logs read.  Whatever the engine answers, the
commands and what comes of them are among five courses.
-/

namespace StackControl.Engine

open Procedure (Answerer Exchange)

variable {σ : Type}

/-- An output that names a container: not all of its lines are blank. -/
def NamesContainer (output : Bytes) : Prop :=
  ∃ line ∈ Text.lines (Utf8.decodeLossy output).toList, Text.trim line ≠ []

instance (output : Bytes) : Decidable (NamesContainer output) :=
  inferInstanceAs (Decidable (∃ _ ∈ _, _))

/-- Everything a command wrote, as text. -/
def writtenText (finished : Finished) : String :=
  Utf8.decodeLossy finished.stdout ++ Utf8.decodeLossy finished.stderr

theorem map_writtenText_eq_iff {launch : Launch} {answer : Except LaunchFault Finished}
    {logs : String} :
    (outcomeOfCapture launch answer).map (some ∘ writtenText) = .ok (some logs) ↔
      ∃ output : Finished, .ok output = answer ∧ output.status.isSuccess ∧
        logs = writtenText output := by
  rcases h : outcomeOfCapture launch answer with e | output
  · refine iff_of_false nofun ?_
    rintro ⟨output, rfl, hsuccess, -⟩
    simp [isSuccess_of_outcomeOfCapture_error h] at hsuccess
  · obtain ⟨rfl, hsuccess⟩ := outcomeOfCapture_eq_ok_iff.mp h
    simpa [Except.map, hsuccess] using eq_comm

theorem firstContainerId_eq_none_iff {output : Bytes} :
    firstContainerId output = none ↔ ¬NamesContainer output := by
  simp [firstContainerId, NamesContainer]

theorem firstContainerId_ne_none_iff {output : Bytes} :
    firstContainerId output ≠ none ↔ NamesContainer output := by
  rw [Ne, firstContainerId_eq_none_iff, Decidable.not_not]

namespace Client

variable (client : Client) (group : ServiceGroup) (service : String)

/-- The command that lists the running containers of a service. -/
def listingRunning : Launch :=
  client.compose group ["ps", "--status", "running", "-q", service]

/-- The command that lists all containers of a service. -/
def listingAll : Launch :=
  client.compose group ["ps", "-a", "-q", service]

/-- The command that writes the logs of a service. -/
def readingLogs : Launch :=
  client.compose group ["logs", "--no-color", service]

/-- What asking for the logs of a service does, and what it comes to. -/
inductive AsksLogs :
    List (Exchange Machine.Call Machine.Call.Answer) → Except Error (Option String) → Prop
  | notListed {running : Except LaunchFault Finished} {e : Error} :
      outcomeOfCapture (client.listingRunning group service) running = .error e →
        AsksLogs [exchanged (client.listingRunning group service) running] (.error e)
  | running {running output : Except LaunchFault Finished} {listed : Finished} :
      outcomeOfCapture (client.listingRunning group service) running = .ok listed →
        NamesContainer listed.stdout →
          AsksLogs
            [exchanged (client.listingRunning group service) running,
              exchanged (client.readingLogs group service) output]
            ((outcomeOfCapture (client.readingLogs group service) output).map
              (some ∘ writtenText))
  | notKnown {running all : Except LaunchFault Finished} {listed : Finished} {e : Error} :
      outcomeOfCapture (client.listingRunning group service) running = .ok listed →
        ¬NamesContainer listed.stdout →
          outcomeOfCapture (client.listingAll group service) all = .error e →
            AsksLogs
              [exchanged (client.listingRunning group service) running,
                exchanged (client.listingAll group service) all]
              (.error e)
  | absent {running all : Except LaunchFault Finished} {listed known : Finished} :
      outcomeOfCapture (client.listingRunning group service) running = .ok listed →
        ¬NamesContainer listed.stdout →
          outcomeOfCapture (client.listingAll group service) all = .ok known →
            ¬NamesContainer known.stdout →
              AsksLogs
                [exchanged (client.listingRunning group service) running,
                  exchanged (client.listingAll group service) all]
                (.ok none)
  | stopped {running all output : Except LaunchFault Finished} {listed known : Finished} :
      outcomeOfCapture (client.listingRunning group service) running = .ok listed →
        ¬NamesContainer listed.stdout →
          outcomeOfCapture (client.listingAll group service) all = .ok known →
            NamesContainer known.stdout →
              AsksLogs
                [exchanged (client.listingRunning group service) running,
                  exchanged (client.listingAll group service) all,
                  exchanged (client.readingLogs group service) output]
                ((outcomeOfCapture (client.readingLogs group service) output).map
                  (some ∘ writtenText))

theorem compose_inj {arguments arguments' : List String} :
    client.compose group arguments = client.compose group arguments' ↔ arguments = arguments' := by
  simp [compose, composeArguments]

theorem exchanged_inj {launch launch' : Launch} {answer answer' : Except LaunchFault Finished} :
    exchanged launch answer = exchanged launch' answer' ↔ launch = launch' ∧ answer = answer' := by
  simp [exchanged]

theorem readingLogs_ne_listingRunning :
    client.readingLogs group service ≠ client.listingRunning group service := by
  simp [readingLogs, listingRunning, compose_inj]

theorem readingLogs_ne_listingAll :
    client.readingLogs group service ≠ client.listingAll group service := by
  simp [readingLogs, listingAll, compose_inj]

variable {client group service} in
/-- The logs of a service are read exactly if one of the listings names a container. -/
theorem AsksLogs.reads_iff {asked : List (Exchange Machine.Call Machine.Call.Answer)}
    {answer : Except Error (Option String)} (h : client.AsksLogs group service asked answer) :
    (∃ output, exchanged (client.readingLogs group service) output ∈ asked) ↔
      ∃ listing ∈ [client.listingRunning group service, client.listingAll group service],
        ∃ listed : Finished, exchanged listing (.ok listed) ∈ asked ∧ listed.status.isSuccess ∧
          NamesContainer listed.stdout := by
  have hread := client.readingLogs_ne_listingRunning group service
  have hread' := client.readingLogs_ne_listingAll group service
  rcases h with hrunning | ⟨hrunning, hnames⟩ | ⟨hrunning, hnone, hknown⟩ |
    ⟨hrunning, hnone, hknown, hnone'⟩ | ⟨hrunning, hnone, hknown, hnames⟩
  · refine iff_of_false (by simp [hread]) ?_
    rintro ⟨listing, -, listed, hmem, hsuccess, -⟩
    obtain ⟨-, rfl⟩ := exchanged_inj.mp (List.mem_singleton.mp hmem)
    simp [isSuccess_of_outcomeOfCapture_error hrunning] at hsuccess
  · obtain ⟨rfl, hsuccess⟩ := outcomeOfCapture_eq_ok_iff.mp hrunning
    exact iff_of_true ⟨_, .tail _ (.head _)⟩ ⟨_, .head _, _, .head _, hsuccess, hnames⟩
  · obtain ⟨rfl, -⟩ := outcomeOfCapture_eq_ok_iff.mp hrunning
    refine iff_of_false (by simp [hread, hread']) ?_
    rintro ⟨listing, -, listed, hmem, hsuccess, hnames⟩
    simp only [List.mem_cons, List.not_mem_nil, or_false, exchanged_inj] at hmem
    rcases hmem with ⟨-, hanswer⟩ | ⟨-, rfl⟩
    · exact hnone (Except.ok.inj hanswer ▸ hnames)
    · simp [isSuccess_of_outcomeOfCapture_error hknown] at hsuccess
  · obtain ⟨rfl, -⟩ := outcomeOfCapture_eq_ok_iff.mp hrunning
    obtain ⟨rfl, -⟩ := outcomeOfCapture_eq_ok_iff.mp hknown
    refine iff_of_false (by simp [hread, hread']) ?_
    rintro ⟨listing, -, listed, hmem, -, hnames⟩
    simp only [List.mem_cons, List.not_mem_nil, or_false, exchanged_inj] at hmem
    rcases hmem with ⟨-, hanswer⟩ | ⟨-, hanswer⟩
    · exact hnone (Except.ok.inj hanswer ▸ hnames)
    · exact hnone' (Except.ok.inj hanswer ▸ hnames)
  · obtain ⟨rfl, hsuccess⟩ := outcomeOfCapture_eq_ok_iff.mp hknown
    exact iff_of_true ⟨_, .tail _ (.tail _ (.head _))⟩
      ⟨_, .tail _ (.head _), _, .tail _ (.head _), hsuccess, hnames⟩

variable {client group service} in
/-- There are logs exactly if they could be read, and they are all that was written then. -/
theorem AsksLogs.answer_iff {asked : List (Exchange Machine.Call Machine.Call.Answer)}
    {answer : Except Error (Option String)} (h : client.AsksLogs group service asked answer)
    (logs : String) :
    answer = .ok (some logs) ↔
      ∃ output : Finished, exchanged (client.readingLogs group service) (.ok output) ∈ asked ∧
        output.status.isSuccess ∧ logs = writtenText output := by
  have hread := client.readingLogs_ne_listingRunning group service
  have hread' := client.readingLogs_ne_listingAll group service
  rcases h with - | - | - | - | -
  · simp [hread]
  · simp [hread, map_writtenText_eq_iff]
  · simp [hread, hread']
  · simp [hread, hread']
  · simp [hread, hread', map_writtenText_eq_iff]

/-- The part of asking for logs that knows of a container. -/
def logsOfContainer : Attempt (Option String) := do
  let output ← capture (client.readingLogs group service)
  return some (writtenText output)

theorem logs_eq :
    client.logs group service =
      capture (client.listingRunning group service) >>= fun listed =>
        if (firstContainerId listed.stdout).isNone then
          capture (client.listingAll group service) >>= fun known =>
            if (firstContainerId known.stdout).isNone then pure none
            else client.logsOfContainer group service
        else client.logsOfContainer group service := by
  rw [logs, runningContainer, bind_assoc]
  refine congrArg (capture (client.listingRunning group service) >>= ·) (funext fun listed => ?_)
  rw [pure_bind]
  split
  · refine congrArg (capture (client.listingAll group service) >>= ·) (funext fun known => ?_)
    split
    · rfl
    · rfl
  · rfl

/-- Once there is a container, what is left is to read its logs. -/
theorem run_logsOfContainer (os : Answerer Machine.Call Machine.Call.Answer σ) (s : σ) :
    Procedure.run os (client.logsOfContainer group service).run s =
      ((outcomeOfCapture (client.readingLogs group service)
          (os (.launch (client.readingLogs group service) .captured) s).1).map (some ∘ writtenText),
        (os (.launch (client.readingLogs group service) .captured) s).2) := by
  rw [logsOfContainer, Procedure.run_bind_run, run_capture]
  rcases outcomeOfCapture (client.readingLogs group service) _ with e | output
  · rfl
  · rfl

theorem trace_logsOfContainer (os : Answerer Machine.Call Machine.Call.Answer σ) (s : σ) :
    Procedure.trace os (client.logsOfContainer group service).run s =
      [exchanged (client.readingLogs group service)
        (os (.launch (client.readingLogs group service) .captured) s).1] := by
  rw [logsOfContainer, Procedure.trace_bind_run, trace_capture, run_capture]
  rcases outcomeOfCapture (client.readingLogs group service) _ with e | output
  · rfl
  · rfl

theorem asksLogs_logs (os : Answerer Machine.Call Machine.Call.Answer σ) (s : σ) :
    client.AsksLogs group service (Procedure.trace os (client.logs group service).run s)
      (Procedure.run os (client.logs group service).run s).1 := by
  rw [logs_eq, Procedure.trace_bind_run, Procedure.run_bind_run, trace_capture, run_capture]
  generalize os (.launch (client.listingRunning group service) .captured) s = running
  rcases hrunning : outcomeOfCapture (client.listingRunning group service) running.1
    with e | listed
  · exact .notListed hrunning
  · dsimp only
    by_cases hlisted : firstContainerId listed.stdout = none
    · have hlisted' := firstContainerId_eq_none_iff.mp hlisted
      rw [if_pos (by simp [hlisted]), Procedure.trace_bind_run, Procedure.run_bind_run,
        trace_capture, run_capture]
      generalize os (.launch (client.listingAll group service) .captured) running.2 = all
      rcases hall : outcomeOfCapture (client.listingAll group service) all.1 with e | known
      · exact .notKnown hrunning hlisted' hall
      · dsimp only
        by_cases hknown : firstContainerId known.stdout = none
        · rw [if_pos (by simp [hknown])]
          exact .absent hrunning hlisted' hall (firstContainerId_eq_none_iff.mp hknown)
        · rw [if_neg (by simpa using hknown), trace_logsOfContainer, run_logsOfContainer]
          exact .stopped hrunning hlisted' hall (firstContainerId_ne_none_iff.mp hknown)
    · rw [if_neg (by simpa using hlisted), trace_logsOfContainer, run_logsOfContainer]
      exact .running hrunning (firstContainerId_ne_none_iff.mp hlisted)

/-- Asking for logs is done by commands whose output is kept, and by nothing else. -/
theorem only_captured_logs :
    (client.logs group service).run.Only fun call => ∃ launch, call = .launch launch .captured := by
  have hcontainer : (client.logsOfContainer group service).run.Only
      fun call => ∃ launch, call = .launch launch .captured :=
    (only_captured _).bind_run fun _ => trivial
  rw [logs_eq]
  refine (only_captured _).bind_run fun listed => ?_
  split
  · refine (only_captured _).bind_run fun known => ?_
    split
    · trivial
    · exact hcontainer
  · exact hcontainer

end Client

end StackControl.Engine
