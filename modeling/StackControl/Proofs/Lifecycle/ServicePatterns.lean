import StackControl.Machine.Files
import StackControl.Proofs.CommandLine
import StackControl.Proofs.Lifecycle.ServiceProcesses
import StackControl.Proofs.Reaper.Listing

/-!
# Finding the service again

A service is launched by the words of its command, and looked for by the text of it.  A listing
shows it with single spaces between the words, so it is found if the text is spelled in this way, or
if the command shows the wrapper.  A blank text has no words and launches nothing, but it is looked
for all the same, unless it is empty; only a line feed, which no command line holds, keeps it from
selecting other processes.
-/

namespace StackControl.Lifecycle

open Procedure (Answerer)
open Reaper (ProcessHandle Shows largestPid listings matching signalNumbers signalled)

variable {config : Config} {line : CommandLine} {handle : ProcessHandle}

theorem matchesAny_servicePatterns_iff :
    handle.matchesAny (servicePatterns config) = true ↔
      (config.serviceCommand ≠ "" ∧
        config.serviceCommand.toList <:+: handle.commandLine.toList) ∨
          startWrapperPattern.toList <:+: handle.commandLine.toList := by
  have hwrapper : startWrapperPattern ≠ "" := by decide
  rw [ProcessHandle.matchesAny_iff]
  simp [servicePatterns, hwrapper]

/-! ## A service that was launched -/

/-- A command whose processes are found by the patterns of the service: it is spelled as it is
displayed, or shows the wrapper. -/
def IsRecognised (config : Config) (line : CommandLine) : Prop :=
  config.serviceCommand = line.display ∨ startWrapperPattern.toList <:+: line.display.toList

theorem matchesAny_display_iff (hparse : CommandLine.parse? config.serviceCommand = some line)
    (pid : UInt32) :
    (ProcessHandle.mk pid line.display).matchesAny (servicePatterns config) = true ↔
      IsRecognised config line := by
  have hne : config.serviceCommand ≠ "" := by
    intro hempty
    rw [hempty] at hparse
    cases hparse
  rw [matchesAny_servicePatterns_iff, CommandLine.infix_display_iff hparse, IsRecognised]
  simp [hne]

theorem mem_matching_display_iff (hparse : CommandLine.parse? config.serviceCommand = some line)
    {listing : String} {ownPid : Nat} {pid : UInt32} (hshows : Shows listing ⟨pid, line.display⟩)
    (hother : pid.toNat ≠ ownPid) :
    ⟨pid, line.display⟩ ∈ matching listing (servicePatterns config) ownPid ↔
      IsRecognised config line := by
  rw [← matchesAny_display_iff hparse pid]
  constructor
  · intro hmem
    exact (Reaper.mem_matching_iff.mp hmem).2.2
  · intro hmatches
    exact Reaper.mem_matching_of_shows hshows (CommandLine.isTrimmed_display hparse) hother hmatches

/-- A process that a listing shows with the words of the service command is found exactly when the
command is recognised.  Then stopping the service signals it, and a shell is not refused. -/
theorem service_found_iff (context : Context) (line : CommandLine)
    (hparse : CommandLine.parse? context.config.serviceCommand = some line) :
    (∀ (listing : String) (ownPid : Nat) (pid : UInt32),
        Shows listing ⟨pid, line.display⟩ → pid.toNat ≠ ownPid →
          (⟨pid, line.display⟩ ∈ matching listing (servicePatterns context.config) ownPid ↔
            IsRecognised context.config line)) ∧
      ∀ (σ : Type) (os : Answerer Machine.Call Machine.Call.Answer σ) (s : σ) (ownPid : Nat)
        (listing : String) (pid : UInt32),
        IsRecognised context.config line → context.execution = .managed →
        (∀ s, (os .ownPid s).1 = ownPid) →
        Shows listing ⟨pid, line.display⟩ → pid.toNat ≠ ownPid →
          (∀ forward, pid.toNat ≤ largestPid →
            (listings (Procedure.moments os (handleOnMachine context (.stop forward)) s)).head? =
                some listing →
              (pid.toNat : Int) ∈
                signalled (Procedure.moments os (handleOnMachine context (.stop forward)) s)) ∧
            ((listings (Procedure.moments os (handleOnMachine context .shell) s)).head? =
                some listing →
              (Procedure.run os (handleOnMachine context .shell) s).1 ≠
                .error .serviceNotRunning) := by
  constructor
  · intro listing ownPid pid hshows hother
    exact mem_matching_display_iff hparse hshows hother
  · intro σ os s ownPid listing pid hrecognised hmanaged hown hshows hother
    have hmem := (mem_matching_display_iff hparse hshows hother).mpr hrecognised
    constructor
    · intro forward hpid hlisting
      rw [signalled_stop hown hmanaged, hlisting, Option.elim_some]
      exact Reaper.mem_signalNumbers.mpr ⟨_, hmem, hpid, rfl⟩
    · intro hlisting hrefused
      obtain ⟨listing', hlisting', hnone⟩ := (shell_refused_iff hown hmanaged s).mp hrefused
      rw [hlisting] at hlisting'
      rw [Option.some.inj hlisting', hnone] at hmem
      cases hmem

/-- A machine on which every program succeeds and writes one text, over an empty file tree. -/
def writing (text : String) : Answerer Machine.Call Machine.Call.Answer Unit
  | .launch _ _, s => (.ok ⟨.exited 0, Utf8.encode text, []⟩, s)
  | .spawn _, s => (.ok (), s)
  | .terminate _, s => (.ok (), s)
  | .ownPid, s => (1, s)
  | .searchPath, s => (some (Utf8.encode "/bin"), s)
  | .isFile _, s => (true, s)
  | .files request, s => ((request.perform (FileTree.empty [])).1, s)
  | .clock .now, s => (0, s)
  | .clock (.sleep _), s => ((), s)
  | .print _ _, s => (.ok (), s)

/-- The default context in the managed runtime, with a service command. -/
def managedContext (serviceCommand : String) : Context where
  config := { serviceCommand := serviceCommand }
  configurationArguments := [Utf8.encode "stackctl"]
  settings := .resolve .none fun _ => none
  execution := .managed
  patience := 0

theorem shows_proxy : Shows "   42 python3 -m proxy\n" ⟨42, "python3 -m proxy"⟩ :=
  Reaper.shows_indented (by decide +kernel)

/-- The service by its default command is found again, signalled and enough for a shell. -/
theorem service_found_proxy :
    42 ∈ signalled (Procedure.moments (writing "   42 python3 -m proxy\n")
        (handleOnMachine (managedContext "python3 -m proxy") (.stop false)) ()) ∧
      (Procedure.run (writing "   42 python3 -m proxy\n")
        (handleOnMachine (managedContext "python3 -m proxy") .shell) ()).1 ≠
          .error .serviceNotRunning := by
  have hparse : CommandLine.parse? "python3 -m proxy" = some ⟨"python3", ["-m", "proxy"]⟩ := by
    decide +kernel
  have hrecognised : IsRecognised (managedContext "python3 -m proxy").config
      ⟨"python3", ["-m", "proxy"]⟩ := .inl (by decide +kernel)
  obtain ⟨hstop, hshell⟩ := (service_found_iff (managedContext _) _ hparse).2 Unit
    (writing "   42 python3 -m proxy\n") () 1 "   42 python3 -m proxy\n" 42 hrecognised rfl
    (fun _ => rfl) shows_proxy (by decide)
  exact ⟨hstop false (by decide) (by decide +kernel), hshell (by decide +kernel)⟩

/-- A command with two blanks between its words launches a service that is not found again. -/
theorem spaced_service_not_found :
    CommandLine.parse? "python3 -m  proxy" = some ⟨"python3", ["-m", "proxy"]⟩ ∧
      Shows "   42 python3 -m proxy\n"
        ⟨42, (CommandLine.mk "python3" ["-m", "proxy"]).display⟩ ∧
      matching "   42 python3 -m proxy\n"
        (servicePatterns (managedContext "python3 -m  proxy").config) 1 = [] ∧
      (Procedure.run (writing "   42 python3 -m proxy\n")
        (handleOnMachine (managedContext "python3 -m  proxy") .shell) ()).1 =
          .error .serviceNotRunning := by
  have hdisplay : (CommandLine.mk "python3" ["-m", "proxy"]).display = "python3 -m proxy" := by
    decide +kernel
  rw [hdisplay]
  exact ⟨by decide +kernel, shows_proxy, by decide +kernel, by decide +kernel⟩

/-! ## A command that is blank -/

/-- A blank command that selects no process by itself: it is empty, or its text has a line feed,
which no command line has. -/
def IsHarmless (config : Config) : Prop :=
  config.serviceCommand = "" ∨ '\n' ∈ config.serviceCommand.toList

theorem wrapper_of_isHarmless (hharmless : IsHarmless config) {listing : String} {ownPid : Nat}
    (hmem : handle ∈ matching listing (servicePatterns config) ownPid) :
    startWrapperPattern.toList <:+: handle.commandLine.toList := by
  have hmatches := (Reaper.mem_matching_iff.mp hmem).2.2
  rcases matchesAny_servicePatterns_iff.mp hmatches with ⟨hne, htext⟩ | hwrapper
  · rcases hharmless with hempty | hnewline
    · exact absurd hempty hne
    · exact absurd (htext.subset hnewline) (Reaper.newline_notMem_commandLine hmem)
  · exact hwrapper

/-- A process whose command line is a blank text in brackets. -/
def bracketed (text : String) : ProcessHandle where
  pid := 1
  commandLine := String.ofList ('[' :: text.toList ++ [']'])

theorem shows_bracketed {text : String} (h : '\n' ∉ text.toList) :
    Shows (String.ofList ('1' :: ' ' :: (bracketed text).commandLine.toList)) (bracketed text) := by
  have hline : '\n' ∉ '1' :: ' ' :: (bracketed text).commandLine.toList := by
    simp [bracketed, h]
  have hspace : Text.isBlank ' ' = true := by decide
  have hnumber : (1 : UInt32).toNat.repr.toList = ['1'] := by decide
  rw [Shows, String.toList_ofList, Text.lines_of_newline_notMem (List.cons_ne_nil _ _) hline]
  refine ⟨_, List.mem_singleton_self _, [], [' '], by simp, by simp [hspace], by simp, ?_⟩
  rw [bracketed, hnumber]
  rfl

theorem isTrimmed_bracketed (text : String) :
    Text.IsTrimmed (bracketed text).commandLine.toList := by
  have hlast : (bracketed text).commandLine.toList.getLast? = some ']' := by
    rw [bracketed, String.toList_ofList, List.getLast?_concat]
  exact Text.isTrimmed_of_ends (show _ = some '[' by simp [bracketed]) (by decide) hlast (by decide)

/-- A blank command that is not harmless selects a process that is no wrapper. -/
theorem exists_selected_of_not_isHarmless
    (hblank : CommandLine.parse? config.serviceCommand = none) (h : ¬IsHarmless config) :
    ∃ listing handle, handle ∈ matching listing (servicePatterns config) 0 ∧
      ¬startWrapperPattern.toList <:+: handle.commandLine.toList := by
  rw [IsHarmless, not_or] at h
  have hmatches : (bracketed config.serviceCommand).matchesAny (servicePatterns config) = true := by
    apply matchesAny_servicePatterns_iff.mpr
    exact .inl ⟨h.1, ['['], [']'], by simp [bracketed]⟩
  have hother : (bracketed config.serviceCommand).pid.toNat ≠ 0 :=
    show (1 : UInt32).toNat ≠ 0 by decide
  refine ⟨_, _, Reaper.mem_matching_of_shows (shows_bracketed h.2) (isTrimmed_bracketed _) hother
    hmatches, ?_⟩
  intro hwrapper
  have hletter : 's' ∈ (bracketed config.serviceCommand).commandLine.toList :=
    hwrapper.subset (by decide)
  have hmem : 's' ∈ config.serviceCommand.toList := by simpa [bracketed] using hletter
  have hnot := CommandLine.parse?_eq_none_iff.mp hblank 's' hmem
  revert hnot
  decide

/-- Of a blank command the patterns select only the wrapper exactly when it is harmless.  Then
stopping the service signals nothing else. -/
theorem blank_selects_wrapper_iff (context : Context)
    (hblank : CommandLine.parse? context.config.serviceCommand = none) :
    ((∀ listing ownPid, ∀ handle ∈ matching listing (servicePatterns context.config) ownPid,
        startWrapperPattern.toList <:+: handle.commandLine.toList) ↔
      IsHarmless context.config) ∧
      ∀ (σ : Type) (os : Answerer Machine.Call Machine.Call.Answer σ) (s : σ) (ownPid : Nat)
        (forward : Bool),
        IsHarmless context.config → context.execution = .managed →
        (∀ s, (os .ownPid s).1 = ownPid) →
          ∀ pid ∈ signalled (Procedure.moments os (handleOnMachine context (.stop forward)) s),
            ∃ listing ∈ listings
                (Procedure.moments os (handleOnMachine context (.stop forward)) s),
              ∃ handle ∈ matching listing (servicePatterns context.config) ownPid,
                (handle.pid.toNat : Int) = pid ∧
                  startWrapperPattern.toList <:+: handle.commandLine.toList := by
  constructor
  · constructor
    · intro hselects
      by_contra hharmless
      obtain ⟨listing, handle, hmem, hnot⟩ := exists_selected_of_not_isHarmless hblank hharmless
      exact hnot (hselects listing 0 handle hmem)
    · intro hharmless listing ownPid handle hmem
      exact wrapper_of_isHarmless hharmless hmem
  · intro σ os s ownPid forward hharmless hmanaged hown pid hpid
    rw [signalled_stop hown hmanaged] at hpid
    cases hlisting : (listings
        (Procedure.moments os (handleOnMachine context (.stop forward)) s)).head? with
    | none =>
        rw [hlisting] at hpid
        cases hpid
    | some listing =>
        rw [hlisting, Option.elim_some] at hpid
        obtain ⟨handle, hmem, -, hnumber⟩ := Reaper.mem_signalNumbers.mp hpid
        exact ⟨listing, List.mem_of_mem_head? hlisting, handle, hmem, hnumber,
          wrapper_of_isHarmless hharmless hmem⟩

/-- A listing of a service and of the wrapper that launched another one. -/
def serviceAndWrapper : String :=
  "   42 python3 -m proxy\n   43 stackctl start\n"

/-- An empty command selects the wrapper and nothing else, and stopping signals nothing else. -/
theorem empty_selects_wrapper :
    (∀ handle ∈ matching serviceAndWrapper (servicePatterns (managedContext "").config) 1,
      startWrapperPattern.toList <:+: handle.commandLine.toList) ∧
      ∀ pid ∈ signalled (Procedure.moments (writing serviceAndWrapper)
          (handleOnMachine (managedContext "") (.stop false)) ()),
        pid = 43 := by
  have hblank : CommandLine.parse? (managedContext "").config.serviceCommand = none := by
    decide +kernel
  obtain ⟨hselects, hstop⟩ := blank_selects_wrapper_iff (managedContext "") hblank
  refine ⟨hselects.mpr (.inl rfl) _ _, ?_⟩
  intro pid hpid
  obtain ⟨listing, hlisting, handle, hmem, rfl, -⟩ := hstop Unit _ () 1 false (.inl rfl) rfl
    (fun _ => rfl) pid hpid
  have hlistings : listings (Procedure.moments (writing serviceAndWrapper)
      (handleOnMachine (managedContext "") (.stop false)) ()) =
        [serviceAndWrapper, serviceAndWrapper] := by
    decide +kernel
  rw [hlistings, List.mem_cons, List.mem_singleton, or_self] at hlisting
  have hmatching : matching serviceAndWrapper (servicePatterns (managedContext "").config) 1 =
      [⟨43, "stackctl start"⟩] := by
    decide +kernel
  rw [hlisting, hmatching, List.mem_singleton] at hmem
  rw [hmem]
  rfl

/-- A command of one blank selects whatever has arguments. -/
theorem space_selects_others :
    CommandLine.parse? " " = none ∧
      matching "    7 sleep 100\n" (servicePatterns (managedContext " ").config) 1 =
        [⟨7, "sleep 100"⟩] ∧
      ¬startWrapperPattern.toList <:+: "sleep 100".toList := by
  decide +kernel

end StackControl.Lifecycle
