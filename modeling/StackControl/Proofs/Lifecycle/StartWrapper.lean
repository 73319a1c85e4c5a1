import StackControl.Configuration.Load
import StackControl.Proofs.Arguments.Flags
import StackControl.Proofs.Arguments.Requests
import StackControl.Proofs.Lifecycle.ServicePatterns
import StackControl.Proofs.Text.Occurrences

/-!
# Finding the wrapper again

The tool that launched a service is looked for by its name and its subcommand with one blank between
them.  A listing shows its tokens joined by single blanks, so it is found when the subcommand stands
right after the program.  Flags may stand between the two, and then only other tokens, or the text
of the service command among them, can make it be found.
-/

namespace StackControl.Lifecycle

open Procedure (Answerer)
open Reaper (ProcessHandle Shows largestPid listings matching signalled)

variable {config : Config} {arguments : List Bytes} {program : Bytes} {tokens : List Bytes}
  {request : Arguments.Request}

/-! ## Command lines that start the service -/

theorem eq_start_of_commandOf {found : Arguments.Matches} {name : String}
    (h : Arguments.commandOf found name = .start) : name = "start" := by
  unfold Arguments.commandOf at h
  split at h <;> simp_all

/-- No other word names the subcommand that starts the service. -/
theorem aliases_of_mem_subcommands :
    ∀ found ∈ Arguments.subcommands, found.name = "start" → found.aliases = [] := by
  decide

theorem eq_encode_of_subcommand? {token : Bytes}
    (h : Arguments.toolGrammar.subcommand? token = some "start") :
    token = Utf8.encode "start" := by
  rw [Arguments.Grammar.subcommand?] at h
  split at h
  next text htext =>
    obtain ⟨found, hfind, hname⟩ := Option.map_eq_some_iff.mp h
    have haliases := aliases_of_mem_subcommands found (List.mem_of_find?_eq_some hfind) hname
    have htoken := List.find?_some hfind
    rw [hname, haliases, List.contains_nil, Bool.or_false, beq_iff_eq] at htoken
    rw [← Utf8.encode_of_decode? htext, htoken]
  next => cases h

/-- The subcommand that starts the service stands somewhere after the program. -/
theorem exists_start_of_parse
    (hparse : Arguments.parse (Arguments.commandArguments (program :: tokens)) = .ok request)
    (hstart : request.command = .start) :
    ∃ between after, tokens = between ++ Utf8.encode "start" :: after := by
  obtain ⟨name, token, rest, before, after, hsuffix, hname, -, rfl⟩ :=
    Arguments.exists_subcommand_of_parse hparse
  obtain rfl := eq_start_of_commandOf hstart
  rw [eq_encode_of_subcommand? hname, Arguments.commandArguments_cons, List.drop_one,
    List.tail_cons] at hsuffix
  obtain ⟨between, hbetween⟩ := hsuffix.trans (List.drop_suffix _ tokens)
  exact ⟨between, rest, hbetween.symm⟩

/-! ## How a listing shows the wrapper -/

/-- The tokens of a command line, as a listing shows them. -/
def displayed (arguments : List Bytes) : String :=
  " ".intercalate (arguments.map Utf8.decodeLossy)

/-- The letters of the tokens of a command line. -/
def tokenLetters (arguments : List Bytes) : List (List Char) :=
  arguments.map fun token => (Utf8.decodeLossy token).toList

/-- The name of the tool and the subcommand show in a token, or at the end of one and the beginning
of the next. -/
def ShowsWrapper (arguments : List Bytes) : Prop :=
  (∃ letters ∈ tokenLetters arguments, startWrapperPattern.toList <:+: letters) ∨
    Text.MeetIn "stackctl".toList "start".toList (tokenLetters arguments)

theorem toList_displayed (arguments : List Bytes) :
    (displayed arguments).toList = [' '].intercalate (tokenLetters arguments) := by
  rw [displayed, String.toList_intercalate, List.map_map]
  rfl

theorem infix_trimmed_displayed_iff :
    startWrapperPattern.toList <:+: (Text.trimmed (displayed arguments)).toList ↔
      ShowsWrapper arguments := by
  have hpattern : startWrapperPattern.toList = "stackctl".toList ++ ' ' :: "start".toList := by
    decide
  have htrimmed : Text.IsTrimmed startWrapperPattern.toList := by
    have hhead : startWrapperPattern.toList.head? = some 's' := by decide
    have hlast : startWrapperPattern.toList.getLast? = some 't' := by decide
    exact Text.isTrimmed_of_ends hhead (by decide) hlast (by decide)
  rw [Text.trimmed, String.toList_ofList, Text.infix_trim_iff htrimmed (by decide),
    toList_displayed, hpattern, Text.infix_intercalate_iff (by decide) (by decide), ← hpattern]
  rfl

/-- The subcommand right after the tool shows the wrapper. -/
theorem showsWrapper_of_start (hprogram : "stackctl".toList <:+ (Utf8.decodeLossy program).toList) :
    ShowsWrapper (program :: Utf8.encode "start" :: tokens) := by
  have hstart : "start".toList <+: (Utf8.decodeLossy (Utf8.encode "start")).toList := by
    decide +kernel
  exact .inr ⟨[], _, _, tokenLetters tokens, rfl, hprogram, hstart⟩

/-! ## Listings -/

/-- A command line that the patterns of the service select: it shows the wrapper, or the text of the
service command occurs in it. -/
def IsSelected (config : Config) (arguments : List Bytes) : Prop :=
  ShowsWrapper arguments ∨
    (config.serviceCommand ≠ "" ∧
      config.serviceCommand.toList <:+: (Text.trimmed (displayed arguments)).toList)

theorem mem_matching_displayed_iff {listing : String} {ownPid : Nat} {pid : UInt32}
    (hshows : Shows listing ⟨pid, displayed arguments⟩) (hother : pid.toNat ≠ ownPid) :
    ⟨pid, Text.trimmed (displayed arguments)⟩ ∈ matching listing (servicePatterns config) ownPid ↔
      IsSelected config arguments := by
  rw [Reaper.trimmed_mem_matching_iff hshows hother, matchesAny_servicePatterns_iff,
    infix_trimmed_displayed_iff, IsSelected, or_comm]

/-- A command line of the tool that starts the service names the subcommand, and is selected if that
is the first token after the program.  A process that a listing shows with the command line is found
exactly when the command line is selected, and then stopping the service signals it. -/
theorem wrapper_found_iff (context : Context) (program : Bytes) (tokens : List Bytes)
    (request : Arguments.Request)
    (hprogram : "stackctl".toList <:+ (Utf8.decodeLossy program).toList)
    (hparse : Arguments.parse (Arguments.commandArguments (program :: tokens)) = .ok request)
    (hstart : request.command = .start) :
    (∃ between after, tokens = between ++ Utf8.encode "start" :: after) ∧
      (∀ after, tokens = Utf8.encode "start" :: after →
        IsSelected context.config (program :: tokens)) ∧
      (∀ (listing : String) (ownPid : Nat) (pid : UInt32),
        Shows listing ⟨pid, displayed (program :: tokens)⟩ → pid.toNat ≠ ownPid →
          (⟨pid, Text.trimmed (displayed (program :: tokens))⟩ ∈
              matching listing (servicePatterns context.config) ownPid ↔
            IsSelected context.config (program :: tokens))) ∧
      ∀ (σ : Type) (os : Answerer Machine.Call Machine.Call.Answer σ) (s : σ) (ownPid : Nat)
        (listing : String) (pid : UInt32) (forward : Bool),
        IsSelected context.config (program :: tokens) → context.execution = .managed →
        (∀ s, (os .ownPid s).1 = ownPid) →
        Shows listing ⟨pid, displayed (program :: tokens)⟩ → pid.toNat ≠ ownPid →
        pid.toNat ≤ largestPid →
        (listings (Procedure.moments os (handleOnMachine context (.stop forward)) s)).head? =
            some listing →
          (pid.toNat : Int) ∈
            signalled (Procedure.moments os (handleOnMachine context (.stop forward)) s) := by
  refine ⟨exists_start_of_parse hparse hstart, ?_, ?_, ?_⟩
  · rintro after rfl
    exact .inl (showsWrapper_of_start hprogram)
  · intro listing ownPid pid hshows hother
    exact mem_matching_displayed_iff hshows hother
  · intro σ os s ownPid listing pid forward hselected hmanaged hown hshows hother hpid hlisting
    have hmem := (mem_matching_displayed_iff hshows hother).mpr hselected
    rw [signalled_stop hown hmanaged, hlisting, Option.elim_some]
    exact Reaper.mem_signalNumbers.mpr ⟨_, hmem, hpid, rfl⟩

/-- A command line that starts the service with settings after the subcommand. -/
def plainStart : List Bytes :=
  ["stackctl", "start", "--revision", "local"].map Utf8.encode

/-- A command line that starts the service with a flag before the subcommand. -/
def flaggedStart : List Bytes :=
  ["stackctl", "--engine", "podman", "start"].map Utf8.encode

/-- Stopping signals a wrapper with the subcommand right after the program. -/
theorem plainStart_signalled :
    42 ∈ signalled (Procedure.moments (writing "   42 stackctl start --revision local\n")
      (handleOnMachine (managedContext "python3 -m proxy") (.stop false)) ()) := by
  have hprogram : "stackctl".toList <:+ (Utf8.decodeLossy (Utf8.encode "stackctl")).toList := by
    decide +kernel
  have hshows : Shows "   42 stackctl start --revision local\n" ⟨42, displayed plainStart⟩ :=
    Reaper.shows_indented (by decide +kernel)
  obtain ⟨-, hselected, -, hsignalled⟩ := wrapper_found_iff (managedContext "python3 -m proxy")
    _ _ _ hprogram (show Arguments.parse (Arguments.commandArguments plainStart) = .ok _ from rfl) rfl
  exact hsignalled Unit _ () 1 _ 42 false (hselected _ rfl) rfl
    (fun _ => rfl) hshows (by decide) (by decide) (by decide +kernel)

/-- A wrapper with a flag before the subcommand is not found, with the configuration that the flag
gives. -/
theorem flaggedStart_not_found :
    (∃ request, Arguments.parse (Arguments.commandArguments flaggedStart) = .ok request ∧
        request.command = .start) ∧
      displayed flaggedStart = "stackctl --engine podman start" ∧
      Shows "   42 stackctl --engine podman start\n" ⟨42, displayed flaggedStart⟩ ∧
      (Configuration.load ⟨[], FileTree.empty []⟩
        ((Arguments.split flaggedStart).configuration.drop 1)).toOption =
          some { engine := "podman" } ∧
      matching "   42 stackctl --engine podman start\n"
        (servicePatterns { engine := "podman" }) 1 = [] := by
  exact ⟨⟨_, rfl, rfl⟩, by decide +kernel, Reaper.shows_indented (by decide +kernel),
    by decide +kernel, by decide +kernel⟩

end StackControl.Lifecycle
