import StackControl.Procedure
import StackControl.Run

/-!
# How runs end

A run goes through its stages in order and ends at the first that fails, or with what came of the
command.  What it says itself, it says at the very end, and its exit status tells a failure from a
success: nothing but a command that ended with zero, or a request for help, ends with zero.
-/

namespace StackControl.Run

open Lifecycle (Command Context Outcome)
open Procedure (Answerer Exchange)

/-- The calls of a run, with their answers. -/
abbrev Record :=
  List (Exchange Call Call.Answer)

/-- The stream that a run writes to with a call; what a command writes while it is carried out is
its own. -/
def Call.stream? : Call → Option Machine.OutputStream
  | write stream _ | writeLine stream _ => some stream
  | _ => none

/-- Whether an error says that the tool was misused, by its command line or in the wrong context. -/
def Error.isMisuse : Error → Bool
  | usage _ => true
  | lifecycle (.wrongContext _ _ _) => true
  | _ => false

/-- Whether a command is carried out by a call. -/
def isHandling (exchange : Exchange Call Call.Answer) : Bool :=
  match exchange.1 with
  | .handle _ _ => true
  | _ => false

/-- A command was carried out in a run, with this result. -/
def Returned (record : Record) (result : Except Lifecycle.Error Outcome) : Prop :=
  ∃ command context, ⟨.handle command context, result⟩ ∈ record

/-- What stops a run, by its command line and by what its calls are answered. -/
def StoppedBy (arguments : List Bytes) (record : Record) : Error → Prop
  | .usage error => Arguments.parse (Arguments.commandArguments arguments) = .error error
  | .configuration error => ∃ flags, ⟨.loadConfiguration flags, .error error⟩ ∈ record
  | .logging error => ∃ config, ⟨.startLogging config, .error error⟩ ∈ record
  | .lifecycle error => Returned record (.error error)

variable {σ α : Type} {arguments : List Bytes} {record : Record} {result : Except Error Outcome}

/-! ## What a run goes through -/

/-- What a run goes through before its command is carried out in a context. -/
def untilHandled (arguments : List Bytes) (context : Context) (environment : Environment) :
    Record :=
  [ ⟨.loadConfiguration (Arguments.split arguments).configuration, .ok context.config⟩
  , ⟨.startLogging context.config, .ok ()⟩
  , ⟨.environment, environment⟩
  , ⟨.detectContext, context.execution⟩ ]

/-- The courses that an attempt at a command line can take, with what comes of it. -/
inductive Course (arguments : List Bytes) : Record → Except Error Outcome → Prop
  | refused (error : Arguments.UsageError)
      (hparse : Arguments.parse (Arguments.commandArguments arguments) = .error error) :
      Course arguments [] (.error (.usage error))
  | unloaded (request : Arguments.Request) (error : Configuration.LoadError)
      (hparse : Arguments.parse (Arguments.commandArguments arguments) = .ok request) :
      Course arguments
        [⟨.loadConfiguration (Arguments.split arguments).configuration, .error error⟩]
        (.error (.configuration error))
  | unlogged (request : Arguments.Request) (config : Config) (error : LoggingError)
      (hparse : Arguments.parse (Arguments.commandArguments arguments) = .ok request) :
      Course arguments
        [ ⟨.loadConfiguration (Arguments.split arguments).configuration, .ok config⟩
        , ⟨.startLogging config, .error error⟩ ]
        (.error (.logging error))
  | handled (request : Arguments.Request) (context : Context) (environment : Environment)
      (answer : Except Lifecycle.Error Outcome)
      (hparse : Arguments.parse (Arguments.commandArguments arguments) = .ok request) :
      Course arguments
        (untilHandled arguments context environment ++ [⟨.handle request.command context, answer⟩])
        (answer.mapError .lifecycle)

theorem attempt_of_parse_error {patience : Nat} {error : Arguments.UsageError}
    (hparse : Arguments.parse (Arguments.commandArguments arguments) = .error error) :
    (attempt patience arguments).run = .done (.error (.usage error)) := by
  rw [attempt, hparse]
  rfl

/-- The context of a command, from what was loaded and looked up for it. -/
def contextOf (patience : Nat) (arguments : List Bytes) (request : Arguments.Request)
    (config : Config) (environment : Environment) (execution : ExecutionContext) : Context where
  config := config
  configurationArguments := (Arguments.split arguments).configuration
  settings := .resolve request.settings environment
  execution := execution
  patience := patience

/-- An attempt at a command line that can be read. -/
theorem attempt_of_parse {patience : Nat} {request : Arguments.Request}
    (hparse : Arguments.parse (Arguments.commandArguments arguments) = .ok request) :
    (attempt patience arguments).run =
      .ask (.loadConfiguration (Arguments.split arguments).configuration) fun
        | .error error => .done (.error (.configuration error))
        | .ok config =>
          .ask (.startLogging config) fun
            | .error error => .done (.error (.logging error))
            | .ok () =>
              .ask .environment fun environment =>
                .ask .detectContext fun execution =>
                  .ask (.handle request.command
                      (contextOf patience arguments request config environment execution))
                    fun answer => .done (answer.mapError .lifecycle) := by
  rw [attempt, hparse]
  apply congrArg (Procedure.ask _)
  funext loaded
  rcases loaded with error | config
  · rfl
  · apply congrArg (Procedure.ask _)
    funext started
    rcases started <;> rfl

/-- An attempt takes one of the courses. -/
theorem course_attempt (answerer : Answerer Call Call.Answer σ) (patience : Nat)
    (arguments : List Bytes) (s : σ) :
    Course arguments ((attempt patience arguments).run.trace answerer s)
      ((attempt patience arguments).run.run answerer s).1 := by
  rcases hparse : Arguments.parse (Arguments.commandArguments arguments) with error | request
  · rw [attempt_of_parse_error hparse]
    exact .refused error hparse
  rw [attempt_of_parse hparse]
  rcases hload : answerer (.loadConfiguration (Arguments.split arguments).configuration) s with
    ⟨error | config, s⟩
  · simp only [Procedure.trace_ask, Procedure.run_ask, hload]
    exact .unloaded request error hparse
  rcases hlog : answerer (.startLogging config) s with ⟨error | _, s⟩
  · simp only [Procedure.trace_ask, Procedure.run_ask, hload, hlog]
    exact .unlogged request config error hparse
  simp only [Procedure.trace_ask, Procedure.run_ask, hload, hlog]
  -- the environment and the place are looked up without a way to fail
  generalize answerer .environment s = looked
  generalize answerer .detectContext looked.2 = detected
  exact .handled request (contextOf patience arguments request config looked.1 detected.1)
    looked.1 _ hparse

/-! ## What a course shows -/

theorem Course.countP_isHandling_le (h : Course arguments record result) :
    record.countP isHandling ≤ 1 := by
  rcases h <;> simp [untilHandled, isHandling]

/-- A command is carried out after the configuration it is given was loaded, and after logging was
set up with it. -/
theorem Course.sublist_of_handle {command : Command} {context : Context}
    {answer : Except Lifecycle.Error Outcome} (h : Course arguments record result)
    (hmem : ⟨.handle command context, answer⟩ ∈ record) :
    ∃ request, Arguments.parse (Arguments.commandArguments arguments) = .ok request ∧
      request.command = command ∧
      [ ⟨.loadConfiguration (Arguments.split arguments).configuration, .ok context.config⟩
      , ⟨.startLogging context.config, .ok ()⟩
      , ⟨.handle command context, answer⟩ ].Sublist record := by
  rcases h with ⟨error, hparse⟩ | ⟨request, error, hparse⟩ | ⟨request, config, error, hparse⟩ |
    ⟨request, _, environment, _, hparse⟩
  all_goals simp [untilHandled] at hmem
  obtain ⟨⟨rfl, rfl⟩, rfl⟩ := hmem
  exact ⟨request, hparse, rfl, by simp [untilHandled]⟩

theorem mapError_eq_ok_iff {answer : Except Lifecycle.Error Outcome} {outcome : Outcome} :
    answer.mapError Error.lifecycle = .ok outcome ↔ answer = .ok outcome := by
  rcases answer with error | ended
  · simp only [reduceCtorEq, iff_false]
    intro h
    cases h
  · change Except.ok ended = .ok outcome ↔ Except.ok ended = .ok outcome
    simp only [Except.ok.injEq]

theorem mapError_eq_error_iff {answer : Except Lifecycle.Error Outcome} {error : Error} :
    answer.mapError Error.lifecycle = .error error ↔
      ∃ cause, answer = .error cause ∧ .lifecycle cause = error := by
  rcases answer with cause | ended
  · change Except.error (Error.lifecycle cause) = .error error ↔ _
    simp
  · simp only [reduceCtorEq, false_and, exists_false, iff_false]
    intro h
    cases h

theorem Course.eq_ok_iff {outcome : Outcome} (h : Course arguments record result) :
    result = .ok outcome ↔ Returned record (.ok outcome) := by
  rcases h
  all_goals simp [Returned, untilHandled, mapError_eq_ok_iff, eq_comm]

theorem Course.eq_error_iff {error : Error} (h : Course arguments record result) :
    result = .error error ↔ StoppedBy arguments record error := by
  rcases h with ⟨_, hparse⟩ | ⟨_, _, hparse⟩ | ⟨_, _, _, hparse⟩ | ⟨_, _, _, _, hparse⟩
  all_goals
    cases error <;>
      simp [StoppedBy, Returned, hparse, untilHandled, mapError_eq_error_iff, eq_comm]

/-- An attempt writes nothing beside what the command does that it carries out. -/
theorem Course.stream?_eq_none (h : Course arguments record result) :
    ∀ exchange ∈ record, exchange.1.stream? = none := by
  rcases h <;> simp [untilHandled, Call.stream?]

/-! ## How a run ends -/

/-- What a run says of itself at its end. -/
def closing : Except Error Outcome → Record
  | .ok _ => []
  | .error error =>
    if error.isRequest then [⟨.write .stdout error.notice, ()⟩]
    else [⟨.writeLine .stderr error.notice, ()⟩]

/-- The exit status of a run. -/
def statusOf : Except Error Outcome → Nat
  | .ok outcome => reportedStatus outcome.exitCode
  | .error error => if error.isRequest then 0 else error.exitStatus

theorem trace_conclude (answerer : Answerer Call Call.Answer σ) (result : Except Error Outcome)
    (s : σ) : (conclude result).trace answerer s = closing result := by
  rcases result with error | outcome
  · rw [conclude, closing]
    split <;> rfl
  · rfl

theorem run_conclude (answerer : Answerer Call Call.Answer σ) (result : Except Error Outcome)
    (s : σ) : ((conclude result).run answerer s).1 = statusOf result := by
  rcases result with error | outcome
  · rw [conclude, statusOf]
    split <;> rfl
  · rfl

/-- A run is an attempt, and then says what came of it. -/
theorem run_eq (answerer : Answerer Call Call.Answer σ) (patience : Nat)
    (arguments : List Bytes) (s : σ) :
    ∃ record result, Course arguments record result ∧
      (run patience arguments).trace answerer s = record ++ closing result ∧
      ((run patience arguments).run answerer s).1 = statusOf result := by
  refine ⟨_, _, course_attempt answerer patience arguments s, ?_, ?_⟩
  · rw [run, Procedure.trace_bind, trace_conclude]
  · rw [run, Procedure.run_bind, run_conclude]

theorem closing_of_isRequest {error : Error} (h : error.isRequest = true) :
    closing (.error error) = [⟨.write .stdout error.notice, ()⟩] :=
  if_pos h

theorem closing_of_isRequest_false {error : Error} (h : error.isRequest = false) :
    closing (.error error) = [⟨.writeLine .stderr error.notice, ()⟩] :=
  if_neg (Bool.eq_false_iff.mp h)

/-- What is said at the end of a run is written, unlike all that went before. -/
theorem mem_append_closing {exchange : Exchange Call Call.Answer}
    (h : exchange.1.stream? = none) :
    exchange ∈ record ++ closing result ↔ exchange ∈ record := by
  rw [List.mem_append, or_iff_left]
  intro hmem
  rcases result with error | outcome
  · cases hrequest : error.isRequest <;> simp_all [closing, Call.stream?]
  · cases hmem

theorem returned_append_closing {answer : Except Lifecycle.Error Outcome} :
    Returned (record ++ closing result) answer ↔ Returned record answer :=
  exists₂_congr fun _ _ => mem_append_closing rfl

theorem stoppedBy_append_closing {error : Error} :
    StoppedBy arguments (record ++ closing result) error ↔ StoppedBy arguments record error := by
  rcases error with _ | _ | _ | _
  · exact exists_congr fun _ => mem_append_closing rfl
  · rfl
  · exact exists_congr fun _ => mem_append_closing rfl
  · exact returned_append_closing

theorem countP_isHandling_closing (result : Except Error Outcome) :
    (closing result).countP isHandling = 0 := by
  rcases result with error | outcome
  · rw [closing]
    split <;> rfl
  · rfl

/-! ## Exit statuses -/

theorem reportedStatus_eq_zero {code : Int} : reportedStatus code = 0 ↔ code = 0 := by
  unfold reportedStatus
  split <;> omega

theorem reportedStatus_spec (code : Int) :
    if 0 ≤ code ∧ code ≤ 255 then (reportedStatus code : Int) = code
    else reportedStatus code = 1 := by
  unfold reportedStatus
  split <;> omega

theorem Error.exitStatus_of_isRequest_false {error : Error} (h : error.isRequest = false) :
    error.exitStatus = if error.isMisuse then 2 else 1 := by
  rcases error with error | error | error | error
  · rfl
  · simp_all [exitStatus, isRequest, isMisuse, Arguments.UsageError.exitStatus]
  · rfl
  · cases error <;> simp [exitStatus, isMisuse, Lifecycle.Error.isUsage]

theorem statusOf_of_isRequest_false {error : Error} (h : error.isRequest = false) :
    statusOf (.error error) = if error.isMisuse then 2 else 1 := by
  rw [statusOf, if_neg (Bool.eq_false_iff.mp h), Error.exitStatus_of_isRequest_false h]

theorem statusOf_error_eq_zero {error : Error} :
    statusOf (.error error) = 0 ↔ error.isRequest = true := by
  rcases hrequest : error.isRequest
  · rw [statusOf_of_isRequest_false hrequest]
    split <;> simp
  · exact iff_of_true (if_pos hrequest) rfl

theorem Error.isRequest_iff {error : Error} :
    error.isRequest = true ↔ ∃ usage, error = .usage usage ∧ usage.isRequest = true := by
  rcases error with _ | _ | _ | _ <;> simp [isRequest]

theorem Course.statusOf_eq_zero (h : Course arguments record result) :
    statusOf result = 0 ↔
      (∃ error, Arguments.parse (Arguments.commandArguments arguments) = .error error ∧
        error.isRequest = true) ∨
      ∃ outcome, Returned record (.ok outcome) ∧ outcome.exitCode = 0 := by
  have hrefused (error) :
      Arguments.parse (Arguments.commandArguments arguments) = .error error ↔
        result = .error (.usage error) :=
    Iff.symm (h.eq_error_iff : result = .error (.usage error) ↔ _)
  simp only [hrefused, ← h.eq_ok_iff]
  rcases result with error | outcome
  · simp [statusOf_error_eq_zero, Error.isRequest_iff]
  · simp [statusOf, reportedStatus_eq_zero]

/-- The exit status tells a failure from a success.  A command is carried out at most once, and only
with what was loaded and set up for it; the status is zero only when help was asked for or the
command ended with zero; a code that fits a byte is kept and any other becomes one; help is shown on
standard output; and an error is told of in a line on standard error, as the last and only thing
that the run itself writes. -/
theorem status_tells_failure (answerer : Answerer Call Call.Answer σ) (patience : Nat)
    (arguments : List Bytes) (s : σ) :
    let record := (run patience arguments).trace answerer s
    let status := ((run patience arguments).run answerer s).1
    record.countP isHandling ≤ 1 ∧
    (∀ command context answer, ⟨.handle command context, answer⟩ ∈ record →
      ∃ request, Arguments.parse (Arguments.commandArguments arguments) = .ok request ∧
        request.command = command ∧
        [ ⟨.loadConfiguration (Arguments.split arguments).configuration, .ok context.config⟩
        , ⟨.startLogging context.config, .ok ()⟩
        , ⟨.handle command context, answer⟩ ].Sublist record) ∧
    (status = 0 ↔
      (∃ error, Arguments.parse (Arguments.commandArguments arguments) = .error error ∧
        error.isRequest = true) ∨
      ∃ outcome, Returned record (.ok outcome) ∧ outcome.exitCode = 0) ∧
    (∀ outcome, Returned record (.ok outcome) →
      if 0 ≤ outcome.exitCode ∧ outcome.exitCode ≤ 255 then (status : Int) = outcome.exitCode
      else status = 1) ∧
    (∀ error, StoppedBy arguments record error → error.isRequest = true →
      ∃ before, record = before ++ [⟨.write .stdout error.notice, ()⟩] ∧
        ∀ exchange ∈ before, exchange.1.stream? = none) ∧
    (∀ error, StoppedBy arguments record error → error.isRequest = false →
      (status = if error.isMisuse then 2 else 1) ∧
      ∃ before, record = before ++ [⟨.writeLine .stderr error.notice, ()⟩] ∧
        ∀ exchange ∈ before, exchange.1.stream? = none) := by
  intro record status
  obtain ⟨attempted, result, hcourse, hrecord, hstatus⟩ := run_eq answerer patience arguments s
  change record = attempted ++ closing result at hrecord
  change status = statusOf result at hstatus
  rw [hrecord, hstatus]
  refine ⟨?_, ?_, ?_, ?_, ?_, ?_⟩
  · rw [List.countP_append, countP_isHandling_closing]
    exact hcourse.countP_isHandling_le
  · intro command context answer hmem
    obtain ⟨request, hparse, hcommand, hsublist⟩ :=
      hcourse.sublist_of_handle ((mem_append_closing rfl).mp hmem)
    exact ⟨request, hparse, hcommand, hsublist.trans (List.sublist_append_left ..)⟩
  · simp only [returned_append_closing]
    exact hcourse.statusOf_eq_zero
  · intro outcome hreturned
    rw [returned_append_closing] at hreturned
    rw [hcourse.eq_ok_iff.mpr hreturned]
    exact reportedStatus_spec outcome.exitCode
  · intro error hstopped hrequest
    rw [stoppedBy_append_closing] at hstopped
    rw [hcourse.eq_error_iff.mpr hstopped, closing_of_isRequest hrequest]
    exact ⟨attempted, rfl, hcourse.stream?_eq_none⟩
  · intro error hstopped hrequest
    rw [stoppedBy_append_closing] at hstopped
    rw [hcourse.eq_error_iff.mpr hstopped, closing_of_isRequest_false hrequest]
    exact ⟨statusOf_of_isRequest_false hrequest, attempted, rfl, hcourse.stream?_eq_none⟩

/-- Answers with which everything succeeds up to the command, which ends in the given way. -/
def endingIn (answer : Except Lifecycle.Error Outcome) : Answerer Call Call.Answer Unit
  | .loadConfiguration _, s => (.ok {}, s)
  | .startLogging _, s => (.ok (), s)
  | .environment, s => (fun _ => none, s)
  | .detectContext, s => (.host, s)
  | .handle _ _, s => (answer, s)
  | .write _ _, s | .writeLine _ _, s => ((), s)

/-- A code that fits no byte becomes one, also where its lowest byte is zero. -/
theorem status_of_exit_256 :
    ((run 0 (["stackctl", "down"].map Utf8.encode)).run (endingIn (.ok (.exit 256))) ()).1 = 1 := by
  obtain ⟨request, hparse⟩ : ∃ request,
      Arguments.parse (Arguments.commandArguments (["stackctl", "down"].map Utf8.encode)) =
        .ok request := ⟨_, rfl⟩
  obtain ⟨-, -, -, hcode, -, -⟩ := status_tells_failure (endingIn (.ok (.exit 256))) 0
    (["stackctl", "down"].map Utf8.encode) ()
  refine hcode (.exit 256) ⟨request.command,
    contextOf 0 (["stackctl", "down"].map Utf8.encode) request {} (fun _ => none) .host, ?_⟩
  rw [run, Procedure.trace_bind, attempt_of_parse hparse]
  simp [Procedure.trace, endingIn]

end StackControl.Run
