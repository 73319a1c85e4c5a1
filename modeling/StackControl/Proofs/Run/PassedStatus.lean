import StackControl.Engine.Client
import StackControl.Machine.Files
import StackControl.Proofs.Procedure.Moments
import StackControl.Run
import StackControl.Runner

/-!
# How the end of a process is passed on

A wait status is four fields side by side.  Whatever is in them, the code that is read from a status
is the status of a run, so a run can end with it; and the run that waits for that run, inside the
container or on the host, reads the same code again.
-/

namespace StackControl

/-! ## The fields of a wait status -/

/-- How a process ended, or that it did not end. -/
inductive ProcessEnd
  | exited (code : BitVec 8)
  | killed (signal : BitVec 7)
  | stopped
deriving DecidableEq

/-- The exit code by which a shell tells how a process ended. -/
def ProcessEnd.shellCode : ProcessEnd → Nat
  | exited code => code.toNat
  | killed signal => 128 + signal.toNat
  | stopped => 1

namespace WaitStatus

/-- A wait status with the given fields, the highest first. -/
def pack (unused : BitVec 16) (code : BitVec 8) (dumped : Bool) (signal : BitVec 7) : WaitStatus :=
  unused ++ code ++ BitVec.ofBool dumped ++ signal

/-- What a wait status tells: an exit has no signal, and the last signal stands for none. -/
inductive Tells : WaitStatus → ProcessEnd → Prop
  | exited (unused : BitVec 16) (code : BitVec 8) (dumped : Bool) :
      Tells (pack unused code dumped 0) (.exited code)
  | killed (unused : BitVec 16) (code : BitVec 8) (dumped : Bool) (signal : BitVec 7) :
      signal ≠ 0 → signal ≠ 127 → Tells (pack unused code dumped signal) (.killed signal)
  | stopped (unused : BitVec 16) (code : BitVec 8) (dumped : Bool) :
      Tells (pack unused code dumped 127) .stopped

variable {status : WaitStatus} {told told' : ProcessEnd}

section Pack

variable (unused : BitVec 16) (code : BitVec 8) (dumped : Bool) (signal : BitVec 7)

theorem toNat_pack :
    (pack unused code dumped signal).toNat =
      unused.toNat * 65536 + code.toNat * 256 + dumped.toNat * 128 + signal.toNat := by
  have happend {m n : Nat} (x : BitVec m) (y : BitVec n) :
      (x ++ y).toNat = x.toNat * 2 ^ n + y.toNat := by
    rw [BitVec.toNat_append, ← Nat.shiftLeft_add_eq_or_of_lt y.isLt, Nat.shiftLeft_eq]
  have hpack : (pack unused code dumped signal).toNat =
      (unused ++ code ++ BitVec.ofBool dumped ++ signal).toNat := rfl
  rw [hpack, happend, happend, happend, BitVec.toNat_ofBool]
  omega

theorem ending_eq (status : WaitStatus) : status.ending = status.toNat % 128 := by
  rw [WaitStatus.ending, BitVec.toNat_and]
  exact Nat.and_two_pow_sub_one_eq_mod status.toNat 7

theorem ending_pack : (pack unused code dumped signal).ending = signal.toNat := by
  rw [ending_eq, toNat_pack]
  omega

theorem exitCode?_eq (status : WaitStatus) :
    status.exitCode? = if status.ending = 0 then some (status.toNat / 256 % 256) else none := by
  rw [exitCode?, BitVec.toNat_and, BitVec.toNat_ushiftRight, Nat.shiftRight_eq_div_pow]
  exact congrArg (fun code => if status.ending = 0 then some code else none)
    (Nat.and_two_pow_sub_one_eq_mod (status.toNat / 2 ^ 8) 8)

/-- Every wait status has its fields. -/
theorem exists_eq_pack (status : WaitStatus) :
    ∃ unused code dumped signal, status = pack unused code dumped signal := by
  refine ⟨.ofNat 16 (status.toNat / 65536), .ofNat 8 (status.toNat / 256),
    decide (status.toNat / 128 % 2 = 1), .ofNat 7 status.toNat, ?_⟩
  apply BitVec.eq_of_toNat_eq
  have hlt := status.isLt
  rw [toNat_pack]
  simp only [BitVec.toNat_ofNat]
  by_cases hdumped : status.toNat / 128 % 2 = 1 <;> simp only [hdumped, decide_true, decide_false,
    Bool.toNat_true, Bool.toNat_false] <;> omega

end Pack

theorem exists_tells (status : WaitStatus) : ∃ told, status.Tells told := by
  obtain ⟨unused, code, dumped, signal, rfl⟩ := exists_eq_pack status
  by_cases hexited : signal = 0
  · subst hexited
    exact ⟨_, .exited unused code dumped⟩
  by_cases hstopped : signal = 127
  · subst hstopped
    exact ⟨_, .stopped unused code dumped⟩
  · exact ⟨_, .killed unused code dumped signal hexited hstopped⟩

/-- A status tells one thing only. -/
theorem Tells.unique (h : status.Tells told) (h' : status.Tells told') : told = told' := by
  have hfields {unused unused' : BitVec 16} {code code' : BitVec 8} {dumped dumped' : Bool}
      {signal signal' : BitVec 7} (heq : pack unused code dumped signal =
        pack unused' code' dumped' signal') : code = code' ∧ signal = signal' := by
    have hvalue := congrArg BitVec.toNat heq
    rw [toNat_pack, toNat_pack] at hvalue
    have hbool := dumped.toNat_le
    have hbool' := dumped'.toNat_le
    exact ⟨BitVec.eq_of_toNat_eq (by omega), BitVec.eq_of_toNat_eq (by omega)⟩
  generalize hpacked : status = packed at h'
  cases h with
  | exited _ code =>
      cases h' with
      | exited => rw [(hfields hpacked).1]
      | killed _ _ _ _ hne => exact absurd (hfields hpacked).2.symm hne
      | stopped => exact absurd (hfields hpacked).2 (by decide)
  | killed _ _ _ signal hexited hstopped =>
      cases h' with
      | exited => exact absurd (hfields hpacked).2 hexited
      | killed => rw [(hfields hpacked).2]
      | stopped => exact absurd (hfields hpacked).2 hstopped
  | stopped =>
      cases h' with
      | exited => exact absurd (hfields hpacked).2 (by decide)
      | killed _ _ _ _ _ hne => exact absurd (hfields hpacked).2.symm hne
      | stopped => rfl

/-! ## The code of a wait status -/

theorem code_of_ending_eq_zero (h : status.ending = 0) :
    status.code = (status.toNat / 256 % 256 : Nat) := by
  rw [WaitStatus.code, exitCode?_eq, if_pos h]

theorem code_of_ending_pos (hpos : 0 < status.ending) (hlast : status.ending < 0x7F) :
    status.code = (128 + status.ending : Nat) := by
  have hcode : status.exitCode? = none := by rw [exitCode?_eq, if_neg (Nat.ne_of_gt hpos)]
  have hsignal : status.signal? = some status.ending := if_pos ⟨hpos, hlast⟩
  rw [WaitStatus.code, hcode, hsignal]
  rfl

theorem code_of_ending_last (h : status.ending = 0x7F) : status.code = 1 := by
  have hcode : status.exitCode? = none := by rw [exitCode?_eq, h, if_neg (by decide)]
  have hsignal : status.signal? = none := by rw [signal?, h, if_neg (by decide)]
  rw [WaitStatus.code, hcode, hsignal]
  rfl

/-- The code that is read from a status is the one by which a shell tells the end. -/
theorem Tells.code_eq (h : status.Tells told) : status.code = told.shellCode := by
  cases h with
  | exited unused code dumped =>
      have hbyte := toNat_pack unused code dumped 0
      have hlow := dumped.toNat_le
      rw [code_of_ending_eq_zero (ending_pack unused code dumped 0)]
      simp only [ProcessEnd.shellCode] at hbyte ⊢
      omega
  | killed unused code dumped signal hexited hstopped =>
      have hpos : signal.toNat ≠ 0 := fun heq => hexited (BitVec.eq_of_toNat_eq heq)
      have hlast : signal.toNat ≠ 127 := fun heq => hstopped (BitVec.eq_of_toNat_eq heq)
      have hending := ending_pack unused code dumped signal
      rw [code_of_ending_pos (by omega) (by omega), hending]
      rfl
  | stopped unused code dumped =>
      exact code_of_ending_last (ending_pack unused code dumped 127)

theorem Tells.shellCode_le (h : status.Tells told) : told.shellCode ≤ 255 := by
  cases h with
  | exited _ code => exact Nat.le_of_lt_succ code.isLt
  | killed _ _ _ signal =>
      have hlt := signal.isLt
      simp only [ProcessEnd.shellCode]
      omega
  | stopped => decide

theorem code_nonneg (status : WaitStatus) : 0 ≤ status.code := by
  obtain ⟨told, htold⟩ := status.exists_tells
  rw [htold.code_eq]
  exact Int.natCast_nonneg _

theorem code_le (status : WaitStatus) : status.code ≤ 255 := by
  obtain ⟨told, htold⟩ := status.exists_tells
  rw [htold.code_eq]
  exact Int.ofNat_le.mpr htold.shellCode_le

/-- No code but that of a successful exit is zero. -/
theorem code_eq_zero_iff (status : WaitStatus) : status.code = 0 ↔ status.Tells (.exited 0) := by
  obtain ⟨told, htold⟩ := status.exists_tells
  constructor
  · intro hzero
    rw [htold.code_eq] at hzero
    cases told with
    | exited code =>
        obtain rfl : code = 0 := BitVec.eq_of_toNat_eq (Int.ofNat.inj hzero)
        exact htold
    | killed signal =>
        simp only [ProcessEnd.shellCode] at hzero
        omega
    | stopped => cases hzero
  · intro hexited
    rw [hexited.code_eq]
    rfl

/-- A signal is small enough to be added to in a machine word. -/
theorem not_saddOverflow (signal : BitVec 7) :
    BitVec.saddOverflow 128#32 (signal.setWidth 32) = false := by
  have hlt := signal.isLt
  have hvalue : (signal.setWidth 32).toInt = signal.toNat := by
    rw [BitVec.toInt_eq_toNat_of_lt] <;> rw [BitVec.toNat_setWidth_of_le (by decide)]
    omega
  rw [BitVec.saddOverflow, hvalue]
  simp only [show (128#32).toInt = 128 from rfl, Bool.or_eq_false_iff, decide_eq_false_iff_not]
  constructor <;> omega

theorem reportedStatus_code (status : WaitStatus) : (reportedStatus status.code : Int) =
    status.code := by
  rw [reportedStatus, if_pos ⟨status.code_nonneg, status.code_le⟩]
  exact Int.toNat_of_nonneg status.code_nonneg

theorem code_exited {code : Nat} (h : code ≤ 255) : (exited code).code = code := by
  have hvalue : (exited code).toNat = code * 256 := by
    rw [exited, BitVec.toNat_ofNat, Nat.mod_eq_of_lt (Nat.lt_succ_of_le h)]
    omega
  have hending : (exited code).ending = 0 := by
    rw [ending_eq, hvalue]
    omega
  rw [code_of_ending_eq_zero hending, hvalue]
  omega

end WaitStatus

/-! ## Levels -/

open Procedure (Answerer)

/-- A configured command is launched once, and the code is that of its status. -/
theorem Runner.perform_eq (request : Request) :
    (perform request).run =
      (fun answer => (answer.map (·.status.code)).mapError (.spawn request.line.program)) <$>
        Machine.launch (.plain request.line.program request.line.arguments) request.manner := by
  refine congrArg (Procedure.ask _) (funext fun answer => ?_)
  cases answer <;> rfl

/-- So is a command of the engine whose output is not looked at. -/
theorem Engine.stream_eq (launch : Launch) (manner : Manner) :
    (stream launch manner).run =
      (fun answer => (answer.map (·.status.code)).mapError (.launch launch.label)) <$>
        Machine.launch launch manner := by
  refine congrArg (Procedure.ask _) (funext fun answer => ?_)
  cases answer <;> rfl

namespace Run

/-- The process that a level of the tool waits for. -/
inductive Awaited
  /-- A configured command. -/
  | configured (request : Runner.Request)
  /-- The engine's command that has a command carried out in a container. -/
  | forwarded (client : Engine.Client) (container : String) (command : List String)
      (interactive : Bool)

namespace Awaited

/-- What is launched. -/
def launch : Awaited → Launch
  | configured request => .plain request.line.program request.line.arguments
  | forwarded client container command interactive =>
    client.command (Engine.execArguments container command interactive)

/-- How it is launched. -/
def manner : Awaited → Manner
  | configured request => request.manner
  | forwarded _ _ _ _ => .attached

/-- The code that the level gets from it, unless it cannot be launched. -/
def code? : Awaited → Machine.Activity (Option Int)
  | configured request => Except.toOption <$> (Runner.perform request).run
  | forwarded client container command interactive =>
    Except.toOption <$> (client.perform (.exec container command interactive)).run

/-- A level gets the code of the status that the process ended with. -/
theorem run_code? {σ : Type} {answerer : Answerer Machine.Call Machine.Call.Answer σ} {s : σ}
    {finished : Finished} (awaited : Awaited)
    (h : (answerer (.launch awaited.launch awaited.manner) s).1 = .ok finished) :
    (awaited.code?.run answerer s).1 = some finished.status.code := by
  cases awaited with
  | configured request =>
      have hlaunch : ((Machine.launch (.plain request.line.program request.line.arguments)
          request.manner).run answerer s).1 = .ok finished := h
      rw [code?, Procedure.run_map, Runner.perform_eq, Procedure.run_map, hlaunch]
      rfl
  | forwarded client container command interactive =>
      have hlaunch : ((Machine.launch (client.command
          (Engine.execArguments container command interactive)) .attached).run answerer s).1 =
            .ok finished := h
      rw [code?, Procedure.run_map, Engine.Client.perform, Engine.stream_eq, Procedure.run_map,
        hlaunch]
      rfl

end Awaited

/-- A wait status comes up through levels, the highest first: each waits for the one below it, ends
with the code that it gets, and is waited for in turn. -/
inductive PassedUp (status : WaitStatus) : List Awaited → WaitStatus → Prop
  | here : PassedUp status [] status
  | level {levels : List Awaited} {reported : Nat} {finished : Finished} {code : Int} {σ : Type}
      (awaited : Awaited) (answerer : Answerer Machine.Call Machine.Call.Answer σ) (s : σ) :
      PassedUp status levels finished.status →
        (answerer (.launch awaited.launch awaited.manner) s).1 = .ok finished →
          (awaited.code?.run answerer s).1 = some code →
            conclude (.ok (.exit code)) = .done reported →
              PassedUp status (awaited :: levels) (.exited reported)

/-- Each level reads the code that the first one reads. -/
theorem PassedUp.code_eq {status above : WaitStatus} {levels : List Awaited}
    (h : PassedUp status levels above) : above.code = status.code := by
  induction h with
  | here => rfl
  | @level levels reported finished code σ awaited answerer s _ hlaunch hcode hreported ih =>
      rw [awaited.run_code? hlaunch, Option.some.injEq] at hcode
      obtain rfl : reportedStatus code = reported := Procedure.done.inj hreported
      have hcast := finished.status.reportedStatus_code
      have hle := finished.status.code_le
      rw [hcode] at hcast hle
      rw [WaitStatus.code_exited (by omega), hcast, ← hcode, ih]

/-- A machine on which every program ends with one status. -/
def endingWith (status : WaitStatus) : Answerer Machine.Call Machine.Call.Answer Unit
  | .launch _ _, s => (.ok ⟨status, [], []⟩, s)
  | .spawn _, s => (.ok (), s)
  | .terminate _, s => (.ok (), s)
  | .ownPid, s => (1, s)
  | .searchPath, s => (none, s)
  | .isFile _, s => (false, s)
  | .files request, s => ((request.perform (.empty [])).1, s)
  | .clock .now, s => (0, s)
  | .clock (.sleep _), s => ((), s)
  | .print _ _, s => (.ok (), s)

/-- Every status comes up through any levels. -/
theorem exists_passedUp (status : WaitStatus) (levels : List Awaited) :
    ∃ above, PassedUp status levels above := by
  induction levels with
  | nil => exact ⟨status, .here⟩
  | cons awaited levels ih =>
      obtain ⟨below, hbelow⟩ := ih
      have hfinished : PassedUp status levels (⟨below, [], []⟩ : Finished).status := hbelow
      exact ⟨_, .level awaited (endingWith below) () hfinished rfl (awaited.run_code? rfl) rfl⟩

/-- Every wait status is read as one code: that of its exit, 128 and its signal, or one.  The code
is that of a run, zero only for a successful exit, and levels of the tool pass it on unchanged. -/
theorem code_passed_on (status : WaitStatus) :
    (∃ told, status.Tells told ∧ (∀ told', status.Tells told' → told' = told) ∧
      status.code = told.shellCode) ∧
    0 ≤ status.code ∧ status.code ≤ 255 ∧
    (status.code = 0 ↔ status.Tells (.exited 0)) ∧
    (∀ signal, status.Tells (.killed signal) →
      BitVec.saddOverflow 128#32 (signal.setWidth 32) = false) ∧
    (reportedStatus status.code : Int) = status.code ∧
    ∀ levels, (∃ above, PassedUp status levels above) ∧
      ∀ above, PassedUp status levels above → above.code = status.code := by
  obtain ⟨told, htold⟩ := status.exists_tells
  exact ⟨⟨told, htold, fun told' htold' => htold'.unique htold, htold.code_eq⟩,
    status.code_nonneg, status.code_le, status.code_eq_zero_iff,
    fun signal _ => WaitStatus.not_saddOverflow signal, status.reportedStatus_code,
    fun levels => ⟨exists_passedUp status levels, fun above habove => habove.code_eq⟩⟩

/-- A kill with a core dump, seen from the host through the container. -/
theorem core_dump_passed_on :
    (WaitStatus.pack 0 0 true 11).Tells (.killed 11) ∧
      ∃ above, PassedUp (WaitStatus.pack 0 0 true 11)
        [.forwarded ⟨"docker"⟩ "proxy-1" ["stackctl", "shell"] true, .configured (.run ⟨"sh", []⟩)]
        above ∧ above.code = 139 := by
  have htells : (WaitStatus.pack 0 0 true 11).Tells (.killed 11) :=
    .killed 0 0 true 11 (by decide) (by decide)
  obtain ⟨⟨told, -, huniq, hcode⟩, -, -, -, -, -, hlevels⟩ :=
    code_passed_on (WaitStatus.pack 0 0 true 11)
  obtain ⟨⟨above, habove⟩, hpassed⟩ := hlevels
    [.forwarded ⟨"docker"⟩ "proxy-1" ["stackctl", "shell"] true, .configured (.run ⟨"sh", []⟩)]
  refine ⟨htells, above, habove, ?_⟩
  rw [hpassed above habove, hcode, ← huniq _ htells]
  rfl

end Run

end StackControl
