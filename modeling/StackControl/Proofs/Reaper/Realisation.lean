import StackControl.Proofs.Reaper.Pass
import StackControl.Reaper.Realisation

/-!
# Reaping on a machine, call by call

On a machine a search brings in at most one listing, and finds what the patterns select in it.  A
pass signals the processes that it found in its first listing, in order, each at most once; numbers
that no process can have are passed over.
-/

namespace StackControl.Reaper

open Procedure (Answerer Moment)

variable {σ : Type} {os : Answerer Machine.Call Machine.Call.Answer σ} {patterns : List String}
  {ownPid : Nat} {s : σ}

/-- The launch that lists the processes. -/
def listingLaunch : Launch :=
  .plain "ps" ["-eo", "pid=,args="]

/-- The listing that a call brought in. -/
def listing? : Moment Machine.Call Machine.Call.Answer σ → Option String
  | ⟨_, .launch launch .captured, .ok finished⟩ =>
    if launch = listingLaunch ∧ finished.status.isSuccess = true then
      some (Utf8.decodeLossy finished.stdout)
    else none
  | _ => none

/-- The listings that were brought in, in order. -/
def listings (ms : List (Moment Machine.Call Machine.Call.Answer σ)) : List String :=
  ms.filterMap listing?

/-- The process that a call signalled. -/
def signalled? (m : Moment Machine.Call Machine.Call.Answer σ) : Option Int :=
  match m.call with
  | .terminate pid => some pid
  | _ => none

/-- The processes that were signalled, in order. -/
def signalled (ms : List (Moment Machine.Call Machine.Call.Answer σ)) : List Int :=
  ms.filterMap signalled?

/-- The process that a call of the reaper terminates. -/
def terminated? (m : Moment Call Call.Answer σ) : Option ProcessHandle :=
  match m.call with
  | .terminate handle => some handle
  | _ => none

/-- The processes that the reaper terminates, in order. -/
def terminated (ms : List (Moment Call Call.Answer σ)) : List ProcessHandle :=
  ms.filterMap terminated?

/-- The numbers of processes, without those that no process can have. -/
def signalNumbers (handles : List ProcessHandle) : List Int :=
  (handles.filter (·.pid.toNat ≤ largestPid)).map fun handle => handle.pid.toNat

/-- The moments of what the calls of the reaper come down to. -/
def onMachine (os : Answerer Machine.Call Machine.Call.Answer σ)
    (ms : List (Moment Call Call.Answer σ)) : List (Moment Machine.Call Machine.Call.Answer σ) :=
  ms.flatMap fun m => (perform m.call).moments os m.state

/-! ## Calls that neither list nor signal -/

/-- A call that neither lists nor signals processes. -/
def IsAside : Machine.Call → Prop
  | .terminate _ | .launch _ .captured => False
  | _ => True

theorem listings_eq_nil {ms : List (Moment Machine.Call Machine.Call.Answer σ)}
    (h : ∀ m ∈ ms, IsAside m.call) : listings ms = [] := by
  apply List.filterMap_eq_nil_iff.mpr
  intro m hm
  have haside := h m hm
  obtain ⟨state, call, answer⟩ := m
  cases call with
  | launch launch manner =>
      cases manner with
      | captured => cases haside
      | discarded | unattended | attached | supervised => rfl
  | _ => rfl

theorem signalled_eq_nil {ms : List (Moment Machine.Call Machine.Call.Answer σ)}
    (h : ∀ m ∈ ms, IsAside m.call) : signalled ms = [] := by
  apply List.filterMap_eq_nil_iff.mpr
  intro m hm
  have haside := h m hm
  obtain ⟨state, call, answer⟩ := m
  cases call with
  | terminate => cases haside
  | _ => rfl

theorem only_locateIn (binary : Bytes) (directories : List Path) :
    (locateIn binary directories).Only IsAside := by
  induction directories with
  | nil => trivial
  | cons directory rest ih =>
      unfold locateIn
      have hfile : (Machine.isFile (Path.join directory binary)).Only IsAside :=
        Procedure.only_call.mpr trivial
      apply hfile.bind
      intro present
      cases present with
      | true => trivial
      | false => exact ih

theorem only_locateTool (binary : String) : (locateTool binary).Only IsAside := by
  have hpath : Machine.searchPath.Only IsAside := Procedure.only_call.mpr trivial
  apply hpath.bind
  intro path
  cases path with
  | none => trivial
  | some path => exact only_locateIn _ _

theorem only_installPackage (package : String) : (installPackage package).run.Only IsAside := by
  have hrun (arguments : List String) :
      (runPackageManager arguments package).run.Only IsAside := by
    have hlaunch : (Machine.launch (.plain packageManager arguments) .unattended).Only IsAside :=
      Procedure.only_call.mpr trivial
    unfold runPackageManager
    apply Procedure.Only.bind_run (hlaunch.map _)
    intro answer
    split
    · trivial
    · split <;> trivial
  exact Procedure.Only.bind_run (hrun _) fun _ => hrun _

/-! ## Single calls of the reaper -/

theorem isAside_of_isGateCall {call : Call} (h : IsGateCall call) :
    (perform call).Only IsAside := by
  cases call with
  | locate binary => exact only_locateTool binary
  | install package => exact only_installPackage package
  | list | terminate => cases h

/-- A search fails before a listing was brought in, or finds what the patterns select in the one
listing that was. -/
def FoundIn (patterns : List String) (ownPid : Nat)
    (ms : List (Moment Machine.Call Machine.Call.Answer σ))
    (result : Except Error (List ProcessHandle)) : Prop :=
  (listings ms = [] ∧ ∃ e, result = .error e) ∨
    ∃ listing, listings ms = [listing] ∧ result = .ok (matching listing patterns ownPid)

theorem listMatching_eq (patterns : List String) :
    (listMatching patterns).run = Procedure.ask (.launch listingLaunch .captured) fun
      | .error fault => .done (.error (.listProcesses fault))
      | .ok finished =>
        if finished.status.isSuccess then
          .ask .ownPid fun ownPid =>
            .done (.ok (matching (Utf8.decodeLossy finished.stdout) patterns ownPid))
        else .done (.error (.listFailed finished.status.code)) := by
  have hnext (finished : Finished) :
      (do
        unless finished.status.isSuccess do
          throw (Error.listFailed finished.status.code)
        return matching (Utf8.decodeLossy finished.stdout) patterns (← Machine.ownPid) :
          ExceptT Error Machine.Activity (List ProcessHandle)).run =
        if finished.status.isSuccess then
          .ask .ownPid fun ownPid =>
            .done (.ok (matching (Utf8.decodeLossy finished.stdout) patterns ownPid))
        else .done (.error (.listFailed finished.status.code)) := by
    cases finished.status.isSuccess <;> rfl
  unfold listMatching
  simp only [← hnext]
  rfl

theorem foundIn_list (patterns : List String) (hown : ∀ s, (os .ownPid s).1 = ownPid) (s : σ) :
    FoundIn patterns ownPid ((perform (.list patterns)).moments os s)
      ((perform (.list patterns)).run os s).1 := by
  rw [perform, listMatching_eq]
  simp only [Procedure.moments, Procedure.run]
  rcases (os (.launch listingLaunch .captured) s) with ⟨fault | finished, after⟩
  · exact .inl ⟨rfl, _, rfl⟩
  · by_cases hsuccess : finished.status.isSuccess = true
    · simp only [hsuccess, if_true, Procedure.moments, Procedure.run, hown]
      refine .inr ⟨Utf8.decodeLossy finished.stdout, ?_, rfl⟩
      simp [listings, listing?, hsuccess]
    · simp only [if_neg hsuccess]
      refine .inl ⟨?_, _, rfl⟩
      simp [listings, listing?, hsuccess, Procedure.moments]

/-- Nothing is signalled by listing. -/
theorem signalled_list (os : Answerer Machine.Call Machine.Call.Answer σ) (patterns : List String)
    (s : σ) : signalled ((perform (.list patterns)).moments os s) = [] := by
  rw [perform, listMatching_eq]
  simp only [Procedure.moments]
  rcases (os (.launch listingLaunch .captured) s) with ⟨fault | finished, after⟩
  · rfl
  · dsimp only
    split <;> rfl

/-- A process is signalled if its number is one that a process can have. -/
theorem signalled_terminate (os : Answerer Machine.Call Machine.Call.Answer σ)
    (handle : ProcessHandle) (s : σ) :
    signalled ((perform (.terminate handle)).moments os s) = signalNumbers [handle] := by
  rw [perform, terminateProcess]
  by_cases hpid : handle.pid.toNat ≤ largestPid
  · rw [if_neg (by omega), signalNumbers, List.filter_cons_of_pos (by simpa using hpid),
      Procedure.moments_bind_run, Procedure.moments_liftM_run, Procedure.run_liftM_run]
    have hrun : Procedure.run os (Machine.terminate handle.pid.toNat) s =
        os (.terminate handle.pid.toNat) s := rfl
    rw [hrun]
    rcases (os (.terminate handle.pid.toNat) s) with ⟨e | _, after⟩
    · dsimp only
      by_cases he : e = .noProcess
      · rw [if_pos he]
        rfl
      · rw [if_neg he]
        rfl
    · rfl
  · rw [if_pos (by omega), signalNumbers, List.filter_cons_of_neg (by simpa using hpid)]
    rfl

/-! ## Searches and passes on a machine -/

theorem listings_append (ms ms' : List (Moment Machine.Call Machine.Call.Answer σ)) :
    listings (ms ++ ms') = listings ms ++ listings ms' :=
  List.filterMap_append

theorem signalled_append (ms ms' : List (Moment Machine.Call Machine.Call.Answer σ)) :
    signalled (ms ++ ms') = signalled ms ++ signalled ms' :=
  List.filterMap_append

theorem mem_signalNumbers {handles : List ProcessHandle} {pid : Int} :
    pid ∈ signalNumbers handles ↔
      ∃ handle ∈ handles, handle.pid.toNat ≤ largestPid ∧ (handle.pid.toNat : Int) = pid := by
  simp [signalNumbers, and_assoc]

theorem signalNumbers_append (handles handles' : List ProcessHandle) :
    signalNumbers (handles ++ handles') = signalNumbers handles ++ signalNumbers handles' := by
  simp only [signalNumbers, List.filter_append, List.map_append]

/-- What is signalled on a machine is what the reaper terminates, without the numbers that no
process can have. -/
theorem signalled_onMachine (os : Answerer Machine.Call Machine.Call.Answer σ)
    (ms : List (Moment Call Call.Answer σ)) :
    signalled (onMachine os ms) = signalNumbers (terminated ms) := by
  induction ms with
  | nil => rfl
  | cons m ms ih =>
      have hsplit : onMachine os (m :: ms) =
          (perform m.call).moments os m.state ++ onMachine os ms := List.flatMap_cons
      have haside (hgate : IsGateCall m.call) :
          signalled ((perform m.call).moments os m.state) = [] :=
        signalled_eq_nil fun _ hm => (isAside_of_isGateCall hgate).mem_moments hm
      rw [hsplit, signalled_append, ih]
      obtain ⟨state, call, answer⟩ := m
      cases call with
      | locate | install =>
          rw [haside trivial]
          rfl
      | list patterns =>
          rw [signalled_list]
          rfl
      | terminate handle =>
          rw [signalled_terminate, ← signalNumbers_append]
          rfl

theorem isAside_onMachine (os : Answerer Machine.Call Machine.Call.Answer σ)
    {gate : List (Moment Call Call.Answer σ)} (hgate : ∀ m ∈ gate, IsGateCall m.call) :
    ∀ m ∈ onMachine os gate, IsAside m.call := by
  intro m hm
  obtain ⟨m', hm', hm⟩ := List.mem_flatMap.mp hm
  exact (isAside_of_isGateCall (hgate m' hm')).mem_moments hm

variable {ms : List (Moment Call Call.Answer σ)}

theorem foundIn_search (hown : ∀ s, (os .ownPid s).1 = ownPid)
    {result : Except Error (List ProcessHandle)} (h : Search patterns ms result)
    (hanswers : ∀ m ∈ ms, m.answer = (Procedure.answerBy os perform m.call m.state).1) :
    FoundIn patterns ownPid (onMachine os ms) result := by
  cases h with
  | refused e hgate => exact .inl ⟨listings_eq_nil (isAside_onMachine os hgate), _, rfl⟩
  | @listed gate s _ hgate =>
      have haside := isAside_onMachine os hgate
      have hanswer : result = ((perform (.list patterns)).run os s).1 :=
        hanswers ⟨s, .list patterns, result⟩ (by simp)
      have hsplit : onMachine os (gate ++ [⟨s, .list patterns, result⟩]) =
          onMachine os gate ++ (perform (.list patterns)).moments os s := by
        simp [onMachine]
      rw [hsplit, hanswer, FoundIn, listings_append, listings_eq_nil haside, List.nil_append]
      exact foundIn_list patterns hown s

theorem terminated_append (ms ms' : List (Moment Call Call.Answer σ)) :
    terminated (ms ++ ms') = terminated ms ++ terminated ms' :=
  List.filterMap_append

theorem terminated_gate {gate : List (Moment Call Call.Answer σ)}
    (hgate : ∀ m ∈ gate, IsGateCall m.call) : terminated gate = [] := by
  apply List.filterMap_eq_nil_iff.mpr
  rintro ⟨state, call, answer⟩ hm
  have hcall := hgate _ hm
  cases call with
  | terminate => cases hcall
  | _ => rfl

theorem terminated_search {result : Except Error (List ProcessHandle)}
    (h : Search patterns ms result) : terminated ms = [] := by
  cases h with
  | refused e hgate => exact terminated_gate hgate
  | listed s answer hgate =>
      rw [terminated_append, terminated_gate hgate]
      rfl

theorem terminated_signals {signals : List (Moment Call Call.Answer σ)}
    {handles : List ProcessHandle} (h : signals.map Moment.call = handles.map Call.terminate) :
    terminated signals = handles := by
  induction signals generalizing handles with
  | nil =>
      rw [List.eq_nil_of_map_eq_nil h.symm]
      rfl
  | cons m signals ih =>
      obtain ⟨handle, rest, rfl, hcall, hrest⟩ := List.map_eq_cons_iff.mp h.symm
      have hhead : terminated? m = some handle := by rw [terminated?, ← hcall]
      rw [terminated, List.filterMap_cons_some hhead]
      exact congrArg (handle :: ·) (ih hrest.symm)

/-- A pass terminates what it found in its first listing, once each and in order. -/
theorem terminated_pass (hown : ∀ s, (os .ownPid s).1 = ownPid) {result : Except Error Report}
    (h : Pass patterns ms result)
    (hanswers : ∀ m ∈ ms, m.answer = (Procedure.answerBy os perform m.call m.state).1) :
    terminated ms =
      (listings (onMachine os ms)).head?.elim [] fun listing =>
        matching listing patterns ownPid := by
  cases h with
  | failed hsearch =>
      rw [terminated_search hsearch]
      obtain ⟨hlistings, -⟩ | ⟨listing, -, hresult⟩ := foundIn_search hown hsearch hanswers
      · rw [hlistings]
        rfl
      · cases hresult
  | nothing hsearch =>
      rw [terminated_search hsearch]
      obtain ⟨-, e, hresult⟩ | ⟨listing, hlistings, hresult⟩ :=
        foundIn_search hown hsearch hanswers
      · cases hresult
      · rw [hlistings, List.head?_cons, Option.elim_some, ← Except.ok.inj hresult]
  | @reaped ms signals matched s answer hsearch hmatched hsignals =>
      have hsearched (m : Moment Call Call.Answer σ) (hm : m ∈ ms) :=
        hanswers m (List.mem_append_left _ hm)
      obtain ⟨-, e, hresult⟩ | ⟨listing, hlistings, hresult⟩ :=
        foundIn_search hown hsearch hsearched
      · cases hresult
      · have hsplit : onMachine os (ms ++ (signals ++ [⟨s, .list patterns, answer⟩])) =
            onMachine os ms ++ onMachine os (signals ++ [⟨s, .list patterns, answer⟩]) := by
          simp [onMachine]
        rw [terminated_append, terminated_append, terminated_search hsearch,
          terminated_signals hsignals, hsplit, listings_append, hlistings, List.singleton_append,
          List.head?_cons, Option.elim_some, ← Except.ok.inj hresult]
        exact List.append_nil matched

/-- A pass signals what it found in its first listing, once each and in order. -/
theorem signalled_pass (hown : ∀ s, (os .ownPid s).1 = ownPid) {result : Except Error Report}
    (h : Pass patterns ms result)
    (hanswers : ∀ m ∈ ms, m.answer = (Procedure.answerBy os perform m.call m.state).1) :
    signalled (onMachine os ms) =
      (listings (onMachine os ms)).head?.elim [] fun listing =>
        signalNumbers (matching listing patterns ownPid) := by
  rw [signalled_onMachine, terminated_pass hown h hanswers]
  cases (listings (onMachine os ms)).head? <;> rfl

end StackControl.Reaper
