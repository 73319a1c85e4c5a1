import StackControl.Machine.Files
import StackControl.Proofs.Reaper.Listing
import StackControl.Proofs.Reaper.Realisation

/-!
# What a reaping pass signals

To the system a number above zero stands for one process, zero for the group of the caller, and a
number below zero for other groups.  A pass signals no number below zero, none that does not fit,
and never its own.  Zero is a number that fits, so it is signalled where a listing shows it.
-/

namespace StackControl.Reaper

open Procedure (Answerer Moment)

variable {σ : Type} {os : Answerer Machine.Call Machine.Call.Answer σ} {patterns : List String}
  {ownPid : Nat} {handle : ProcessHandle} {handles : List ProcessHandle}

/-- A process whose number does not fit is refused. -/
theorem perform_terminate_of_large (h : largestPid < handle.pid.toNat) :
    perform (.terminate handle) = .done (.error (.invalidPid handle.pid)) := by
  rw [perform, terminateProcess, if_pos h]
  rfl

theorem ne_ownPid_of_found {listing? : Option String}
    (h : handle ∈ listing?.elim [] fun listing => matching listing patterns ownPid) :
    handle.pid.toNat ≠ ownPid := by
  cases listing? with
  | none => cases h
  | some listing => exact (mem_matching_iff.mp h).2.1

theorem mem_terminated_iff {ms : List (Moment Call Call.Answer σ)} :
    handle ∈ terminated ms ↔ ∃ state answer, ⟨state, .terminate handle, answer⟩ ∈ ms := by
  simp only [terminated, List.mem_filterMap]
  constructor
  · rintro ⟨⟨state, call, answer⟩, hm, hterminated⟩
    cases call with
    | terminate handle' =>
        obtain rfl := Option.some.inj hterminated
        exact ⟨state, answer, hm⟩
    | _ => cases hterminated
  · rintro ⟨state, answer, hm⟩
    exact ⟨_, hm, rfl⟩

theorem toNat_pos_iff {pid : UInt32} : 0 < pid.toNat ↔ pid ≠ 0 := by
  rw [Nat.pos_iff_ne_zero, ne_eq, ne_eq, ← UInt32.toNat_inj]
  rfl

/-- A pass signals the processes of its first listing that some pattern selects, in order, but for
those whose number does not fit, which are refused without a signal.  No number is below zero or its
own, and all are above zero exactly if the listing shows no such process by the number zero. -/
theorem pass_signals_foreign_numbers (os : Answerer Machine.Call Machine.Call.Answer σ)
    (ownPid : Nat) (hown : ∀ s, (os .ownPid s).1 = ownPid) (patterns : List String)
    (gate : ToolGate) (s : σ) :
    let pass := (killMatching patterns).run.run gate
    let calls := pass.moments (Procedure.answerBy os perform) s
    let moments := (pass.realise perform).moments os s
    let matched := (listings moments).head?.elim [] fun listing =>
      matching listing patterns ownPid
    signalled moments = signalNumbers matched ∧
      (∀ pid ∈ signalled moments, 0 ≤ pid ∧ pid ≤ largestPid ∧ pid ≠ ownPid) ∧
      ((∀ pid ∈ signalled moments, 0 < pid) ↔ ∀ handle ∈ matched, handle.pid ≠ 0) ∧
      ∀ handle ∈ matched, largestPid < handle.pid.toNat →
        (∃ state, ⟨state, .terminate handle, .error (.invalidPid handle.pid)⟩ ∈ calls) ∧
          ∀ state, (perform (.terminate handle)).moments os state = [] := by
  intro pass calls moments matched
  have hmoments : moments = onMachine os calls := Procedure.moments_realise ..
  have hanswers (m : Moment Call Call.Answer σ) (hm : m ∈ calls) :=
    Procedure.answer_of_mem_moments hm
  have hterminated : terminated calls = matched := by
    have hpass := pass_killMatching (Procedure.answerBy os perform) patterns gate s
    subst matched
    rw [hmoments]
    exact terminated_pass hown hpass hanswers
  have hsignalled : signalled moments = signalNumbers matched := by
    rw [hmoments, signalled_onMachine, hterminated]
  rw [hsignalled]
  refine ⟨rfl, ?_, ?_, ?_⟩
  · intro pid hpid
    obtain ⟨handle, hhandle, hfits, rfl⟩ := mem_signalNumbers.mp hpid
    have hother : handle.pid.toNat ≠ ownPid := ne_ownPid_of_found hhandle
    omega
  · constructor
    · rintro hpositive handle hhandle hzero
      have hnumber : (handle.pid.toNat : Int) ∈ signalNumbers matched :=
        mem_signalNumbers.mpr ⟨handle, hhandle, by simp [hzero], rfl⟩
      have hlt := hpositive _ hnumber
      simp [hzero] at hlt
    · intro hnonzero pid hpid
      obtain ⟨handle, hhandle, -, rfl⟩ := mem_signalNumbers.mp hpid
      exact Int.natCast_pos.mpr (toNat_pos_iff.mpr (hnonzero handle hhandle))
  · intro handle hhandle hlarge
    have hrefused := perform_terminate_of_large hlarge
    refine ⟨?_, fun _ => by rw [hrefused]; rfl⟩
    obtain ⟨state, answer, hm⟩ := mem_terminated_iff.mp (hterminated ▸ hhandle)
    have hanswer : answer = .error (.invalidPid handle.pid) := by
      rw [show answer = _ from hanswers _ hm, Procedure.answerBy, hrefused]
      rfl
    exact ⟨state, hanswer ▸ hm⟩

/-- A machine on which every program succeeds and writes one text, for a run with the number 100. -/
def listingHost (text : String) : Answerer Machine.Call Machine.Call.Answer Unit
  | .launch _ _, s => (.ok ⟨.exited 0, Utf8.encode text, []⟩, s)
  | .spawn _, s => (.ok (), s)
  | .terminate _, s => (.ok (), s)
  | .ownPid, s => (100, s)
  | .searchPath, s => (some (Utf8.encode "/bin"), s)
  | .isFile _, s => (true, s)
  | .files request, s => ((request.perform (FileTree.empty [])).1, s)
  | .clock .now, s => (0, s)
  | .clock (.sleep _), s => ((), s)
  | .print _ _, s => (.ok (), s)

/-- A listing with the asking process, and with a number that no process can have. -/
def crowdedListing : String :=
  "      7 python3 -m proxy
    100 python3 -m proxy
4000000000 python3 -m proxy
      9 python3 -m proxy
"

/-- Those that can be signalled are, and the number that does not fit is refused. -/
theorem crowded_listing_signalled :
    let pass := (killMatching ["python3 -m proxy"]).run.run .processLister
    let moments := (pass.realise perform).moments (listingHost crowdedListing) ()
    signalled moments = [7, 9] ∧
      (∀ pid ∈ signalled moments, 0 < pid) ∧
      ∃ state, ⟨state, .terminate ⟨4000000000, "python3 -m proxy"⟩,
        .error (.invalidPid 4000000000)⟩ ∈
          pass.moments (Procedure.answerBy (listingHost crowdedListing) perform) () := by
  intro pass moments
  have hmatched : (listings moments).head?.elim [] (fun listing =>
      matching listing ["python3 -m proxy"] 100) =
        [⟨7, "python3 -m proxy"⟩, ⟨4000000000, "python3 -m proxy"⟩, ⟨9, "python3 -m proxy"⟩] := by
    decide +kernel
  obtain ⟨hsignalled, -, hpositive, hrefused⟩ := pass_signals_foreign_numbers
    (listingHost crowdedListing) 100 (fun _ => rfl) ["python3 -m proxy"] .processLister ()
  rw [hmatched] at hsignalled hpositive hrefused
  refine ⟨hsignalled, hpositive.mpr (by decide), ?_⟩
  exact (hrefused ⟨4000000000, "python3 -m proxy"⟩ (by decide) (by decide)).1

/-- A process that is listed by the number zero is signalled by it, and with it the whole group of
the caller. -/
theorem zero_signalled :
    let pass := (killMatching ["python3 -m proxy"]).run.run .processLister
    let signals := signalled
      ((pass.realise perform).moments (listingHost "    0 python3 -m proxy\n") ())
    signals = [0] ∧ ¬∀ pid ∈ signals, 0 < pid := by
  decide +kernel

end StackControl.Reaper
