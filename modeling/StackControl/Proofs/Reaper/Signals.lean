import StackControl.Proofs.Reaper.ToolGate

/-!
# One signal for each match

A reaping pass ends with the first thing that fails before it has found anything.  Once its listing
has found processes, each of them is signalled, in the order of the listing and whatever comes of
the signals, and only then is the second listing made that tells which of them are still there.
-/

namespace StackControl.Reaper

open Procedure (Answerer Exchange)

variable {σ α : Type}

theorem trace_list (answerer : Answerer Call Call.Answer σ) (patterns : List String)
    (gate : ToolGate) (s : σ) :
    Procedure.trace answerer ((list patterns).run.run gate) s =
      [⟨.list patterns, (answerer (.list patterns) s).1⟩] := rfl

theorem calls_trace_signalAll (answerer : Answerer Call Call.Answer σ)
    (handles : List ProcessHandle) (gate : ToolGate) (s : σ) :
    (Procedure.trace answerer ((signalAll handles).run.run gate) s).map Sigma.fst =
      handles.map Call.terminate := by
  rw [Procedure.trace_eq_map_moments, List.map_map]
  exact calls_signalAll answerer handles gate s

theorem trace_relist (answerer : Answerer Call Call.Answer σ) (patterns : List String)
    (f : List ProcessHandle → α) (gate : ToolGate) (s : σ) :
    Procedure.trace answerer ((do return f (← list patterns) : Gated α).run.run gate) s =
      [⟨.list patterns, (answerer (.list patterns) s).1⟩] := by
  rw [Procedure.trace_eq_map_moments, moments_relist]
  rfl

/-- The survivors of a pass are those of the second listing whose number the first one had. -/
theorem survivorsOf_eq (matched relisted : List ProcessHandle) :
    survivorsOf matched relisted =
      relisted.filter fun handle => handle.pid ∈ matched.map ProcessHandle.pid := by
  refine List.filter_congr fun handle _ => ?_
  rw [Bool.eq_iff_iff]
  simp

/-- A pass that gets through the gate lists behind it and goes on with what it found. -/
def reapBehindGate (patterns : List String) : Gated Report := do
  let matched ← list patterns
  if matched.isEmpty then
    return ⟨[], []⟩
  signalAll matched
  let relisted ← list patterns
  return ⟨matched, survivorsOf matched relisted⟩

/-- What happens behind the gate: nothing after a listing that fails or finds nothing, and otherwise
one signal for each match and a second listing. -/
theorem reapBehindGate_goes (answerer : Answerer Call Call.Answer σ) (patterns : List String)
    (gate : ToolGate) (s : σ) :
    ∃ first later,
      Procedure.trace answerer ((reapBehindGate patterns).run.run gate) s =
          ⟨.list patterns, first⟩ :: later ∧
        (∀ e, first = .error e → later = [] ∧
          (Procedure.run answerer ((reapBehindGate patterns).run.run gate) s).1.1 = .error e) ∧
        (first = .ok [] → later = [] ∧
          (Procedure.run answerer ((reapBehindGate patterns).run.run gate) s).1.1 =
            .ok ⟨[], []⟩) ∧
        ∀ matched, first = .ok matched → matched ≠ [] → ∃ signals second,
          later = signals ++ [⟨.list patterns, second⟩] ∧
            signals.map Sigma.fst = matched.map Call.terminate ∧
            (Procedure.run answerer ((reapBehindGate patterns).run.run gate) s).1.1 =
              second.map fun relisted => ⟨matched, survivorsOf matched relisted⟩ := by
  rw [reapBehindGate, trace_gated_bind, run_gated_bind, trace_list, run_list]
  refine ⟨(answerer (.list patterns) s).1, _, rfl, ?_⟩
  rcases answerer (.list patterns) s with ⟨e | matched, after⟩
  · refine ⟨?_, nofun, nofun⟩
    rintro _ ⟨⟩
    exact ⟨rfl, rfl⟩
  by_cases hmatched : matched = []
  · subst hmatched
    refine ⟨nofun, fun _ => ⟨rfl, rfl⟩, ?_⟩
    rintro _ ⟨⟩ hne
    exact absurd rfl hne
  · refine ⟨nofun, fun h => absurd (Except.ok.inj h) hmatched, ?_⟩
    rintro _ ⟨⟩ -
    have hsignals := calls_trace_signalAll answerer matched gate after
    have hran := run_signalAll answerer matched gate after
    dsimp only
    rw [if_neg (by simpa using hmatched), trace_gated_bind, run_gated_bind]
    rcases hrun : Procedure.run answerer ((signalAll matched).run.run gate) after with ⟨_, after'⟩
    rw [hrun] at hran
    cases hran
    dsimp only
    refine ⟨_, (answerer (.list patterns) after').1, ?_, hsignals, ?_⟩
    · rw [trace_relist answerer patterns fun relisted =>
        Report.mk matched (survivorsOf matched relisted)]
      rfl
    · rw [result_relist answerer patterns fun relisted =>
        Report.mk matched (survivorsOf matched relisted)]

theorem trace_killMatching (answerer : Answerer Call Call.Answer σ) (patterns : List String)
    (gate : ToolGate) (s : σ) :
    Procedure.trace answerer ((killMatching patterns).run.run gate) s =
      gate.ensure.trace answerer s ++
        match gate.ensure.run answerer s with
        | ((.ok _, gate'), after) =>
          Procedure.trace answerer ((reapBehindGate patterns).run.run gate') after
        | ((.error _, _), _) => [] := by
  have hpass : killMatching patterns = demandTool >>= fun _ => reapBehindGate patterns := rfl
  rw [hpass, trace_gated_bind, trace_demandTool, run_demandTool]
  rcases gate.ensure.run answerer s with ⟨⟨_ | _, _⟩, _⟩ <;> rfl

theorem result_killMatching (answerer : Answerer Call Call.Answer σ) (patterns : List String)
    (gate : ToolGate) (s : σ) :
    (Procedure.run answerer ((killMatching patterns).run.run gate) s).1.1 =
      match gate.ensure.run answerer s with
      | ((.ok _, gate'), after) =>
        (Procedure.run answerer ((reapBehindGate patterns).run.run gate') after).1.1
      | ((.error e, _), _) => .error (.tool e) := by
  have hpass : killMatching patterns = demandTool >>= fun _ => reapBehindGate patterns := rfl
  rw [hpass, run_gated_bind, run_demandTool]
  rcases gate.ensure.run answerer s with ⟨⟨_ | _, _⟩, _⟩ <;> rfl

/-- A pass whose gate refuses returns the refusal and asks nothing else.  Behind the gate it lists;
if that fails or finds nothing the pass is over, and otherwise it signals every process of that
listing once, in its order, however the signals are answered, lists once more, and reports those of
the second listing whose number the first one had. -/
theorem each_match_signalled_once (answerer : Answerer Call Call.Answer σ)
    (patterns : List String) (gate : ToolGate) (s : σ) :
    let asked := gate.ensure.trace answerer s
    let demanded := (gate.ensure.run answerer s).1.1
    let exchanges := Procedure.trace answerer ((killMatching patterns).run.run gate) s
    let result := (Procedure.run answerer ((killMatching patterns).run.run gate) s).1.1
    (∀ x ∈ asked, IsGateCall x.1) ∧
      (∀ e, demanded = .error e → exchanges = asked ∧ result = .error (.tool e)) ∧
      ∀ status, demanded = .ok status → ∃ first later,
        exchanges = asked ++ ⟨.list patterns, first⟩ :: later ∧
          (∀ e, first = .error e → later = [] ∧ result = .error e) ∧
          (first = .ok [] → later = [] ∧ result = .ok ⟨[], []⟩) ∧
          ∀ matched, first = .ok matched → matched ≠ [] → ∃ signals second,
            later = signals ++ [⟨.list patterns, second⟩] ∧
              signals.map Sigma.fst = matched.map Call.terminate ∧
              (∀ e, second = .error e → result = .error e) ∧
              ∀ relisted, second = .ok relisted →
                result = .ok ⟨matched,
                  relisted.filter fun handle => handle.pid ∈ matched.map ProcessHandle.pid⟩ := by
  intro asked demanded exchanges result
  have hexchanges : exchanges = _ := trace_killMatching answerer patterns gate s
  have hresult : result = _ := result_killMatching answerer patterns gate s
  refine ⟨(demand_ensure answerer gate s).isGateCall, ?_, ?_⟩
  · intro e he
    rcases hensure : gate.ensure.run answerer s with ⟨⟨demanded', gate'⟩, after⟩
    obtain rfl : demanded' = .error e := (congrArg (·.1.1) hensure).symm.trans he
    rw [hensure] at hexchanges hresult
    exact ⟨hexchanges.trans (List.append_nil asked), hresult⟩
  · intro status hok
    rcases hensure : gate.ensure.run answerer s with ⟨⟨demanded', gate'⟩, after⟩
    obtain rfl : demanded' = .ok status := (congrArg (·.1.1) hensure).symm.trans hok
    rw [hensure] at hexchanges hresult
    obtain ⟨first, later, htrace, hfailed, hnothing, hmatched⟩ :=
      reapBehindGate_goes answerer patterns gate' after
    refine ⟨first, later, hexchanges.trans (congrArg _ htrace), ?_, ?_, ?_⟩
    · intro e he
      exact ⟨(hfailed e he).1, hresult.trans (hfailed e he).2⟩
    · intro hnil
      exact ⟨(hnothing hnil).1, hresult.trans (hnothing hnil).2⟩
    · intro matched hfound hne
      obtain ⟨signals, second, hlater, hsignals, hreport⟩ := hmatched matched hfound hne
      refine ⟨signals, second, hlater, hsignals, ?_, ?_⟩
      · rintro e rfl
        exact hresult.trans hreport
      · rintro relisted rfl
        rw [← survivorsOf_eq]
        exact hresult.trans hreport

/-- A host on which the first signal is refused, a process goes away by itself, and a new one comes
up before the second listing. -/
def changingHost : Answerer Call Call.Answer Nat
  | .locate _, n => (true, n + 1)
  | .install _, n => (.ok (), n + 1)
  | .list _, n =>
    (.ok (if n = 1 then [⟨7, "python3 a"⟩, ⟨9, "python3 b"⟩]
      else [⟨7, "python3 a"⟩, ⟨12, "python3 c"⟩]), n + 1)
  | .terminate handle, n =>
    (if handle.pid = 7 then .error (.terminate 7 .notPermitted) else .ok (), n + 1)

/-- The refused signal does not keep the other one from being sent, and the new process is not a
survivor. -/
example :
    let pass := (killMatching ["python3"]).run.run .processLister
    (Procedure.trace changingHost pass 0).map Sigma.fst =
        [.locate "ps", .list ["python3"], .terminate ⟨7, "python3 a"⟩,
          .terminate ⟨9, "python3 b"⟩, .list ["python3"]] ∧
      (Procedure.run changingHost pass 0).1.1 =
        .ok ⟨[⟨7, "python3 a"⟩, ⟨9, "python3 b"⟩], [⟨7, "python3 a"⟩]⟩ :=
  ⟨rfl, rfl⟩

end StackControl.Reaper
