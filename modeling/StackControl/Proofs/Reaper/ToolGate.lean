import StackControl.Proofs.Reaper.Pass

/-!
# The life of a tool gate

A gate is used again and again, directly or by the searches and reaping passes behind it, and what
it asks may be answered differently each time.  There are five ways in which one demand can go; what
they have in common over any number of uses is that the first success is kept, that a failure leaves
no trace, and that nothing behind the gate happens before a success.
-/

namespace StackControl.Reaper

open Procedure (Answerer Exchange)

variable {σ α β : Type} {answerer : Answerer Call Call.Answer σ}

instance : DecidablePred IsGateCall
  | .locate _ | .install _ => .isTrue trivial
  | .list _ | .terminate _ => .isFalse id

/-! ## One demand -/

/-- How demanding a tool goes: what is asked and answered, what comes of it, and the gate after
it. -/
inductive Demand (gate : ToolGate) :
    List (Exchange Call Call.Answer) → Except ToolError ToolStatus → ToolGate → Prop
  | remembered {status : ToolStatus} (hgate : gate.outcome = some status) :
      Demand gate [] (.ok status) gate
  | present (hgate : gate.outcome = none) :
      Demand gate [⟨.locate gate.binary, true⟩] (.ok .alreadyPresent)
        { gate with outcome := some .alreadyPresent }
  | notInstalled (e : ToolError) (hgate : gate.outcome = none) :
      Demand gate [⟨.locate gate.binary, false⟩, ⟨.install gate.package, .error e⟩] (.error e) gate
  | installed (hgate : gate.outcome = none) :
      Demand gate
        [⟨.locate gate.binary, false⟩, ⟨.install gate.package, .ok ()⟩, ⟨.locate gate.binary, true⟩]
        (.ok .installed) { gate with outcome := some .installed }
  | stillMissing (hgate : gate.outcome = none) :
      Demand gate
        [⟨.locate gate.binary, false⟩, ⟨.install gate.package, .ok ()⟩, ⟨.locate gate.binary, false⟩]
        (.error (.stillMissing gate.binary gate.package)) gate

theorem ensure_of_open {gate : ToolGate} (h : gate.outcome = none) :
    gate.ensure = Procedure.ask (.locate gate.binary) fun
      | true => .done (.ok .alreadyPresent, { gate with outcome := some .alreadyPresent })
      | false => .ask (.install gate.package) fun
        | .error e => .done (.error e, gate)
        | .ok () => .ask (.locate gate.binary) fun
          | true => .done (.ok .installed, { gate with outcome := some .installed })
          | false => .done (.error (.stillMissing gate.binary gate.package), gate) := by
  rw [ToolGate.ensure, h]
  refine congrArg (Procedure.ask _) (funext fun found => ?_)
  cases found with
  | true => rfl
  | false =>
      refine congrArg (Procedure.ask _) (funext fun installed => ?_)
      cases installed with
      | error e => rfl
      | ok _ =>
          refine congrArg (Procedure.ask _) (funext fun found => ?_)
          cases found <;> rfl

theorem demand_ensure (answerer : Answerer Call Call.Answer σ) (gate : ToolGate) (s : σ) :
    Demand gate (gate.ensure.trace answerer s) (gate.ensure.run answerer s).1.1
      (gate.ensure.run answerer s).1.2 := by
  cases hgate : gate.outcome with
  | some status =>
      have hensure : gate.ensure = .done (.ok status, gate) := by
        rw [ToolGate.ensure, hgate]
        rfl
      rw [hensure]
      exact .remembered hgate
  | none =>
      rw [ensure_of_open hgate, Procedure.trace_ask, Procedure.run_ask]
      rcases answerer (.locate gate.binary) s with ⟨found, s⟩
      cases found with
      | true => exact .present hgate
      | false =>
          dsimp only
          rw [Procedure.trace_ask, Procedure.run_ask]
          rcases answerer (.install gate.package) s with ⟨e | _, s⟩
          · exact .notInstalled e hgate
          · dsimp only
            rw [Procedure.trace_ask, Procedure.run_ask]
            rcases answerer (.locate gate.binary) s with ⟨found, s⟩
            cases found with
            | true => exact .installed hgate
            | false => exact .stillMissing hgate

/-! ## What happens behind the gate -/

theorem trace_gated_bind (action : Gated α) (f : α → Gated β) (gate : ToolGate) (s : σ) :
    Procedure.trace answerer ((action >>= f).run.run gate) s =
      Procedure.trace answerer (action.run.run gate) s ++
        match Procedure.run answerer (action.run.run gate) s with
        | ((.ok a, gate'), after) => Procedure.trace answerer ((f a).run.run gate') after
        | ((.error _, _), _) => [] := by
  simp only [ExceptT.run_bind, StateT.run_bind, Procedure.trace_bind]
  rcases Procedure.run answerer (action.run.run gate) s with ⟨⟨_ | _, _⟩, _⟩ <;> rfl

theorem trace_demandTool (gate : ToolGate) (s : σ) :
    Procedure.trace answerer (demandTool.run.run gate) s = gate.ensure.trace answerer s := by
  rw [demandTool_eq, Procedure.trace_eq_map_moments, Procedure.moments_map,
    ← Procedure.trace_eq_map_moments]

theorem run_demandTool (gate : ToolGate) (s : σ) :
    Procedure.run answerer (demandTool.run.run gate) s =
      ((((gate.ensure.run answerer s).1.1.map fun _ => ()).mapError Error.tool,
        (gate.ensure.run answerer s).1.2), (gate.ensure.run answerer s).2) := by
  rw [demandTool_eq, Procedure.run_map]

/-- An action that neither asks for the tool nor changes the gate. -/
def SparesGate (action : Gated α) : Prop :=
  ∃ p : Activity (Except Error α), p.Only (¬IsGateCall ·) ∧
    ∀ gate, action.run.run gate = (fun result => (result, gate)) <$> p

theorem sparesGate_pure (a : α) : SparesGate (pure a : Gated α) :=
  ⟨.done (.ok a), trivial, fun _ => rfl⟩

theorem SparesGate.bind {action : Gated α} {f : α → Gated β} (h : SparesGate action)
    (hf : ∀ a, SparesGate (f a)) : SparesGate (action >>= f) := by
  obtain ⟨p, hp, haction⟩ := h
  obtain ⟨q, hq⟩ := Classical.skolem.mp hf
  refine ⟨p >>= fun | .ok a => q a | .error e => .done (.error e), hp.bind fun result => ?_, ?_⟩
  · cases result with
    | ok a => exact (hq a).1
    | error e => trivial
  · intro gate
    rw [ExceptT.run_bind, StateT.run_bind, haction, map_bind, bind_map_left]
    congr 1
    funext result
    cases result with
    | ok a => exact (hq a).2 gate
    | error e => rfl

theorem sparesGate_list (patterns : List String) : SparesGate (list patterns) :=
  ⟨Procedure.call (Call.list patterns), Procedure.only_call.mpr id, fun _ => rfl⟩

theorem sparesGate_signalAll (handles : List ProcessHandle) : SparesGate (signalAll handles) := by
  have hsignal (handle : ProcessHandle) : SparesGate (signal handle) := by
    refine ⟨(fun _ => .ok ()) <$> Procedure.call (Call.terminate handle), ?_, fun _ => rfl⟩
    exact Procedure.Only.map (Procedure.only_call.mpr id) _
  induction handles with
  | nil => exact sparesGate_pure ()
  | cons handle rest ih => exact (hsignal handle).bind fun _ => ih

/-- A use of a gate: a demand, or a search or a reaping pass behind it. -/
inductive Use
  | demand
  | search (patterns : List String)
  | reap (patterns : List String)

/-- What a use does; what it finds is of no interest here. -/
def Use.action : Use → Gated Unit
  | demand => demandTool
  | search patterns => do let _ ← findMatching patterns
  | reap patterns => do let _ ← killMatching patterns

/-- Every use demands the tool first and leaves the gate alone after that. -/
theorem Use.exists_beyond (use : Use) :
    ∃ beyond, SparesGate beyond ∧ use.action = demandTool >>= fun _ => beyond := by
  cases use with
  | demand => exact ⟨pure (), sparesGate_pure (), (bind_pure demandTool).symm⟩
  | search patterns =>
      refine ⟨do let _ ← list patterns, ?_, ?_⟩
      · exact (sparesGate_list patterns).bind fun _ => sparesGate_pure ()
      · simp only [action, findMatching, bind_assoc]
  | reap patterns =>
      refine ⟨do
        let matched ← list patterns
        if matched.isEmpty then return ()
        signalAll matched
        let _ ← list patterns, ?_, ?_⟩
      · refine (sparesGate_list patterns).bind fun matched => ?_
        split
        · exact sparesGate_pure ()
        · refine (sparesGate_signalAll matched).bind fun _ => ?_
          exact (sparesGate_list patterns).bind fun _ => sparesGate_pure ()
      · simp only [action, killMatching, bind_assoc]
        congr 1
        funext _
        congr 1
        funext matched
        split <;> simp

/-! ## A history of uses -/

/-- One use of a gate: what demanding the tool came to, what was asked and answered, and how the use
ended. -/
structure Round where
  demanded : Except ToolError ToolStatus
  exchanges : List (Exchange Call Call.Answer)
  result : Except Error Unit

/-- What a use asked about the tool, and was answered. -/
def Round.toolExchanges (round : Round) : List (Exchange Call Call.Answer) :=
  round.exchanges.filter fun x => IsGateCall x.1

/-- Whether a call is for an installation. -/
def Call.isInstall : Call → Bool
  | .install _ => true
  | _ => false

/-- The uses of a gate one after the other, each from the gate and the state that the one before it
left. -/
def rounds (answerer : Answerer Call Call.Answer σ) : List Use → ToolGate → σ → List Round
  | [], _, _ => []
  | use :: rest, gate, s =>
    let ended := Procedure.run answerer (use.action.run.run gate) s
    { demanded := (gate.ensure.run answerer s).1.1
      exchanges := Procedure.trace answerer (use.action.run.run gate) s
      result := ended.1.1 } :: rounds answerer rest ended.1.2 ended.2

/-- How a use goes from a gate to a gate: a demand, and if that succeeded something else behind
it. -/
inductive Goes (gate : ToolGate) : Round → ToolGate → Prop
  | mk {asked beyond : List (Exchange Call Call.Answer)} {demanded : Except ToolError ToolStatus}
      {result : Except Error Unit} {gate' : ToolGate} (hdemand : Demand gate asked demanded gate')
      (hbeyond : ∀ x ∈ beyond, ¬IsGateCall x.1)
      (hfailed : ∀ e, demanded = .error e → beyond = [] ∧ result = .error (.tool e)) :
      Goes gate ⟨demanded, asked ++ beyond, result⟩ gate'

/-- A gate is reached from another by a sequence of uses. -/
inductive Reaches : ToolGate → List Round → ToolGate → Prop
  | refl {gate : ToolGate} : Reaches gate [] gate
  | step {gate mid gate' : ToolGate} {round : Round} {rest : List Round} :
      Goes gate round mid → Reaches mid rest gate' → Reaches gate (round :: rest) gate'

theorem goes_use (answerer : Answerer Call Call.Answer σ) (use : Use) (gate : ToolGate) (s : σ) :
    Goes gate
      ⟨(gate.ensure.run answerer s).1.1, Procedure.trace answerer (use.action.run.run gate) s,
        (Procedure.run answerer (use.action.run.run gate) s).1.1⟩
      (Procedure.run answerer (use.action.run.run gate) s).1.2 := by
  have hdemand := demand_ensure answerer gate s
  obtain ⟨beyond, ⟨p, hp, hbeyond⟩, haction⟩ := use.exists_beyond
  rw [haction, trace_gated_bind, run_gated_bind, trace_demandTool, run_demandTool]
  rcases hrun : gate.ensure.run answerer s with ⟨⟨e | status, gate'⟩, after⟩
  · rw [hrun] at hdemand
    refine .mk hdemand (fun x hx => by cases hx) fun e' he => ?_
    cases he
    exact ⟨rfl, rfl⟩
  · rw [hrun] at hdemand
    dsimp only [Except.map, Except.mapError]
    rw [hbeyond, Procedure.run_map]
    refine .mk hdemand ?_ fun e he => by cases he
    intro x hx
    rw [Procedure.trace_eq_map_moments, Procedure.moments_map] at hx
    obtain ⟨m, hm, rfl⟩ := List.mem_map.mp hx
    exact hp.mem_moments hm

/-- Each use in a history goes from the gate that the uses before it reach. -/
theorem exists_goes_of_rounds {uses : List Use} {gate : ToolGate} {s : σ}
    {earlier later : List Round} {round : Round}
    (h : rounds answerer uses gate s = earlier ++ round :: later) :
    ∃ mid after, Reaches gate earlier mid ∧ Goes mid round after := by
  induction earlier generalizing uses gate s with
  | nil =>
      cases uses with
      | nil => cases h
      | cons use rest =>
          obtain ⟨rfl, -⟩ := List.cons.inj h
          exact ⟨gate, _, .refl, goes_use answerer use gate s⟩
  | cons first earlier ih =>
      cases uses with
      | nil => cases h
      | cons use rest =>
          obtain ⟨rfl, hrest⟩ := List.cons.inj h
          obtain ⟨mid, after, hreaches, hgoes⟩ := ih hrest
          exact ⟨mid, after, .step (goes_use answerer use gate s) hreaches, hgoes⟩

section Goes

variable {gate gate' : ToolGate} {round : Round} {passed : List Round} {status : ToolStatus}
  {asked : List (Exchange Call Call.Answer)} {demanded : Except ToolError ToolStatus}

theorem Demand.isGateCall (h : Demand gate asked demanded gate') :
    ∀ x ∈ asked, IsGateCall x.1 := by
  cases h <;> simp [IsGateCall]

theorem Demand.exists_locate (h : Demand gate asked demanded gate')
    (hgate : gate.outcome = none) :
    ∃ found others, asked = ⟨.locate gate.binary, found⟩ :: others := by
  cases h with
  | remembered hsome => simp [hgate] at hsome
  | present | installed | stillMissing => exact ⟨_, _, rfl⟩
  | notInstalled => exact ⟨_, _, rfl⟩

theorem Demand.countP_isInstall_le (h : Demand gate asked demanded gate') :
    asked.countP (·.1.isInstall) ≤ 1 := by
  cases h <;> simp [Call.isInstall]

theorem Demand.of_outcome (h : Demand gate asked demanded gate')
    (hgate : gate.outcome = some status) :
    demanded = .ok status ∧ asked = [] ∧ gate' = gate := by
  cases h with
  | remembered hsame => exact ⟨congrArg _ (Option.some.inj (hsame.symm.trans hgate)), rfl, rfl⟩
  | present hnone | installed hnone | stillMissing hnone => simp [hgate] at hnone
  | notInstalled e hnone => simp [hgate] at hnone

theorem Demand.outcome (h : Demand gate asked (.ok status) gate') :
    gate'.outcome = some status := by
  cases h with
  | remembered hgate => exact hgate
  | present | installed => rfl

theorem Demand.eq_of_failed {e : ToolError} (h : Demand gate asked (.error e) gate') :
    gate' = gate := by
  cases h <;> rfl

theorem Demand.asked_of_alreadyPresent (h : Demand gate asked (.ok .alreadyPresent) gate')
    (hgate : gate.outcome = none) : asked = [⟨.locate gate.binary, true⟩] := by
  cases h with
  | remembered hsome => simp [hgate] at hsome
  | present => rfl

theorem Demand.asked_of_installed (h : Demand gate asked (.ok .installed) gate')
    (hgate : gate.outcome = none) :
    asked = [⟨.locate gate.binary, false⟩, ⟨.install gate.package, .ok ()⟩,
      ⟨.locate gate.binary, true⟩] := by
  cases h with
  | remembered hsome => simp [hgate] at hsome
  | installed => rfl

/-- The tool exchanges of a use are those of its demand, and come before everything else. -/
theorem Goes.demand (h : Goes gate round gate') :
    Demand gate round.toolExchanges round.demanded gate' ∧
      ∃ beyond, round.exchanges = round.toolExchanges ++ beyond ∧
        (∀ x ∈ beyond, ¬IsGateCall x.1) ∧
        ∀ e, round.demanded = .error e → beyond = [] ∧ round.result = .error (.tool e) := by
  obtain ⟨hdemand, hbeyond, hfailed⟩ := h
  rename_i asked beyond demanded result
  have htool : Round.toolExchanges ⟨demanded, asked ++ beyond, result⟩ = asked := by
    simp only [Round.toolExchanges, List.filter_append]
    rw [List.filter_eq_self.mpr (by simpa using hdemand.isGateCall),
      List.filter_eq_nil_iff.mpr (by simpa using hbeyond), List.append_nil]
  rw [htool]
  exact ⟨hdemand, beyond, rfl, hbeyond, hfailed⟩

theorem Goes.countP_isInstall_le (h : Goes gate round gate') :
    round.exchanges.countP (·.1.isInstall) ≤ 1 := by
  obtain ⟨hdemand, beyond, hexchanges, hbeyond, -⟩ := h.demand
  have hnone : beyond.countP (·.1.isInstall) = 0 := by
    rw [List.countP_eq_zero]
    intro x hx hinstall
    apply hbeyond x hx
    obtain ⟨call, answer⟩ := x
    cases call with
    | install => trivial
    | _ => cases hinstall
  rw [hexchanges, List.countP_append, hnone]
  exact hdemand.countP_isInstall_le

/-- Processes are listed only behind a demand that succeeded. -/
theorem Goes.of_list (h : Goes gate round gate') {before after : List (Exchange Call Call.Answer)}
    {patterns : List String} {answer : Except Error (List ProcessHandle)}
    (hlist : round.exchanges = before ++ ⟨.list patterns, answer⟩ :: after) :
    (∃ status, round.demanded = .ok status) ∧ round.toolExchanges <+: before := by
  obtain ⟨hdemand, beyond, hexchanges, -, hfailed⟩ := h.demand
  have hnot : ⟨.list patterns, answer⟩ ∉ round.toolExchanges := fun hmem =>
    hdemand.isGateCall _ hmem
  constructor
  · cases hdemanded : round.demanded with
    | ok status => exact ⟨status, rfl⟩
    | error e =>
        rw [(hfailed e hdemanded).1, List.append_nil] at hexchanges
        exact absurd (by simp [← hexchanges, hlist]) hnot
  · rw [hlist] at hexchanges
    rcases List.append_eq_append_iff.mp hexchanges with ⟨rest, htool, hrest⟩ | ⟨rest, hbefore, -⟩
    · cases rest with
      | nil => exact ⟨[], by rw [htool]; simp⟩
      | cons x rest =>
          obtain ⟨rfl, -⟩ := List.cons.inj hrest
          exact absurd (by simp [htool]) hnot
    · exact ⟨rest, hbefore.symm⟩

theorem Goes.exists_locate (h : Goes gate round gate') (hgate : gate.outcome = none) :
    ∃ found others, round.exchanges = ⟨.locate gate.binary, found⟩ :: others := by
  obtain ⟨hdemand, beyond, hexchanges, -⟩ := h.demand
  obtain ⟨found, others, hasked⟩ := hdemand.exists_locate hgate
  exact ⟨found, others ++ beyond, by rw [hexchanges, hasked, List.cons_append]⟩

theorem Reaches.outcome (h : Reaches gate passed gate') (hgate : gate.outcome = some status) :
    gate'.outcome = some status := by
  induction h with
  | refl => exact hgate
  | step hgoes _ ih => exact ih ((hgoes.demand.1.of_outcome hgate).2.2 ▸ hgate)

/-- A success is remembered. -/
theorem Reaches.remembers (h : Reaches gate passed gate') (hround : round ∈ passed)
    (hok : round.demanded = .ok status) : gate'.outcome = some status := by
  induction h with
  | refl => cases hround
  | step hgoes hrest ih =>
      rcases List.mem_cons.mp hround with rfl | hround
      · exact hrest.outcome (hok ▸ hgoes.demand.1).outcome
      · exact ih hround

/-- Failures leave the gate as it was. -/
theorem Reaches.eq_of_failed (h : Reaches gate passed gate')
    (hfailed : ∀ r ∈ passed, ∃ e, r.demanded = .error e) : gate' = gate := by
  induction h with
  | refl => rfl
  | step hgoes _ ih =>
      obtain ⟨⟨e, hfirst⟩, hrest⟩ := List.forall_mem_cons.mp hfailed
      have hdemand := hgoes.demand.1
      rw [hfirst] at hdemand
      rw [ih hrest, hdemand.eq_of_failed]

end Goes

/-- Over any uses of a new gate: the first success is what every later demand comes to, without
another question; a demand installs at most once; success says how it came about; a failure is not
remembered and ends the use; and no processes are listed before a demand has succeeded. -/
theorem gate_keeps_first_success (answerer : Answerer Call Call.Answer σ)
    (binary package : String) (uses : List Use) (s : σ) (earlier later : List Round)
    (round : Round)
    (hrounds : rounds answerer uses ⟨binary, package, none⟩ s = earlier ++ round :: later) :
    (∀ r ∈ earlier, ∀ status, r.demanded = .ok status →
        round.demanded = .ok status ∧ round.toolExchanges = []) ∧
      round.exchanges.countP (·.1.isInstall) ≤ 1 ∧
      ((∀ r ∈ earlier, ∃ e, r.demanded = .error e) →
        (round.demanded = .ok .alreadyPresent →
            round.toolExchanges = [⟨.locate binary, true⟩]) ∧
          (round.demanded = .ok .installed →
            round.toolExchanges =
              [⟨.locate binary, false⟩, ⟨.install package, .ok ()⟩, ⟨.locate binary, true⟩])) ∧
      (∀ e, round.demanded = .error e →
        round.result = .error (.tool e) ∧
          ∀ next rest, later = next :: rest →
            ∃ found others, next.exchanges = ⟨.locate binary, found⟩ :: others) ∧
      ∀ before patterns answer after,
        round.exchanges = before ++ ⟨.list patterns, answer⟩ :: after →
          (∃ status, round.demanded = .ok status) ∧ round.toolExchanges <+: before := by
  obtain ⟨mid, gate, hreaches, hgoes⟩ := exists_goes_of_rounds hrounds
  have hkept (r : Round) (hr : r ∈ earlier) (status : ToolStatus) (hok : r.demanded = .ok status) :
      round.demanded = .ok status ∧ round.toolExchanges = [] := by
    obtain ⟨hdemanded, htool, -⟩ := hgoes.demand.1.of_outcome (hreaches.remembers hr hok)
    exact ⟨hdemanded, htool⟩
  refine ⟨hkept, hgoes.countP_isInstall_le, ?_, ?_, ?_⟩
  · intro hfailed
    have hdemand := hgoes.demand.1
    rw [hreaches.eq_of_failed hfailed] at hdemand
    constructor
    · intro hpresent
      exact (hpresent ▸ hdemand).asked_of_alreadyPresent rfl
    · intro hinstalled
      exact (hinstalled ▸ hdemand).asked_of_installed rfl
  · intro e he
    obtain ⟨-, beyond, -, -, hfailed⟩ := hgoes.demand
    refine ⟨(hfailed e he).2, ?_⟩
    rintro next rest rfl
    have hall : ∀ r ∈ earlier ++ [round], ∃ e, r.demanded = .error e := by
      intro r hr
      rcases List.mem_append.mp hr with hr | hr
      · cases hdemanded : r.demanded with
        | error e' => exact ⟨e', rfl⟩
        | ok status =>
            have hok := (hkept r hr status hdemanded).1
            rw [he] at hok
            cases hok
      · rw [List.mem_singleton.mp hr]
        exact ⟨e, he⟩
    have hnext : rounds answerer uses ⟨binary, package, none⟩ s =
        (earlier ++ [round]) ++ next :: rest := by
      rw [hrounds, List.append_assoc, List.singleton_append]
    obtain ⟨mid', gate', hreaches', hgoes'⟩ := exists_goes_of_rounds hnext
    obtain rfl := hreaches'.eq_of_failed hall
    exact hgoes'.exists_locate rfl
  · intro before patterns answer after hlist
    exact hgoes.of_list hlist

/-- An environment in which the first installation fails and the second one brings the tool. -/
def lateTool : Answerer Call Call.Answer Nat
  | .locate _, n => (n == 4, n + 1)
  | .install package, n =>
    (if n = 1 then .error (.installFailed "apt-get update" package 100) else .ok (), n + 1)
  | .list _, n => (.ok [], n + 1)
  | .terminate _, n => (.ok (), n + 1)

/-- A failed search, a pass that brings the tool, and a demand that asks nothing more. -/
theorem late_tool_kept :
    ∃ first second third,
      rounds lateTool [.search ["python3"], .reap ["python3"], .demand] .processLister 0 =
          [first, second, third] ∧
        first.demanded = .error (.installFailed "apt-get update" "procps" 100) ∧
        second.demanded = .ok .installed ∧
        third.demanded = .ok .installed ∧ third.toolExchanges = [] := by
  refine ⟨_, _, _, rfl, rfl, rfl, ?_⟩
  exact (gate_keeps_first_success lateTool "ps" "procps"
    [.search ["python3"], .reap ["python3"], .demand] 0 [_, _] [] _ rfl).1 _
    (List.mem_cons_of_mem _ List.mem_cons_self) .installed rfl

end StackControl.Reaper
