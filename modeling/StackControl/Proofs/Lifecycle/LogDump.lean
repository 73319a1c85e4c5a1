import StackControl.Proofs.Engine.Logs
import StackControl.Proofs.FileTree.Filling
import StackControl.Proofs.FileTree.PathText
import StackControl.Proofs.Lifecycle.MachineSite

/-!
# Dumping logs

The services are handled one after the other, each by a turn: its engine commands, and what comes
of them.  A turn that fails is the last one.  Every other turn writes the one file of its service,
or says that there are no logs; so all that a dump changes are the files of its own project, and
those of two projects are never the same.
-/

namespace StackControl.Lifecycle

open FileTree (Admits Distinct HasBodies LeadsTo Written)
open Procedure (Exchange)

/-! ## The files of a project -/

/-- The name of the file that the logs of a service are written to. -/
def logName (project service : String) : Name :=
  Utf8.encode (project ++ "_" ++ service ++ ".log")

/-- The services, by name. -/
def serviceNames : List String :=
  Service.all.map (·.name)

section Names

variable {project service : String}

theorem encode_logPath (directory project service : String) :
    Utf8.encode (logPath directory project service) =
      Path.join (Utf8.encode directory) (logName project service) :=
  Path.encode_joinText ..

theorem isOrdinary_logName (hproject : '/' ∉ project.toList) (hservice : service ∈ serviceNames) :
    Path.IsOrdinary (logName project service) := by
  have hslash : '/' ∉ service.toList := by
    revert service
    decide
  refine Path.isOrdinary_encode ?_ ⟨'_', ?_, by decide⟩
  · simp [hproject, hslash]
  · simp

/-- What follows the last of its underscores tells a text apart. -/
theorem append_underscore_inj {front front' rest rest' : List Char} (hrest : '_' ∉ rest)
    (hrest' : '_' ∉ rest') (h : front ++ '_' :: rest = front' ++ '_' :: rest') :
    front = front' ∧ rest = rest' := by
  rcases List.append_eq_append_iff.mp h with ⟨between, rfl, htail⟩ | ⟨between, rfl, htail⟩
  · rcases between with _ | ⟨c, between⟩
    · simpa using htail
    · obtain ⟨-, rfl⟩ := List.cons.inj htail
      simp at hrest
  · rcases between with _ | ⟨c, between⟩
    · simpa [eq_comm] using htail
    · obtain ⟨-, rfl⟩ := List.cons.inj htail
      simp at hrest'

/-- The names of files tell projects and services apart. -/
theorem logName_injective {project' service' : String} (hservice : service ∈ serviceNames)
    (hservice' : service' ∈ serviceNames)
    (h : logName project service = logName project' service') :
    project = project' ∧ service = service' := by
  have hplain {service : String} (hservice : service ∈ serviceNames) : '_' ∉ service.toList := by
    revert service
    decide
  have htext := congrArg String.toList (Utf8.encode_injective h)
  simp only [String.toList_append] at htext
  obtain ⟨hproject, hname⟩ := append_underscore_inj (hplain hservice) (hplain hservice')
    (by simpa using List.append_cancel_right htext)
  exact ⟨String.toList_inj.mp hproject, String.toList_inj.mp hname⟩

end Names

/-! ## Turns -/

/-- What comes of the logs of one service. -/
inductive LogVerdict
  /-- The engine failed. -/
  | failed (e : Engine.Error)
  /-- There is no container. -/
  | absent
  | written (logs : String)
  /-- There are logs, but their file could not be written. -/
  | refused (logs : String) (fault : Fault)

/-- What the engine said about the logs. -/
def LogVerdict.logs : LogVerdict → Except Engine.Error (Option String)
  | failed e => .error e
  | absent => .ok none
  | written logs | refused logs _ => .ok (some logs)

/-- How one service is handled. -/
structure LogTurn where
  service : String
  /-- The commands about the service, with their answers. -/
  asked : List (Exchange Machine.Call Machine.Call.Answer)
  verdict : LogVerdict

namespace LogTurn

variable (directory project : String)

/-- The path that the logs of a turn belong at. -/
def path (turn : LogTurn) : String :=
  logPath directory project turn.service

/-- The calls of a turn, with their answers. -/
def calls (turn : LogTurn) : List (Exchange Machine.Call Machine.Call.Answer) :=
  turn.asked ++
    match turn.verdict with
    | .failed _ => []
    | .absent => [⟨.print .stderr ("no logs for service '" ++ turn.service ++ "'"), .ok ()⟩]
    | .written logs =>
      [⟨.files (.write (Utf8.encode (turn.path directory project)) (Utf8.encode logs)), .ok ()⟩,
        ⟨.print .stdout ("wrote " ++ turn.path directory project), .ok ()⟩]
    | .refused logs fault =>
      [⟨.files (.write (Utf8.encode (turn.path directory project)) (Utf8.encode logs)),
        .error fault⟩]

/-- The error that a turn ends the dump with. -/
def error? (turn : LogTurn) : Option Error :=
  match turn.verdict with
  | .failed e => some (.engine e)
  | .refused _ fault => some (.writeLogs (turn.path directory project) fault)
  | .absent | .written _ => none

/-- What a turn writes: the file of its service, or nothing. -/
def rows (turn : LogTurn) : List (Name × Bytes) :=
  match turn.verdict with
  | .written logs => [(logName project turn.service, Utf8.encode logs)]
  | .failed _ | .absent | .refused _ _ => []

theorem mem_rows {turn : LogTurn} {row : Name × Bytes} :
    row ∈ turn.rows project ↔ ∃ logs, turn.verdict = .written logs ∧
      row = (logName project turn.service, Utf8.encode logs) := by
  obtain ⟨service, asked, verdict⟩ := turn
  rcases verdict with e | _ | logs | ⟨logs, fault⟩ <;> simp [rows]

/-- A turn is one that the engine's answers and the tree allow. -/
structure Fits (client : Engine.Client) (group : ServiceGroup) (tree : FileTree) (turn : LogTurn) :
    Prop where
  asked : client.AsksLogs group turn.service turn.asked turn.verdict.logs
  written {logs : String} : turn.verdict = .written logs →
    tree.mayWrite (Utf8.encode (turn.path directory group.project)) = true
  refused {logs : String} {fault : Fault} : turn.verdict = .refused logs fault →
    tree.mayWrite (Utf8.encode (turn.path directory group.project)) = false

end LogTurn

/-! ## One service -/

section Step

variable {σ : Type} (others : Procedure.Answerer Machine.Call Machine.Call.Answer σ)
  (config : Config) {group : ServiceGroup} {directory service : String} {made : FileTree}
  {top : Location} {rows : List (Name × Bytes)} {s : (σ × FileTree) × Reaper.ToolGate}

/-- The names of the log files of a project. -/
abbrev logNames (project : String) : List Name :=
  serviceNames.map (logName project)

/-- The logs of a service are written, or their file cannot be opened and the tree stays. -/
theorem write_logs_cases (hproject : '/' ∉ group.project.toList) (hservice : service ∈ serviceNames)
    (hlead : made.LeadsTo (Utf8.encode directory) top)
    (hdistinct : made.Distinct top (logNames group.project)) (hbodies : made.HasBodies)
    {tree : FileTree} (h : Written made top rows tree)
    (hrows : ∀ row ∈ rows, row.1 ∈ logNames group.project)
    (hnew : ∀ row ∈ rows, row.1 ≠ logName group.project service) (content : Bytes) :
    let path := Utf8.encode (logPath directory group.project service)
    (made.mayWrite path = true ∧
        ∃ after, (FileTree.Edit.write path content).run tree = (.ok (), after) ∧
          Written made top (rows ++ [(logName group.project service, content)]) after) ∨
      made.mayWrite path = false ∧
        ∃ e, (FileTree.Edit.write path content).run tree = (.error e, tree) := by
  intro path
  have hname := isOrdinary_logName hproject hservice
  have hmem : logName group.project service ∈ logNames group.project :=
    List.mem_map_of_mem hservice
  have hlink (target : Path) : made.node? (top ++ [logName group.project service]) ≠
      some (.link target) := hdistinct.not_link hmem
  have hapart : ∀ row ∈ rows, ∀ i,
      made.node? (top ++ [logName group.project service]) = some (.file i) →
        made.node? (top ++ [row.1]) ≠ some (.file i) :=
    fun row hrow i hnode hnode' =>
      hnew row hrow (hdistinct.apart (hrows row hrow) hmem hnode' hnode)
  have hpath : path = Path.join (Utf8.encode directory) (logName group.project service) :=
    encode_logPath ..
  rw [hpath]
  rcases hmay : made.mayWrite (Path.join (Utf8.encode directory) (logName group.project service))
  · refine .inr ⟨rfl, FileTree.exists_run_write_error ?_⟩
    rw [h.mayWrite_eq hnew hapart hbodies hlead hname hlink, hmay]
  · obtain ⟨hspot, hadmits⟩ := (hlead.mayWrite_iff hname hlink).mp hmay
    exact .inl ⟨rfl, h.exists_run_write hnew hapart hbodies hspot (Path.directory_join_name hname)
      hadmits⟩

/-- One service is handled by a turn. -/
theorem exists_turn (hproject : '/' ∉ group.project.toList) (hservice : service ∈ serviceNames)
    (hlead : made.LeadsTo (Utf8.encode directory) top)
    (hdistinct : made.Distinct top (logNames group.project)) (hbodies : made.HasBodies)
    (h : Written made top rows s.1.2) (hrows : ∀ row ∈ rows, row.1 ∈ logNames group.project)
    (hnew : ∀ row ∈ rows, row.1 ≠ logName group.project service) :
    ∃ (turn : LogTurn) (after : (σ × FileTree) × Reaper.ToolGate),
      turn.service = service ∧ turn.Fits directory ⟨config.engine⟩ group made ∧
        machineTrace others config (dumpServiceLogs group directory service) s =
          turn.calls directory group.project ∧
        (machineSite others config).result (dumpServiceLogs group directory service) s =
          ((turn.error? directory group.project).elim (.ok ()) .error, after) ∧
        Written made top (rows ++ turn.rows group.project) after.1.2 := by
  have hasks := (Engine.Client.mk config.engine).asksLogs_logs group service
    (Machine.overTree others) s.1
  have htree : (Procedure.run (Machine.overTree others)
      ((Engine.Client.mk config.engine).logs group service).run s.1).2.2 = s.1.2 :=
    Machine.run_overTree_of_only ((Engine.Client.mk config.engine).only_captured_logs ..) ..
  rw [← htree] at h
  rw [dumpServiceLogs, machineTrace_bind, Site.result_bind, result_machineSite_engine,
    machineTrace_engine, Engine.Client.perform]
  generalize Procedure.trace (Machine.overTree others)
    ((Engine.Client.mk config.engine).logs group service).run s.1 = asked at hasks ⊢
  generalize Procedure.run (Machine.overTree others)
    ((Engine.Client.mk config.engine).logs group service).run s.1 = found at hasks h ⊢
  obtain ⟨e | _ | logs, after⟩ := found
  · exact ⟨⟨service, asked, .failed e⟩, _, rfl, ⟨hasks, nofun, nofun⟩, rfl, rfl,
      by simpa [LogTurn.rows] using h⟩
  · exact ⟨⟨service, asked, .absent⟩, _, rfl, ⟨hasks, nofun, nofun⟩, rfl, rfl,
      by simpa [LogTurn.rows] using h⟩
  · dsimp only [Except.mapError]
    rw [machineTrace_bind, Site.result_bind, machineTrace_write, result_machineSite_write]
    rcases write_logs_cases hproject hservice hlead hdistinct hbodies h hrows hnew
        (Utf8.encode logs) with
      ⟨hmay, wrote, hwrite, hwritten⟩ | ⟨hmay, fault, hwrite⟩
    · rw [hwrite]
      exact ⟨⟨service, asked, .written logs⟩, _, rfl, ⟨hasks, fun _ => hmay, nofun⟩, rfl, rfl,
        hwritten⟩
    · rw [hwrite]
      exact ⟨⟨service, asked, .refused logs fault⟩, _, rfl, ⟨hasks, nofun, fun _ => hmay⟩, rfl, rfl,
        by simpa [LogTurn.rows] using h⟩

/-- How turns come to an end: every service has had its own, or the last of them failed. -/
def Concludes (directory project : String) (services : List String) (turns : List LogTurn)
    (error? : Option Error) : Prop :=
  (turns.map (·.service) = services ∧ (∀ turn ∈ turns, turn.error? directory project = none) ∧
      error? = none) ∨
    ∃ front last e, turns = front ++ [last] ∧ turns.map (·.service) <+: services ∧
      (∀ turn ∈ front, turn.error? directory project = none) ∧
      last.error? directory project = some e ∧ error? = some e

/-- A turn that does not fail goes before the others. -/
theorem Concludes.cons {directory project : String} {services : List String}
    {turns : List LogTurn} {error? : Option Error} {turn : LogTurn}
    (h : Concludes directory project services turns error?)
    (hturn : turn.error? directory project = none) :
    Concludes directory project (turn.service :: services) (turn :: turns) error? := by
  rcases h with ⟨hall, hnone, herror⟩ | ⟨front, last, e, rfl, hprefix, hfront, hlast, herror⟩
  · exact .inl ⟨by simp [hall], by simpa [hturn] using hnone, herror⟩
  · refine .inr ⟨turn :: front, last, e, rfl, ?_, by simpa [hturn] using hfront, hlast, herror⟩
    exact List.cons_prefix_cons.mpr ⟨rfl, hprefix⟩

theorem Concludes.mem_services {directory project : String} {services : List String}
    {turns : List LogTurn} {error? : Option Error} {turn : LogTurn}
    (h : Concludes directory project services turns error?) (hturn : turn ∈ turns) :
    turn.service ∈ services := by
  have hmem : turn.service ∈ turns.map (·.service) := List.mem_map_of_mem hturn
  rcases h with ⟨hall, -⟩ | ⟨front, last, e, -, hprefix, -⟩
  · exact hall ▸ hmem
  · exact hprefix.subset hmem

/-- Services are handled by turns. -/
theorem exists_turns (hproject : '/' ∉ group.project.toList)
    (hlead : made.LeadsTo (Utf8.encode directory) top)
    (hdistinct : made.Distinct top (logNames group.project)) (hbodies : made.HasBodies)
    {services : List String} (hservices : ∀ service ∈ services, service ∈ serviceNames)
    (hnodup : services.Nodup) (h : Written made top rows s.1.2)
    (hrows : ∀ row ∈ rows, row.1 ∈ logNames group.project)
    (hnew : ∀ row ∈ rows, ∀ service ∈ services, row.1 ≠ logName group.project service) :
    ∃ (turns : List LogTurn) (error? : Option Error) (after : (σ × FileTree) × Reaper.ToolGate),
      Concludes directory group.project services turns error? ∧
        (∀ turn ∈ turns, turn.Fits directory ⟨config.engine⟩ group made) ∧
        machineTrace others config (dumpEach group directory services) s =
          turns.flatMap (·.calls directory group.project) ∧
        (machineSite others config).result (dumpEach group directory services) s =
          (error?.elim (.ok ()) .error, after) ∧
        Written made top (rows ++ turns.flatMap (·.rows group.project)) after.1.2 := by
  -- What is written so far are files of services that are not among those still to come.
  induction services generalizing rows s with
  | nil =>
      exact ⟨[], none, s, .inl ⟨rfl, nofun, rfl⟩, nofun, rfl, rfl, by simpa using h⟩
  | cons service rest ih =>
      obtain ⟨hservice, hrest⟩ := List.forall_mem_cons.mp hservices
      obtain ⟨hnotMem, hnodup⟩ := List.nodup_cons.mp hnodup
      obtain ⟨turn, mid, hturn, hfits, hcalls, hresult, hwritten⟩ := exists_turn others config
        hproject hservice hlead hdistinct hbodies h hrows fun row hrow =>
          hnew row hrow service List.mem_cons_self
      rw [dumpEach, machineTrace_bind, Site.result_bind, hresult, hcalls]
      rcases herror : turn.error? directory group.project with _ | e
      · have hrow {row : Name × Bytes} (hmem : row ∈ turn.rows group.project) :
            row.1 = logName group.project service := by
          obtain ⟨logs, -, rfl⟩ := (LogTurn.mem_rows _).mp hmem
          rw [hturn]
        obtain ⟨turns, error?, after, hconcludes, hfits', hcalls', hresult', hwritten'⟩ :=
          ih hrest hnodup hwritten
            (fun row hmem => (List.mem_append.mp hmem).elim (hrows row) fun hmem =>
              hrow hmem ▸ List.mem_map_of_mem hservice)
            (fun row hmem later hlater => (List.mem_append.mp hmem).elim
              (fun hmem => hnew row hmem later (List.mem_cons_of_mem _ hlater))
              fun hmem heq => hnotMem <|
                (logName_injective hservice (hrest later hlater) (hrow hmem ▸ heq)).2 ▸ hlater)
        refine ⟨turn :: turns, error?, after, hturn ▸ hconcludes.cons herror,
          List.forall_mem_cons.mpr ⟨hfits, hfits'⟩, ?_, hresult', ?_⟩
        · rw [List.flatMap_cons, ← hcalls']
          rfl
        · rwa [List.flatMap_cons, ← List.append_assoc]
      · refine ⟨[turn], some e, mid, .inr ⟨[], turn, e, rfl, ?_, nofun, herror, rfl⟩,
          by simpa using hfits, by simp, rfl, by simpa using hwritten⟩
        simp [hturn]

end Step

/-! ## The whole dump -/

section Dump

variable {σ : Type} (others : Procedure.Answerer Machine.Call Machine.Call.Answer σ)
  (context : Context) (directory : String) (s : σ) (tree : FileTree) (gate : Reaper.ToolGate)

/-- A tree with the directory of a dump. -/
def withDirectory (directory : String) (tree : FileTree) : FileTree :=
  ((FileTree.Edit.makeDirectories (Utf8.encode directory)).run tree).2

/-- A dump is the turns of the services, once the directory is there. -/
theorem exists_turns_dumpLogs (hproject : '/' ∉ context.settings.project.toList)
    (hbodies : tree.HasBodies)
    (hmade : ((FileTree.Edit.makeDirectories (Utf8.encode directory)).run tree).1 = .ok ())
    {top : Location}
    (hlead : (withDirectory directory tree).LeadsTo (Utf8.encode directory) top)
    (hdistinct : (withDirectory directory tree).Distinct top
      (logNames context.settings.project)) :
    ∃ (turns : List LogTurn) (error? : Option Error) (after : (σ × FileTree) × Reaper.ToolGate),
      Concludes directory context.settings.project serviceNames turns error? ∧
        (∀ turn ∈ turns, turn.Fits directory ⟨context.config.engine⟩ context.group
          (withDirectory directory tree)) ∧
        machineTrace others context.config (dumpLogs context directory) ((s, tree), gate) =
          ⟨.files (.makeDirectories (Utf8.encode directory)), .ok ()⟩ ::
            turns.flatMap (·.calls directory context.settings.project) ∧
        (machineSite others context.config).result (dumpLogs context directory) ((s, tree), gate) =
          (error?.elim (.ok .done) .error, after) ∧
        Written (withDirectory directory tree) top
          (turns.flatMap (·.rows context.settings.project)) after.1.2 := by
  have hadded := FileTree.directoriesAdded_makeDirectories tree (Utf8.encode directory)
  rw [withDirectory] at *
  generalize hmaking : (FileTree.Edit.makeDirectories (Utf8.encode directory)).run tree = making
    at hmade hlead hdistinct hadded ⊢
  obtain ⟨making, made⟩ := making
  obtain rfl : making = .ok () := hmade
  obtain ⟨turns, error?, after, hconcludes, hfits, hcalls, hresult, hwritten⟩ :=
    exists_turns (s := ((s, made), gate)) others context.config
      (show '/' ∉ context.group.project.toList from hproject) hlead hdistinct
      (hbodies.of_directoriesAdded hadded) (fun _ => id) (by decide) (.nil made top) nofun nofun
  refine ⟨turns, error?, after, hconcludes, hfits, ?_, ?_, hwritten⟩
  · rw [dumpLogs, ← serviceNames, machineTrace_bind, machineTrace_makeDirectories,
      result_machineSite_makeDirectories, hmaking]
    dsimp only [Except.mapError]
    rw [machineTrace_bind, hcalls, hresult]
    rcases error? with _ | e
    · exact congrArg _ (List.append_nil _)
    · exact congrArg _ (List.append_nil _)
  · rw [dumpLogs, ← serviceNames, Site.result_bind, result_machineSite_makeDirectories, hmaking]
    dsimp only [Except.mapError]
    rw [Site.result_bind, hresult]
    rcases error? with _ | e
    · rfl
    · rfl

/-- Services are handled in order, each by its commands; the file of a service is written exactly if
its logs were read and the file can be opened, and then holds all that was written about it.  A
failure of the engine or of a write ends the dump.  Nothing but these files changes, and no other
project has one of them. -/
theorem dumpLogs_covers_services (hproject : '/' ∉ context.settings.project.toList)
    (hbodies : tree.HasBodies)
    (hmade : ((FileTree.Edit.makeDirectories (Utf8.encode directory)).run tree).1 = .ok ())
    (hdistinct : ∀ top, (withDirectory directory tree).LeadsTo (Utf8.encode directory) top →
      (withDirectory directory tree).Distinct top (logNames context.settings.project)) :
    let project := context.settings.project
    let client : Engine.Client := ⟨context.config.engine⟩
    let made := withDirectory directory tree
    let dump := ((dumpLogs context directory).run.realiseWith (perform context.config)).run gate
    let result := (Procedure.run (Machine.overTree others) dump (s, tree)).1.1
    let final := (Procedure.run (Machine.overTree others) dump (s, tree)).2.2
    ∃ (turns : List LogTurn) (error? : Option Error) (top : Location),
      Procedure.trace (Machine.overTree others) dump (s, tree) =
          ⟨.files (.makeDirectories (Utf8.encode directory)), .ok ()⟩ ::
            turns.flatMap (·.calls directory project) ∧
        Concludes directory project serviceNames turns error? ∧
        result = error?.elim (.ok .done) .error ∧
        (∀ turn ∈ turns, turn.Fits directory client context.group made ∧
          ((∃ output, Engine.exchanged (client.readingLogs context.group turn.service) output ∈
              turn.asked) ↔
            ∃ listing ∈ [client.listingRunning context.group turn.service,
                client.listingAll context.group turn.service],
              ∃ listed : Finished, Engine.exchanged listing (.ok listed) ∈ turn.asked ∧
                listed.status.isSuccess ∧ Engine.NamesContainer listed.stdout) ∧
          ∀ logs, turn.verdict.logs = .ok (some logs) ↔
            ∃ output : Finished,
              Engine.exchanged (client.readingLogs context.group turn.service) (.ok output) ∈
                turn.asked ∧ output.status.isSuccess ∧ logs = Engine.writtenText output) ∧
        made.LeadsTo (Utf8.encode directory) top ∧
        FileTree.DirectoriesAdded
          (Utf8.encode directory :: Path.above (Path.components (Utf8.encode directory)))
          tree made ∧
        Written made top (turns.flatMap (·.rows project)) final ∧
        (∀ turn ∈ turns, ∀ logs, turn.verdict = .written logs →
          ∃ i mode, final.stat (Utf8.encode (turn.path directory project)) =
              .ok (top ++ [logName project turn.service], .file i) ∧
            final.bodies[i]? = some ⟨mode, Utf8.encode logs⟩) ∧
        (∀ service ∈ serviceNames,
          (∀ turn ∈ turns, turn.service = service → turn.rows project = []) →
            final.fileAt? (top ++ [logName project service]) =
              made.fileAt? (top ++ [logName project service])) ∧
        ∀ project' ≠ project, ∀ service ∈ serviceNames,
          ∀ row ∈ turns.flatMap (·.rows project), row.1 ≠ logName project' service := by
  intro project client made dump result final
  obtain ⟨top, hlead⟩ := FileTree.exists_leadsTo_of_makeDirectories hmade
  have hdistinct := hdistinct top hlead
  obtain ⟨turns, error?, after, hconcludes, hfits, hcalls, hresult, hwritten⟩ :=
    exists_turns_dumpLogs others context directory s tree gate hproject hbodies hmade hlead
      hdistinct
  have hrun : Procedure.run (Machine.overTree others) dump (s, tree) = _ :=
    run_realiseWith_perform others context.config (dumpLogs context directory) ((s, tree), gate)
  rw [hresult] at hrun
  have hwritten : Written made top (turns.flatMap (·.rows project)) final :=
    (show final = after.1.2 from congrArg (·.2.2) hrun) ▸ hwritten
  have hrow {row : Name × Bytes} (hmem : row ∈ turns.flatMap (·.rows project)) :
      ∃ turn ∈ turns, row ∈ turn.rows project ∧ row.1 = logName project turn.service := by
    obtain ⟨turn, hturn, hmem⟩ := List.mem_flatMap.mp hmem
    obtain ⟨logs, -, rfl⟩ := (LogTurn.mem_rows _).mp hmem
    exact ⟨turn, hturn, hmem, rfl⟩
  refine ⟨turns, error?, top, hcalls, hconcludes, congrArg (·.1.1) hrun, fun turn hturn => ?_,
    hlead, FileTree.directoriesAdded_makeDirectories tree _, hwritten,
    fun turn hturn logs hlogs => ?_, fun service hservice hnone => ?_,
    fun project' hproject' service hservice row hmem => ?_⟩
  · have hfits := hfits turn hturn
    exact ⟨hfits, hfits.asked.reads_iff, hfits.asked.answer_iff⟩
  · have hservice := hconcludes.mem_services hturn
    have hmem : logName project turn.service ∈ logNames project := List.mem_map_of_mem hservice
    have hmay := (hfits turn hturn).written hlogs
    rw [LogTurn.path, encode_logPath] at hmay ⊢
    obtain ⟨i, hstat, hbody⟩ := hwritten.exists_stat hlead (isOrdinary_logName hproject hservice)
      (fun _ => hdistinct.not_link hmem) hmay
      (List.mem_flatMap.mpr ⟨turn, hturn, (LogTurn.mem_rows _).mpr ⟨logs, hlogs, rfl⟩⟩)
    exact ⟨i, _, hstat, hbody⟩
  · have hnew : ∀ row ∈ turns.flatMap (·.rows project), row.1 ≠ logName project service := by
      intro row hmem heq
      obtain ⟨turn, hturn, hmem, hname⟩ := hrow hmem
      have hsame := (logName_injective (hconcludes.mem_services hturn) hservice
        (hname.symm.trans heq)).2
      rw [hnone turn hturn hsame] at hmem
      cases hmem
    refine hwritten.fileAt?_eq hnew (fun row hmem i hnode hnode' => hnew row hmem ?_)
      (hbodies.of_directoriesAdded (FileTree.directoriesAdded_makeDirectories tree _))
    obtain ⟨turn, hturn, -, hname⟩ := hrow hmem
    refine hdistinct.apart ?_ (List.mem_map_of_mem hservice) hnode' hnode
    rw [hname]
    exact List.mem_map_of_mem (hconcludes.mem_services hturn)
  · obtain ⟨turn, hturn, -, hname⟩ := hrow hmem
    intro heq
    exact hproject' (logName_injective hservice (hconcludes.mem_services hturn)
      (heq.symm.trans hname)).1

end Dump

/-- Programs that succeed and write their last argument on a line. -/
def echoing : Procedure.Answerer Machine.Call Machine.Call.Answer Unit
  | .launch launch _, s =>
    (.ok ⟨.exited 0, Utf8.encode (launch.arguments.getLastD "" ++ "\n"), []⟩, s)
  | .spawn _, s => (.ok (), s)
  | .terminate _, s => (.ok (), s)
  | .ownPid, s => (1, s)
  | .searchPath, s => (none, s)
  | .isFile _, s => (false, s)
  | .files request, s => ((request.perform (FileTree.empty [])).1, s)
  | .clock .now, s => (0, s)
  | .clock (.sleep _), s => ((), s)
  | .print _ _, s => (.ok (), s)

/-- The default context on a host, for a project. -/
def projectContext (project : String) : Context where
  config := {}
  configurationArguments := [Utf8.encode "stackctl"]
  settings := .resolve (.set .none .project project) fun _ => none
  execution := .host
  patience := 0

/-- A tree with nothing but the working directory `/w`. -/
def bareTree : FileTree :=
  .empty [Utf8.encode "w"]

/-- A tree in which two services of the project `p` have one log file by two names. -/
def sharedTree : FileTree where
  nodes :=
    [([Utf8.encode "w"], .directory 0o755),
      ([Utf8.encode "w", Utf8.encode "out"], .directory 0o755),
      ([Utf8.encode "w", Utf8.encode "out", logName "p" "solana"], .file 0),
      ([Utf8.encode "w", Utf8.encode "out", logName "p" "proxy"], .file 0)]
  bodies := [⟨0o644, []⟩]
  workingDirectory := [Utf8.encode "w"]

/-- A dump into the directory `out` that `echoing` answers: its result and the tree it leaves. -/
def echoedDump (project : String) (tree : FileTree) : Except Error Outcome × FileTree :=
  let after := Procedure.run (Machine.overTree echoing)
    (((dumpLogs (projectContext project) "out").run.realiseWith
      (perform (projectContext project).config)).run .processLister) ((), tree)
  (after.1.1, after.2.2)

theorem leadsTo_bareTree :
    (withDirectory "out" bareTree).LeadsTo (Utf8.encode "out")
      [Utf8.encode "w", Utf8.encode "out"] := by
  have hmade : (withDirectory "out" bareTree).node? [Utf8.encode "w", Utf8.encode "out"] =
      some (.directory FileTree.directoryMode) := by decide +kernel
  show (withDirectory "out" bareTree).Leads [Utf8.encode "w"] [Utf8.encode "out"] _
  exact .enter ⟨by decide, by decide⟩ hmade .stay

/-- A dump of a project into a new directory. -/
theorem dumpLogs_covers_bare_project :
    '/' ∉ "p".toList ∧ bareTree.HasBodies ∧
      ((FileTree.Edit.makeDirectories (Utf8.encode "out")).run bareTree).1 = .ok () ∧
      ∃ (turns : List LogTurn) (error? : Option Error) (top : Location),
        Concludes "out" "p" serviceNames turns error? ∧
          (echoedDump "p" bareTree).1 = error?.elim (.ok .done) .error ∧
          Written (withDirectory "out" bareTree) top (turns.flatMap (·.rows "p"))
            (echoedDump "p" bareTree).2 := by
  have hslash : '/' ∉ "p".toList := by decide
  have hbodies : bareTree.HasBodies := FileTree.hasBodies_empty _
  have hmade : ((FileTree.Edit.makeDirectories (Utf8.encode "out")).run bareTree).1 = .ok () := by
    decide +kernel
  have hnone : ∀ name ∈ logNames "p", (withDirectory "out" bareTree).node?
      ([Utf8.encode "w", Utf8.encode "out"] ++ [name]) = none := by
    decide +kernel
  have hdistinct : ∀ top, (withDirectory "out" bareTree).LeadsTo (Utf8.encode "out") top →
      (withDirectory "out" bareTree).Distinct top (logNames "p") := by
    intro top hlead
    obtain rfl := hlead.unique leadsTo_bareTree
    refine ⟨fun hname hnode => ?_, fun hname _ hnode => ?_⟩
    · rw [hnone _ hname] at hnode
      cases hnode
    · rw [hnone _ hname] at hnode
      cases hnode
  obtain ⟨turns, error?, top, -, hconcludes, hresult, -, -, -, hwritten, -⟩ :=
    dumpLogs_covers_services echoing (projectContext "p") "out" () bareTree .processLister
      hslash hbodies hmade hdistinct
  exact ⟨hslash, hbodies, hmade, turns, error?, top, hconcludes, hresult, hwritten⟩

/-- A project whose name leaves no room for that of a service. -/
def longProject : String :=
  String.ofList (List.replicate 83 '語')

/-- Every service has a container and logs, and yet a name that is too long is not written, and a
file that two services share holds what the later one wrote. -/
theorem dumpLogs_misses_files :
    let out : Location := [Utf8.encode "w", Utf8.encode "out"]
    (∀ service ∈ serviceNames, Engine.NamesContainer (Utf8.encode (service ++ "\n"))) ∧
      '/' ∉ longProject.toList ∧
      ((FileTree.Edit.makeDirectories (Utf8.encode "out")).run bareTree).1 = .ok () ∧
      (∀ name ∈ logNames longProject,
        (withDirectory "out" bareTree).node? (out ++ [name]) = none) ∧
      echoedDump longProject bareTree =
        (.error (.writeLogs (logPath "out" longProject "solana") (.os .nameTooLong)),
          withDirectory "out" bareTree) ∧
      (∀ name ∈ logNames "p", sharedTree.node? (out ++ [name]) = none ∨
        sharedTree.node? (out ++ [name]) = some (.file 0)) ∧
      (echoedDump "p" sharedTree).1 = .ok .done ∧
      ((echoedDump "p" sharedTree).2.fileAt? (out ++ [logName "p" "solana"])).map (·.content) =
        some (Utf8.encode "proxy\n") := by
  have hslash : '/' ∉ longProject.toList := by
    have hlist : longProject.toList = List.replicate 83 '語' := String.toList_ofList
    rw [hlist, List.mem_replicate]
    decide
  refine ⟨by decide +kernel, hslash, by decide +kernel, by decide +kernel, by decide +kernel, ?_⟩
  decide +kernel

end StackControl.Lifecycle
