import StackControl.Proofs.FileTree.LinkFree
import StackControl.Proofs.Lifecycle.LogDump
import StackControl.Proofs.Lifecycle.Preparation

/-!
# Where logs are dumped

The name of a log file begins with the name of the project, and a project name is any text.  Its
separators are separators of the path: what stands before the last of them leads away from the
directory of the dump, and what stands after it begins the name.  So a dump writes its files into
one directory, which the project name and the requested directory determine together; it is the
requested one if the name has no separator.
-/

namespace StackControl

namespace Lifecycle

open FileTree (FilesIn NoLinks)
open Procedure (Answerer)

/-! ## What a project name says about the place -/

section Place

/-- The parts of a project name between its separators. -/
def projectParts (project : String) : List Bytes :=
  Text.splitAt (· == Path.separator) (Utf8.encode project)

/-- The steps that a project name takes before the name of the file. -/
def projectSteps (project : String) : List Name :=
  (projectParts project).dropLast.filter (!·.isEmpty)

/-- The directory that the logs of a project are written to, when those of others are written to
`top`. -/
def logDirectory (top : Location) (project : String) : Location :=
  (if Path.isAbsolute (Utf8.encode project) then [] else top : Location).after
    (projectSteps project)

/-- The name that the log file of a service has in its directory. -/
def fileName (project service : String) : Name :=
  (projectParts project).getLastD [] ++ Utf8.encode ("_" ++ service ++ ".log")

/-- Where the log file of a service is. -/
def logPlace (top : Location) (project service : String) : Location :=
  logDirectory top project ++ [fileName project service]

variable {project service : String}

/-- A name without separators leads nowhere. -/
theorem logDirectory_eq (top : Location) (h : '/' ∉ project.toList) :
    logDirectory top project = top := by
  have hsep : Path.separator ∉ Utf8.encode project := fun hmem =>
    h (Path.separator_mem_encode.mp hmem)
  have hparts : projectParts project = [Utf8.encode project] := by
    rw [projectParts, Text.splitAt_eq_splitOnP, List.splitOnP_eq_singleton]
    intro c hc
    rw [beq_eq_false_iff_ne]
    rintro rfl
    exact hsep hc
  have habsolute : Path.isAbsolute (Utf8.encode project) = false := by
    rw [Path.isAbsolute, beq_eq_false_iff_ne]
    exact fun hhead => hsep (List.mem_of_head? hhead)
  simp [logDirectory, projectSteps, hparts, habsolute, Location.after]

theorem logName_eq_append (project service : String) :
    logName project service = Utf8.encode project ++ Utf8.encode ("_" ++ service ++ ".log") := by
  rw [logName, String.append_assoc, String.append_assoc, Utf8.encode_append, String.append_assoc]

theorem isAbsolute_logName (project service : String) :
    Path.isAbsolute (logName project service) = Path.isAbsolute (Utf8.encode project) := by
  rw [logName_eq_append, Path.isAbsolute, Path.isAbsolute]
  rcases Utf8.encode project with _ | ⟨b, rest⟩
  · rw [List.nil_append, String.append_assoc, Utf8.encode_append]
    rfl
  · rfl

theorem isName_fileName (project service : String) :
    FileTree.IsName (fileName project service) := by
  have hmem : byteOf '_' ∈ fileName project service := by
    rw [fileName, String.append_assoc, Utf8.encode_append]
    exact List.mem_append_right _ (List.mem_append_left _ (by decide))
  constructor
  · intro heq
    rw [heq] at hmem
    revert hmem
    decide
  · intro heq
    rw [heq] at hmem
    revert hmem
    decide

theorem steps_logName (hservice : service ∈ serviceNames) :
    (Path.route (logName project service)).steps =
      projectSteps project ++ [fileName project service] := by
  have hplain : ∀ b ∈ Utf8.encode ("_" ++ service ++ ".log"),
      (b == Path.separator) = false := by
    revert service
    decide +kernel
  obtain ⟨front, last, hparts, hparts'⟩ :=
    Text.exists_splitAt_append hplain (Utf8.encode project)
  have hname : fileName project service = last ++ Utf8.encode ("_" ++ service ++ ".log") := by
    rw [fileName, projectParts, hparts]
    simp
  have hne : (fileName project service).isEmpty = false := by
    rw [hname, String.append_assoc, Utf8.encode_append, List.isEmpty_eq_false_iff]
    simp [Path.encode_eq_nil]
  rw [Path.route, logName_eq_append, hparts', projectSteps, projectParts, hparts, ← hname]
  simp [hne]

/-- The path of a log file takes its steps to the directory of the logs. -/
theorem exists_steps_logPath (project : String) (hservice : service ∈ serviceNames)
    {directory : String} {made : FileTree} {top : Location} (hlinks : made.NoLinks)
    (hlead : made.LeadsTo (Utf8.encode directory) top) :
    ∃ front, (Path.route (Utf8.encode (logPath directory project service))).steps =
        front ++ [fileName project service] ∧
      (made.start (Utf8.encode (logPath directory project service))).after front =
        logDirectory top project := by
  rw [encode_logPath]
  have habsolute := isAbsolute_logName project service
  rcases hproject : Path.isAbsolute (Utf8.encode project)
  · rw [hproject] at habsolute
    refine ⟨(Path.route (Utf8.encode directory)).steps ++ projectSteps project, ?_, ?_⟩
    · rw [Path.steps_join_relative habsolute, steps_logName hservice, List.append_assoc]
    · rw [FileTree.start, Path.absolute_join_relative habsolute, Location.after_append]
      have htop := hlead.eq_after hlinks
      rw [FileTree.start] at htop
      rw [← htop, logDirectory, hproject]
      rfl
  · rw [hproject] at habsolute
    have hjoin : Path.join (Utf8.encode directory) (logName project service) =
        logName project service := if_pos habsolute
    refine ⟨projectSteps project, by rw [hjoin, steps_logName hservice], ?_⟩
    have hroute : (Path.route (logName project service)).absolute = true := habsolute
    rw [hjoin, FileTree.start, hroute, logDirectory, hproject]
    rfl

end Place

/-! ## The calls of a dump -/

section Calls

/-- A call that changes no file but the log file of a service. -/
def LogCall (directory project : String) (call : Call) : Prop :=
  ∀ request, call = .files request → ∃ service ∈ serviceNames, ∃ content,
    request = .write (Utf8.encode (logPath directory project service)) content

theorem only_dumpServiceLogs (group : ServiceGroup) (directory : String) {service : String}
    (hservice : service ∈ serviceNames) :
    (dumpServiceLogs group directory service).run.Only (LogCall directory group.project) := by
  unfold dumpServiceLogs
  apply Procedure.Only.bind_run (only_engine nofun)
  intro logs
  cases logs with
  | none => exact only_demand (Procedure.only_call.mpr nofun)
  | some logs =>
      have hwrite : LogCall directory group.project
          (.files (.write (Utf8.encode (logPath directory group.project service))
            (Utf8.encode logs))) := by
        rintro request ⟨⟩
        exact ⟨service, hservice, _, rfl⟩
      apply Procedure.Only.bind_run (only_demand (only_files hwrite))
      intro _
      exact only_demand (Procedure.only_call.mpr nofun)

theorem only_dumpEach (group : ServiceGroup) (directory : String) {services : List String}
    (hservices : ∀ service ∈ services, service ∈ serviceNames) :
    (dumpEach group directory services).run.Only (LogCall directory group.project) := by
  induction services with
  | nil => trivial
  | cons service rest ih =>
      obtain ⟨hservice, hrest⟩ := List.forall_mem_cons.mp hservices
      exact (only_dumpServiceLogs group directory hservice).bind_run fun _ => ih hrest

end Calls

/-! ## The files of a dump -/

section Dump

variable {σ α : Type} {others : Answerer Call Call.Answer σ} {allowed : Call → Prop}
  {I : FileTree → Prop}

/-- What every allowed request to work on files keeps is true of the tree in each moment of a run,
and after it. -/
theorem Site.beside_keeps {activity : Activity α} (honly : activity.Only allowed)
    (hstep : ∀ request tree, allowed (.files request) → I tree → I (request.perform tree).2)
    (s : σ) {tree : FileTree} (hI : I tree) :
    (∀ m ∈ Procedure.moments (Site.beside others).answer activity (s, tree),
        allowed m.call ∧ I m.state.2) ∧
      I (Procedure.run (Site.beside others).answer activity (s, tree)).2.2 := by
  induction activity generalizing s tree with
  | done => exact ⟨List.forall_mem_nil _, hI⟩
  | ask call next ih =>
      obtain ⟨hcall, hnext⟩ := honly
      have hafter : I ((Site.beside others).answer call (s, tree)).2.2 := by
        cases call with
        | files request => exact hstep request tree hcall hI
        | _ => exact hI
      obtain ⟨hmoments, hrun⟩ := ih _ (hnext _)
        ((Site.beside others).answer call (s, tree)).2.1 hafter
      exact ⟨List.forall_mem_cons.mpr ⟨⟨hcall, hI⟩, hmoments⟩, hrun⟩

variable {group : ServiceGroup} {directory : String} {made : FileTree} {top : Location}

/-- The names of the log files of a project in their directory. -/
abbrev fileNames (project : String) : List Name :=
  serviceNames.map (fileName project)

/-- Services write nothing but the files of the project in their directory. -/
theorem dumpEach_filesIn (others : Answerer Call Call.Answer σ) (group : ServiceGroup)
    (hlinks : made.NoLinks) (hlead : made.LeadsTo (Utf8.encode directory) top)
    {services : List String}
    (hservices : ∀ service ∈ services, service ∈ serviceNames) (s : σ) :
    let site := Site.beside others
    let dest := logDirectory top group.project
    (∀ m ∈ site.moments (dumpEach group directory services) (s, made),
        LogCall directory group.project m.call ∧
          FilesIn made dest (fileNames group.project) m.state.2) ∧
      FilesIn made dest (fileNames group.project)
        (site.result (dumpEach group directory services) (s, made)).2.2 := by
  refine Site.beside_keeps (only_dumpEach group directory hservices) ?_ s (.refl made _ _)
  intro request tree hrequest hfiles
  obtain ⟨service, hservice, content, rfl⟩ := hrequest request rfl
  obtain ⟨front, hsteps, hdest⟩ :=
    exists_steps_logPath group.project hservice hlinks hlead
  exact hfiles.ends_write (List.mem_map_of_mem hservice) hlinks (isName_fileName _ _) hsteps hdest

/-- A write that succeeds writes the log file of a service. -/
theorem writesAt_logPlace (hlinks : made.NoLinks)
    (hlead : made.LeadsTo (Utf8.encode directory) top) {project service : String}
    (hservice : service ∈ serviceNames) {tree : FileTree} {content : Bytes}
    (hfiles : FilesIn made (logDirectory top project) (fileNames project) tree)
    (h : ((FileTree.Edit.write (Utf8.encode (logPath directory project service)) content).run
      tree).1 = .ok ()) :
    tree.WritesAt (Utf8.encode (logPath directory project service))
      (logPlace top project service) := by
  obtain ⟨front, hsteps, hdest⟩ := exists_steps_logPath project hservice hlinks hlead
  have hwrites := FileTree.writesAt_after (hfiles.noLinks hlinks) hsteps (isName_fileName _ _) h
  rwa [FileTree.start, hfiles.workingDirectory, ← FileTree.start, hdest] at hwrites

/-- A dump makes the directory and then handles the services, unless that failed. -/
theorem dumpLogs_beside (others : Answerer Call Call.Answer σ) (context : Context)
    (directory : String) (s : σ) (tree : FileTree) :
    let site := Site.beside others
    let making := (FileTree.Edit.makeDirectories (Utf8.encode directory)).run tree
    let services := dumpEach context.group directory serviceNames
    site.moments (dumpLogs context directory) (s, tree) =
        ⟨(s, tree), .files (.makeDirectories (Utf8.encode directory)), making.1⟩ ::
          (match making.1 with
          | .ok _ => site.moments services (s, making.2)
          | .error _ => []) ∧
      (site.result (dumpLogs context directory) (s, tree)).2.2 =
        match making.1 with
        | .ok _ => (site.result services (s, making.2)).2.2
        | .error _ => making.2 := by
  intro site making services
  have hmake : site.result
      (Flow.demand (.writeLogs directory) (Flow.files (.makeDirectories (Utf8.encode directory))))
      (s, tree) = (making.1.mapError (.writeLogs directory), s, making.2) := rfl
  have hmoments : site.moments
      (Flow.demand (.writeLogs directory) (Flow.files (.makeDirectories (Utf8.encode directory))))
      (s, tree) =
        [⟨(s, tree), .files (.makeDirectories (Utf8.encode directory)), making.1⟩] := rfl
  rw [dumpLogs, ← serviceNames, Site.moments_bind, Site.result_bind, hmake, hmoments]
  rcases making.1 with e | _
  · exact ⟨rfl, rfl⟩
  · dsimp only [Except.mapError]
    rw [Site.moments_bind, Site.result_bind]
    rcases site.result services (s, making.2) with ⟨e | _, after⟩
    · exact ⟨congrArg _ (List.append_nil _), rfl⟩
    · exact ⟨congrArg _ (List.append_nil _), rfl⟩

/-- In a tree without symbolic links, every file that a dump makes or overwrites is a log file in
the one directory that the project name leads to from the requested one; that is the requested one
for every name without a separator. -/
theorem dumpLogs_files_place (others : Answerer Call Call.Answer σ) (context : Context)
    (directory : String) (s : σ) (tree : FileTree) (hlinks : tree.NoLinks) :
    let site := Site.beside others
    let project := context.settings.project
    let made := withDirectory directory tree
    let moments := site.moments (dumpLogs context directory) (s, tree)
    let final := (site.result (dumpLogs context directory) (s, tree)).2.2
    FileTree.DirectoriesAdded
        (Utf8.encode directory :: Path.above (Path.components (Utf8.encode directory)))
        tree made ∧
      (final = made ∧ (∀ m ∈ moments, m.call = .files (.makeDirectories (Utf8.encode directory))) ∨
        ∃ top, made.LeadsTo (Utf8.encode directory) top ∧
          FilesIn made (logDirectory top project) (fileNames project) final ∧
          (∀ m ∈ moments, m.call = .files (.makeDirectories (Utf8.encode directory)) ∨
            LogCall directory project m.call) ∧
          (∀ st path content, ⟨st, .files (.write path content), .ok ()⟩ ∈ moments →
            ∃ service ∈ serviceNames, st.2.WritesAt path (logPlace top project service)) ∧
          ('/' ∉ project.toList → logDirectory top project = top)) := by
  intro site project made moments final
  obtain ⟨hmoments, hfinal⟩ := dumpLogs_beside others context directory s tree
  refine ⟨FileTree.directoriesAdded_makeDirectories tree _, ?_⟩
  rcases hmade : ((FileTree.Edit.makeDirectories (Utf8.encode directory)).run tree).1 with e | _
  · rw [hmade] at hmoments hfinal
    refine .inl ⟨hfinal, ?_⟩
    rw [show moments = _ from hmoments]
    exact List.forall_mem_singleton.mpr rfl
  · rw [hmade] at hmoments hfinal
    obtain ⟨top, hlead⟩ := FileTree.exists_leadsTo_of_makeDirectories hmade
    have hlinks := hlinks.of_directoriesAdded
      (FileTree.directoriesAdded_makeDirectories tree (Utf8.encode directory))
    obtain ⟨hcalls, hfiles⟩ := dumpEach_filesIn others context.group hlinks hlead (fun _ => id) s
    refine .inr ⟨top, hlead, ?_, ?_, ?_, logDirectory_eq top⟩
    · rw [show final = _ from hfinal]
      exact hfiles
    · rw [show moments = _ from hmoments]
      exact List.forall_mem_cons.mpr ⟨.inl rfl, fun m hm => .inr (hcalls m hm).1⟩
    · rintro ⟨s', tree'⟩ path content hmem
      have hwritten : ((FileTree.Edit.write path content).run tree').1 = .ok () :=
        (Procedure.answer_of_mem_moments hmem).symm
      rw [show moments = _ from hmoments] at hmem
      rcases List.mem_cons.mp hmem with hmem | hmem
      · cases congrArg (·.call) hmem
      · obtain ⟨hcall, hfiles⟩ := hcalls _ hmem
        obtain ⟨service, hservice, content', hrequest⟩ := hcall _ rfl
        obtain ⟨rfl, rfl⟩ := Machine.FileRequest.write.inj hrequest
        exact ⟨service, hservice, writesAt_logPlace hlinks hlead hservice hfiles hwritten⟩

end Dump

/-- Others among which the engine has logs of every service. -/
def chatty : Answerer Call Call.Answer Unit :=
  Site.engineAlone fun
    | .logs _ _ => .ok (some "up\n")
    | _ => .error (.missingContainerId "")

/-- What a dump into the directory `out` leaves when every service has logs. -/
def dumpedTree (project : String) : FileTree :=
  ((Site.beside chatty).result (dumpLogs (projectContext project) "out") ((), bareTree)).2.2

/-- The files of a plain project are in the requested directory. -/
theorem dumpLogs_files_plain_project :
    bareTree.NoLinks ∧
      FilesIn (withDirectory "out" bareTree) [Utf8.encode "w", Utf8.encode "out"] (fileNames "p")
        (dumpedTree "p") ∧
      (dumpedTree "p").node? [Utf8.encode "w", Utf8.encode "out", Utf8.encode "p_proxy.log"] ≠
        none := by
  have hlinks : bareTree.NoLinks := FileTree.noLinks_empty _
  have hnode : (dumpedTree "p").node?
      [Utf8.encode "w", Utf8.encode "out", Utf8.encode "p_proxy.log"] ≠ none := by
    decide +kernel
  refine ⟨hlinks, ?_, hnode⟩
  have hproject : (projectContext "p").settings.project = "p" := by decide +kernel
  have hplaces := dumpLogs_files_place chatty (projectContext "p") "out" () bareTree hlinks
  dsimp only at hplaces
  rw [hproject] at hplaces
  obtain ⟨-, ⟨hfinal, -⟩ | ⟨top, hlead, hfiles, -, -, hplain⟩⟩ := hplaces
  · rw [← dumpedTree] at hfinal
    exact absurd hfinal (by decide +kernel)
  · obtain rfl := hlead.unique leadsTo_bareTree
    rw [hplain (by decide)] at hfiles
    exact hfiles

/-- A project name with `..` in it takes the files out of the requested directory. -/
theorem dumpLogs_leaves_directory :
    bareTree.NoLinks ∧
      (withDirectory "out" bareTree).LeadsTo (Utf8.encode "out")
        [Utf8.encode "w", Utf8.encode "out"] ∧
      (projectContext "../up").settings.project = "../up" ∧
      bareTree.node? [Utf8.encode "w", Utf8.encode "up_proxy.log"] = none ∧
      (dumpedTree "../up").fileAt? [Utf8.encode "w", Utf8.encode "up_proxy.log"] =
        some ⟨FileTree.fileMode, Utf8.encode "up\n"⟩ ∧
      ∀ name : Name, ([Utf8.encode "w", Utf8.encode "up_proxy.log"] : Location) ≠
        [Utf8.encode "w", Utf8.encode "out"] ++ [name] := by
  refine ⟨FileTree.noLinks_empty _, leadsTo_bareTree, by decide +kernel, by decide +kernel,
    by decide +kernel, fun name heq => ?_⟩
  cases congrArg List.length heq

end Lifecycle

end StackControl
