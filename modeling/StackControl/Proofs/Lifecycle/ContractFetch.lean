import StackControl.Proofs.Archive.Stages
import StackControl.Proofs.FileTree.Listing
import StackControl.Proofs.Lifecycle.Stamping

/-!
# Fetching the contracts

The contracts are fetched when their directory holds nothing, so a fetch that failed is made up for
by the next preparation as long as it left nothing there.  A listing or an export that failed leaves
nothing, and neither does an archive that breaks off, or is refused, before an entry has been put
anywhere.  An entry that was put stays, and the contracts then count as fetched.
-/

namespace StackControl.Lifecycle

open FileTree (HoldsSomething)
open Procedure (Answerer Moment)

variable {σ : Type} {others : Answerer Call Call.Answer σ} {directory image : String} {s : σ}
  {tree : FileTree}

/-- The directory of the contracts holds something, so they are not fetched. -/
abbrev HasContracts (tree : FileTree) (directory : String) : Prop :=
  HoldsSomething tree (Utf8.encode directory)

/-! ## One fetch -/

/-- The moment in which the directory is listed. -/
def listed (directory : String) (s : σ) (tree : FileTree) :
    Moment Call Call.Answer (σ × FileTree) :=
  ⟨(s, tree), .files (.list (Utf8.encode directory)), tree.list (Utf8.encode directory)⟩

/-- The moment in which the contracts are exported from their image. -/
def exported (others : Answerer Call Call.Answer σ) (image : String) (s : σ) (tree : FileTree) :
    Moment Call Call.Answer (σ × FileTree) :=
  ⟨(s, tree), .engine (.exportPath image contractsSource),
    (others (.engine (.exportPath image contractsSource)) s).1⟩

/-- The moment in which the exported archive is unpacked. -/
def extracted (directory : String) (archive : Bytes) (s : σ) (tree : FileTree) :
    Moment Call Call.Answer (σ × FileTree) :=
  ⟨(s, tree), .files (.unpack archive (Utf8.encode directory)),
    ((Archive.unpack (Archive.read archive) (Utf8.encode directory)).run tree).1⟩

/-- The listing, the export or the unpacking is answered by a fault.  A directory that is missing is
as good as an empty one. -/
def isFetchFault : Moment Call Call.Answer σ → Bool
  | ⟨_, .files (.list _), .error fault⟩ => fault ≠ .os .notFound
  | ⟨_, .engine (.exportPath _ _), .error _⟩ => true
  | ⟨_, .files (.unpack _ _), .error _⟩ => true
  | _ => false

theorem moments_needsContracts :
    (Site.beside others).moments (needsContracts directory) (s, tree) =
      [listed directory s tree] :=
  Site.moments_needsContracts ..

/-- The contracts are needed if nothing is listed, but a listing that fails ends the fetch. -/
theorem result_needsContracts (others : Answerer Call Call.Answer σ) (directory : String) (s : σ)
    (tree : FileTree) :
    (HasContracts tree directory ∧
        (Site.beside others).result (needsContracts directory) (s, tree) =
          (.ok false, s, tree)) ∨
      ¬HasContracts tree directory ∧
        (isFetchFault (listed directory s tree) = false ∧
            (Site.beside others).result (needsContracts directory) (s, tree) =
              (.ok true, s, tree) ∨
          isFetchFault (listed directory s tree) = true ∧
            ∃ e, (Site.beside others).result (needsContracts directory) (s, tree) =
              (.error e, s, tree)) := by
  rw [needsContracts, Site.result_bind, Site.result_liftM, Site.run_list, listed]
  dsimp only [Site.tree_beside, Site.answer_beside_files, Machine.FileRequest.perform]
  cases hlist : tree.list (Utf8.encode directory) with
  | ok names =>
      cases names with
      | nil => exact .inr ⟨by simp [HasContracts, HoldsSomething, hlist], .inl ⟨rfl, rfl⟩⟩
      | cons name names => exact .inl ⟨⟨name, names, hlist⟩, rfl⟩
  | error fault =>
      have hnot : ¬HasContracts tree directory := by simp [HasContracts, HoldsSomething, hlist]
      refine .inr ⟨hnot, ?_⟩
      split
      next heq => cases heq
      next e heq =>
        cases heq
        split
        next hmissing =>
          subst hmissing
          exact .inl ⟨rfl, rfl⟩
        next hpresent =>
          exact .inr ⟨decide_eq_true fun hfault => hpresent (Fault.os.inj hfault), _, rfl⟩
      next hother heq =>
        cases heq
        exact .inr ⟨decide_eq_true (hother .notFound), _, rfl⟩

/-- The ways a fetch can go. -/
inductive Fetch (others : Answerer Call Call.Answer σ) (directory image : String) (s : σ)
    (tree : FileTree) :
    Except Error Bool × σ × FileTree → List (Moment Call Call.Answer (σ × FileTree)) → Prop
  /-- The contracts are there. -/
  | spared : HasContracts tree directory →
      Fetch others directory image s tree (.ok false, s, tree) [listed directory s tree]
  /-- The directory cannot be listed. -/
  | unlisted {e} : ¬HasContracts tree directory →
      isFetchFault (listed directory s tree) = true →
        Fetch others directory image s tree (.error e, s, tree) [listed directory s tree]
  | unexported {e} : ¬HasContracts tree directory →
      (others (.engine (.exportPath image contractsSource)) s).1 = .error e →
        Fetch others directory image s tree
          (.error (.engine e), (others (.engine (.exportPath image contractsSource)) s).2, tree)
          [listed directory s tree, exported others image s tree]
  | unpacked {archive} : ¬HasContracts tree directory →
      isFetchFault (listed directory s tree) = false →
      (others (.engine (.exportPath image contractsSource)) s).1 = .ok archive →
        Fetch others directory image s tree
          ((((Archive.unpack (Archive.read archive) (Utf8.encode directory)).run tree).1.mapError
              (unpackError directory)).map fun _ => true,
            (others (.engine (.exportPath image contractsSource)) s).2,
            Archive.unpacked (Archive.read archive) (Utf8.encode directory) tree)
          [listed directory s tree, exported others image s tree,
            extracted directory archive
              (others (.engine (.exportPath image contractsSource)) s).2 tree]

theorem moments_export :
    (Site.beside others).moments (Flow.engine (.exportPath image contractsSource)) (s, tree) =
      [exported others image s tree] :=
  Site.moments_engine ..

theorem moments_extract {archive : Bytes} :
    (Site.beside others).moments
        (Flow.demand (unpackError directory)
          (Flow.files (.unpack archive (Utf8.encode directory)))) (s, tree) =
      [extracted directory archive s tree] :=
  (Site.moments_demand ..).trans (Site.moments_unpack ..)

theorem result_extract {archive : Bytes} :
    (Site.beside others).result
        (Flow.demand (unpackError directory)
          (Flow.files (.unpack archive (Utf8.encode directory)))) (s, tree) =
      (((Archive.unpack (Archive.read archive) (Utf8.encode directory)).run tree).1.mapError
          (unpackError directory), s,
        Archive.unpacked (Archive.read archive) (Utf8.encode directory) tree) := by
  rw [Site.result_demand, Site.run_unpack]
  rfl

theorem fetch_fetchIfNeeded (others : Answerer Call Call.Answer σ) (directory image : String)
    (s : σ) (tree : FileTree) :
    Fetch others directory image s tree
      ((Site.beside others).result (fetchIfNeeded directory image) (s, tree))
      ((Site.beside others).moments (fetchIfNeeded directory image) (s, tree)) := by
  rw [fetchIfNeeded, Site.result_bind, Site.moments_bind, moments_needsContracts]
  rcases result_needsContracts others directory s tree with
    ⟨hheld, hresult⟩ | ⟨hnot, ⟨hlisted, hresult⟩ | ⟨hlisted, e, hresult⟩⟩
  · rw [hresult]
    exact .spared hheld
  · rw [hresult]
    simp only [if_true, Site.result_bind, Site.moments_bind]
    rw [moments_export, Site.result_engine]
    dsimp only [Site.answer_beside_engine]
    cases hexport : (others (.engine (.exportPath image contractsSource)) s).1 with
    | error e => exact .unexported hnot hexport
    | ok archive =>
        have hunpacked := Fetch.unpacked hnot hlisted hexport
        dsimp only [Except.mapError]
        rw [moments_extract, result_extract]
        cases hunpack : ((Archive.unpack (Archive.read archive) (Utf8.encode directory)).run tree).1
        all_goals
          rw [hunpack] at hunpacked
          exact hunpacked
  · rw [hresult]
    exact .unlisted hnot hlisted

/-! ## The build leaves the directories alone -/

section Build

variable {config : Config} {settings : StackSettings} {template : String}

/-- A stamped build changes the content of the template at most. -/
theorem sameNodes_of_stamping {result : Except Error Bool × σ × FileTree}
    {moments : List (Moment Call Call.Answer (σ × FileTree))}
    (h : Stamping (Site.beside others) template settings (s, tree) result moments) :
    FileTree.SameNodes tree result.2.2 := by
  cases h with
  | unread | unstamped => exact .refl tree
  | unwritten hread =>
      obtain ⟨bytes, hbytes, -⟩ := FileTree.exists_read_of_readText hread
      exact FileTree.sameNodes_write_of_read hbytes _
  | @stamped text _ hread _ hwrite hs' =>
      obtain ⟨bytes, hbytes, -⟩ := FileTree.exists_read_of_readText hread
      subst hs'
      have hstamp := FileTree.sameNodes_write_of_read hbytes
        (Utf8.encode (stampText text settings.revision))
      have hrestore := FileTree.sameNodes_write_of_read (FileTree.read_write hbytes hwrite)
        (Utf8.encode text)
      exact hstamp.trans hrestore

theorem sameNodes_buildIfNeeded {rebuild pulled fetched : Bool} :
    FileTree.SameNodes tree
      ((Site.beside others).result (buildIfNeeded config settings rebuild pulled fetched)
        (s, tree)).2.2 := by
  have hstep := buildStep_buildIfNeeded (Site.beside others) config settings (s, tree) rebuild
    pulled fetched
  generalize ((Site.beside others).result _ (s, tree)).2 = after,
    (Site.beside others).moments _ (s, tree) = moments at hstep
  cases hstep with
  | spared => exact .refl tree
  | rebuilt hstamping | built hstamping => exact sameNodes_of_stamping hstamping

end Build

/-! ## The whole preparation -/

/-- The ways the preparation of a local revision can go: it ends with the pull, with the fetch, or
goes on to the build. -/
inductive Preparation (others : Answerer Call Call.Answer σ) (config : Config)
    (settings : StackSettings) (tree : FileTree) :
    Except Error PrerequisiteReport × σ × FileTree →
      List (Moment Call Call.Answer (σ × FileTree)) → Prop
  | unpulled {e s pulls} :
      (∀ m ∈ pulls, PullCall settings m.call) →
        Preparation others config settings tree (.error e, s, tree) pulls
  | unfetched {e s after pulls fetches} :
      (∀ m ∈ pulls, PullCall settings m.call) →
        Fetch others config.contractsDir settings.contractsImage s tree (.error e, after) fetches →
          Preparation others config settings tree (.error e, after) (pulls ++ fetches)
  | fetched {fetched s after result pulls fetches builds} :
      (∀ m ∈ pulls, PullCall settings m.call) →
        Fetch others config.contractsDir settings.contractsImage s tree (.ok fetched, after)
            fetches →
          (∀ m ∈ builds, BuildCall settings m.call) →
            FileTree.SameNodes after.2 result.2.2 →
              Preparation others config settings tree result (pulls ++ (fetches ++ builds))

variable {config : Config} {settings : StackSettings} {rebuild : Bool}

theorem preparation_prepare (hlocal : settings.isLocal = true) :
    Preparation others config settings tree
      ((Site.beside others).result (prepare config settings rebuild) (s, tree))
      ((Site.beside others).moments (prepare config settings rebuild) (s, tree)) := by
  have hpulls : ∀ m ∈ (Site.beside others).moments (pullIfMissing settings) (s, tree),
      PullCall settings m.call := fun m hm => (only_pullIfMissing settings).mem_moments hm
  have htree : ((Site.beside others).result (pullIfMissing settings) (s, tree)).2.2 = tree := by
    refine Site.run_beside_of_only ((only_pullIfMissing settings).mono ?_) s tree
    rintro call (rfl | rfl) request heq <;> cases heq
  rw [prepare_of_isLocal hlocal, Site.result_bind, Site.moments_bind]
  rcases hpull : (Site.beside others).result (pullIfMissing settings) (s, tree) with
    ⟨e | pulled, s₁, tree₁⟩
  all_goals
    rw [hpull] at htree
    obtain rfl : tree = tree₁ := htree.symm
  · rw [List.append_nil]
    exact .unpulled hpulls
  · dsimp only
    rw [Site.result_bind, Site.moments_bind]
    have hfetch := fetch_fetchIfNeeded others config.contractsDir settings.contractsImage s₁ tree
    rcases hresult : (Site.beside others).result
        (fetchIfNeeded config.contractsDir settings.contractsImage) (s₁, tree) with
      ⟨e | fetched, after⟩
    · rw [hresult] at hfetch
      rw [List.append_nil]
      exact .unfetched hpulls hfetch
    · rw [hresult] at hfetch
      exact .fetched hpulls hfetch
        (fun m hm => (only_buildIfNeeded config settings rebuild pulled fetched).mem_moments hm)
        sameNodes_buildIfNeeded

/-! ## After a fetch that failed -/

/-- A moment in which the contracts are exported from their image. -/
def Exports (settings : StackSettings) (m : Moment Call Call.Answer σ) : Prop :=
  m.call = .engine (.exportPath settings.contractsImage contractsSource)

/-- Nothing of the build is called before the contracts have been exported. -/
def ExportsFirst (settings : StackSettings) (moments : List (Moment Call Call.Answer σ)) : Prop :=
  ∀ before m after, moments = before ++ m :: after → BuildCall settings m.call →
    ∃ m' ∈ before, Exports settings m'

theorem contractsImage_ne_proxyImage : settings.contractsImage ≠ settings.proxyImage := by
  intro heq
  have hchars := congrArg String.toList heq
  simp [StackSettings.contractsImage, StackSettings.proxyImage, String.toList_append] at hchars

theorem not_buildCall_of_pullCall {call : Call} (h : PullCall settings call) :
    ¬BuildCall settings call := by
  rcases h with rfl | rfl
  · rintro (heq | heq | ⟨_, heq⟩ | ⟨_, _, heq⟩)
    · rw [Call.engine.injEq, Engine.Request.imageExists.injEq] at heq
      exact contractsImage_ne_proxyImage heq
    all_goals cases heq
  · rintro (heq | heq | ⟨_, heq⟩ | ⟨_, _, heq⟩) <;> cases heq

theorem not_buildCall_of_fetchCall {call : Call} (h : FetchCall directory image call) :
    ¬BuildCall settings call := by
  rcases h with rfl | rfl | ⟨_, rfl⟩ <;>
    rintro (heq | heq | ⟨_, heq⟩ | ⟨_, _, heq⟩) <;> cases heq

theorem isFetchFault_of_pullCall {m : Moment Call Call.Answer σ}
    (h : PullCall settings m.call) : isFetchFault m = false := by
  obtain ⟨_, call, answer⟩ := m
  rcases h with rfl | rfl <;> rfl

theorem isFetchFault_of_buildCall {m : Moment Call Call.Answer σ}
    (h : BuildCall settings m.call) : isFetchFault m = false := by
  obtain ⟨_, call, answer⟩ := m
  rcases h with rfl | rfl | ⟨_, rfl⟩ | ⟨_, _, rfl⟩ <;> rfl

theorem Fetch.fetchCall {result : Except Error Bool × σ × FileTree}
    {fetches : List (Moment Call Call.Answer (σ × FileTree))}
    (h : Fetch others directory image s tree result fetches) :
    ∀ m ∈ fetches, FetchCall directory image m.call := by
  cases h with
  | spared | unlisted =>
      simp only [List.mem_singleton, forall_eq]
      exact .inl rfl
  | unexported =>
      simp only [List.forall_mem_cons, List.not_mem_nil, false_implies, implies_true, and_true]
      exact ⟨.inl rfl, .inr (.inl rfl)⟩
  | unpacked =>
      simp only [List.forall_mem_cons, List.not_mem_nil, false_implies, implies_true, and_true]
      exact ⟨.inl rfl, .inr (.inl rfl), .inr (.inr ⟨_, rfl⟩)⟩

section Fetch

variable {result : Except Error Bool × σ × FileTree}
  {fetches : List (Moment Call Call.Answer (σ × FileTree))}

/-- A directory that held nothing before a fetch that succeeded was fetched from an export. -/
theorem Fetch.exists_exported {fetched : Bool}
    (h : Fetch others directory image s tree result fetches)
    (hnot : ¬HasContracts tree directory) (hok : result.1 = .ok fetched) :
    ∃ m ∈ fetches, m.call = .engine (.exportPath image contractsSource) := by
  cases h with
  | spared hheld => exact absurd hheld hnot
  | unlisted | unexported => cases hok
  | unpacked => exact ⟨exported others image s tree, by simp, rfl⟩

theorem Fetch.eq_listed (h : Fetch others directory image s tree result fetches)
    (hheld : HasContracts tree directory) :
    fetches = [listed directory s tree] := by
  cases h with
  | spared => rfl
  | unlisted hnot | unexported hnot | unpacked hnot => exact absurd hheld hnot

/-- A fetch that leaves something where nothing was has unpacked an archive. -/
theorem Fetch.hasContracts (h : Fetch others directory image s tree result fetches)
    (hafter : HasContracts result.2.2 directory) :
    HasContracts tree directory ∨
      ∃ m ∈ fetches, ∃ archive, m.call = .files (.unpack archive (Utf8.encode directory)) := by
  cases h with
  | spared | unlisted | unexported => exact .inl hafter
  | @unpacked archive =>
      exact .inr ⟨extracted directory archive
        (others (.engine (.exportPath image contractsSource)) s).2 tree, by simp, archive, rfl⟩

/-- A fetch with a fault fails, and leaves what the unpacking left, if it got that far. -/
theorem Fetch.of_fetchFault (h : Fetch others directory image s tree result fetches)
    (hfault : ∃ m ∈ fetches, isFetchFault m = true) :
    (∃ e, result.1 = .error e) ∧ ¬HasContracts tree directory ∧
      (result.2.2 = tree ∨
        ∃ m ∈ fetches, ∃ archive, m.call = .files (.unpack archive (Utf8.encode directory)) ∧
          result.2.2 = Archive.unpacked (Archive.read archive) (Utf8.encode directory) tree) := by
  obtain ⟨m, hm, hfault⟩ := hfault
  cases h with
  | spared hheld =>
      obtain ⟨name, names, hlist⟩ := hheld
      cases List.mem_singleton.mp hm
      rw [listed, hlist] at hfault
      cases hfault
  | unlisted hnot | unexported hnot => exact ⟨⟨_, rfl⟩, hnot, .inl rfl⟩
  | @unpacked archive hnot hlisted hexport =>
      refine ⟨?_, hnot, .inr ⟨extracted directory archive
        (others (.engine (.exportPath image contractsSource)) s).2 tree, by simp, archive, rfl,
          rfl⟩⟩
      simp only [List.mem_cons, List.not_mem_nil, or_false] at hm
      rcases hm with rfl | rfl | rfl
      · exact absurd hfault (Bool.eq_false_iff.mp hlisted)
      · rw [exported, hexport] at hfault
        cases hfault
      · rw [extracted] at hfault
        cases hunpack : ((Archive.unpack (Archive.read archive) (Utf8.encode directory)).run tree).1
        · exact ⟨_, rfl⟩
        · rw [hunpack] at hfault
          cases hfault

end Fetch

/-- When the directory holds nothing, the contracts are exported before the build. -/
theorem Preparation.exportsFirst {result : Except Error PrerequisiteReport × σ × FileTree}
    {moments : List (Moment Call Call.Answer (σ × FileTree))}
    (h : Preparation others config settings tree result moments)
    (hnot : ¬HasContracts tree config.contractsDir) :
    ExportsFirst settings moments := by
  intro before m after heq hbuild
  have hmem : m ∈ before ++ m :: after := List.mem_append_right _ List.mem_cons_self
  rw [← heq] at hmem
  cases h with
  | unpulled hpulls => exact absurd hbuild (not_buildCall_of_pullCall (hpulls m hmem))
  | unfetched hpulls hfetch =>
      rcases List.mem_append.mp hmem with hmem | hmem
      · exact absurd hbuild (not_buildCall_of_pullCall (hpulls m hmem))
      · exact absurd hbuild (not_buildCall_of_fetchCall (hfetch.fetchCall m hmem))
  | @fetched _ _ _ _ pulls fetches builds hpulls hfetch hbuilds _ =>
      obtain ⟨m', hm', hexports⟩ := hfetch.exists_exported hnot rfl
      have hearly : ∀ m ∈ pulls ++ fetches, ¬BuildCall settings m.call := by
        intro m hm
        rcases List.mem_append.mp hm with hm | hm
        · exact not_buildCall_of_pullCall (hpulls m hm)
        · exact not_buildCall_of_fetchCall (hfetch.fetchCall m hm)
      have hm' : m' ∈ pulls ++ fetches := List.mem_append_right _ hm'
      rw [← List.append_assoc, List.append_eq_append_iff] at heq
      rcases heq with ⟨more, hbefore, -⟩ | ⟨rest, hfirst, hrest⟩
      · exact ⟨m', hbefore ▸ List.mem_append_left _ hm', hexports⟩
      · cases rest with
        | nil => exact ⟨m', by rwa [hfirst, List.append_nil] at hm', hexports⟩
        | cons m'' rest =>
            injection hrest with hm''
            subst hm''
            exact absurd hbuild (hearly m (by simp [hfirst]))

section Preparation

variable {result : Except Error PrerequisiteReport × σ × FileTree}
  {moments : List (Moment Call Call.Answer (σ × FileTree))}

/-- When the directory holds nothing, no preparation succeeds without an export. -/
theorem Preparation.exists_exports {report : PrerequisiteReport}
    (h : Preparation others config settings tree result moments)
    (hnot : ¬HasContracts tree config.contractsDir) (hok : result.1 = .ok report) :
    ∃ m ∈ moments, Exports settings m := by
  cases h with
  | unpulled | unfetched => cases hok
  | fetched _ hfetch _ _ =>
      obtain ⟨m, hm, hexports⟩ := hfetch.exists_exported hnot rfl
      exact ⟨m, List.mem_append_right _ (List.mem_append_left _ hm), hexports⟩

/-- When the directory holds something, nothing is exported. -/
theorem Preparation.not_exports (h : Preparation others config settings tree result moments)
    (hheld : HasContracts tree config.contractsDir) :
    ∀ m ∈ moments, ¬Exports settings m := by
  have hpull {m : Moment Call Call.Answer (σ × FileTree)} (hm : PullCall settings m.call) :
      ¬Exports settings m := by
    intro hexports
    rw [hexports] at hm
    rcases hm with heq | heq <;> cases heq
  have hbuild {m : Moment Call Call.Answer (σ × FileTree)} (hm : BuildCall settings m.call) :
      ¬Exports settings m := by
    intro hexports
    rw [hexports] at hm
    rcases hm with heq | heq | ⟨_, heq⟩ | ⟨_, _, heq⟩ <;> cases heq
  have hlisted (s : σ) : ¬Exports settings (listed config.contractsDir s tree) :=
    fun hexports => by cases hexports
  intro m hm
  cases h with
  | unpulled hpulls => exact hpull (hpulls m hm)
  | unfetched hpulls hfetch =>
      rw [hfetch.eq_listed hheld] at hm
      rcases List.mem_append.mp hm with hm | hm
      · exact hpull (hpulls m hm)
      · exact List.mem_singleton.mp hm ▸ hlisted _
  | fetched hpulls hfetch hbuilds _ =>
      rw [hfetch.eq_listed hheld] at hm
      rcases List.mem_append.mp hm with hm | hm
      · exact hpull (hpulls m hm)
      rcases List.mem_append.mp hm with hm | hm
      · exact List.mem_singleton.mp hm ▸ hlisted _
      · exact hbuild (hbuilds m hm)

/-- The directory comes to hold something only by an archive that is unpacked. -/
theorem Preparation.hasContracts (h : Preparation others config settings tree result moments)
    (hheld : HasContracts result.2.2 config.contractsDir) :
    HasContracts tree config.contractsDir ∨
      ∃ m ∈ moments, ∃ archive,
        m.call = .files (.unpack archive (Utf8.encode config.contractsDir)) := by
  cases h with
  | unpulled => exact .inl hheld
  | unfetched _ hfetch =>
      refine (hfetch.hasContracts hheld).imp_right ?_
      rintro ⟨m, hm, hunpack⟩
      exact ⟨m, List.mem_append_right _ hm, hunpack⟩
  | @fetched _ _ after _ _ _ _ _ hfetch _ hsame =>
      have hafter : HasContracts after.2 config.contractsDir := by
        obtain ⟨name, names, hlist⟩ := hheld
        exact ⟨name, names, hsame.list_eq _ ▸ hlist⟩
      refine (hfetch.hasContracts hafter).imp_right ?_
      rintro ⟨m, hm, hunpack⟩
      exact ⟨m, List.mem_append_right _ (List.mem_append_left _ hm), hunpack⟩

/-- A fetch that fails ends the preparation, and leaves what the unpacking left, if it got that
far. -/
theorem Preparation.of_fetchFault (h : Preparation others config settings tree result moments)
    (hfault : ∃ m ∈ moments, isFetchFault m = true) :
    (∃ e, result.1 = .error e) ∧ ¬HasContracts tree config.contractsDir ∧
      (result.2.2 = tree ∨
        ∃ m ∈ moments, ∃ archive,
          m.call = .files (.unpack archive (Utf8.encode config.contractsDir)) ∧
            result.2.2 = Archive.unpacked (Archive.read archive)
              (Utf8.encode config.contractsDir) tree) := by
  obtain ⟨m, hm, hfault⟩ := hfault
  cases h with
  | unpulled hpulls => simp [isFetchFault_of_pullCall (hpulls m hm)] at hfault
  | unfetched hpulls hfetch =>
      rcases List.mem_append.mp hm with hm | hm
      · simp [isFetchFault_of_pullCall (hpulls m hm)] at hfault
      obtain ⟨-, hnot, hleft⟩ := hfetch.of_fetchFault ⟨m, hm, hfault⟩
      refine ⟨⟨_, rfl⟩, hnot, hleft.imp_right ?_⟩
      rintro ⟨m, hm, hunpack⟩
      exact ⟨m, List.mem_append_right _ hm, hunpack⟩
  | fetched hpulls hfetch hbuilds _ =>
      rcases List.mem_append.mp hm with hm | hm
      · simp [isFetchFault_of_pullCall (hpulls m hm)] at hfault
      rcases List.mem_append.mp hm with hm | hm
      · obtain ⟨⟨e, herror⟩, -⟩ := hfetch.of_fetchFault ⟨m, hm, hfault⟩
        cases herror
      · simp [isFetchFault_of_buildCall (hbuilds m hm)] at hfault

end Preparation

/-- The tree that a preparation leaves, whatever comes of it. -/
def treeAfter (others : Answerer Call Call.Answer σ) (config : Config) (settings : StackSettings)
    (rebuild : Bool) (s : σ) (tree : FileTree) : FileTree :=
  ((Site.beside others).result (prepare config settings rebuild) (s, tree)).2.2

/-- What is unpacked, if anything, cannot be put into the directory, or breaks off or is refused
before an entry is put anywhere. -/
def PutsNothing (tree : FileTree) (directory : String) (m : Moment Call Call.Answer σ) : Prop :=
  ∀ archive, m.call = .files (.unpack archive (Utf8.encode directory)) →
    Archive.PutNothing (Archive.read archive).entries ∨
      ∃ fault, ((FileTree.Edit.makeDirectories (Utf8.encode directory)).run tree).1 = .error fault

/-- The directory of the contracts comes to hold something only by unpacking an archive.  After a
fetch that failed, the next preparation exports the contracts before it goes on to the build if the
directory holds nothing, and does not export them if it does; it holds nothing if no archive was
unpacked, or nothing was put anywhere. -/
theorem prepare_after_failed_fetch {σ' : Type} (others : Answerer Call Call.Answer σ)
    (others' : Answerer Call Call.Answer σ') (config : Config) (settings : StackSettings)
    (rebuild rebuild' : Bool) (s : σ) (s' : σ') (tree : FileTree)
    (hlocal : settings.isLocal = true) :
    let first := (Site.beside others).result (prepare config settings rebuild) (s, tree)
    let calls := (Site.beside others).moments (prepare config settings rebuild) (s, tree)
    let left := treeAfter others config settings rebuild s tree
    let second := (Site.beside others').result (prepare config settings rebuild') (s', left)
    let again := (Site.beside others').moments (prepare config settings rebuild') (s', left)
    (HasContracts left config.contractsDir →
        HasContracts tree config.contractsDir ∨
          ∃ m ∈ calls, ∃ archive,
            m.call = .files (.unpack archive (Utf8.encode config.contractsDir))) ∧
      ((∃ m ∈ calls, isFetchFault m = true) →
        (∃ e, first.1 = .error e) ∧
          (¬HasContracts left config.contractsDir →
            ExportsFirst settings again ∧
              ∀ report, second.1 = .ok report → ∃ m ∈ again, Exports settings m) ∧
          (HasContracts left config.contractsDir → ∀ m ∈ again, ¬Exports settings m) ∧
          ((∀ m ∈ calls, ∀ archive,
              m.call ≠ .files (.unpack archive (Utf8.encode config.contractsDir))) →
            left = tree ∧ ¬HasContracts left config.contractsDir) ∧
          (tree.WellFormed →
            Path.dotDot ∉ (Path.route (Utf8.encode config.contractsDir)).steps →
              (∀ m ∈ calls, PutsNothing tree config.contractsDir m) →
                ¬HasContracts left config.contractsDir)) := by
  intro first calls left second again
  have hfirst : Preparation others config settings tree first calls := preparation_prepare hlocal
  have hsecond : Preparation others' config settings left second again :=
    preparation_prepare hlocal
  refine ⟨hfirst.hasContracts, ?_⟩
  intro hfault
  obtain ⟨herror, hnot, hleft⟩ := hfirst.of_fetchFault hfault
  have hsame (heq : first.2.2 = tree) : left = tree ∧ ¬HasContracts left config.contractsDir := by
    refine ⟨heq, ?_⟩
    change ¬HasContracts first.2.2 config.contractsDir
    rwa [heq]
  refine ⟨herror, ?_, hsecond.not_exports, ?_, ?_⟩
  · intro hempty
    constructor
    · exact hsecond.exportsFirst hempty
    · intro report hok
      exact hsecond.exists_exports hempty hok
  · intro hnone
    rcases hleft with heq | ⟨m, hm, archive, hunpack, -⟩
    · exact hsame heq
    · exact absurd hunpack (hnone m hm archive)
  · intro htree hpath hputs
    rcases hleft with heq | ⟨m, hm, archive, hunpack, heq⟩
    · exact (hsame heq).2
    · change ¬HasContracts first.2.2 config.contractsDir
      rw [heq, Archive.unpacked_eq_prepared (hputs m hm archive hunpack)]
      exact FileTree.not_holdsSomething_makeDirectories htree hpath hnot

/-- An archive that breaks off after an empty file. -/
def brokenArchive : Bytes :=
  Utf8.encode "x/a" ++ List.replicate 97 0 ++ Utf8.encode "0000644" ++ List.replicate 17 0 ++
    Utf8.encode "0" ++ List.replicate 23 0 ++ Utf8.encode "1626" ++ List.replicate 360 0 ++ [1]

/-- An archive without entries breaks off before anything is put, so it is exported again. -/
theorem prepare_exports_again :
    ExportsFirst localSettings
      ((Site.beside (exporting brokenArchive)).moments (prepare {} localSettings false)
        ((), treeAfter (exporting [1]) {} localSettings false () (FileTree.empty []))) := by
  have hfailed := prepare_after_failed_fetch (exporting [1]) (exporting brokenArchive) {}
    localSettings false false () () (FileTree.empty []) (by decide +kernel)
  refine ((hfailed.2 (by decide +kernel)).2.1 ?_).1
  rintro ⟨name, names, hlist⟩
  have hempty : (treeAfter (exporting [1]) {} localSettings false () (FileTree.empty [])).list
      (Utf8.encode "contracts") = .ok [] :=
    eq_ok_of_toOption (by decide +kernel)
  cases hempty.symm.trans hlist

/-- A preparation goes on to the build although the fetch before it failed halfway. -/
theorem prepare_skips_broken_fetch :
    ¬HasContracts (FileTree.empty []) "contracts" ∧
      (∃ m ∈ (Site.beside (exporting brokenArchive)).moments (prepare {} localSettings false)
          ((), FileTree.empty []), isFetchFault m = true) ∧
        (((Site.beside (exporting brokenArchive)).result (prepare {} localSettings false)
            ((), treeAfter (exporting brokenArchive) {} localSettings false ()
              (FileTree.empty []))).1 = .ok {}) ∧
          ∀ m ∈ (Site.beside (exporting brokenArchive)).moments (prepare {} localSettings false)
            ((), treeAfter (exporting brokenArchive) {} localSettings false () (FileTree.empty [])),
            ¬Exports localSettings m := by
  refine ⟨?_, by decide +kernel, eq_ok_of_toOption (by decide +kernel), ?_⟩
  · rintro ⟨name, names, hlist⟩
    have hnone : ((FileTree.empty []).list (Utf8.encode "contracts")).toOption = none := by
      decide +kernel
    rw [hlist] at hnone
    cases hnone
  · have hheld : (treeAfter (exporting brokenArchive) {} localSettings false ()
        (FileTree.empty [])).list (Utf8.encode "contracts") = .ok [Utf8.encode "a"] :=
      eq_ok_of_toOption (by decide +kernel)
    exact (preparation_prepare (by decide +kernel)).not_exports ⟨_, _, hheld⟩

end StackControl.Lifecycle
