import StackControl.Proofs.Lifecycle.ContractFetch
import StackControl.Proofs.Lifecycle.RevisionTrace

/-!
# Preparing again

An engine that keeps its images is asked for the same stack over and over.  The first preparation
that succeeds settles everything: the images are there, and so are the contracts.  From then on a
preparation finds nothing to do, and only a rebuild that is asked for is carried out; the template
it stamps is restored to the letter.
-/

namespace StackControl.Lifecycle

open Procedure (Answerer Moment)

variable {σ : Type} {others : Answerer Call Call.Answer σ} {has : σ → String → Prop}
  {config : Config} {settings : StackSettings} {rebuild : Bool} {s : σ} {tree : FileTree}
  {after : σ × FileTree}

/-- The engine keeps a store of images.  It says truly whether an image is there, loses none
whatever it is asked, and has an image once it was pulled or built with success. -/
structure ImageStore (others : Answerer Call Call.Answer σ) (has : σ → String → Prop) : Prop where
  exists_iff : ∀ {image s present},
    (others (.engine (.imageExists image)) s).1 = .ok present → (present = true ↔ has s image)
  keeps : ∀ call {s image}, has s image → has (others call s).2 image
  pulled : ∀ {image s}, (others (.engine (.pull image)) s).1 = .ok () →
    has (others (.engine (.pull image)) s).2 image
  built : ∀ {build s}, (others (.engine (.build build)) s).1 = .ok () →
    has (others (.engine (.build build)) s).2 build.tag

/-- The contracts count as missing: there is no directory for them, or nothing in it. -/
def LacksContracts (tree : FileTree) (directory : String) : Prop :=
  tree.list (Utf8.encode directory) = .ok [] ∨
    tree.list (Utf8.encode directory) = .error (.os .notFound)

/-- Whether an image is pulled. -/
def isPull (m : Moment Call Call.Answer σ) : Bool :=
  match m.call with
  | .engine (.pull _) => true
  | _ => false

/-- Whether something is exported from an image. -/
def isExport (m : Moment Call Call.Answer σ) : Bool :=
  match m.call with
  | .engine (.exportPath _ _) => true
  | _ => false

/-- Nothing is left to do: each image is there or not needed, and so are the contracts. -/
structure Settled (has : σ → String → Prop) (config : Config) (settings : StackSettings)
    (s : σ × FileTree) : Prop where
  source : settings.contractsImageIsLocal = true ∨ has s.1 settings.contractsImage
  contracts : ¬LacksContracts s.2 config.contractsDir
  image : has s.1 settings.proxyImage

/-! ## One step after the other -/

/-- No image is lost while a step is carried out. -/
theorem ImageStore.keeps_run {α : Type} (hstore : ImageStore others has) {image : String}
    (activity : Activity α) (s : σ × FileTree) (h : has s.1 image) :
    has (Procedure.run (Site.beside others).answer activity s).2.1 image := by
  induction activity generalizing s with
  | done => exact h
  | ask call next ih =>
      apply ih
      cases call with
      | files request => exact h
      | _ => exact hstore.keeps _ h

theorem ImageStore.keeps_result {α : Type} (hstore : ImageStore others has) {image : String}
    {flow : Flow α} {result : Except Error α}
    (hresult : (Site.beside others).result flow (s, tree) = (result, after)) (h : has s image) :
    has after.1 image := by
  have hkept := hstore.keeps_run flow.run (s, tree) h
  rw [← Site.result, hresult] at hkept
  exact hkept

theorem countP_eq_zero_of_only {α : Type} {allowed : Call → Prop} {flow : Flow α}
    {counted : Moment Call Call.Answer (σ × FileTree) → Bool} (honly : flow.run.Only allowed)
    (hallowed : ∀ m, allowed m.call → counted m = false) (s : σ × FileTree) :
    ((Site.beside others).moments flow s).countP counted = 0 := by
  apply List.countP_eq_zero.mpr
  intro m hm
  rw [hallowed m (honly.mem_moments hm)]
  exact Bool.false_ne_true

theorem not_export_of_pullCall {m : Moment Call Call.Answer σ} (h : PullCall settings m.call) :
    isExport m = false ∧ isBuild m = false := by
  rcases h with heq | heq
  all_goals simp [isExport, isBuild, heq]

theorem not_pull_of_fetchCall {directory image : String} {m : Moment Call Call.Answer σ}
    (h : FetchCall directory image m.call) :
    isPull m = false ∧ isBuild m = false := by
  rcases h with heq | heq | ⟨_, heq⟩
  all_goals simp [isPull, isBuild, heq]

theorem not_pull_of_buildCall {m : Moment Call Call.Answer σ} (h : BuildCall settings m.call) :
    isPull m = false ∧ isExport m = false := by
  rcases h with heq | heq | ⟨_, heq⟩ | ⟨_, _, heq⟩
  all_goals simp [isPull, isExport, heq]

theorem pull_of_ok (hstore : ImageStore others has) {pulled : Bool}
    (h : (Site.beside others).result (pullIfMissing settings) (s, tree) = (.ok pulled, after)) :
    after.2 = tree ∧
      (settings.contractsImageIsLocal = true ∨ has after.1 settings.contractsImage) ∧
      ((settings.contractsImageIsLocal = true ∨ has s settings.contractsImage) →
        pulled = false) ∧
      ((Site.beside others).moments (pullIfMissing settings) (s, tree)).countP isPull =
        pulled.toNat := by
  unfold pullIfMissing at h ⊢
  by_cases hlocal : settings.contractsImageIsLocal = true
  · rw [if_pos hlocal] at h ⊢
    cases h
    exact ⟨rfl, .inl hlocal, fun _ => rfl, rfl⟩
  rw [if_neg hlocal] at h ⊢
  obtain ⟨present, asked, hask, hrest, hmoments⟩ := Site.exists_of_result_bind _ h
  obtain ⟨hanswer, rfl⟩ := Site.answer_of_result_engine _ hask
  rw [hmoments, Site.moments_engine]
  cases present with
  | true =>
      cases hrest
      have hhas := (hstore.exists_iff hanswer).mp rfl
      exact ⟨rfl, .inr (hstore.keeps _ hhas), fun _ => rfl, rfl⟩
  | false =>
      obtain ⟨_, pulled', hpull, hdone, hmoments'⟩ := Site.exists_of_result_bind _ hrest
      obtain ⟨hpulled, rfl⟩ := Site.answer_of_result_engine _ hpull
      cases hdone
      refine ⟨rfl, .inr (hstore.pulled hpulled), ?_, ?_⟩
      · rintro (hthere | hthere)
        · exact absurd hthere hlocal
        · cases (hstore.exists_iff hanswer).mpr hthere
      · rw [if_neg Bool.false_ne_true, hmoments', Site.moments_engine]
        rfl

theorem needsContracts_of_ok {directory : String} {needed : Bool}
    (h : (Site.beside others).result (needsContracts directory) (s, tree) =
      (.ok needed, after)) :
    after = (s, tree) ∧ (needed = true ↔ LacksContracts tree directory) := by
  rw [needsContracts, Site.result_bind, Site.result_liftM, Site.run_list] at h
  dsimp only [Site.tree_beside, Site.answer_beside_files, Machine.FileRequest.perform] at h
  unfold LacksContracts
  cases hlist : tree.list (Utf8.encode directory) with
  | ok names =>
      rw [hlist] at h
      cases h
      simp
  | error fault =>
      rw [hlist] at h
      cases fault with
      | os e =>
          dsimp only at h
          by_cases he : e = .notFound
          · rw [if_pos he] at h
            cases h
            simp [he]
          · rw [if_neg he] at h
            cases h
      | nulByte | notText => cases h

theorem fetch_of_ok {directory image : String} {fetched : Bool}
    (h : (Site.beside others).result (fetchIfNeeded directory image) (s, tree) =
      (.ok fetched, after)) :
    (¬LacksContracts tree directory → fetched = false ∧ after.2 = tree) ∧
      ((∀ m ∈ (Site.beside others).moments (fetchIfNeeded directory image) (s, tree),
          ∀ archive, m.call = .files (.unpack archive (Utf8.encode directory)) →
            ¬LacksContracts ((Site.beside others).answer m.call m.state).2.2 directory) →
        ¬LacksContracts after.2 directory) ∧
      ((Site.beside others).moments (fetchIfNeeded directory image) (s, tree)).countP isExport =
        fetched.toNat := by
  unfold fetchIfNeeded at h ⊢
  obtain ⟨needed, listed, hneeds, hrest, hmoments⟩ := Site.exists_of_result_bind _ h
  obtain ⟨rfl, hneeded⟩ := needsContracts_of_ok hneeds
  rw [hmoments, moments_needsContracts]
  cases needed with
  | false =>
      cases hrest
      have hholds : ¬LacksContracts tree directory := by simp [← hneeded]
      exact ⟨fun _ => ⟨rfl, rfl⟩, fun _ => hholds, rfl⟩
  | true =>
      obtain ⟨archive, exported', hexport, hrest', hmoments'⟩ := Site.exists_of_result_bind _ hrest
      obtain ⟨-, rfl⟩ := Site.answer_of_result_engine _ hexport
      obtain ⟨_, unpacked, hunpack, hdone, hmoments''⟩ := Site.exists_of_result_bind _ hrest'
      cases hdone
      rw [if_pos rfl, hmoments', hmoments'', moments_export, moments_extract]
      rw [result_extract] at hunpack
      obtain ⟨-, rfl⟩ := Prod.mk.inj hunpack
      refine ⟨fun hnot => absurd (hneeded.mp rfl) hnot, ?_, rfl⟩
      intro hextracted
      have hleft := hextracted
        (extracted directory archive
          (others (.engine (.exportPath image contractsSource)) s).2 tree)
        (by simp) archive rfl
      exact hleft

/-- A stamped build that succeeds leaves the tree as it was, and the image in the store. -/
theorem stamping_of_ok (hstore : ImageStore others has) {result : Except Error Bool × σ × FileTree}
    {moments : List (Moment Call Call.Answer (σ × FileTree))} {template : String}
    {injected : Bool}
    (h : Stamping (Site.beside others) template settings (s, tree) result moments)
    (hok : result.1 = .ok injected) :
    result.2.2 = tree ∧ has result.2.1 settings.proxyImage ∧ moments.countP isBuild = 1 := by
  have hbuilt {s' : σ × FileTree} {stamped : Bool}
      (hresult : (Site.beside others).built settings s' stamped = .ok injected) :
      has ((Site.beside others).afterBuild settings s').1 settings.proxyImage := by
    rw [Site.built] at hresult
    rcases hanswer : ((Site.beside others).answer (.engine (.build (proxyBuild settings))) s').1
      with e | _
    · rw [hanswer] at hresult
      cases hresult
    · exact hstore.built hanswer
  cases h with
  | unread | unwritten => cases hok
  | unstamped => exact ⟨rfl, hbuilt hok, rfl⟩
  | @stamped text s' hread hplaceholder hwrite hs' =>
      refine ⟨?_, hbuilt hok, rfl⟩
      obtain ⟨bytes, hbytes, htext⟩ := FileTree.exists_read_of_readText hread
      have hback := FileTree.write_back hbytes hwrite
      rw [← Utf8.encode_of_decode? htext] at hback
      subst hs'
      exact congrArg Prod.snd hback

/-- The report of a build step, given what was done before it. -/
def buildReport (pulled fetched : Bool) (injected : Option Bool) : PrerequisiteReport where
  pulled := pulled
  fetchedContracts := fetched
  injectedRevision := injected.getD false
  built := injected.isSome

theorem buildUnlessPresent_of_ok (hstore : ImageStore others has) {pulled fetched : Bool}
    {report : PrerequisiteReport}
    (h : (Site.beside others).result (buildUnlessPresent config settings pulled fetched false)
      (s, tree) = (.ok report, after)) :
    after.2 = tree ∧ has after.1 settings.proxyImage ∧
      (∃ injected, report = buildReport pulled fetched (some injected)) ∧
      ((Site.beside others).moments (buildUnlessPresent config settings pulled fetched false)
        (s, tree)).countP isBuild = 1 := by
  rw [buildUnlessPresent, if_neg Bool.false_ne_true] at h ⊢
  obtain ⟨injected, built, hbuild, hdone, hmoments⟩ := Site.exists_of_result_bind _ h
  have hstamping := stamping_buildStamped (Site.beside others) config.revisionTemplate settings
    (s, tree)
  rw [hbuild] at hstamping
  obtain ⟨htree, himage, hcount⟩ := stamping_of_ok hstore hstamping rfl
  cases hdone
  rw [hmoments, Site.moments_pure, List.append_nil]
  exact ⟨htree, himage, ⟨injected, rfl⟩, hcount⟩

theorem build_of_ok (hstore : ImageStore others has) {pulled fetched : Bool}
    {report : PrerequisiteReport}
    (h : (Site.beside others).result (buildIfNeeded config settings rebuild pulled fetched)
      (s, tree) = (.ok report, after)) :
    after.2 = tree ∧ has after.1 settings.proxyImage ∧
      ∃ injected, report = buildReport pulled fetched injected ∧
        (rebuild = true → injected.isSome = true) ∧
        (rebuild = false → has s settings.proxyImage → injected = none) ∧
        ((Site.beside others).moments (buildIfNeeded config settings rebuild pulled fetched)
          (s, tree)).countP isBuild = injected.isSome.toNat := by
  cases rebuild with
  | true =>
      rw [buildIfNeeded_true] at h ⊢
      obtain ⟨htree, himage, ⟨injected, rfl⟩, hcount⟩ := buildUnlessPresent_of_ok hstore h
      refine ⟨htree, himage, some injected, rfl, fun _ => rfl, ?_, hcount⟩
      intro hnot
      cases hnot
  | false =>
      rw [buildIfNeeded_false] at h ⊢
      obtain ⟨present, asked, hask, hrest, hmoments⟩ := Site.exists_of_result_bind _ h
      obtain ⟨hanswer, rfl⟩ := Site.answer_of_result_engine _ hask
      rw [hmoments, moments_ask]
      cases present with
      | true =>
          cases hrest
          have hhas := (hstore.exists_iff hanswer).mp rfl
          refine ⟨rfl, hstore.keeps _ hhas, none, rfl, ?_, fun _ _ => rfl, rfl⟩
          intro hnot
          cases hnot
      | false =>
          obtain ⟨htree, himage, ⟨injected, rfl⟩, hcount⟩ := buildUnlessPresent_of_ok hstore hrest
          refine ⟨htree, himage, some injected, rfl, fun _ => rfl, ?_, ?_⟩
          · intro _ hthere
            cases (hstore.exists_iff hanswer).mpr hthere
          · rw [List.countP_append]
            exact congrArg (0 + ·) hcount

/-! ## One preparation -/

/-- Nothing that is unpacked leaves the directory of the contracts missing or empty. -/
def ExtractsContracts (others : Answerer Call Call.Answer σ) (directory : String)
    (moments : List (Moment Call Call.Answer (σ × FileTree))) : Prop :=
  ∀ m ∈ moments, ∀ archive, m.call = .files (.unpack archive (Utf8.encode directory)) →
    ¬LacksContracts ((Site.beside others).answer m.call m.state).2.2 directory

/-- What a preparation that succeeds has done, and what it leaves. -/
structure Prepared (has : σ → String → Prop) (config : Config) (settings : StackSettings)
    (rebuild : Bool) (before : σ × FileTree) (report : PrerequisiteReport)
    (moments : List (Moment Call Call.Answer (σ × FileTree))) (after : σ × FileTree) : Prop where
  settled : Settled has config settings after
  pulls : moments.countP isPull = report.pulled.toNat
  exports : moments.countP isExport = report.fetchedContracts.toNat
  builds : moments.countP isBuild = report.built.toNat
  rebuilt : rebuild = true → report.built = true
  spared : Settled has config settings before →
    report.pulled = false ∧ report.fetchedContracts = false ∧ after.2 = before.2 ∧
      (rebuild = false → report = {})

theorem prepared_of_ok (hstore : ImageStore others has) (hlocal : settings.isLocal = true)
    {report : PrerequisiteReport}
    (h : (Site.beside others).result (prepare config settings rebuild) (s, tree) =
      (.ok report, after))
    (hextracts : ExtractsContracts others config.contractsDir
      ((Site.beside others).moments (prepare config settings rebuild) (s, tree))) :
    Prepared has config settings rebuild (s, tree) report
      ((Site.beside others).moments (prepare config settings rebuild) (s, tree)) after := by
  rw [prepare_of_isLocal hlocal] at h hextracts ⊢
  obtain ⟨pulled, ⟨s₁, tree₁⟩, hpull, hrest, hmoments⟩ := Site.exists_of_result_bind _ h
  obtain ⟨fetched, ⟨s₂, tree₂⟩, hfetch, hbuild, hmoments'⟩ := Site.exists_of_result_bind _ hrest
  rw [hmoments, hmoments'] at hextracts ⊢
  obtain ⟨rfl, hsource, hpulled, hpulls⟩ := pull_of_ok hstore hpull
  obtain ⟨hfetched, hcontracts, hexports⟩ := fetch_of_ok hfetch
  obtain ⟨rfl, himage, injected, rfl, hrebuild, hspared, hbuilds⟩ := build_of_ok hstore hbuild
  have hfetchExtracts := fun m hm =>
    hextracts m (List.mem_append_right _ (List.mem_append_left _ hm))
  constructor
  · constructor
    · refine hsource.imp_right fun hthere => ?_
      exact hstore.keeps_result hbuild (hstore.keeps_result hfetch hthere)
    · exact hcontracts hfetchExtracts
    · exact himage
  · rw [List.countP_append, List.countP_append, hpulls]
    rw [countP_eq_zero_of_only (only_fetchIfNeeded _ _) fun m hm => (not_pull_of_fetchCall hm).1,
      countP_eq_zero_of_only (only_buildIfNeeded _ _ _ _ _) fun m hm => (not_pull_of_buildCall hm).1]
    rfl
  · rw [List.countP_append, List.countP_append, hexports,
      countP_eq_zero_of_only (only_pullIfMissing _) fun m hm => (not_export_of_pullCall hm).1,
      countP_eq_zero_of_only (only_buildIfNeeded _ _ _ _ _) fun m hm => (not_pull_of_buildCall hm).2,
      Nat.zero_add]
    rfl
  · rw [List.countP_append, List.countP_append, hbuilds,
      countP_eq_zero_of_only (only_pullIfMissing _) fun m hm => (not_export_of_pullCall hm).2,
      countP_eq_zero_of_only (only_fetchIfNeeded _ _) fun m hm => (not_pull_of_fetchCall hm).2,
      Nat.zero_add, Nat.zero_add]
    rfl
  · exact hrebuild
  · intro hsettled
    obtain ⟨rfl, htree⟩ := hfetched hsettled.contracts
    obtain rfl := hpulled hsettled.source
    refine ⟨rfl, rfl, htree, ?_⟩
    intro hnot
    have hthere := hstore.keeps_result hfetch (hstore.keeps_result hpull hsettled.image)
    rw [hspared hnot hthere]
    rfl

/-! ## A sequence of preparations -/

/-- One preparation of a sequence: whether a rebuild was asked for, what it ended with, its moments,
and the tree that it left. -/
structure Turn (σ : Type) where
  rebuild : Bool
  result : Except Error PrerequisiteReport
  moments : List (Moment Call Call.Answer (σ × FileTree))
  tree : FileTree

/-- The preparations of a sequence, each of which starts where the one before it ended. -/
def turns (others : Answerer Call Call.Answer σ) (config : Config) (settings : StackSettings) :
    List Bool → σ × FileTree → List (Turn σ)
  | [], _ => []
  | rebuild :: rest, s =>
    let ending := (Site.beside others).result (prepare config settings rebuild) s
    ⟨rebuild, ending.1, (Site.beside others).moments (prepare config settings rebuild) s,
        ending.2.2⟩ ::
      turns others config settings rest ending.2

/-- A call that only asks for images, as far as the engine is concerned. -/
def OnlyAsks (turn : Turn σ) : Prop :=
  ∀ m ∈ turn.moments, ∀ request, m.call = .engine request →
    ∃ image, request = .imageExists image

/-- A turn that found everything settled. -/
structure Redundant (tree : FileTree) (turn : Turn σ) : Prop where
  tree_eq : turn.tree = tree
  pulls : turn.moments.countP isPull = 0
  exports : turn.moments.countP isExport = 0
  builds : turn.moments.countP isBuild = turn.rebuild.toNat
  skipped : turn.rebuild = false → turn.result = .ok {} ∧ OnlyAsks turn

/-- What is neither a pull, an export nor a build only asks for images. -/
theorem exists_imageExists {m : Moment Call Call.Answer (σ × FileTree)}
    (hm : m ∈ (Site.beside others).moments (prepare config settings rebuild) (s, tree))
    (hpull : isPull m = false) (hexport : isExport m = false) (hbuild : isBuild m = false)
    {request : Engine.Request} (hrequest : m.call = .engine request) :
    ∃ image, request = .imageExists image := by
  rcases (only_prepare config settings rebuild).mem_moments hm with
    (heq | heq) | (heq | heq | ⟨_, heq⟩) | (heq | heq | ⟨_, heq⟩ | ⟨_, _, heq⟩)
  all_goals
    rw [heq] at hrequest
    cases hrequest
  · exact ⟨_, rfl⟩
  · simp [isPull, heq] at hpull
  · simp [isExport, heq] at hexport
  · exact ⟨_, rfl⟩
  · simp [isBuild, heq] at hbuild

theorem eq_false_of_countP_eq_zero {α : Type} {p : α → Bool} {l : List α} (h : l.countP p = 0)
    {a : α} (ha : a ∈ l) : p a = false := by
  simpa using List.countP_eq_zero.mp h a ha

/-- Where everything is settled, a preparation does no more than a rebuild that is asked for. -/
theorem Prepared.redundant {report : PrerequisiteReport}
    (h : Prepared has config settings rebuild (s, tree) report
      ((Site.beside others).moments (prepare config settings rebuild) (s, tree)) after)
    (hsettled : Settled has config settings (s, tree)) :
    Redundant tree ⟨rebuild, .ok report,
      (Site.beside others).moments (prepare config settings rebuild) (s, tree), after.2⟩ := by
  obtain ⟨hpulled, hfetched, htree, hskipped⟩ := h.spared hsettled
  have hpulls := h.pulls
  have hexports := h.exports
  have hbuilds := h.builds
  rw [hpulled] at hpulls
  rw [hfetched] at hexports
  refine ⟨htree, hpulls, hexports, ?_, ?_⟩
  · cases hrebuild : rebuild with
    | true =>
        rw [h.rebuilt hrebuild] at hbuilds
        exact hrebuild ▸ hbuilds
    | false =>
        rw [hskipped hrebuild] at hbuilds
        exact hrebuild ▸ hbuilds
  · intro hrebuild
    rw [hskipped hrebuild] at hbuilds
    refine ⟨congrArg Except.ok (hskipped hrebuild), ?_⟩
    intro m hm request hrequest
    exact exists_imageExists hm (eq_false_of_countP_eq_zero hpulls hm)
      (eq_false_of_countP_eq_zero hexports hm) (eq_false_of_countP_eq_zero hbuilds hm) hrequest

/-- Once everything is settled it stays settled, and no preparation does more than a rebuild that is
asked for. -/
theorem redundant_of_settled (hstore : ImageStore others has) (hlocal : settings.isLocal = true)
    {rebuilds : List Bool} (hsettled : Settled has config settings (s, tree))
    (hok : ∀ turn ∈ turns others config settings rebuilds (s, tree),
      ∃ report, turn.result = .ok report)
    (hextracts : ∀ turn ∈ turns others config settings rebuilds (s, tree),
      ExtractsContracts others config.contractsDir turn.moments) :
    ∀ turn ∈ turns others config settings rebuilds (s, tree), Redundant tree turn := by
  induction rebuilds generalizing s with
  | nil => simp [turns]
  | cons rebuild rest ih =>
      rw [turns, List.forall_mem_cons] at hok hextracts ⊢
      rcases hending : (Site.beside others).result (prepare config settings rebuild) (s, tree) with
        ⟨result, s', tree'⟩
      rw [hending] at hok hextracts
      obtain ⟨report, rfl⟩ := hok.1
      have hprepared := prepared_of_ok hstore hlocal hending hextracts.1
      have hfirst := hprepared.redundant hsettled
      obtain rfl : tree' = tree := hfirst.tree_eq
      exact ⟨hfirst, ih hprepared.settled hok.2 hextracts.2⟩

theorem countP_flatMap_eq_zero {ts : List (Turn σ)}
    {p : Moment Call Call.Answer (σ × FileTree) → Bool}
    (h : ∀ turn ∈ ts, turn.moments.countP p = 0) :
    (ts.flatMap Turn.moments).countP p = 0 := by
  apply List.countP_eq_zero.mpr
  intro m hm
  obtain ⟨turn, hturn, hm⟩ := List.mem_flatMap.mp hm
  exact List.countP_eq_zero.mp (h turn hturn) m hm

/-- What only the first turn can have done, and at most once, was done at most once. -/
theorem countP_flatMap_cons_le_one {first : Turn σ} {later : List (Turn σ)}
    {p : Moment Call Call.Answer (σ × FileTree) → Bool} {done : Bool}
    (hfirst : first.moments.countP p = done.toNat)
    (hlater : ∀ turn ∈ later, turn.moments.countP p = 0) :
    ((first :: later).flatMap Turn.moments).countP p ≤ 1 := by
  rw [List.flatMap_cons, List.countP_append, hfirst, countP_flatMap_eq_zero hlater]
  exact Bool.toNat_le done

/-- Preparing the same stack again and again redoes nothing: over a whole sequence of preparations
that succeed there is at most one pull, one export and one build that no rebuild asked for, while
every rebuild builds once.  After the first preparation the tree stays as it is, and without a
rebuild nothing is reported as done and the engine is only asked for images. -/
theorem repeated_preparation_redoes_nothing (others : Answerer Call Call.Answer σ)
    (has : σ → String → Prop) (hstore : ImageStore others has) (config : Config)
    (settings : StackSettings) (hlocal : settings.revision = "local") (rebuilds : List Bool)
    (s : σ) (tree : FileTree)
    (hok : ∀ turn ∈ turns others config settings rebuilds (s, tree),
      ∃ report, turn.result = .ok report)
    (hextracts : ∀ turn ∈ turns others config settings rebuilds (s, tree),
      ExtractsContracts others config.contractsDir turn.moments) :
    ((turns others config settings rebuilds (s, tree)).flatMap Turn.moments).countP isPull ≤ 1 ∧
      ((turns others config settings rebuilds (s, tree)).flatMap Turn.moments).countP
        isExport ≤ 1 ∧
      (((turns others config settings rebuilds (s, tree)).filter (!·.rebuild)).flatMap
        Turn.moments).countP isBuild ≤ 1 ∧
      (∀ turn ∈ turns others config settings rebuilds (s, tree), turn.rebuild = true →
        turn.moments.countP isBuild = 1) ∧
      (∀ turn ∈ (turns others config settings rebuilds (s, tree)).tail, turn.rebuild = false →
        turn.result = .ok {} ∧ OnlyAsks turn) ∧
      ∀ first ∈ (turns others config settings rebuilds (s, tree)).head?,
        ∀ turn ∈ turns others config settings rebuilds (s, tree), turn.tree = first.tree := by
  have hisLocal : settings.isLocal = true := beq_iff_eq.mpr hlocal
  cases rebuilds with
  | nil => simp [turns]
  | cons rebuild rest =>
      rw [turns, List.forall_mem_cons] at hok hextracts
      rcases hending : (Site.beside others).result (prepare config settings rebuild) (s, tree) with
        ⟨result, s', tree'⟩
      rw [hending] at hok hextracts
      obtain ⟨report, rfl⟩ := hok.1
      have hfirst := prepared_of_ok hstore hisLocal hending hextracts.1
      have hlater := redundant_of_settled hstore hisLocal hfirst.settled hok.2 hextracts.2
      rw [turns, hending]
      refine ⟨?_, ?_, ?_, ?_, ?_, ?_⟩
      · exact countP_flatMap_cons_le_one hfirst.pulls fun turn hturn => (hlater turn hturn).pulls
      · exact countP_flatMap_cons_le_one hfirst.exports
          fun turn hturn => (hlater turn hturn).exports
      · have hnone : ∀ turn ∈ (turns others config settings rest (s', tree')).filter
            (!·.rebuild), turn.moments.countP isBuild = 0 := by
          intro turn hturn
          obtain ⟨hturn, hnot⟩ := List.mem_filter.mp hturn
          have hrebuild : turn.rebuild = false := by simpa using hnot
          rw [(hlater turn hturn).builds, hrebuild]
          rfl
        cases rebuild with
        | true =>
            rw [List.filter_cons_of_neg (by simp), countP_flatMap_eq_zero hnone]
            exact Nat.zero_le 1
        | false =>
            rw [List.filter_cons_of_pos rfl]
            exact countP_flatMap_cons_le_one hfirst.builds hnone
      · rw [List.forall_mem_cons]
        constructor
        · intro hrebuild
          exact hfirst.builds.trans (by rw [hfirst.rebuilt hrebuild]; rfl)
        · intro turn hturn hrebuild
          rw [(hlater turn hturn).builds, hrebuild]
          rfl
      · intro turn hturn
        exact (hlater turn hturn).skipped
      · simp only [List.head?_cons, Option.mem_some_iff]
        rintro _ rfl
        rw [List.forall_mem_cons]
        exact ⟨rfl, fun turn hturn => (hlater turn hturn).tree_eq⟩

/-- Others among which the engine keeps the images that are pulled and built, and exports one
archive. -/
def storing (archive : Bytes) : Answerer Call Call.Answer (List String)
  | .engine (.imageExists image), images => (.ok (images.contains image), images)
  | .engine (.pull image), images => (.ok (), image :: images)
  | .engine (.build build), images => (.ok (), build.tag :: images)
  | .engine (.exportPath _ _), images => (.ok archive, images)
  | call, images =>
    ((Site.engineAlone (fun _ => .error (.missingContainerId "")) call ()).1, images)

theorem imageStore_storing (archive : Bytes) :
    ImageStore (storing archive) fun images image => image ∈ images where
  exists_iff := by
    intro image images present hanswer
    cases hanswer
    exact List.contains_iff_mem
  keeps := by
    intro call images image himage
    match call with
    | .engine (.pull _) | .engine (.build _) => exact List.mem_cons_of_mem _ himage
    | .engine (.imageExists _) | .engine (.exportPath _ _) | .engine (.up _)
    | .engine (.down _ _) | .engine (.runningContainer _ _) | .engine (.exec _ _ _)
    | .engine (.logs _ _) | .runner _ | .provision _ | .processes _ | .files _ | .clock _
    | .print _ _ => exact himage
  pulled _ := List.mem_cons_self
  built _ := List.mem_cons_self

/-- An archive that holds an empty file. -/
def smallArchive : Bytes :=
  brokenArchive.dropLast ++ List.replicate 1024 0

/-- A tree with nothing but a template that has a placeholder. -/
def templateTree : FileTree where
  nodes := [([Utf8.encode "worker.py"], .file 0)]
  bodies := [⟨0o644, Utf8.encode revisionPlaceholder⟩]
  workingDirectory := []

/-- Whether what is unpacked, if anything, can be found in the directory. -/
def leavesContracts (others : Answerer Call Call.Answer σ) (directory : String)
    (m : Moment Call Call.Answer (σ × FileTree)) : Bool :=
  match m.call with
  | .files (.unpack _ _) =>
    match ((Site.beside others).answer m.call m.state).2.2.list (Utf8.encode directory) with
    | .ok names => !names.isEmpty
    | .error _ => false
  | _ => true

theorem extractsContracts_of_leavesContracts {directory : String}
    {moments : List (Moment Call Call.Answer (σ × FileTree))}
    (h : moments.all (leavesContracts others directory) = true) :
    ExtractsContracts others directory moments := by
  rintro ⟨state, call, answer⟩ hm archive rfl hlacks
  have hleaves := List.all_eq_true.mp h _ hm
  dsimp only [leavesContracts] at hleaves hlacks
  rcases hlacks with hlist | hlist
  · rw [hlist] at hleaves
    cases hleaves
  · rw [hlist] at hleaves
    cases hleaves

/-- A stack that is prepared, rebuilt and prepared again: the rebuild builds once more, and nothing is
left to do after it. -/
theorem prepared_rebuilt_prepared :
    ∃ first second third,
      turns (storing smallArchive) workerConfig localSettings [false, true, false]
          ([], templateTree) = [first, second, third] ∧
        second.moments.countP isBuild = 1 ∧ second.tree = first.tree ∧
        third.result = .ok {} ∧ OnlyAsks third ∧ third.tree = first.tree := by
  have hok : (turns (storing smallArchive) workerConfig localSettings [false, true, false]
      ([], templateTree)).all (·.result.isOk) = true := by
    decide +kernel
  have hleaves : (turns (storing smallArchive) workerConfig localSettings [false, true, false]
      ([], templateTree)).all (fun turn =>
        turn.moments.all (leavesContracts (storing smallArchive) "contracts")) = true := by
    decide +kernel
  have hreports : ∀ turn ∈ turns (storing smallArchive) workerConfig localSettings
      [false, true, false] ([], templateTree), ∃ report, turn.result = .ok report := by
    intro turn hturn
    have hturnOk := List.all_eq_true.mp hok turn hturn
    cases hresult : turn.result with
    | ok report => exact ⟨report, rfl⟩
    | error e =>
        rw [hresult] at hturnOk
        cases hturnOk
  obtain ⟨-, -, -, hrebuilt, hskipped, htree⟩ := repeated_preparation_redoes_nothing
    (storing smallArchive) _ (imageStore_storing smallArchive) workerConfig localSettings
    (by decide +kernel) [false, true, false] [] templateTree hreports
    fun turn hturn => extractsContracts_of_leavesContracts (List.all_eq_true.mp hleaves turn hturn)
  obtain ⟨first, second, third, hturns, hsecond, hthird⟩ : ∃ first second third,
      turns (storing smallArchive) workerConfig localSettings [false, true, false]
          ([], templateTree) = [first, second, third] ∧
        second.rebuild = true ∧ third.rebuild = false :=
    ⟨_, _, _, rfl, rfl, rfl⟩
  rw [hturns] at hrebuilt hskipped htree
  obtain ⟨hnothing, hasks⟩ := hskipped third (by simp) hthird
  exact ⟨first, second, third, hturns, hrebuilt second (by simp) hsecond,
    htree first rfl second (by simp), hnothing, hasks, htree first rfl third (by simp)⟩

end StackControl.Lifecycle
