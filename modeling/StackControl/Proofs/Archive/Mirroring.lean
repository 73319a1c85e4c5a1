import StackControl.Proofs.Archive.Reproduction
import StackControl.Proofs.FileTree.Counterparts
import StackControl.Proofs.FileTree.Misses

/-!
# Unpacking the same archive into two targets

An archive without symbolic links is unpacked into two fresh targets in step: what is put into one
is put into the other, and what fails in one fails in the other.  Hard links are the exception.  The
path of an entry is taken below the target, but the name of what a hard link is to be another name
of is taken as it stands, from the working directory.  So the targets do not matter to a hard link
only if its name leads past both of them, to what was there before the archive was unpacked.
-/

namespace StackControl.Archive

open FileTree

variable {tree before before' u u' : FileTree} {target target' : Path} {top top' : Location}
  {names : List Name} {entry : Entry} {entries : List Entry}

/-! ## The names of hard links -/

/-- A name leads to nothing that unpacking into a target makes, and to no symbolic link. -/
structure Aside (tree : FileTree) (target : Path) (top : Location) (source : Path) : Prop where
  not_link (loc : Location) (dest : Path) : tree.linkStat source ≠ .ok (loc, .link dest)
  apart {place : Location} :
    tree.Misses (tree.start source) (Path.route source).steps place →
      (prepared target tree).node? place = none ∧ ¬Inside top place

theorem Fresh.blank (h : Fresh tree target top) : (prepared target tree).Blank top := by
  obtain ⟨mode, hstat, hopen⟩ := h.directory
  exact ⟨⟨mode, (passage_of_stat hstat).node?_eq, hopen⟩, h.empty⟩

/-- What was there before stays while a fresh target is filled. -/
theorem Fresh.extends_of_filled (h : Fresh tree target top)
    (hfilled : Filled (prepared target tree) top u) : Extends tree u := by
  have hadded := directoriesAdded_makeDirectories tree target
  refine ⟨hfilled.workingDirectory.trans hadded.workingDirectory, fun {loc node} hnode => ?_⟩
  have hprepared : (prepared target tree).node? loc = some node := by
    rcases hadded.node loc with hsame | ⟨hnone, -⟩
    · exact hsame.trans hnode
    · rw [hnone] at hnode
      cases hnode
  rw [hfilled.outside, hprepared]
  intro hinside
  rw [h.empty hinside] at hprepared
  cases hprepared

/-- The name of a file that is there leads to nothing else. -/
theorem aside_of_file {source : Path} {loc : Location} {i : Nat}
    (h : tree.linkStat source = .ok (loc, .file i)) : Aside tree target top source where
  not_link other dest hlink := by
    rw [h] at hlink
    cases hlink
  apart hmisses := by
    exfalso
    rw [linkStat, locate, locateRoute] at h
    rcases hcheck : checkPath source with e | _
    · rw [hcheck] at h
      cases h
    rw [hcheck] at h
    rw [start] at hmisses
    dsimp only [bind, Except.bind] at h
    rcases hwalk : tree.walk false linkLimit
        (if (Path.route source).absolute then [] else tree.workingDirectory)
        (Path.route source).steps (Path.route source).directory with e | ⟨found, node⟩ | found
    · rw [hwalk] at h
      cases h
    · rw [hwalk] at h
      cases h
      exact not_misses_of_walk hwalk hmisses
    · rw [hwalk] at h
      cases h

/-- A name that leads past a target always leads where it led before. -/
theorem Aside.locate_eq {source : Path} (h : Aside tree target top source)
    (hfresh : Fresh tree target top) (hfilled : Filled (prepared target tree) top u) :
    u.locate false source = tree.locate false source := by
  refine (hfresh.extends_of_filled hfilled).locate_eq fun place hplace => ?_
  obtain ⟨hnone, houtside⟩ := h.apart hplace
  rw [hfilled.outside houtside, hnone]

/-! ## Putting an entry -/

/-- The same is found under a name in both trees, and it is no symbolic link. -/
def SameSource (before before' : FileTree) (top top' : Location) (source : Path) : Prop :=
  ∀ u u', Mirrored before before' top top' u u' →
    u.locate false source = u'.locate false source ∧
      ∀ loc dest, u.locate false source ≠ .ok (.present loc (.link dest))

section Place

variable {path path' : Path}
  (hpath : Counterparts before before' top top' path path' names)
  (hnames : ∀ n ∈ names, Path.IsOrdinary n) (hne : names ≠ [])

include hpath hnames hne

theorem inStep_placeDirectory (h : Mirrored before before' top top' u u') :
    InStep (Mirrored before before' top top') (placeDirectory path) (placeDirectory path') u u' := by
  refine (h.inStep_makeDirectory hpath hnames hne).outcomeOf.bind fun answer u u' h => ?_
  rcases answer with fault | _
  · simp only [InStep, run_bind, run_outcomeOf, run_look]
    rcases h.linkStat_corresponds hpath hnames hne with ⟨e, hstat, hstat'⟩ | ⟨node, hstat, hstat'⟩
    · rw [hstat, hstat']
      cases fault <;> exact inStep_throw h _
    · rw [hstat, hstat']
      rcases fault with e | _ | _
      · cases node with
        | directory =>
            dsimp only
            split <;> exact ⟨rfl, h⟩
        | link => exact inStep_throw h _
        | file => exact inStep_throw h _
      · exact inStep_throw h _
      · exact inStep_throw h _
  · exact inStep_pure h ()

theorem inStep_placeMode (h : Mirrored before before' top top' u u') :
    InStep (Mirrored before before' top top') (placeMode path entry) (placeMode path' entry)
      u u' := by
  rw [placeMode, placeMode]
  cases entry.mode with
  | none => exact inStep_pure h ()
  | some mode => exact h.inStep_setMode hpath hnames hne _

theorem inStep_replacing {act act' : Edit Unit} {missingIsFine : Bool}
    (hact : ∀ {u u'}, Mirrored before before' top top' u u' →
      InStep (Mirrored before before' top top') act act' u u')
    (h : Mirrored before before' top top' u u') :
    InStep (Mirrored before before' top top') (replacing path act missingIsFine)
      (replacing path' act' missingIsFine) u u' := by
  refine (hact h).outcomeOf.bind fun answer u u' h => ?_
  rcases answer with fault | _
  · dsimp only
    split
    · refine (h.inStep_removeFile hpath hnames hne).outcomeOf.bind fun removal u u' h => ?_
      rcases removal with removal | _
      · dsimp only
        split
        · exact hact h
        · exact ⟨rfl, h⟩
      · exact hact h
    · exact ⟨rfl, h⟩
  · exact inStep_pure h ()

/-- An entry that is no symbolic link is put in step. -/
theorem inStep_place (hkind : entry.kind ≠ .symbolicLink)
    (hsource : entry.kind = .hardLink → ∀ source, entry.target = some source →
      SameSource before before' top top' source)
    (h : Mirrored before before' top top' u u') :
    InStep (Mirrored before before' top top') (place entry path) (place entry path') u u' := by
  obtain ⟨_, kind, linked, mode, content, complete⟩ := entry
  cases kind with
  | note => exact inStep_pure h ()
  | symbolicLink => exact absurd rfl hkind
  | directory =>
      exact (inStep_placeDirectory hpath hnames hne h).bind fun _ _ _ h =>
        inStep_placeMode hpath hnames hne h
  | hardLink =>
      cases linked with
      | none => exact inStep_throw h _
      | some source =>
          obtain ⟨hsame, hlink⟩ := hsource rfl source rfl u u' h
          exact h.inStep_hardLink hpath hnames hne hsame hlink
  | file =>
      refine (inStep_replacing hpath hnames hne
        (fun h => h.inStep_create hpath hnames hne content) h).bind fun _ u u' h => ?_
      dsimp only
      split
      · exact inStep_placeMode hpath hnames hne h
      · exact ⟨rfl, h⟩

end Place

/-! ## What hard links are made to -/

section Linked

variable {source : Path}

theorem Aside.exists_file (h : Aside tree target top source) (hfresh : Fresh tree target top)
    (hfilled : Filled (prepared target tree) top u) {found : Location} {node : Node}
    (hlocate : u.locate false source = .ok (.present found node))
    (hnode : ∀ mode, node ≠ .directory mode) :
    ∃ i, node = .file i ∧ tree.linkStat source = .ok (found, .file i) := by
  rw [h.locate_eq hfresh hfilled] at hlocate
  have hstat : tree.linkStat source = .ok (found, node) := by
    rw [linkStat, hlocate]
    rfl
  cases node with
  | directory mode => exact absurd rfl (hnode mode)
  | link dest => exact absurd hstat (h.not_link found dest)
  | file i => exact ⟨i, rfl, hstat⟩

/-- A hard link that is made is one more name of what its name leads to. -/
theorem exists_linked {path path' : Path}
    (hpath : Counterparts before before' top top' path path' names)
    (hnames : ∀ n ∈ names, Path.IsOrdinary n) (hne : names ≠ [])
    (h : Mirrored before before' top top' u u')
    (hok : ((Edit.hardLink source path).run u).1 = .ok ()) :
    ∃ found node, u.locate false source = .ok (.present found node) ∧
      (∀ mode, node ≠ .directory mode) ∧
        ((Edit.hardLink source path).run u).2.node? (top ++ names) = some node := by
  have hends : Ends (Edit.hardLink source path) u fun result after => result = .ok () →
      ∃ found node, u.locate false source = .ok (.present found node) ∧
        (∀ mode, node ≠ .directory mode) ∧ after.node? (top ++ names) = some node := by
    refine ends_hardLink_source nofun fun found loc node hfound hlocate hnode _ => ?_
    refine ⟨found, node, hfound, hnode, ?_⟩
    have hcorresponds := h.locate_corresponds false hpath hnames hne
    rw [hlocate] at hcorresponds
    generalize u'.locate false path' = place' at hcorresponds
    cases hcorresponds
    rw [node?_put (by simp [hne]), if_pos rfl]
  exact hends hok

end Linked

/-! ## Unpacking -/

section Unpack

/-- The paths at which an entry is put, if it is put anywhere, are not too long for the system. -/
def Entry.FitsBoth (target target' : Path) (entry : Entry) : Prop :=
  entry.names ≠ [] → (entryPath target entry.names).length < pathLimit ∧
    (entryPath target' entry.names).length < pathLimit

instance (target target' : Path) (entry : Entry) : Decidable (entry.FitsBoth target target') :=
  inferInstanceAs (Decidable (_ → _))

variable (hvacant : Vacant before target top) (hvacant' : Vacant before' target' top')

include hvacant hvacant'

/-- The directory of an entry is made in step, with what is missing above it. -/
theorem inStep_makeParents {front : List Name} {last : Name}
    (hordinary : ∀ n ∈ names, Path.IsOrdinary n) (hconcat : names = front ++ [last])
    (hfits : (entryPath target names).length < pathLimit)
    (hfits' : (entryPath target' names).length < pathLimit)
    (h : Mirrored before before' top top' u u') :
    InStep (Mirrored before before' top top')
      (Edit.makeDirectories ((Path.parent? (entryPath target (front ++ [last]))).getD []))
      (Edit.makeDirectories ((Path.parent? (entryPath target' (front ++ [last]))).getD []))
      u u' := by
  subst hconcat
  rw [makeDirectories_parent hordinary, makeDirectories_parent hordinary]
  exact inStep_makeAlong hvacant hvacant' hordinary (by simp) hfits hfits'
    (List.prefix_append front [last]) h

theorem inStep_unpackEntry (hkind : entry.kind ≠ .symbolicLink)
    (hfits : entry.FitsBoth target target')
    (hsource : entry.kind = .hardLink → ∀ source, entry.target = some source →
      SameSource before before' top top' source)
    (h : Mirrored before before' top top' u u') :
    InStep (Mirrored before before' top top') (unpackEntry target entry)
      (unpackEntry target' entry) u u' := by
  rcases hescapes : entry.escapes with _ | _
  · rcases List.eq_nil_or_concat entry.names with hnil | ⟨front, last, hconcat⟩
    · rw [unpackEntry, unpackEntry, namesBelowTop?_eq, hescapes, if_neg Bool.false_ne_true, hnil]
      exact inStep_pure h ()
    · rw [List.concat_eq_append] at hconcat
      rw [unpackEntry_eq target hescapes hconcat, unpackEntry_eq target' hescapes hconcat]
      have hne : entry.names ≠ [] := by simp [hconcat]
      have hordinary := isOrdinary_of_mem_names hescapes
      obtain ⟨hfits, hfits'⟩ := hfits hne
      have hparents := inStep_makeParents hvacant hvacant' hordinary hconcat hfits hfits' h
      have hpaths := counterparts_join hvacant hvacant' hordinary hne hfits hfits'
      refine (hparents.adapt _).bind fun _ _ _ h => ?_
      rw [← hconcat]
      exact (inStep_place hpaths hordinary hne hkind hsource h).adapt _
  · rw [unpackEntry, unpackEntry, namesBelowTop?_eq, hescapes]
    exact inStep_throw h _

/-- What is asked of the entries of an archive for it to be unpacked into two targets in step. -/
structure Neutral (before before' : FileTree) (target target' : Path) (top top' : Location)
    (entry : Entry) : Prop where
  kind : entry.kind ≠ .symbolicLink
  fits : entry.FitsBoth target target'
  source : entry.kind = .hardLink → ∀ source, entry.target = some source →
    SameSource before before' top top' source

theorem inStep_unpackEntries
    (hentries : ∀ entry ∈ entries, Neutral before before' target target' top top' entry)
    (h : Mirrored before before' top top' u u') :
    InStep (Mirrored before before' top top') (unpackEntries target entries)
      (unpackEntries target' entries) u u' := by
  induction entries generalizing u u' with
  | nil => exact inStep_pure h ()
  | cons entry rest ih =>
      obtain ⟨hentry, hrest⟩ := List.forall_mem_cons.mp hentries
      exact (inStep_unpackEntry hvacant hvacant' hentry.kind hentry.fits hentry.source h).bind
        fun _ _ _ h => ih hrest h

/-- A hard link that is unpacked is one more name of what its name leads to then. -/
theorem exists_linked_unpackEntry (hescapes : entry.escapes = false)
    (hne : entry.names ≠ []) (hfits : entry.FitsBoth target target')
    (hkind : entry.kind = .hardLink) (h : Mirrored before before' top top' u u')
    (hok : ((unpackEntry target entry).run u).1 = .ok ()) :
    ∃ source mid found node, entry.target = some source ∧ Filled before top mid ∧
      mid.locate false source = .ok (.present found node) ∧ (∀ mode, node ≠ .directory mode) ∧
        ((unpackEntry target entry).run u).2.node? (top ++ entry.names) = some node := by
  obtain ⟨front, last, hconcat⟩ := List.eq_nil_or_concat entry.names |>.resolve_left hne
  rw [List.concat_eq_append] at hconcat
  have hordinary := isOrdinary_of_mem_names hescapes
  obtain ⟨hfits, hfits'⟩ := hfits hne
  have hpaths := counterparts_join hvacant hvacant' hordinary hne hfits hfits'
  obtain ⟨-, hmid⟩ := inStep_makeParents hvacant hvacant' hordinary hconcat hfits hfits' h
  rw [unpackEntry_eq target hescapes hconcat, ← hconcat] at hok ⊢
  rw [← hconcat] at hmid
  obtain ⟨_, mid, hmaking, hplacing, hafter⟩ := exists_of_run_bind _ _ hok
  rw [run_of_run_adapt _ _ hmaking] at hmid
  rw [hafter]
  rw [place, hkind] at hplacing ⊢
  cases hsource : entry.target with
  | none =>
      rw [hsource] at hplacing
      cases hplacing
  | some source =>
      rw [hsource] at hplacing
      have hlinking := run_of_run_adapt _ _ (Prod.ext hplacing rfl)
      obtain ⟨found, node, hfound, hnode, hlinked⟩ :=
        exists_linked hpaths hordinary hne hmid (congrArg Prod.fst hlinking)
      exact ⟨source, mid, found, node, rfl, hmid.left, hfound, hnode, hlinked⟩

end Unpack

theorem unpackEntries_append (target : Path) (entries rest : List Entry) :
    unpackEntries target (entries ++ rest) = (do
      unpackEntries target entries
      unpackEntries target rest) := by
  induction entries with
  | nil => rfl
  | cons entry entries ih => rw [List.cons_append, unpackEntries, ih, unpackEntries, bind_assoc]

/-- Unpacking into a target that could be made is unpacking the entries, and then finding out
whether the archive is damaged. -/
theorem run_unpack (contents : Contents) (hmade : ((Edit.makeDirectories target).run tree).1 = .ok ()) :
    (unpack contents target).run tree =
      match (unpackEntries target contents.entries).run (prepared target tree) with
      | (.ok _, after) => (if contents.damaged then .error .damaged else .ok (), after)
      | (.error e, after) => (.error e, after) := by
  rw [unpack, run_bind, run_adapt, hmade, ← prepared]
  dsimp only [Except.mapError]
  rw [run_bind]
  rcases (unpackEntries target contents.entries).run (prepared target tree) with ⟨e | _, after⟩
  · rfl
  · cases contents.damaged <;> rfl

section Main

variable (hfresh : Fresh tree target top) (hfresh' : Fresh tree target' top')

include hfresh hfresh'

/-- At first nothing is below either target. -/
theorem mirrored_prepared :
    Mirrored (prepared target tree) (prepared target' tree) top top' (prepared target tree)
      (prepared target' tree) where
  left := .refl hfresh.blank
  right := .refl hfresh'.blank
  node hne := by
    rw [hfresh.empty (inside_append_names hne), hfresh'.empty (inside_append_names hne)]
  bodies := by
    rw [prepared, prepared, (directoriesAdded_makeDirectories tree target).bodies,
      (directoriesAdded_makeDirectories tree target').bodies]

/-- A name that leads past both targets leads to the same in both trees. -/
theorem sameSource_of_aside {source : Path} (h : Aside tree target top source)
    (h' : Aside tree target' top' source) :
    SameSource (prepared target tree) (prepared target' tree) top top' source := by
  intro u u' hmirrored
  refine ⟨?_, fun loc dest hlocate => h.not_link loc dest ?_⟩
  · rw [h.locate_eq hfresh hmirrored.left, h'.locate_eq hfresh' hmirrored.right]
  · rw [h.locate_eq hfresh hmirrored.left] at hlocate
    rw [linkStat, hlocate]
    rfl

/-- In an archive that is unpacked to its end, each hard link is made one more name of a file that
was there before. -/
theorem exists_linked_of_unpackEntries
    (hlinks : ∀ entry ∈ entries, entry.kind = .hardLink → ∀ source, entry.target = some source →
      Aside tree target top source)
    (hentries : ∀ entry ∈ entries,
      Neutral (prepared target tree) (prepared target' tree) target target' top top' entry)
    (hok : ((unpackEntries target entries).run (prepared target tree)).1 = .ok ())
    {done rest : List Entry} (hsplit : entries = done ++ entry :: rest)
    (hkind : entry.kind = .hardLink) (hne : entry.names ≠ []) :
    ∃ source loc i, entry.target = some source ∧ tree.linkStat source = .ok (loc, .file i) ∧
      (unpacked ⟨done ++ [entry], false⟩ target tree).node? (top ++ entry.names) =
        some (.file i) := by
  have hmem : entry ∈ entries := by simp [hsplit]
  have hdone : ∀ other ∈ done, other ∈ entries := fun other hother => by simp [hsplit, hother]
  obtain ⟨-, hbefore⟩ := inStep_unpackEntries hfresh.vacant hfresh'.vacant
    (fun other hother => hentries other (hdone other hother)) (mirrored_prepared hfresh hfresh')
  rw [hsplit, unpackEntries_append] at hok
  obtain ⟨_, u, hdone, hok, -⟩ := exists_of_run_bind _ _ hok
  rw [unpackEntries] at hok
  obtain ⟨_, after, hentry, -, -⟩ := exists_of_run_bind _ _ hok
  rw [hdone] at hbefore
  have hunpacked : unpacked ⟨done ++ [entry], false⟩ target tree = after := by
    rw [unpacked_eq, hfresh.made, unpackEntries_append]
    dsimp only
    rw [run_bind, hdone]
    dsimp only
    rw [unpackEntries, run_bind, hentry]
    rfl
  rw [hunpacked]
  have hescapes : entry.escapes = false := by
    rcases hescapes : entry.escapes with _ | _
    · rfl
    · rw [unpackEntry, namesBelowTop?_eq, hescapes] at hentry
      cases hentry
  obtain ⟨source, mid, found, node, hsource, hfilled, hlocate, hnode, hafter⟩ :=
    exists_linked_unpackEntry hfresh.vacant hfresh'.vacant hescapes hne (hentries entry hmem).fits
      hkind hbefore (congrArg Prod.fst hentry)
  obtain ⟨i, rfl, hstat⟩ :=
    (hlinks entry hmem hkind source hsource).exists_file hfresh hfilled hlocate hnode
  rw [hentry] at hafter
  exact ⟨source, found, i, hsource, hstat, hafter⟩

/-- An archive without symbolic links comes to the same in two fresh targets, whatever they are: it
is unpacked to its end in both or fails for the same reason in both, and then the same is below
both.  Paths have to fit the system, and the names of hard links, which are looked up from the
working directory, have to lead past both targets; a hard link that is made is then one more name of
a file that was there before. -/
theorem unpack_mirrored (contents : Contents)
    (hkinds : ∀ entry ∈ contents.entries, entry.kind ≠ .symbolicLink)
    (hfits : ∀ entry ∈ contents.entries, entry.FitsBoth target target')
    (hlinks : ∀ entry ∈ contents.entries, entry.kind = .hardLink →
      ∀ source, entry.target = some source →
        Aside tree target top source ∧ Aside tree target' top' source) :
    ((unpack contents target).run tree).1 = ((unpack contents target').run tree).1 ∧
      (∀ names, names ≠ [] →
        (unpacked contents target tree).node? (top ++ names) =
          (unpacked contents target' tree).node? (top' ++ names)) ∧
      (unpacked contents target tree).bodies = (unpacked contents target' tree).bodies ∧
      (((unpack contents target).run tree).1 = .ok () →
        ∀ done entry rest, contents.entries = done ++ entry :: rest → entry.kind = .hardLink →
          entry.names ≠ [] →
            ∃ source loc i, entry.target = some source ∧
              tree.linkStat source = .ok (loc, .file i) ∧
              (unpacked ⟨done ++ [entry], false⟩ target tree).node? (top ++ entry.names) =
                some (.file i)) := by
  have hentries : ∀ entry ∈ contents.entries,
      Neutral (prepared target tree) (prepared target' tree) target target' top top' entry :=
    fun entry hmem => ⟨hkinds entry hmem, hfits entry hmem, fun hkind source hsource =>
      have haside := hlinks entry hmem hkind source hsource
      sameSource_of_aside hfresh hfresh' haside.1 haside.2⟩
  have hlinked (hok) {done rest : List Entry} {entry : Entry}
      (hsplit : contents.entries = done ++ entry :: rest) :=
    exists_linked_of_unpackEntries hfresh hfresh'
      (fun entry hmem hkind source hsource => (hlinks entry hmem hkind source hsource).1) hentries
      hok hsplit
  obtain ⟨hanswer, hmirrored⟩ := inStep_unpackEntries hfresh.vacant hfresh'.vacant hentries
    (mirrored_prepared hfresh hfresh')
  rw [unpacked, unpacked, run_unpack contents hfresh.made, run_unpack contents hfresh'.made]
  generalize (unpackEntries target contents.entries).run (prepared target tree) = ended
    at hanswer hmirrored hlinked ⊢
  generalize (unpackEntries target' contents.entries).run (prepared target' tree) = ended'
    at hanswer hmirrored ⊢
  obtain ⟨answer, after⟩ := ended
  obtain ⟨answer', after'⟩ := ended'
  obtain rfl : answer = answer' := hanswer
  rcases answer with e | _
  · exact ⟨rfl, fun _ => hmirrored.node, hmirrored.bodies, nofun⟩
  · exact ⟨rfl, fun _ => hmirrored.node, hmirrored.bodies,
      fun _ done entry rest hsplit hkind hne => hlinked rfl hsplit hkind hne⟩

end Main

section Examples

/-- The entry of a hard link. -/
def hardLinkEntry (path source : String) : Entry :=
  ⟨Utf8.encode path, .hardLink, some (Utf8.encode source), some 0o644, [], true⟩

/-- An archive with a file and a second name for it. -/
def twiceNamed : List Entry :=
  [fileEntry "x/a" "new", hardLinkEntry "x/b" "x/a"]

/-- A tree in which something else has the name that the file has in the archive. -/
def takenTree : FileTree :=
  ⟨[([Utf8.encode "x"], .directory directoryMode), ([Utf8.encode "x", Utf8.encode "a"], .file 0)],
    [⟨0o644, Utf8.encode "old"⟩], []⟩

/-- The second name is one of the wrong file, whatever the target is. -/
theorem unpack_mirrored_taken :
    ((unpack ⟨twiceNamed, false⟩ contracts).run takenTree).1 =
        ((unpack ⟨twiceNamed, false⟩ (Utf8.encode "other")).run takenTree).1 ∧
      (unpacked ⟨twiceNamed, false⟩ contracts takenTree).node? [contracts, Utf8.encode "b"] =
        (unpacked ⟨twiceNamed, false⟩ (Utf8.encode "other") takenTree).node?
          [Utf8.encode "other", Utf8.encode "b"] ∧
      ∃ loc i, takenTree.linkStat (Utf8.encode "x/a") = .ok (loc, .file i) ∧
        (unpacked ⟨twiceNamed, false⟩ contracts takenTree).node? [contracts, Utf8.encode "b"] =
          some (.file i) := by
  have hfresh : Fresh takenTree contracts [contracts] :=
    fresh_of_rows (by decide +kernel) (by decide +kernel) (by decide +kernel)
  have hfresh' : Fresh takenTree (Utf8.encode "other") [Utf8.encode "other"] :=
    fresh_of_rows (by decide +kernel) (by decide +kernel) (by decide +kernel)
  have hstat : takenTree.linkStat (Utf8.encode "x/a") =
      .ok ([Utf8.encode "x", Utf8.encode "a"], .file 0) := by decide +kernel
  have hsource : ∀ entry ∈ twiceNamed, entry.kind = .hardLink → ∀ source,
      entry.target = some source → source = Utf8.encode "x/a" := by
    simp [twiceNamed, fileEntry, hardLinkEntry, eq_comm]
  have hok : ((unpack ⟨twiceNamed, false⟩ contracts).run takenTree).1 = .ok () := by
    decide +kernel
  obtain ⟨hanswer, hnodes, -, hlinked⟩ := unpack_mirrored hfresh hfresh' ⟨twiceNamed, false⟩
    (by decide +kernel) (by decide +kernel) fun entry hmem hkind source htarget => by
      obtain rfl := hsource entry hmem hkind source htarget
      exact ⟨aside_of_file hstat, aside_of_file hstat⟩
  obtain ⟨source, loc, i, htarget, hfile, hnode⟩ :=
    hlinked hok [fileEntry "x/a" "new"] (hardLinkEntry "x/b" "x/a") [] rfl rfl (by decide +kernel)
  cases htarget
  exact ⟨hanswer, hnodes [Utf8.encode "b"] (by simp), loc, i, hfile, hnode⟩

/-- The link is made in a target with the name that the archive's directory has, and in no other. -/
theorem unpack_not_mirrored :
    Fresh (FileTree.empty []) (Utf8.encode "x") [Utf8.encode "x"] ∧
      Fresh (FileTree.empty []) contracts [contracts] ∧
      (∀ entry ∈ twiceNamed, entry.kind = .file ∨ entry.kind = .hardLink ∧
        entry.target = some (fileEntry "x/a" "new").path) ∧
      (∀ entry ∈ twiceNamed, entry.FitsBoth (Utf8.encode "x") contracts) ∧
      ((unpack ⟨twiceNamed, false⟩ (Utf8.encode "x")).run (FileTree.empty [])).1 = .ok () ∧
      (unpacked ⟨twiceNamed, false⟩ (Utf8.encode "x") (FileTree.empty [])).Shows
        [Utf8.encode "x", Utf8.encode "b"] (some (.file ⟨0o644, Utf8.encode "new"⟩)) ∧
      ((unpack ⟨twiceNamed, false⟩ contracts).run (FileTree.empty [])).1 = .error .damaged := by
  exact ⟨fresh_of_rows (by decide +kernel) (by decide +kernel) (by decide +kernel), fresh_contracts,
    by decide +kernel, by decide +kernel, by decide +kernel,
    ⟨0, by decide +kernel, by decide +kernel⟩, by decide +kernel⟩

end Examples

end StackControl.Archive
