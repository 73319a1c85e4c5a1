import StackControl.Proofs.Archive.Laying
import StackControl.Proofs.Archive.Stages
import StackControl.Proofs.FileTree.InStep
import StackControl.Proofs.FileTree.Reaching

/-!
# What has been done when unpacking succeeds

Unpacking succeeds only with an archive that could be read to its end.  Then every entry was put, in
order: no component of its path leads elsewhere, the directories on the way were made, what the
entry is for stands where its path below the target ends, and nothing else was changed.
-/

namespace StackControl.Archive

open FileTree

/-- What an entry has put at a location, where `ready` is the tree in which its directory had been
made. -/
inductive Entry.StandsAt (entry : Entry) (ready after : FileTree) (loc : Location) : Prop
  | directory (mode : Nat) : entry.kind = .directory →
      after.node? loc = some (.directory mode) → (∀ stated ∈ entry.mode, mode = stated &&& 0o777) →
        entry.StandsAt ready after loc
  | file : entry.kind = .file → entry.complete = true →
      NewFile ready ⟨permissions entry.mode fileMode, entry.content⟩ after loc →
        entry.StandsAt ready after loc
  | symbolicLink (dest : Path) : entry.kind = .symbolicLink → entry.target = some dest →
      after.node? loc = some (.link dest) → entry.StandsAt ready after loc
  /-- One more name of what the target of the entry names. -/
  | hardLink (source : Path) (found : Location) (node : Node) : entry.kind = .hardLink →
      entry.target = some source → ready.locate false source = .ok (.present found node) →
        after.node? loc = some node → entry.StandsAt ready after loc

/-- What comes of an entry that is unpacked into a target. -/
inductive Put (target : Path) (entry : Entry) (tree : FileTree) : FileTree → Prop
  /-- Nothing is put for the top of the archive. -/
  | top : entry.names = [] → Put target entry tree tree
  /-- Nothing is put for a record about other entries, but its directory is made. -/
  | note {front : List Name} {last : Name} {ready : FileTree} : entry.names = front ++ [last] →
      entry.kind = .note →
        DirectoriesAdded
            (directoryPath target front :: Path.above (directoryPath target front).components)
            tree ready →
          Put target entry tree ready
  | stands {front : List Name} {last : Name} {ready after : FileTree} :
      entry.names = front ++ [last] →
        DirectoriesAdded
            (directoryPath target front :: Path.above (directoryPath target front).components)
            tree ready →
          SetAt (entryPath target entry.names) (entry.StandsAt ready) ready after →
            Put target entry tree after

/-- Entries are put into a target one after the other, and none of them leads elsewhere. -/
inductive PutAll (target : Path) : List Entry → FileTree → FileTree → Prop
  | nil {tree : FileTree} : PutAll target [] tree tree
  | cons {entry : Entry} {rest : List Entry} {tree mid after : FileTree} :
      entry.escapes = false → Put target entry tree mid → PutAll target rest mid after →
        PutAll target (entry :: rest) tree after

/-- An archive was read to its end, and all its entries were put into a directory that was made for
them. -/
structure Extracted (contents : Contents) (target : Path) (tree after : FileTree) : Prop where
  undamaged : contents.damaged = false
  leads : ∃ top, (prepared target tree).LeadsTo target top
  made : DirectoriesAdded (target :: Path.above target.components) tree (prepared target tree)
  entries : PutAll target contents.entries (prepared target tree) after

variable {tree ready mid after : FileTree} {path target source dest : Path} {entry : Entry}
  {entries : List Entry} {contents : Contents} {content : Bytes} {names front : List Name}
  {last : Name}

/-! ## Putting an entry at its path -/

/-- After a success this holds. -/
abbrev Achieves (onOk : FileTree → Prop) : Except Fault Unit → FileTree → Prop :=
  Leaves (fun _ => True) onOk

theorem ends_setAt_mono {act : Edit Unit} {onError : FileTree → Prop}
    {stands stands' : FileTree → Location → Prop}
    (h : Ends act tree (Leaves onError (SetAt path stands ready)))
    (hstands : ∀ after loc, stands after loc → stands' after loc) :
    Ends act tree (Achieves (SetAt path stands' ready)) := by
  apply h.mono
  rintro (_ | _) after hafter
  · trivial
  · exact hafter.mono (hstands after)

theorem ends_bind_achieves {act : Edit Unit} {next : Unit → Edit Unit}
    {onError onMid onOk : FileTree → Prop} (h : Ends act tree (Leaves onError onMid))
    (hnext : ∀ mid, onMid mid → Ends (next ()) mid (Achieves onOk)) :
    Ends (act >>= next) tree (Achieves onOk) := by
  rw [ends_bind]
  apply h.mono
  rintro (_ | _) mid hmid
  · trivial
  · exact hnext mid hmid

/-- Some directory stands at a location. -/
def IsDirectory (tree : FileTree) (loc : Location) : Prop :=
  ∃ mode, tree.node? loc = some (.directory mode)

section Place

variable (hpath : EndsInName path)

include hpath

theorem ends_create_setAt (h : Untouched path ready tree) :
    Ends (Edit.create path content) tree
      (Leaves (Untouched path ready) (SetAt path (NewFile ready ⟨fileMode, content⟩) ready)) := by
  apply FileTree.ends_create fun _ => h
  intro loc _ hlocate
  obtain ⟨hreaches, habsent⟩ := hpath.reaches_absent hlocate
  exact h.setAt_putFile hreaches habsent

theorem ends_link_setAt (h : Untouched path ready tree) :
    Ends (Edit.link dest path) tree
      (Leaves (Untouched path ready)
        (SetAt path (fun after loc => after.node? loc = some (.link dest)) ready)) := by
  apply FileTree.ends_link fun _ => h
  intro loc hlocate
  obtain ⟨hreaches, habsent⟩ := hpath.reaches_absent hlocate
  exact h.setAt_put hreaches habsent

theorem ends_removeFile_untouched (h : Untouched path ready tree) :
    Ends (Edit.removeFile path) tree fun _ => Untouched path ready := by
  apply FileTree.ends_removeFile fun _ => h
  intro loc node hlocate _
  exact h.drop (hpath.reaches_present hlocate).1

theorem ends_hardLink_setAt :
    Ends (Edit.hardLink source path) tree
      (Achieves (SetAt path (fun after loc => ∃ found node,
        tree.locate false source = .ok (.present found node) ∧ after.node? loc = some node)
          tree)) := by
  apply ends_hardLink_source fun _ => trivial
  intro found loc node hsource hlocate _
  obtain ⟨hreaches, habsent⟩ := hpath.reaches_absent hlocate
  obtain ⟨other, hother, hsame, hnode⟩ := (untouched_refl path tree).setAt_put hreaches habsent
  exact ⟨other, hother, hsame, found, node, hsource, hnode⟩

theorem ends_placeDirectory_setAt :
    Ends (placeDirectory path) tree (Achieves (SetAt path IsDirectory tree)) := by
  simp only [placeDirectory, ends_bind, ends_outcomeOf]
  apply ends_makeDirectory
  · intro fault
    dsimp only
    rw [ends_bind, ends_outcomeOf, ends_look]
    dsimp only
    split
    next loc mode hstat =>
      split
      · obtain ⟨_, hplace, -⟩ | ⟨_, _, hplace, hreaches, hnode⟩ :=
          hpath.reaches (hpath.directory ▸ passage_of_linkStat hstat)
        · cases hplace
        · cases hplace
          exact ⟨loc, hreaches, .refl loc tree, mode, hnode⟩
      · trivial
    next => trivial
  · intro loc hlocate
    obtain ⟨_, hplace, hreaches, habsent⟩ | ⟨_, _, hplace, -⟩ :=
      hpath.reaches (passage_of_locateRoute hlocate)
    · cases hplace
      obtain ⟨other, hother, hsame, hnode⟩ := (untouched_refl path tree).setAt_put hreaches habsent
      exact ⟨other, hother, hsame, _, hnode⟩
    · cases hplace

/-- A directory keeps its place when it is given the permissions of its entry. -/
theorem ends_placeMode_directory_setAt (h : SetAt path IsDirectory ready tree) :
    Ends (placeMode path entry) tree (Achieves (SetAt path (fun after loc =>
      ∃ mode, after.node? loc = some (.directory mode) ∧
        ∀ stated ∈ entry.mode, mode = stated &&& 0o777) ready)) := by
  obtain ⟨loc, hreaches, hsame, mode, hnode⟩ := h
  rw [placeMode]
  cases entry.mode with
  | none => exact ⟨loc, hreaches, hsame, mode, hnode, by simp⟩
  | some stated =>
      apply FileTree.ends_setMode fun _ => trivial
      · intro loc' mode' hstat
        obtain ⟨rfl, -⟩ := hreaches.of_stat hpath hnode (by simp) hstat
        refine ⟨loc', hreaches.keeps (keeps_put_directory hreaches.ne_nil hnode),
          hsame.trans (.put hreaches.ne_nil), stated &&& 0o777, ?_, ?_⟩
        · rw [node?_put hreaches.ne_nil, if_pos rfl]
        · rintro _ ⟨⟩
          rfl
      · intro loc' i body hstat _
        obtain ⟨-, hother⟩ := hreaches.of_stat hpath hnode (by simp) hstat
        cases hother

/-- So does a new file. -/
theorem ends_placeMode_file_setAt (h : SetAt path (NewFile ready ⟨fileMode, content⟩) ready tree) :
    Ends (placeMode path entry) tree (Achieves (SetAt path
      (NewFile ready ⟨permissions entry.mode fileMode, content⟩) ready)) := by
  rw [placeMode]
  cases entry.mode with
  | none => exact h
  | some stated =>
      obtain ⟨loc, hreaches, hsame, i, hi, hnode, hbody⟩ := h
      apply FileTree.ends_setMode fun _ => trivial
      · intro loc' mode' hstat
        obtain ⟨-, hother⟩ := hreaches.of_stat hpath hnode (by simp) hstat
        cases hother
      · intro loc' j body hstat hbody'
        obtain ⟨-, hother⟩ := hreaches.of_stat hpath hnode (by simp) hstat
        cases hother
        obtain rfl : body = ⟨fileMode, content⟩ := Option.some.inj (hbody'.symm.trans hbody)
        have hkeeps : Keeps tree (tree.setBody i ⟨stated &&& 0o777, content⟩) :=
          ⟨rfl, fun {_ mode} hother => ⟨mode, by rwa [node?_setBody]⟩,
            fun hother => by rwa [node?_setBody]⟩
        refine ⟨loc, hreaches.keeps hkeeps, hsame.setBody hi, i, hi, by rwa [node?_setBody], ?_⟩
        rw [bodies_setBody, List.getElem?_set_self (List.getElem?_eq_some_iff.mp hbody).1]
        rfl

/-- An entry that could be put stands where its path ends. -/
theorem ends_place_setAt (hkind : entry.kind ≠ .note) :
    Ends (place entry path) tree (Achieves (SetAt path (entry.StandsAt tree) tree)) := by
  simp only [place]
  split
  next hnote => exact absurd hnote hkind
  next hdirectory =>
    apply ends_bind_achieves (ends_placeDirectory_setAt hpath)
    intro mid hmid
    apply ends_setAt_mono (ends_placeMode_directory_setAt hpath hmid)
    rintro after loc ⟨mode, hnode, hmode⟩
    exact .directory mode hdirectory hnode hmode
  next source hhard htarget =>
    apply ends_setAt_mono (ends_hardLink_setAt hpath)
    rintro after loc ⟨found, node, hsource, hnode⟩
    exact .hardLink source found node hhard htarget hsource hnode
  next dest hsymbolic htarget =>
    apply ends_setAt_mono (ends_replacing (fun _ => ends_link_setAt hpath)
      (fun _ => ends_removeFile_untouched hpath) (untouched_refl path tree))
    intro after loc
    exact .symbolicLink dest hsymbolic htarget
  next => trivial
  next => trivial
  next hfile =>
    apply ends_bind_achieves (ends_replacing (fun _ => ends_create_setAt hpath)
      (fun _ => ends_removeFile_untouched hpath) (untouched_refl path tree))
    intro mid hmid
    split
    next hcomplete =>
      apply ends_setAt_mono (ends_placeMode_file_setAt hpath hmid)
      intro after loc
      exact .file hfile hcomplete
    next => trivial

end Place

/-! ## Unpacking entries -/

theorem endsInName_entryPath (hnames : ∀ n ∈ front ++ [last], Path.IsOrdinary n) :
    EndsInName (entryPath target (front ++ [last])) where
  directory := directory_entryPath hnames
  steps := by
    have hsteps : (Path.route (entryPath target (front ++ [last]))).steps =
        (Path.route target).steps ++ (front ++ [last]) :=
      Path.steps_join (by simp) hnames
    exact ⟨_, last, hsteps.trans (List.append_assoc ..).symm, (hnames last (by simp)).isName⟩

theorem put_of_unpackEntry (h : (unpackEntry target entry).run tree = (.ok (), after)) :
    entry.escapes = false ∧ Put target entry tree after := by
  cases hescapes : entry.escapes with
  | true =>
      rw [unpackEntry, namesBelowTop?_eq, hescapes] at h
      cases h
  | false =>
      refine ⟨rfl, ?_⟩
      have hordinary := isOrdinary_of_mem_names hescapes
      rcases List.eq_nil_or_concat entry.names with hnil | ⟨front, last, hnames⟩
      · rw [unpackEntry, namesBelowTop?_eq, hescapes, if_neg Bool.false_ne_true, hnil] at h
        cases h
        exact .top hnil
      · rw [List.concat_eq_append] at hnames
        rw [unpackEntry_eq target hescapes hnames] at h
        rw [hnames] at hordinary
        obtain ⟨_, ready, hmade, hplaced, hafter⟩ := exists_of_run_bind _ _ (congrArg Prod.fst h)
        rw [h] at hafter
        have hready := run_of_run_adapt _ _ hmade
        rw [parent?_entryPath hordinary] at hready
        have hadded := directoriesAdded_makeDirectories tree (directoryPath target front)
        rw [hready] at hadded
        have hplace := run_of_run_adapt _ _ (Prod.ext hplaced hafter.symm)
        by_cases hkind : entry.kind = .note
        · rw [place, hkind] at hplace
          cases hplace
          exact .note hnames hkind hadded
        · have hends : Ends (place entry (entryPath target (front ++ [last]))) ready _ :=
            ends_place_setAt (endsInName_entryPath hordinary) hkind
          rw [Ends, hplace, ← hnames] at hends
          exact .stands hnames hadded hends

theorem putAll_of_unpackEntries
    (h : (unpackEntries target entries).run tree = (.ok (), after)) :
    PutAll target entries tree after := by
  induction entries generalizing tree with
  | nil =>
      cases h
      exact .nil
  | cons entry rest ih =>
      rw [unpackEntries] at h
      obtain ⟨_, mid, hentry, hrest, hafter⟩ := exists_of_run_bind _ _ (congrArg Prod.fst h)
      rw [h] at hafter
      obtain ⟨hescapes, hput⟩ := put_of_unpackEntry hentry
      exact .cons hescapes hput (ih (Prod.ext hrest hafter.symm))

/-- An archive that could be unpacked was read to its end and put entry by entry. -/
theorem extracted_of_unpack (h : ((unpack contents target).run tree).1 = .ok ()) :
    Extracted contents target tree (unpacked contents target tree) := by
  rw [unpacked]
  rw [unpack] at h ⊢
  obtain ⟨_, ready, hmade, hrest, hafter⟩ := exists_of_run_bind _ _ h
  obtain ⟨_, filled, hfilled, hend, hended⟩ := exists_of_run_bind _ _ hrest
  have hready := run_of_run_adapt _ _ hmade
  obtain rfl : prepared target tree = ready := congrArg Prod.snd hready
  rw [hafter, hended]
  cases hdamaged : contents.damaged with
  | true =>
      rw [hdamaged] at hend
      cases hend
  | false =>
      exact ⟨hdamaged, exists_leadsTo_of_makeDirectories (congrArg Prod.fst hready),
        directoriesAdded_makeDirectories tree target, putAll_of_unpackEntries hfilled⟩

end StackControl.Archive
