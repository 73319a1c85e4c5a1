import StackControl.Proofs.Archive.Layout
import StackControl.Proofs.Archive.Placing

/-!
# Laying out an entry

Where nothing is in the way, an entry is put just as the layout says: the directories above it are
made first, a directory that is there keeps what is in it, and a file takes the place of the file
that was there.
-/

namespace StackControl.Archive

open FileTree

/-- The entry is a directory, or a file that is all there. -/
def Entry.IsPlain (entry : Entry) : Prop :=
  entry.kind = .directory ∨ entry.kind = .file ∧ entry.complete = true

/-- The path of the entry can be used, and its names can be held by directories. -/
structure Entry.Fits (target : Path) (entry : Entry) : Prop where
  names : ∀ n ∈ entry.names, n.length ≤ longestName
  path : (entryPath target entry.names).length < pathLimit

instance (entry : Entry) : Decidable entry.IsPlain :=
  inferInstanceAs (Decidable (_ ∨ _))

instance (target : Path) (entry : Entry) : Decidable (entry.Fits target) :=
  decidable_of_iff _ ⟨fun h => ⟨h.1, h.2⟩, fun h => And.intro h.names h.path⟩

variable {before tree : FileTree} {target : Path} {top : Location} {plan : Plan}
  {done : List Entry} {entry : Entry} {front : List Name} {last : Name} {mode : Nat}

theorem permissions_or (stated stated' : Option Nat) (default : Nat) :
    permissions (stated.or stated') default = permissions stated (permissions stated' default) := by
  cases stated <;> rfl

theorem passable_update (h : plan.Passable front) (standing : Option Standing) :
    Plan.Passable (Function.update plan (front ++ [last]) standing) front := by
  intro pre hpre
  rw [Function.update_of_ne (ne_concat_of_isPrefix hpre)]
  exact h pre hpre

theorem editable_update (h : plan.Editable front) (standing : Option Standing) :
    Plan.Editable (Function.update plan (front ++ [last]) standing) front := by
  obtain ⟨mode, hmode, hopen⟩ := h
  refine ⟨mode, ?_, hopen⟩
  rw [Function.update_of_ne (by simp), hmode]

section Place

variable (hvacant : Vacant before target top) (hnames : Usable (front ++ [last]))
  (hcheck : checkPath (entryPath target (front ++ [last])) = .ok ())
  (h : LaidOut before top plan tree) (hpass : plan.Passable front)

include hvacant hnames hcheck h hpass

/-- The permissions of a directory are set if the entry states some. -/
theorem ends_placeMode_directory (hplan : plan (front ++ [last]) = some (.directory mode)) :
    Ends (placeMode (entryPath target (front ++ [last])) entry) tree fun result after =>
      result = .ok () ∧ LaidOut before top
        (Function.update plan (front ++ [last])
          (some (.directory (permissions entry.mode mode)))) after := by
  have hspot := h.spot_join hvacant hcheck hpass hnames
  have hnode := h.node?_directory hplan
  rw [placeMode]
  cases hmode : entry.mode with
  | none =>
      rw [ends_pure, permissions, Option.map_none, Option.getD_none, ← hplan,
        Function.update_eq_self]
      exact ⟨rfl, h⟩
  | some stated =>
      rw [← List.append_assoc] at hnode
      dsimp only
      rw [entryPath, hspot.ends_setMode_directory hnode, List.append_assoc]
      exact ⟨rfl, h.put (by simp) _⟩

theorem ends_placeMode_file {body : FileBody}
    (hplan : plan (front ++ [last]) = some (.file body)) :
    Ends (placeMode (entryPath target (front ++ [last])) entry) tree fun result after =>
      result = .ok () ∧ LaidOut before top
        (Function.update plan (front ++ [last])
          (some (.file { body with mode := permissions entry.mode body.mode }))) after := by
  have hspot := h.spot_join hvacant hcheck hpass hnames
  obtain ⟨i, hnode, hbody⟩ := h.exists_node?_file hplan
  rw [placeMode]
  cases hmode : entry.mode with
  | none =>
      rw [ends_pure, permissions, Option.map_none, Option.getD_none, ← hplan,
        Function.update_eq_self]
      exact ⟨rfl, h⟩
  | some stated =>
      have hset := h.setBody (by simp) hnode (List.getElem?_eq_some_iff.mp hbody).1
        { body with mode := stated &&& 0o777 }
      rw [← List.append_assoc] at hnode
      dsimp only
      rw [entryPath, hspot.ends_setMode_file (directory_entryPath hnames.isOrdinary) hnode hbody]
      exact ⟨rfl, hset⟩

/-- A directory is made, or left where it is. -/
theorem ends_placeDirectory_planned
    (hplan : plan (front ++ [last]) = none ∧ plan.Editable front ∧ mode = directoryMode ∨
      plan (front ++ [last]) = some (.directory mode)) :
    Ends (placeDirectory (entryPath target (front ++ [last]))) tree fun result after =>
      result = .ok () ∧ LaidOut before top
        (Function.update plan (front ++ [last]) (some (.directory mode))) after := by
  have hspot := h.spot_join hvacant hcheck hpass hnames
  rcases hplan with ⟨hnone, hedit, rfl⟩ | hplan
  · have hnode := h.node?_none hnone
    rw [← List.append_assoc] at hnode
    simp only [placeDirectory, ends_bind, ends_outcomeOf, entryPath,
      hspot.ends_makeDirectory_absent hnode (h.mayEdit hedit), ends_pure]
    rw [List.append_assoc]
    exact ⟨trivial, h.put (by simp) _⟩
  · have hnode := h.node?_directory hplan
    rw [← List.append_assoc] at hnode
    have hstat : tree.linkStat (Path.join target
        ([Path.separator].intercalate (front ++ [last]))) =
          .ok (top ++ front ++ [last], .directory mode) := by
      rw [linkStat, hspot.locate_directory hnode]
      rfl
    simp only [placeDirectory, ends_bind, ends_outcomeOf, entryPath,
      hspot.ends_makeDirectory_directory hnode, ends_look, hstat]
    rw [← hplan, Function.update_eq_self]
    exact ⟨rfl, h⟩

theorem ends_create_planned (content : Bytes) (hedit : plan.Editable front)
    (hplan : plan (front ++ [last]) = none) :
    Ends (Edit.create (entryPath target (front ++ [last])) content) tree fun result after =>
      result = .ok () ∧ LaidOut before top
        (Function.update plan (front ++ [last]) (some (.file ⟨fileMode, content⟩))) after := by
  have hspot := h.spot_join hvacant hcheck hpass hnames
  have hnode := h.node?_none hplan
  rw [← List.append_assoc] at hnode
  rw [entryPath, hspot.ends_create_absent (directory_entryPath hnames.isOrdinary) hnode
    (h.mayEdit hedit), List.append_assoc]
  exact ⟨rfl, h.putFile (by simp) hplan⟩

/-- A file is made, in place of the file that was there. -/
theorem ends_replacing_create (content : Bytes) (hedit : plan.Editable front)
    (hplan : plan (front ++ [last]) = none ∨
      ∃ body, plan (front ++ [last]) = some (.file body)) :
    Ends (replacing (entryPath target (front ++ [last]))
        (Edit.create (entryPath target (front ++ [last])) content) true) tree
      fun result after => result = .ok () ∧ LaidOut before top
        (Function.update plan (front ++ [last]) (some (.file ⟨fileMode, content⟩))) after := by
  simp only [replacing, ends_bind, ends_outcomeOf]
  rcases hplan with hnone | ⟨body, hfile⟩
  · refine (ends_create_planned hvacant hnames hcheck h hpass content hedit hnone).mono ?_
    rintro _ after ⟨rfl, hafter⟩
    exact ⟨rfl, hafter⟩
  · have hspot := h.spot_join hvacant hcheck hpass hnames
    obtain ⟨i, hnode, -⟩ := h.exists_node?_file hfile
    rw [← List.append_assoc] at hnode
    have hdirectory : (Path.route (entryPath target (front ++ [last]))).directory = false :=
      directory_entryPath hnames.isOrdinary
    have hdropped := h.drop (by simp) hfile
    have hcreate := ends_create_planned hvacant hnames hcheck hdropped
      (passable_update hpass none) content (editable_update hedit none)
      (Function.update_self ..)
    rw [Function.update_idem] at hcreate
    rw [entryPath, hspot.ends_create_file hdirectory hnode]
    dsimp only
    rw [if_pos rfl, ends_bind, ends_outcomeOf,
      hspot.ends_removeFile hdirectory hnode (h.mayEdit hedit), List.append_assoc]
    exact hcreate

theorem ends_place_directory (hkind : entry.kind = .directory)
    (hplan : plan (front ++ [last]) = none ∧ plan.Editable front ∧ mode = directoryMode ∨
      plan (front ++ [last]) = some (.directory mode)) :
    Ends (place entry (entryPath target (front ++ [last]))) tree fun result after =>
      result = .ok () ∧ LaidOut before top
        (Function.update plan (front ++ [last])
          (some (.directory (permissions entry.mode mode)))) after := by
  simp only [place, hkind, ends_bind]
  refine (ends_placeDirectory_planned hvacant hnames hcheck h hpass hplan).mono ?_
  rintro _ mid ⟨rfl, hmid⟩
  have hmode : Ends (placeMode _ entry) mid _ :=
    ends_placeMode_directory hvacant hnames hcheck hmid (passable_update hpass _)
      (Function.update_self ..)
  rwa [Function.update_idem] at hmode

theorem ends_place_file (hkind : entry.kind = .file) (hcomplete : entry.complete = true)
    (hedit : plan.Editable front)
    (hplan : plan (front ++ [last]) = none ∨
      ∃ body, plan (front ++ [last]) = some (.file body)) :
    Ends (place entry (entryPath target (front ++ [last]))) tree fun result after =>
      result = .ok () ∧ LaidOut before top
        (Function.update plan (front ++ [last])
          (some (.file ⟨permissions entry.mode fileMode, entry.content⟩))) after := by
  simp only [place, hkind, ends_bind]
  refine (ends_replacing_create hvacant hnames hcheck h hpass _ hedit hplan).mono ?_
  rintro _ mid ⟨rfl, hmid⟩
  have hmode : Ends (placeMode _ entry) mid _ :=
    ends_placeMode_file hvacant hnames hcheck hmid (passable_update hpass _)
      (Function.update_self ..)
  rw [Function.update_idem] at hmode
  simpa only [hcomplete, if_true, ends_bind, ends_pure] using hmode

end Place

/-! ## An entry and the directories above it -/

theorem names_sublist (entry : Entry) :
    (entry.names.map Path.Component.name).Sublist entry.path.components := by
  refine .trans ?_ (List.drop_sublist 1 _)
  rw [Entry.names]
  induction entry.path.components.drop 1 with
  | nil => exact .slnil
  | cons c cs ih =>
      cases c with
      | name n => exact ih.cons_cons _
      | root | here | up => exact ih.cons _

theorem isOrdinary_of_mem_names (hescapes : entry.escapes = false) :
    ∀ n ∈ entry.names, Path.IsOrdinary n := by
  have hnames := namesBelowTop?_eq entry
  rw [hescapes] at hnames
  exact isOrdinary_of_mem_namesBelowTop? hnames

theorem checkPath_entryPath (htarget : checkPath target = .ok ()) (hescapes : entry.escapes = false)
    (hnul : 0 ∉ entry.path) (hne : entry.names ≠ []) (hfits : entry.Fits target) :
    checkPath (entryPath target entry.names) = .ok () := by
  have hordinary := isOrdinary_of_mem_names hescapes
  refine checkPath_eq_ok_iff.mpr ⟨?_, ?_, hfits.path⟩
  · rw [entryPath, zero_mem_join (checkPath_eq_ok_iff.mp htarget).1 hordinary,
      ← mem_intercalate (by decide), Path.intercalate_names]
    exact fun hmem => hnul ((Path.ofComponents_sublist (names_sublist entry)).subset hmem)
  · rw [Ne, ← Path.components_eq_nil, entryPath, Path.components_join hne hordinary]
    simp [hne]

/-- The directories above an entry have paths that can be used if the entry has. -/
theorem checkPath_directoryPath {names pre : List Name} (htarget : target ≠ [])
    (hordinary : ∀ n ∈ names, Path.IsOrdinary n) (hne : names ≠ [])
    (hcheck : checkPath (entryPath target names) = .ok ()) (hpre : pre <+: names) :
    checkPath (directoryPath target pre) = .ok () := by
  refine checkPath_ofComponents hcheck ?_ ?_ ?_
  · rw [entryPath, Path.components_join hne hordinary]
    exact (List.Sublist.refl _).append (hpre.sublist.map _)
  · exact (Path.inOrder_components target).append
      (Path.isInner_of_mem_names fun n hn => hordinary n (hpre.subset hn))
  · simp [Path.components_eq_nil, htarget]

theorem parent?_entryPath (hordinary : ∀ n ∈ front ++ [last], Path.IsOrdinary n) :
    (Path.parent? (entryPath target (front ++ [last]))).getD [] = directoryPath target front := by
  rw [entryPath, Path.parent?_join hordinary, Option.getD_some, directoryPath]

/-- The directory of an entry is made with what is missing above it. -/
theorem makeDirectories_parent (hordinary : ∀ n ∈ front ++ [last], Path.IsOrdinary n) :
    Edit.makeDirectories ((Path.parent? (entryPath target (front ++ [last]))).getD []) =
      Edit.makeAlong (directoryPath target front ::
        Path.above (target.components ++ front.map Path.Component.name)) := by
  have horder : Path.InOrder (target.components ++ front.map Path.Component.name) :=
    (Path.inOrder_components target).append
      (Path.isInner_of_mem_names fun n hn => hordinary n (List.mem_append_left _ hn))
  rw [parent?_entryPath hordinary, Edit.makeDirectories, directoryPath, Path.components_ofComponents horder]

/-- An entry that is put somewhere is put in its directory, once that is there. -/
theorem unpackEntry_eq (target : Path) (hescapes : entry.escapes = false)
    (hnames : entry.names = front ++ [last]) :
    unpackEntry target entry = (do
      (Edit.makeDirectories ((Path.parent? (entryPath target (front ++ [last]))).getD [])).adapt
        UnpackFault.fault
      (place entry (entryPath target (front ++ [last]))).adapt fun _ => UnpackFault.damaged) := by
  obtain ⟨n, rest, hcons⟩ := List.exists_cons_of_ne_nil (show front ++ [last] ≠ [] by simp)
  rw [unpackEntry, namesBelowTop?_eq, hescapes, if_neg Bool.false_ne_true, hnames, hcons]
  rfl

/-- The directories above an entry are made as the layout says. -/
theorem ends_makeParents (hvacant : Vacant before target top) (hclear : plan.Clear front)
    (hnames : Usable (front ++ [last]))
    (hcheck : checkPath (entryPath target (front ++ [last])) = .ok ())
    (h : LaidOut before top plan tree) :
    Ends (Edit.makeDirectories
        ((Path.parent? (entryPath target (front ++ [last]))).getD [])) tree
      fun result after => result = .ok () ∧ LaidOut before top (plan.grown front) after := by
  have hfront : front <+: front ++ [last] := List.prefix_append _ _
  rw [makeDirectories_parent hnames.isOrdinary]
  refine h.ends_makeAlong hvacant hclear (hnames.of_prefix hfront) fun pre hpre => ?_
  exact checkPath_directoryPath (checkPath_eq_ok_iff.mp hvacant.check).2.1 hnames.isOrdinary
    (by simp) hcheck (hpre.trans hfront)

/-- Once the directories above it are made, an entry stands at its names. -/
theorem ends_place_planned (hvacant : Vacant before target top)
    (hsearch : searchable mode = true) (hwrite : writable mode = true)
    (hplain : entry.IsPlain) (hapart : Apart (done ++ [entry])) (hput : MayPut done entry)
    (hnames : entry.names = front ++ [last]) (husable : Usable (front ++ [last]))
    (hcheck : checkPath (entryPath target (front ++ [last])) = .ok ())
    (h : LaidOut before top ((targetPlan mode done).grown front) tree) :
    Ends (place entry (entryPath target (front ++ [last]))) tree fun result after =>
      result = .ok () ∧ LaidOut before top
        (Function.update ((targetPlan mode done).grown front) (front ++ [last])
          (some (standingOf done entry))) after := by
  have hpass := (hput.clear hapart hsearch hwrite hnames).passable_grown
  rcases hplain with hkind | ⟨hkind, hcomplete⟩
  · have hplan := hput.planned_directory hapart hsearch hwrite hkind hnames
    rw [standingOf, hkind, permissions_or]
    exact ends_place_directory hvacant husable hcheck h hpass hkind hplan
  · have hplan := hapart.planned_file mode hkind hnames
    have hedit := hput.editable hapart hsearch hwrite hnames (.inr hkind)
    rw [standingOf, hkind]
    exact ends_place_file hvacant husable hcheck h hpass hkind hcomplete hedit hplan

/-- Where nothing is in its way, an entry is put as the layout says. -/
theorem ends_unpackEntry (hvacant : Vacant before target top)
    (hsearch : searchable mode = true) (hwrite : writable mode = true)
    (hplain : entry.IsPlain) (hescapes : entry.escapes = false) (hnul : 0 ∉ entry.path)
    (hfits : entry.names ≠ [] → entry.Fits target) (hapart : Apart (done ++ [entry]))
    (hput : MayPut done entry) (h : LaidOut before top (targetPlan mode done) tree) :
    Ends (unpackEntry target entry) tree fun result after =>
      result = .ok () ∧ LaidOut before top (targetPlan mode (done ++ [entry])) after := by
  have hordinary := isOrdinary_of_mem_names hescapes
  rcases List.eq_nil_or_concat entry.names with hnil | ⟨front, last, hconcat⟩
  · rw [unpackEntry, namesBelowTop?_eq, hescapes, if_neg Bool.false_ne_true, hnil, ends_pure,
      targetPlan_concat_of_names_eq_nil hnil]
    exact ⟨rfl, h⟩
  · rw [List.concat_eq_append] at hconcat
    have hne : entry.names ≠ [] := by simp [hconcat]
    have hcheck := checkPath_entryPath hvacant.check hescapes hnul hne (hfits hne)
    have hnames : Usable entry.names := fun n hn => ⟨hordinary n hn, (hfits hne).names n hn⟩
    have hkind : entry.kind = .directory ∨ entry.kind = .file := hplain.imp_right And.left
    have hclear := hput.clear hapart hsearch hwrite hconcat
    rw [targetPlan_concat hapart hkind hconcat, unpackEntry_eq target hescapes hconcat, ends_bind,
      ends_adapt]
    rw [hconcat] at hcheck hnames ⊢
    refine (ends_makeParents hvacant hclear hnames hcheck h).mono ?_
    rintro _ mid ⟨rfl, hmid⟩
    show Ends ((place entry _).adapt _) mid _
    rw [ends_adapt]
    refine (ends_place_planned hvacant hsearch hwrite hplain hapart hput hconcat hnames hcheck
      hmid).mono ?_
    rintro _ after ⟨rfl, hafter⟩
    exact ⟨rfl, hafter⟩

end StackControl.Archive
