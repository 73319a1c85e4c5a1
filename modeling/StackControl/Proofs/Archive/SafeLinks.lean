import StackControl.Proofs.Archive.Confinement
import StackControl.Proofs.Archive.Stages

/-!
# Archives whose links are safe

Two properties of an archive alone see to it that no entry leads out of the target.  Either no entry
is put below the name of a link before it, or every link is symbolic and its target neither absolute
nor a way up.  The first keeps every entry at its own names; under the second every way that starts
in the target stays in it.
-/

namespace StackControl.Archive

open FileTree

/-- A link target that is relative and goes up nowhere. -/
def GoesDown (target : Path) : Prop :=
  (Path.route target).absolute = false ∧ Path.dotDot ∉ (Path.route target).steps

/-- Every link is symbolic, and its target goes up nowhere. -/
def LinksGoDown (entries : List Entry) : Prop :=
  ∀ entry ∈ entries, ∀ target, entry.MakesLink target → GoesDown target

/-- An entry is not put below the name of another that makes a link. -/
def Beside (entry later : Entry) : Prop :=
  ∀ names names', namesBelowTop? entry.path = some names →
    namesBelowTop? later.path = some names' → names ≠ [] → (∃ target, entry.MakesLink target) →
      names <+: names' → names = names'

/-- No entry is put below the name of a link before it. -/
def LinksAreLeaves (entries : List Entry) : Prop :=
  entries.Pairwise Beside

section Ways

variable {tree : FileTree} {top loc dest : Location} {steps : List Name}

/-- Links that go down keep every way down in the top. -/
theorem prefix_of_leads (hlinks : LinksAmong (fun _ target => GoesDown target) top tree)
    (hloc : top <+: loc) (hsteps : Path.dotDot ∉ steps) (h : tree.Leads loc steps dest) :
    top <+: dest := by
  induction h with
  | stay => exact hloc
  | here _ ih => exact ih hloc fun hmem => hsteps (List.mem_cons_of_mem _ hmem)
  | up => exact absurd List.mem_cons_self hsteps
  | enter _ _ _ ih =>
      exact ih (hloc.trans (List.prefix_append _ _))
        fun hmem => hsteps (List.mem_cons_of_mem _ hmem)
  | @follow loc target _ _ _ _ hnode _ ih =>
      obtain ⟨habsolute, htarget⟩ := hlinks _ _ (inside_append hloc) hnode
      apply ih (by simpa [linkStart, habsolute] using hloc)
      intro hmem
      rcases List.mem_append.mp hmem with hmem | hmem
      · exact htarget hmem
      · exact hsteps (List.mem_cons_of_mem _ hmem)

/-- The links that entries make, when each entry is put at its own names below the top. -/
def linksOf (top : Location) (entries : List Entry) (loc : Location) (target : Path) : Prop :=
  ∃ entry ∈ entries, ∃ names, namesBelowTop? entry.path = some names ∧
    entry.MakesLink target ∧ loc = top ++ names

/-- A way that passes no link ends at its own names. -/
theorem eq_append_of_leads {entries : List Entry} {done : List Name}
    (hlinks : LinksAmong (linksOf top entries) top tree)
    (hnames : ∀ n ∈ steps, IsName n)
    (hpass : ∀ entry ∈ entries, ∀ passed target, namesBelowTop? entry.path = some passed →
      entry.MakesLink target → passed ≠ [] → ¬passed <+: done ++ steps)
    (h : tree.Leads (top ++ done) steps dest) :
    dest = top ++ (done ++ steps) := by
  generalize hstart : top ++ done = start at h
  induction h generalizing done with
  | stay => rw [← hstart, List.append_nil]
  | here => exact absurd rfl (hnames _ List.mem_cons_self).1
  | up => exact absurd rfl (hnames _ List.mem_cons_self).2
  | @enter loc mode step rest dest _ _ _ ih =>
      have hdone : done ++ [step] ++ rest = done ++ step :: rest := by simp
      rw [← hdone] at hpass ⊢
      exact ih (fun n hn => hnames n (List.mem_cons_of_mem _ hn)) hpass
        (by rw [← hstart, List.append_assoc])
  | @follow loc target step rest dest _ hnode _ _ =>
      subst hstart
      have hin : Inside top (top ++ done ++ [step]) := inside_append (List.prefix_append _ _)
      obtain ⟨entry, hentry, passed, hpassed, hmakes, hloc⟩ := hlinks _ _ hin hnode
      rw [List.append_assoc, List.append_cancel_left_eq] at hloc
      subst hloc
      refine absurd ?_ (hpass entry hentry _ target hpassed hmakes (by simp))
      exact ⟨rest, by simp⟩

end Ways

section Guarded

variable {before tree : FileTree} {target : Path} {top : Location} {entries : List Entry}
  (hbefore : before.LeadsTo target top) (hlinks : NoLinkBelow before top)

include hbefore hlinks

theorem guarded_of_linksGoDown (h : Held before top (fun _ target => GoesDown target) tree)
    (hentries : LinksGoDown entries) :
    Guarded target top entries tree := by
  induction entries generalizing tree with
  | nil => trivial
  | cons entry rest ih =>
      have hstays : ∀ names, namesBelowTop? entry.path = some names →
          StaysBelow (readied target names tree) top names := by
        intro names hnames front hpre hne dest hleads
        have hordinary := isOrdinary_of_mem_namesBelowTop? hnames
        have hnonempty : names ≠ [] := by
          rintro rfl
          exact hne (List.prefix_nil.mp hpre)
        refine prefix_of_leads (linksAmong_readied hordinary h.links hnonempty) List.prefix_rfl ?_
          hleads
        exact fun hmem => (hordinary _ (hpre.subset hmem)).isName.2 rfl
      refine ⟨hstays, fun _ => ih ?_ fun e he => hentries e (List.mem_cons_of_mem _ he)⟩
      exact held_unpackEntry hbefore hlinks h hstays
        (fun _ _ _ _ source _ _ _ hmakes => hentries entry List.mem_cons_self source hmakes)
        fun _ _ => id

theorem guarded_of_linksAreLeaves {done : List Entry}
    (h : Held before top (linksOf top done) tree)
    (hdone : ∀ entry ∈ done, ∀ later ∈ entries, Beside entry later)
    (hentries : LinksAreLeaves entries) :
    Guarded target top entries tree := by
  induction entries generalizing tree done with
  | nil => trivial
  | cons entry rest ih =>
      obtain ⟨hentry, hrest⟩ := List.pairwise_cons.mp hentries
      have hpass {names front : List Name} (hnames : namesBelowTop? entry.path = some names)
          (hpre : front <+: names) (hne : front ≠ names) {dest : Location} {mid : FileTree}
          (hmid : LinksAmong (linksOf top done) top mid) (hleads : mid.Leads top front dest) :
          dest = top ++ front := by
        have hordinary := isOrdinary_of_mem_namesBelowTop? hnames
        rw [← List.append_nil top] at hleads
        refine eq_append_of_leads hmid (fun n hn => (hordinary n (hpre.subset hn)).isName) ?_ hleads
        intro e he passed source hpassed hmakes hnonempty hfront
        rw [List.nil_append] at hfront
        have hsame := hdone e he entry List.mem_cons_self passed names hpassed hnames hnonempty
          ⟨source, hmakes⟩ (hfront.trans hpre)
        subst hsame
        exact hne (hpre.eq_of_length (Nat.le_antisymm hpre.length_le hfront.length_le))
      have hstays : ∀ names, namesBelowTop? entry.path = some names →
          StaysBelow (readied target names tree) top names := by
        intro names hnames front hpre hne dest hleads
        have hordinary := isOrdinary_of_mem_namesBelowTop? hnames
        have hnonempty : names ≠ [] := by
          rintro rfl
          exact hne (List.prefix_nil.mp hpre)
        rw [hpass hnames hpre hne (linksAmong_readied hordinary h.links hnonempty) hleads]
        exact List.prefix_append _ _
      refine ⟨hstays, fun _ => @ih _ (done ++ [entry]) ?_ ?_ hrest⟩
      · refine held_unpackEntry hbefore hlinks h hstays ?_ ?_
        · intro front last mid dest source hnames hmid hleads hmakes
          refine ⟨entry, by simp, front ++ [last], hnames, hmakes, ?_⟩
          rw [hpass hnames (List.prefix_append _ _) (by simp) hmid hleads, List.append_assoc]
        · rintro loc source ⟨e, he, rest'⟩
          exact ⟨e, List.mem_append_left _ he, rest'⟩
      · intro e he later hlater
        rcases List.mem_append.mp he with he | he
        · exact hdone e he later (List.mem_cons_of_mem _ hlater)
        · cases List.mem_singleton.mp he
          exact hentry later hlater

end Guarded

/-! ## Whole archives -/

/-- No entry leads out of the target: that can be seen from the archive, or it turns out so when
each entry is put there. -/
def SafeFor (contents : Contents) (target : Path) (tree : FileTree) (top : Location) : Prop :=
  LinksAreLeaves contents.entries ∨ LinksGoDown contents.entries ∨
    Guarded target top contents.entries (prepared target tree)

/-- Unpacking an archive makes the target and missing directories above it, and then changes only
what lies below the target, whether it succeeds or fails. -/
theorem unpack_confined (contents : Contents) (target : Path) (tree : FileTree)
    (hlinks : ∀ top, (prepared target tree).LeadsTo target top → NoLinkBelow tree top)
    (hsafe : ∀ top, (prepared target tree).LeadsTo target top →
      SafeFor contents target tree top) :
    DirectoriesAdded (target :: Path.above target.components) tree (prepared target tree) ∧
      (unpacked contents target tree = prepared target tree ∨
        ∃ top, (prepared target tree).LeadsTo target top ∧
          Confined (prepared target tree) top (unpacked contents target tree)) := by
  have hadded : DirectoriesAdded (target :: Path.above target.components) tree
      (prepared target tree) := directoriesAdded_makeDirectories tree target
  refine ⟨hadded, ?_⟩
  cases hmade : ((Edit.makeDirectories target).run tree).1 with
  | error fault =>
      refine .inl ?_
      rw [unpacked_eq, hmade]
  | ok _ =>
      obtain ⟨top, htarget⟩ := exists_leadsTo_of_makeDirectories hmade
      have hnone : NoLinkBelow (prepared target tree) top := fun loc source hloc hnode =>
        hlinks top htarget loc source hloc (hadded.node?_eq_link hnode)
      have hstart (links : Location → Path → Prop) :
          Held (prepared target tree) top links (prepared target tree) :=
        ⟨.refl _ _, fun loc source hloc hnode => absurd hnode (hnone loc source hloc)⟩
      have hguarded : Guarded target top contents.entries (prepared target tree) := by
        rcases hsafe top htarget with hleaves | hdown | hguarded
        · exact guarded_of_linksAreLeaves htarget hnone (hstart (linksOf top []))
            (fun _ h => by cases h) hleaves
        · exact guarded_of_linksGoDown htarget hnone (hstart _) hdown
        · exact hguarded
      have hheld := held_unpackEntries htarget hnone (hstart anyLink) hguarded
      refine .inr ⟨top, htarget, ?_⟩
      rw [unpacked_eq, hmade]
      exact hheld.confined

section Examples

/-- The entry of a link to a directory beside the target. -/
def linkOut : Entry :=
  ⟨Utf8.encode "x/l", .symbolicLink, some (Utf8.encode "../outside"), some 0o777, [], true⟩

/-- The entry of a file. -/
def fileAt (path : String) : Entry :=
  ⟨Utf8.encode path, .file, none, some 0o644, [], true⟩

/-- A tree with one directory in it. -/
def treeWith (name : String) : FileTree :=
  ⟨[([Utf8.encode name], .directory 0o755)], [], []⟩

theorem noLinkBelow_treeWith (name : String) (top : Location) :
    NoLinkBelow (treeWith name) top := by
  intro loc target hloc hnode
  rw [node?_eq_lookup hloc.ne_nil] at hnode
  simp only [treeWith, List.lookup_cons, List.lookup_nil] at hnode
  split at hnode <;> cases hnode

theorem beside_linkOut : Beside linkOut (fileAt "x/f") := by
  intro names names' h h' _ _ hpre
  have hnames : namesBelowTop? linkOut.path = some [Utf8.encode "l"] := by decide +kernel
  have hnames' : namesBelowTop? (fileAt "x/f").path = some [Utf8.encode "f"] := by decide +kernel
  cases h.symm.trans hnames
  cases h'.symm.trans hnames'
  exact absurd hpre (by decide +kernel)

/-- A link out of the target does no harm to a file beside it. -/
theorem unpack_confined_beside_link :
    DirectoriesAdded
        (Utf8.encode "contracts" :: Path.above (Path.components (Utf8.encode "contracts")))
        (treeWith "outside") (prepared (Utf8.encode "contracts") (treeWith "outside")) ∧
      (unpacked ⟨[linkOut, fileAt "x/f"], false⟩ (Utf8.encode "contracts")
            (treeWith "outside") = prepared (Utf8.encode "contracts") (treeWith "outside") ∨
          ∃ top, (prepared (Utf8.encode "contracts") (treeWith "outside")).LeadsTo
              (Utf8.encode "contracts") top ∧
            Confined (prepared (Utf8.encode "contracts") (treeWith "outside")) top
              (unpacked ⟨[linkOut, fileAt "x/f"], false⟩ (Utf8.encode "contracts")
                (treeWith "outside"))) :=
  unpack_confined ⟨[linkOut, fileAt "x/f"], false⟩ (Utf8.encode "contracts") (treeWith "outside")
    (fun top _ => noLinkBelow_treeWith "outside" top)
    fun _ _ => .inl (by simpa [LinksAreLeaves] using beside_linkOut)

/-- A file whose path passes a link that was unpacked before it is written outside the target. -/
theorem unpack_not_confined_through_link :
    (∀ top, (prepared (Utf8.encode "contracts") (treeWith "outside")).LeadsTo
        (Utf8.encode "contracts") top → NoLinkBelow (treeWith "outside") top) ∧
      ¬(unpacked ⟨[linkOut, fileAt "x/l/f"], false⟩ (Utf8.encode "contracts")
            (treeWith "outside") = prepared (Utf8.encode "contracts") (treeWith "outside") ∨
          ∃ top, (prepared (Utf8.encode "contracts") (treeWith "outside")).LeadsTo
              (Utf8.encode "contracts") top ∧
            Confined (prepared (Utf8.encode "contracts") (treeWith "outside")) top
              (unpacked ⟨[linkOut, fileAt "x/l/f"], false⟩ (Utf8.encode "contracts")
                (treeWith "outside"))) := by
  refine ⟨fun top _ => noLinkBelow_treeWith "outside" top, ?_⟩
  have hwritten : (unpacked ⟨[linkOut, fileAt "x/l/f"], false⟩ (Utf8.encode "contracts")
      (treeWith "outside")).node? [Utf8.encode "outside", Utf8.encode "f"] = some (.file 0) := by
    decide +kernel
  have habsent : (prepared (Utf8.encode "contracts") (treeWith "outside")).node?
      [Utf8.encode "outside", Utf8.encode "f"] = none := by
    decide +kernel
  rintro (heq | ⟨top, htarget, hconfined⟩)
  · rw [heq, habsent] at hwritten
    cases hwritten
  · have hnode : (prepared (Utf8.encode "contracts") (treeWith "outside")).node?
        [Utf8.encode "contracts"] = some (.directory directoryMode) := by
      decide +kernel
    have htop : top = [Utf8.encode "contracts"] := by
      refine htarget.unique ?_
      have hname : IsName (Utf8.encode "contracts") := ⟨by decide +kernel, by decide +kernel⟩
      exact @Leads.enter _ [] _ _ _ _ hname hnode .stay
    have hout : ¬Inside top [Utf8.encode "outside", Utf8.encode "f"] := by
      rw [htop]
      rintro ⟨hpre, -⟩
      exact absurd hpre (by decide +kernel)
    rw [hconfined.outside hout, habsent] at hwritten
    cases hwritten

end Examples

end StackControl.Archive
