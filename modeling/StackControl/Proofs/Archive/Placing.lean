import StackControl.Archive.Unpack
import StackControl.Proofs.FileTree.Confined

/-!
# Putting an entry in its place

An entry of an archive is put in the directory that the names on its path lead to from the top.  If
no part of that way leads out, all that happens is confined to the top, whatever the entry is and
whether or not it can be put there.

What the entry's links may be is a parameter: a set of links that the tree below the top is known
to have, and one that it may have afterwards.
-/

namespace StackControl.Archive

open FileTree

theorem isOrdinary_of_mem_namesBelowTop? {path : Path} {names : List Name}
    (h : namesBelowTop? path = some names) :
    ∀ n ∈ names, Path.IsOrdinary n := by
  have hinner : ∀ c ∈ path.components.drop 1, c.IsInner := by
    have horder := Path.inOrder_components path
    cases hcs : path.components with
    | nil => simp
    | cons c cs =>
        rw [hcs] at horder
        exact horder.2
  simp only [namesBelowTop?] at h
  generalize path.components.drop 1 = cs at h hinner
  induction cs generalizing names with
  | nil =>
      cases h
      simp
  | cons c cs ih =>
      rw [List.foldr_cons] at h
      have htail {ns : List Name} (hns : cs.foldr _ (some []) = some ns) :
          ∀ m ∈ ns, Path.IsOrdinary m :=
        ih hns fun d hd => hinner d (List.mem_cons_of_mem _ hd)
      split at h
      next n ns hns =>
        cases h
        intro m hm
        rcases List.mem_cons.mp hm with rfl | hm
        · exact hinner _ List.mem_cons_self
        · exact htail hns m hm
      next ns hns =>
        cases h
        exact htail hns
      next => cases h

/-- The path at which an entry is put. -/
def entryPath (target : Path) (names : List Name) : Path :=
  Path.join target ([Path.separator].intercalate names)

/-- The tree in which the directory of an entry has been made, or part of it. -/
def readied (target : Path) (names : List Name) (tree : FileTree) : FileTree :=
  ((Edit.makeDirectories ((Path.parent? (entryPath target names)).getD [])).run tree).2

/-- No part of the way to what the names name leads out of the top. -/
def StaysBelow (tree : FileTree) (top : Location) (names : List Name) : Prop :=
  ∀ front, front <+: names → front ≠ names → ∀ dest, tree.Leads top front dest → top <+: dest

/-- The links below a location are some of the given ones. -/
def LinksAmong (links : Location → Path → Prop) (top : Location) (tree : FileTree) : Prop :=
  ∀ loc target, Inside top loc → tree.node? loc = some (.link target) → links loc target

/-- A tree that differs from another only below a location, with some of the given links there. -/
structure Held (before : FileTree) (top : Location) (links : Location → Path → Prop)
    (tree : FileTree) : Prop where
  confined : Confined before top tree
  links : LinksAmong links top tree

section Held

variable {before tree : FileTree} {top loc : Location} {links links' : Location → Path → Prop}

theorem Held.mono (h : Held before top links tree)
    (hlinks : ∀ loc target, links loc target → links' loc target) :
    Held before top links' tree :=
  ⟨h.confined, fun loc target hloc hnode => hlinks loc target (h.links loc target hloc hnode)⟩

theorem LinksAmong.put {node : Node} (h : LinksAmong links top tree) (hloc : loc ≠ [])
    (hlink : ∀ target, node = .link target → links loc target) :
    LinksAmong links top (tree.put loc node) := by
  intro other target hother hnode
  rw [node?_put hloc] at hnode
  split at hnode
  next heq =>
    cases hnode
    exact heq ▸ hlink target rfl
  next => exact h other target hother hnode

theorem Held.put {node : Node} (h : Held before top links tree) (hloc : Inside top loc)
    (hdirectory : ∀ mode, tree.node? loc = some (.directory mode) →
      ∃ mode', node = .directory mode')
    (hlink : ∀ target, node = .link target → links loc target) :
    Held before top links (tree.put loc node) where
  confined := h.confined.trans (.put hloc hdirectory)
  links := h.links.put hloc.ne_nil hlink

theorem Held.putFile {body : FileBody} (h : Held before top links tree) (hloc : Inside top loc)
    (habsent : tree.node? loc = none) :
    Held before top links (tree.putFile loc body) where
  confined := h.confined.trans (.putFile hloc habsent)
  links other target hother hnode := by
    rw [node?_putFile hloc.ne_nil] at hnode
    split at hnode
    next => cases hnode
    next => exact h.links other target hother hnode

theorem Held.drop {node : Node} (h : Held before top links tree) (hloc : Inside top loc)
    (hnode : tree.node? loc = some node) (hdirectory : ∀ mode, node ≠ .directory mode) :
    Held before top links (tree.drop loc) where
  confined := h.confined.trans (.drop hloc hnode hdirectory)
  links other target hother hother' := by
    rw [node?_drop hloc.ne_nil] at hother'
    split at hother'
    next => cases hother'
    next => exact h.links other target hother hother'

theorem Held.setBody {i : Nat} {body : FileBody} (h : Held before top links tree)
    (hi : before.bodies.length ≤ i) :
    Held before top links (tree.setBody i body) where
  confined := h.confined.setBody hi
  links other target hother hnode := h.links other target hother (by simpa using hnode)

end Held

/-- A failed change leaves what the first condition says, a successful one what the second says. -/
def Leaves (onError onOk : FileTree → Prop) : Except Fault Unit → FileTree → Prop
  | .error _, after => onError after
  | .ok _, after => onOk after

/-- Doing something at a path once more after a file was taken away leaves what doing it leaves. -/
theorem ends_replacing {tree : FileTree} {path : Path} {act : Edit Unit} {missingIsFine : Bool}
    {onError onOk : FileTree → Prop}
    (hact : ∀ tree, onError tree → Ends act tree (Leaves onError onOk))
    (hremove : ∀ tree, onError tree → Ends (Edit.removeFile path) tree fun _ => onError)
    (h : onError tree) :
    Ends (replacing path act missingIsFine) tree (Leaves onError onOk) := by
  simp only [replacing, ends_bind, ends_outcomeOf]
  apply (hact tree h).mono
  intro result after hafter
  cases result with
  | ok => exact hafter
  | error fault =>
      dsimp only
      split
      next =>
        rw [ends_bind, ends_outcomeOf]
        apply (hremove after hafter).mono
        intro result mid hmid
        cases result with
        | ok => exact hact mid hmid
        | error removal =>
            dsimp only
            split
            next => exact hact mid hmid
            next =>
              rw [ends_bind]
              exact hmid
      next =>
        rw [ends_bind]
        exact hafter

section Place

variable {before tree : FileTree} {target source : Path} {top dest : Location} {front : List Name}
  {last : Name} {links links' : Location → Path → Prop} {follow : Bool} {found : Place}

/-- A passage to an entry goes through the directory that the way leads to. -/
theorem exists_leads_of_passage (hnames : ∀ n ∈ front ++ [last], Path.IsOrdinary n)
    (htarget : tree.LeadsTo target top)
    (h : Passage tree follow (tree.start (entryPath target (front ++ [last])))
      (Path.route (entryPath target (front ++ [last]))).steps false found) :
    ∃ dest, tree.Leads top front dest ∧ Passage tree follow dest [last] false found := by
  have hne : front ++ [last] ≠ [] := by simp
  rw [entryPath, start, Path.absolute_join hnames, Path.steps_join hne hnames,
    ← List.append_assoc] at h
  obtain ⟨dest, hleads, hlast⟩ := h.exists_leads
  obtain ⟨mid, hmid, hfront⟩ := hleads.exists_mid
  cases hmid.unique htarget
  exact ⟨dest, hfront, hlast⟩

/-- The directory of an entry is ready, and lies in the top or below it. -/
structure Ready (before : FileTree) (top : Location) (front : List Name)
    (links : Location → Path → Prop) (tree : FileTree) : Prop
    extends Held before top links tree where
  stays {dest : Location} : tree.Leads top front dest → top <+: dest

theorem Ready.drop {loc : Location} {node : Node} (h : Ready before top front links tree)
    (hloc : Inside top loc) (hnode : tree.node? loc = some node)
    (hdirectory : ∀ mode, node ≠ .directory mode) :
    Ready before top front links (tree.drop loc) where
  toHeld := h.toHeld.drop hloc hnode hdirectory
  stays {dest} hleads := by
    have hthere {other : Location} {node' : Node}
        (hother : (tree.drop loc).node? other = some node') : tree.node? other = some node' := by
      rw [node?_drop hloc.ne_nil] at hother
      split at hother
      · cases hother
      · exact hother
    have hleads' : tree.Leads top front dest :=
      hleads.mono (fun _ mode hother => ⟨mode, hthere hother⟩) fun _ _ => hthere
    exact h.stays hleads'

/-- What an entry was put as is a directory, or a file that is new. -/
def Settled (before : FileTree) (top : Location) (front : List Name) (last : Name)
    (tree : FileTree) : Prop :=
  ∃ dest, tree.Leads top front dest ∧ top <+: dest ∧
    ((∃ mode, tree.node? (dest ++ [last]) = some (.directory mode)) ∨
      ∃ i, before.bodies.length ≤ i ∧ tree.node? (dest ++ [last]) = some (.file i))

/-- A new file or directory settles an entry. -/
theorem settled_of_keeps {tree' : FileTree} (hkeeps : Keeps tree tree')
    (hleads : tree.Leads top front dest) (htop : top <+: dest)
    (hnode : (∃ mode, tree'.node? (dest ++ [last]) = some (.directory mode)) ∨
      ∃ i, before.bodies.length ≤ i ∧ tree'.node? (dest ++ [last]) = some (.file i)) :
    Settled before top front last tree' :=
  ⟨dest, hleads.mono (fun _ _ => hkeeps.directory) (fun _ _ => hkeeps.link), htop, hnode⟩

variable (hnames : ∀ n ∈ front ++ [last], Path.IsOrdinary n)
  (hbefore : before.LeadsTo target top) (hlinks : NoLinkBelow before top)

include hnames

theorem directory_entryPath :
    (Path.route (entryPath target (front ++ [last]))).directory = false :=
  Path.directory_join (by simp) hnames

/-- Without following a last link, an entry's path ends in the directory of the entry. -/
theorem exists_spot (htarget : tree.LeadsTo target top)
    (h : Passage tree false (tree.start (entryPath target (front ++ [last])))
      (Path.route (entryPath target (front ++ [last]))).steps false found) :
    ∃ dest, tree.Leads top front dest ∧
      (found = .absent (dest ++ [last]) ∧ tree.node? (dest ++ [last]) = none ∨
        ∃ node, found = .present (dest ++ [last]) node ∧
          tree.node? (dest ++ [last]) = some node) := by
  obtain ⟨dest, hleads, hlast⟩ := exists_leads_of_passage hnames htarget h
  refine ⟨dest, hleads, ?_⟩
  rcases hlast.last_cases (hnames last (by simp)).isName with
    ⟨hfound, hnode, -⟩ | hpresent | ⟨hfollow, -⟩
  · exact .inl ⟨hfound, hnode⟩
  · exact .inr hpresent
  · cases hfollow

theorem exists_absent_spot (htarget : tree.LeadsTo target top) {loc : Location}
    (h : Passage tree false (tree.start (entryPath target (front ++ [last])))
      (Path.route (entryPath target (front ++ [last]))).steps false (.absent loc)) :
    ∃ dest, tree.Leads top front dest ∧ loc = dest ++ [last] ∧ tree.node? loc = none := by
  obtain ⟨dest, hleads, ⟨hfound, hnode⟩ | ⟨node, hfound, -⟩⟩ := exists_spot hnames htarget h
  · cases hfound
    exact ⟨dest, hleads, rfl, hnode⟩
  · cases hfound

theorem exists_present_spot (htarget : tree.LeadsTo target top) {loc : Location} {node : Node}
    (h : Passage tree false (tree.start (entryPath target (front ++ [last])))
      (Path.route (entryPath target (front ++ [last]))).steps false (.present loc node)) :
    ∃ dest, tree.Leads top front dest ∧ loc = dest ++ [last] ∧ tree.node? loc = some node := by
  obtain ⟨dest, hleads, ⟨hfound, -⟩ | ⟨node', hfound, hnode⟩⟩ := exists_spot hnames htarget h
  · cases hfound
  · cases hfound
    exact ⟨dest, hleads, rfl, hnode⟩

include hbefore hlinks

theorem Ready.absent_spot (h : Ready before top front links tree) {loc : Location}
    (hloc : tree.locate false (entryPath target (front ++ [last])) = .ok (.absent loc)) :
    ∃ dest, tree.Leads top front dest ∧ loc = dest ++ [last] ∧ Inside top loc ∧
      tree.node? loc = none := by
  have hpassage := passage_of_locate hloc
  rw [directory_entryPath hnames] at hpassage
  obtain ⟨dest, hleads, rfl, hnode⟩ :=
    exists_absent_spot hnames (h.confined.leadsTo hlinks hbefore) hpassage
  exact ⟨dest, hleads, rfl, inside_append (h.stays hleads), hnode⟩

theorem Ready.present_spot (h : Ready before top front links tree) {loc : Location} {node : Node}
    (hloc : tree.locate false (entryPath target (front ++ [last])) = .ok (.present loc node)) :
    Inside top loc ∧ tree.node? loc = some node := by
  have hpassage := passage_of_locate hloc
  rw [directory_entryPath hnames] at hpassage
  obtain ⟨dest, hleads, rfl, hnode⟩ :=
    exists_present_spot hnames (h.confined.leadsTo hlinks hbefore) hpassage
  exact ⟨inside_append (h.stays hleads), hnode⟩

theorem ends_placeDirectory (h : Ready before top front links tree) :
    Ends (placeDirectory (entryPath target (front ++ [last]))) tree
      (Leaves (Held before top links)
        fun after => Held before top links after ∧ Settled before top front last after) := by
  have htarget := h.confined.leadsTo hlinks hbefore
  simp only [placeDirectory, ends_bind, ends_outcomeOf]
  apply ends_makeDirectory
  · intro e
    dsimp only
    rw [ends_bind, ends_outcomeOf, ends_look]
    dsimp only
    split
    next loc mode hstat =>
      have hpassage := passage_of_linkStat hstat
      rw [directory_entryPath hnames] at hpassage
      obtain ⟨dest, hleads, rfl, hnode⟩ := exists_present_spot hnames htarget hpassage
      split
      · exact ⟨h.toHeld, dest, hleads, h.stays hleads, .inl ⟨mode, hnode⟩⟩
      · exact h.toHeld
    next => exact h.toHeld
  · intro loc hloc
    obtain ⟨dest, hleads, rfl, hnode⟩ :=
      exists_absent_spot hnames htarget (passage_of_locateRoute hloc)
    have hin : Inside top (dest ++ [last]) := inside_append (h.stays hleads)
    refine ⟨h.toHeld.put hin (fun _ _ => ⟨_, rfl⟩) (fun _ heq => by cases heq), ?_⟩
    have hmade : (tree.put (dest ++ [last]) (.directory directoryMode)).node? (dest ++ [last]) =
        some (.directory directoryMode) := by
      rw [node?_put hin.ne_nil, if_pos rfl]
    exact settled_of_keeps (keeps_put hin.ne_nil hnode) hleads (h.stays hleads)
      (.inl ⟨directoryMode, hmade⟩)

theorem ends_create (h : Ready before top front links tree) {content : Bytes} :
    Ends (Edit.create (entryPath target (front ++ [last])) content) tree
      (Leaves (Ready before top front links)
        fun after => Held before top links after ∧ Settled before top front last after) := by
  apply FileTree.ends_create (fun e => h)
  intro loc _ hloc
  obtain ⟨dest, hleads, rfl, hin, hnode⟩ := h.absent_spot hnames hbefore hlinks hloc
  refine ⟨h.toHeld.putFile hin hnode, ?_⟩
  refine settled_of_keeps (keeps_putFile hin.ne_nil hnode) hleads (h.stays hleads)
    (.inr ⟨_, h.confined.bodies.length_le, ?_⟩)
  rw [node?_putFile hin.ne_nil, if_pos rfl]

theorem ends_link (h : Ready before top front links tree)
    (hnew : ∀ dest, tree.Leads top front dest → links' (dest ++ [last]) source)
    (hmono : ∀ loc target, links loc target → links' loc target) :
    Ends (Edit.link source (entryPath target (front ++ [last]))) tree
      (Leaves (Ready before top front links) (Held before top links')) := by
  apply FileTree.ends_link (fun e => h)
  intro loc hloc
  obtain ⟨dest, hleads, rfl, hin, hnode⟩ := h.absent_spot hnames hbefore hlinks hloc
  apply (h.toHeld.mono hmono).put hin
  · intro mode hmode
    simp [hnode] at hmode
  · intro source' heq
    cases heq
    exact hnew dest hleads

theorem ends_hardLink (h : Ready before top front links tree)
    (hnew : ∀ dest source', tree.Leads top front dest → links' (dest ++ [last]) source')
    (hmono : ∀ loc target, links loc target → links' loc target) :
    Ends (Edit.hardLink source (entryPath target (front ++ [last]))) tree
      (Leaves (Ready before top front links) (Held before top links')) := by
  apply FileTree.ends_hardLink (fun e => h)
  intro loc node hloc _
  obtain ⟨dest, hleads, rfl, hin, hnode⟩ := h.absent_spot hnames hbefore hlinks hloc
  apply (h.toHeld.mono hmono).put hin
  · intro mode hmode
    simp [hnode] at hmode
  · intro source' _
    exact hnew dest source' hleads

theorem ends_removeFile (h : Ready before top front links tree) :
    Ends (Edit.removeFile (entryPath target (front ++ [last]))) tree
      fun _ after => Ready before top front links after := by
  apply FileTree.ends_removeFile (fun e => h)
  intro loc node hloc hdirectory
  obtain ⟨hin, hnode⟩ := h.present_spot hnames hbefore hlinks hloc
  exact h.drop hin hnode hdirectory

/-- Setting the permissions of what an entry was put as is confined, too. -/
theorem ends_setMode {mode : Nat} (h : Held before top links tree)
    (hsettled : Settled before top front last tree) :
    Ends (Edit.setMode (entryPath target (front ++ [last])) mode) tree
      fun _ after => Held before top links after := by
  have htarget := h.confined.leadsTo hlinks hbefore
  have hname := (hnames last (by simp)).isName
  obtain ⟨dest, hleads, htop, hsettled⟩ := hsettled
  -- No link stands in the last place, so the path ends there although links are followed.
  have hspot {loc : Location} {node : Node}
      (hstat : tree.stat (entryPath target (front ++ [last])) = .ok (loc, node)) :
      loc = dest ++ [last] ∧ tree.node? (dest ++ [last]) = some node := by
    have hpassage := passage_of_stat hstat
    rw [directory_entryPath hnames] at hpassage
    obtain ⟨dest', hleads', hlast⟩ := exists_leads_of_passage hnames htarget hpassage
    cases hleads'.unique hleads
    rcases hlast.last_cases hname with ⟨hfound, -⟩ | ⟨node', hfound, hnode⟩ | ⟨-, source, hnode⟩
    · cases hfound
    · cases hfound
      exact ⟨rfl, hnode⟩
    · rcases hsettled with ⟨mode', hmode⟩ | ⟨i, -, hfile⟩
      · simp [hnode] at hmode
      · simp [hnode] at hfile
  apply FileTree.ends_setMode fun e => h
  · intro loc mode' hstat
    obtain ⟨rfl, -⟩ := hspot hstat
    exact h.put (inside_append htop) (fun _ _ => ⟨_, rfl⟩) fun _ heq => by cases heq
  · intro loc i body hstat _
    obtain ⟨-, hnode⟩ := hspot hstat
    rcases hsettled with ⟨mode', hmode⟩ | ⟨j, hj, hfile⟩
    · simp [hnode] at hmode
    · rw [hnode, Option.some.injEq, Node.file.injEq] at hfile
      exact h.setBody (hfile ▸ hj)

/-! ## An entry -/

/-- An entry makes a link to a target: a symbolic link to its own, a hard link to any, because what
it is a name of can be a symbolic link. -/
def Entry.MakesLink (entry : Entry) (target : Path) : Prop :=
  entry.kind = .hardLink ∨ entry.kind = .symbolicLink ∧ entry.target = some target

theorem ends_placeMode {entry : Entry} (h : Held before top links tree)
    (hsettled : Settled before top front last tree) :
    Ends (placeMode (entryPath target (front ++ [last])) entry) tree
      fun _ after => Held before top links after := by
  simp only [placeMode]
  split
  · exact ends_setMode hnames hbefore hlinks h hsettled
  · exact h

/-- Putting an entry in a directory that is ready is confined, and adds only links of the entry. -/
theorem ends_place {entry : Entry} (h : Ready before top front links tree)
    (hnew : ∀ mid dest source, Ready before top front links mid → mid.Leads top front dest →
      entry.MakesLink source → links' (dest ++ [last]) source)
    (hmono : ∀ loc source, links loc source → links' loc source) :
    Ends (place entry (entryPath target (front ++ [last]))) tree
      fun _ after => Held before top links' after := by
  have hheld {mid : FileTree} (hmid : Held before top links mid) : Held before top links' mid :=
    hmid.mono hmono
  have hready {mid : FileTree} (hmid : Ready before top front links mid) :
      Held before top links' mid := hheld hmid.toHeld
  have hended (result : Except Fault Unit) (after : FileTree)
      (hafter : Leaves (Ready before top front links) (Held before top links') result after) :
      Held before top links' after := by
    cases result with
    | error => exact hready hafter
    | ok => exact hafter
  simp only [place]
  split
  next => exact hready h
  next =>
    rw [ends_bind]
    apply (ends_placeDirectory hnames hbefore hlinks h).mono
    intro result mid hmid
    cases result with
    | error => exact hheld hmid
    | ok =>
        exact (ends_placeMode hnames hbefore hlinks hmid.1 hmid.2).mono fun _ _ => hheld
  next source hkind htarget =>
    have hlink : Ends (Edit.hardLink source (entryPath target (front ++ [last]))) tree
        (Leaves (Ready before top front links) (Held before top links')) :=
      ends_hardLink hnames hbefore hlinks h
        (fun dest source' hleads => hnew tree dest source' h hleads (.inl hkind)) hmono
    exact hlink.mono hended
  next source hkind htarget =>
    have hlink (mid : FileTree) (hmid : Ready before top front links mid) :
        Ends (Edit.link source (entryPath target (front ++ [last]))) mid
          (Leaves (Ready before top front links) (Held before top links')) :=
      ends_link hnames hbefore hlinks hmid
        (fun dest hleads => hnew mid dest source hmid hleads (.inr ⟨hkind, htarget⟩)) hmono
    exact (ends_replacing hlink (fun _ => ends_removeFile hnames hbefore hlinks) h).mono hended
  next => exact hready h
  next => exact hready h
  next =>
    rw [ends_bind]
    have hcreate (mid : FileTree) (hmid : Ready before top front links mid) :
        Ends (Edit.create (entryPath target (front ++ [last])) entry.content) mid
          (Leaves (Ready before top front links) fun after =>
            Held before top links after ∧ Settled before top front last after) :=
      ends_create hnames hbefore hlinks hmid
    apply (ends_replacing hcreate (fun _ => ends_removeFile hnames hbefore hlinks) h).mono
    intro result mid hmid
    cases result with
    | error => exact hready hmid
    | ok =>
        dsimp only
        split
        next => exact (ends_placeMode hnames hbefore hlinks hmid.1 hmid.2).mono fun _ _ => hheld
        next =>
          rw [ends_bind]
          exact hheld hmid.1

end Place

end StackControl.Archive
