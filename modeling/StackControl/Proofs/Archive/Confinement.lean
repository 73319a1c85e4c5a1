import StackControl.Proofs.Archive.Placing

/-!
# Confinement of unpacking

Unpacking an archive is confined to its target as long as no entry's way leads out of the target at
the time when the entry is put there.  The check that is made of each entry looks at its path alone,
so it does not see to that: a symbolic link can lead the entries after it anywhere.
-/

namespace StackControl.Archive

open FileTree

/-- The links that are known to be below a place, whatever they are. -/
def anyLink (_ : Location) (_ : Path) : Prop := True

/-- No entry's way leads out of the top, each at the time when the entry is put there. -/
def Guarded (target : Path) (top : Location) : List Entry → FileTree → Prop
  | [], _ => True
  | entry :: rest, tree =>
    (∀ names, namesBelowTop? entry.path = some names →
        StaysBelow (readied target names tree) top names) ∧
      (((unpackEntry target entry).run tree).1 = .ok () →
        Guarded target top rest ((unpackEntry target entry).run tree).2)

section Step

variable {before tree : FileTree} {target : Path} {top : Location}
  {links links' : Location → Path → Prop} {entry : Entry} {names front : List Name} {last : Name}

/-- What making the directory of an entry preserves at each new directory holds afterwards. -/
theorem readied_induction {I : FileTree → Prop} (hnames : ∀ n ∈ front ++ [last], Path.IsOrdinary n)
    (hstep : ∀ n u loc, I u →
      Passage u false (u.start (pathAbove target front n))
        (Path.route (pathAbove target front n)).steps false (.absent loc) →
          I (u.put loc (.directory directoryMode)))
    (h : I tree) :
    I (readied target (front ++ [last]) tree) := by
  have hfront : ∀ n ∈ front, Path.IsOrdinary n := fun n hn =>
    hnames n (List.mem_append_left _ hn)
  have horder : Path.InOrder (target.components ++ front.map Path.Component.name) :=
    (Path.inOrder_components target).append (Path.isInner_of_mem_names hfront)
  have hparent : (Path.parent? (entryPath target (front ++ [last]))).getD [] =
      Path.ofComponents (target.components ++ front.map Path.Component.name) := by
    rw [entryPath, Path.parent?_join hnames, Option.getD_some]
  have hmade : ∀ p ∈ Path.ofComponents (target.components ++ front.map Path.Component.name) ::
      Path.above (target.components ++ front.map Path.Component.name), ∀ u loc, I u →
        Passage u false (u.start p) (Path.route p).steps false (.absent loc) →
          I (u.put loc (.directory directoryMode)) := by
    intro p hp u loc hu hpassage
    rcases List.mem_cons.mp hp with rfl | hp
    · refine hstep (target.components ++ front.map Path.Component.name).length u loc hu ?_
      rwa [pathAbove, List.take_length]
    · obtain ⟨n, rfl⟩ := Path.exists_take_of_mem_above hp
      exact hstep n u loc hu hpassage
  have hends := ends_makeAlong hmade h
  rw [readied, hparent, Edit.makeDirectories, Path.components_ofComponents horder]
  exact hends.1

theorem ends_readied {post : Except Fault Unit → FileTree → Prop}
    (h : ∀ result, post result (readied target names tree)) :
    Ends (Edit.makeDirectories ((Path.parent? (entryPath target names)).getD [])) tree post :=
  h _

/-- New directories are no links. -/
theorem linksAmong_readied (hnames : ∀ n ∈ names, Path.IsOrdinary n)
    (h : LinksAmong links top tree) (hne : names ≠ []) :
    LinksAmong links top (readied target names tree) := by
  obtain ⟨front, last, rfl⟩ := (List.eq_nil_or_concat names).resolve_left hne
  rw [List.concat_eq_append] at hnames ⊢
  refine readied_induction hnames ?_ h
  intro n u loc hu hpassage
  obtain ⟨-, step, mid, -, -, -, rfl, -⟩ := hpassage.exists_leads_of_absent
  exact hu.put (by simp) fun _ heq => by cases heq

variable (hbefore : before.LeadsTo target top) (hlinks : NoLinkBelow before top)

include hbefore hlinks

/-- Making the directory of an entry is confined if no part of the way leads out once it is
made. -/
theorem ready_readied (hnames : ∀ n ∈ front ++ [last], Path.IsOrdinary n)
    (h : Held before top links tree)
    (hstays : StaysBelow (readied target (front ++ [last]) tree) top (front ++ [last])) :
    Ready before top front links (readied target (front ++ [last]) tree) := by
  have hfront : ∀ n ∈ front, Path.IsOrdinary n := fun n hn =>
    hnames n (List.mem_append_left _ hn)
  -- A directory made outside shows that the way already leads out, and it goes on to do so.
  have hheld : Held before top links (readied target (front ++ [last]) tree) ∨
      ¬StaysBelow (readied target (front ++ [last]) tree) top (front ++ [last]) := by
    refine readied_induction
      (I := fun u => Held before top links u ∨ ¬StaysBelow u top (front ++ [last])) hnames ?_
      (.inl h)
    intro n u loc hu hpassage
    have hkeeps : Keeps u (u.put loc (.directory directoryMode)) := by
      obtain ⟨-, step, mid, -, -, -, rfl, hnode, -⟩ := hpassage.exists_leads_of_absent
      exact keeps_put (by simp) hnode
    have hout {done : List Name} {dest : Location} (hpre : done <+: front ++ [last])
        (hne : done ≠ front ++ [last]) (hleads : u.Leads top done dest) (htop : ¬top <+: dest) :
        ¬StaysBelow (u.put loc (.directory directoryMode)) top (front ++ [last]) :=
      fun hstays => htop (hstays done hpre hne dest
        (hleads.mono (fun _ _ => hkeeps.directory) fun _ _ => hkeeps.link))
    rcases hu with hu | hu
    · obtain ⟨done, step, mid, hpre, hleads, rfl⟩ :=
        (hu.confined.leadsTo hlinks hbefore).exists_of_absent hfront hpassage
      by_cases htop : top <+: mid
      · exact .inl (hu.put (inside_append htop) (fun _ _ => ⟨_, rfl⟩) fun _ heq => by cases heq)
      · have hdone : done <+: front := (List.prefix_append _ _).trans hpre
        refine .inr (hout (hdone.trans (List.prefix_append _ _)) ?_ hleads htop)
        rintro rfl
        have hlength := hdone.length_le
        simp only [List.length_append, List.length_singleton] at hlength
        omega
    · simp only [StaysBelow, Classical.not_forall] at hu
      obtain ⟨done, hpre, hne, dest, hleads, htop⟩ := hu
      exact .inr (hout hpre hne hleads htop)
  constructor
  · exact hheld.resolve_right fun hnot => hnot hstays
  · intro dest hleads
    exact hstays front (List.prefix_append _ _) (by simp) dest hleads

/-- Unpacking an entry whose way does not lead out is confined, and adds only its own links. -/
theorem held_unpackEntry (h : Held before top links tree)
    (hstays : ∀ names, namesBelowTop? entry.path = some names →
      StaysBelow (readied target names tree) top names)
    (hnew : ∀ front last mid dest source, namesBelowTop? entry.path = some (front ++ [last]) →
      LinksAmong links top mid → mid.Leads top front dest → entry.MakesLink source →
        links' (dest ++ [last]) source)
    (hmono : ∀ loc source, links loc source → links' loc source) :
    Held before top links' ((unpackEntry target entry).run tree).2 := by
  have hends : Ends (unpackEntry target entry) tree fun _ after =>
      Held before top links' after := by
    simp only [unpackEntry]
    split
    next => exact h.mono hmono
    next => exact h.mono hmono
    next names hne hnames =>
      obtain ⟨front, last, rfl⟩ :=
        (List.eq_nil_or_concat names).resolve_left hne
      rw [List.concat_eq_append] at hnames ⊢
      have hordinary := isOrdinary_of_mem_namesBelowTop? hnames
      have hready := ready_readied hbefore hlinks hordinary h (hstays _ hnames)
      rw [ends_bind, ends_adapt]
      apply ends_readied
      intro result
      cases result with
      | error => exact hready.toHeld.mono hmono
      | ok =>
          rw [ends_adapt]
          exact ends_place hordinary hbefore hlinks hready
            (fun mid dest source hmid => hnew front last mid dest source hnames hmid.links) hmono
  exact hends

/-- Unpacking guarded entries is confined. -/
theorem held_unpackEntries {entries : List Entry} (h : Held before top anyLink tree)
    (hguarded : Guarded target top entries tree) :
    Held before top anyLink ((unpackEntries target entries).run tree).2 := by
  induction entries generalizing tree with
  | nil => exact h
  | cons entry rest ih =>
      obtain ⟨hstays, hrest⟩ := hguarded
      have hentry : Held before top anyLink ((unpackEntry target entry).run tree).2 :=
        held_unpackEntry hbefore hlinks h hstays (fun _ _ _ _ _ _ _ _ _ => trivial)
          fun _ _ _ => trivial
      have hends : Ends (unpackEntries target (entry :: rest)) tree fun _ after =>
          Held before top anyLink after := by
        rw [unpackEntries, ends_bind]
        unfold Ends
        dsimp only
        split
        next hok => exact ih hentry (hrest hok)
        next => exact hentry
      exact hends

end Step

end StackControl.Archive
