import StackControl.Proofs.Archive.Laying
import StackControl.Proofs.Archive.Stages

/-!
# Unpacking reproduces what was archived

Unpacking plain entries into an empty directory leaves there what the entries lay out, and nothing
else, up to the first entry that leads elsewhere.  The entries have to agree on what is a file and
what a directory, they have to fit the file system, and no directory may be closed before something
is put below it: permissions are set at once, not at the end.
-/

namespace StackControl.Archive

open FileTree

/-- The entries before the first one that leads elsewhere. -/
def admitted (entries : List Entry) : List Entry :=
  entries.takeWhile (!·.escapes)

/-- What comes of unpacking when nothing is in the way. -/
def verdict (entries : List Entry) : Except UnpackFault Unit :=
  match entries.find? (·.escapes) with
  | some entry => .error (.escapes (Utf8.decodeLossy entry.path))
  | none => .ok ()

/-- The target can be made, and is then an empty directory that lets names be added. -/
structure Fresh (tree : FileTree) (target : Path) (top : Location) : Prop where
  made : ((Edit.makeDirectories target).run tree).1 = .ok ()
  directory : ∃ mode, (prepared target tree).stat target = .ok (top, .directory mode) ∧
    writable mode = true ∧ searchable mode = true
  empty {loc : Location} : Inside top loc → (prepared target tree).node? loc = none

/-- Nothing is in the way of putting the entries one after the other. -/
structure Unpackable (target : Path) (entries : List Entry) : Prop where
  plain : ∀ entry ∈ entries, entry.IsPlain
  nulFree : ∀ entry ∈ entries, 0 ∉ entry.path
  apart : Apart entries
  fits : ∀ entry ∈ entries, entry.names ≠ [] → entry.Fits target
  mayPut : ∀ done entry rest, entries = done ++ entry :: rest → MayPut done entry

variable {before tree : FileTree} {target : Path} {top : Location} {done entries : List Entry}
  {entry : Entry} {mode : Nat}

theorem Apart.of_append {rest : List Entry} (h : Apart (done ++ entry :: rest)) :
    Apart (done ++ [entry]) := by
  have hsubset : done ++ [entry] ⊆ done ++ entry :: rest := by simp
  exact fun file hfile hkind hne other hother =>
    h file (hsubset hfile) hkind hne other (hsubset hother)

/-- Nothing is in the way of entries that close no directory. -/
theorem Unpackable.of_open (hplain : ∀ entry ∈ entries, entry.IsPlain)
    (hnul : ∀ entry ∈ entries, 0 ∉ entry.path) (hapart : Apart entries)
    (hfits : ∀ entry ∈ entries, entry.names ≠ [] → entry.Fits target)
    (hopen : ∀ entry ∈ entries, entry.kind = .directory → ∀ stated ∈ entry.mode,
      writable (stated &&& 0o777) = true ∧ searchable (stated &&& 0o777) = true) :
    Unpackable target entries where
  plain := hplain
  nulFree := hnul
  apart := hapart
  fits := hfits
  mayPut done entry rest hsplit := by
    subst hsplit
    exact mayPut_of_open fun other hother => hopen other (List.mem_append_left _ hother)

theorem Fresh.vacant (h : Fresh tree target top) : Vacant (prepared target tree) target top := by
  obtain ⟨mode, hstat, -⟩ := h.directory
  obtain ⟨hcheck, hlocate⟩ := locate_of_stat hstat
  exact ⟨hcheck, exists_way_of_locate hlocate, h.empty⟩

/-- At first nothing is laid out. -/
theorem Fresh.exists_laidOut (h : Fresh tree target top) :
    ∃ mode, writable mode = true ∧ searchable mode = true ∧
      LaidOut (prepared target tree) top (targetPlan mode []) (prepared target tree) := by
  obtain ⟨mode, hstat, hwrite, hsearch⟩ := h.directory
  refine ⟨mode, hwrite, hsearch, .refl _ _, ⟨mode, targetPlan_nil⟩, ?_, ?_, ?_⟩
  · intro names
    by_cases hnil : names = []
    · rw [hnil, targetPlan_nil, List.append_nil]
      exact (passage_of_stat hstat).node?_eq
    · rw [targetPlan_of_ne_nil hnil]
      exact h.empty (inside_append_names hnil)
  · intro loc i hloc hnode
    simp [h.empty hloc] at hnode
  · intro loc loc' i hloc _ hnode
    simp [h.empty hloc] at hnode

/-- Unpacking entries adds them to the layout, up to the first that leads elsewhere. -/
theorem ends_unpackEntries (hvacant : Vacant before target top)
    (hwrite : writable mode = true) (hsearch : searchable mode = true)
    (hentries : Unpackable target (done ++ admitted entries))
    (h : LaidOut before top (targetPlan mode done) tree) :
    Ends (unpackEntries target entries) tree fun result after =>
      result = verdict entries ∧
        LaidOut before top (targetPlan mode (done ++ admitted entries)) after := by
  -- What has been put so far is the plan that the tree is laid out by.
  induction entries generalizing done tree with
  | nil =>
      rw [unpackEntries, ends_pure, admitted, List.takeWhile_nil, List.append_nil]
      exact ⟨rfl, h⟩
  | cons entry rest ih =>
      rw [unpackEntries, ends_bind]
      cases hescapes : entry.escapes with
      | true =>
          rw [unpackEntry, namesBelowTop?_eq, if_pos hescapes, ends_throw, verdict,
            List.find?_cons_of_pos hescapes, admitted,
            List.takeWhile_cons_of_neg (by simp [hescapes]), List.append_nil]
          exact ⟨rfl, h⟩
      | false =>
          have hverdict : verdict (entry :: rest) = verdict rest := by
            rw [verdict, List.find?_cons_of_neg (by simp [hescapes]), verdict]
          have hadmitted : done ++ admitted (entry :: rest) =
              (done ++ [entry]) ++ admitted rest := by
            rw [admitted, List.takeWhile_cons_of_pos (by simp [hescapes]), admitted]
            simp
          have hmem : entry ∈ done ++ admitted (entry :: rest) := by simp [hadmitted]
          have hsplit : done ++ admitted (entry :: rest) = done ++ entry :: admitted rest := by
            simp [hadmitted]
          have hentry := ends_unpackEntry hvacant hsearch hwrite (hentries.plain _ hmem) hescapes
            (hentries.nulFree _ hmem) (hentries.fits _ hmem) (hsplit ▸ hentries.apart).of_append
            (hentries.mayPut _ _ _ hsplit) h
          rw [hverdict]
          rw [hadmitted] at hentries ⊢
          refine hentry.mono ?_
          rintro _ mid ⟨rfl, hmid⟩
          exact ih hentries hmid

/-- Unpacking entries with nothing in their way into a fresh target leaves there what they lay out,
up to the first that leads elsewhere, which is what it then fails with.  Outside the target, only
the directories above it are added. -/
theorem unpack_reproduces (hfresh : Fresh tree target top)
    (hentries : Unpackable target (admitted entries)) :
    ((unpack ⟨entries, false⟩ target).run tree).1 = verdict entries ∧
      DirectoriesAdded (target :: Path.above target.components) tree (prepared target tree) ∧
      Confined (prepared target tree) top (unpacked ⟨entries, false⟩ target tree) ∧
      ∀ names, names ≠ [] →
        (unpacked ⟨entries, false⟩ target tree).Shows (top ++ names)
          (layout (admitted entries) names) := by
  obtain ⟨mode, hwrite, hsearch, hbefore⟩ := hfresh.exists_laidOut
  have hends : Ends (unpack ⟨entries, false⟩ target) tree fun result after =>
      result = verdict entries ∧
        LaidOut (prepared target tree) top (targetPlan mode (admitted entries)) after := by
    have hmade {post : Except Fault Unit → FileTree → Prop}
        (hpost : post (.ok ()) (prepared target tree)) :
        Ends (Edit.makeDirectories target) tree post := by
      rw [Ends, hfresh.made]
      exact hpost
    rw [unpack, ends_bind, ends_adapt]
    refine hmade ?_
    dsimp only [Except.mapError]
    rw [ends_bind]
    refine (ends_unpackEntries hfresh.vacant hwrite hsearch hentries hbefore).mono ?_
    rintro _ after ⟨rfl, hafter⟩
    cases verdict entries <;> exact ⟨rfl, hafter⟩
  obtain ⟨hresult, hafter⟩ := hends
  refine ⟨hresult, directoriesAdded_makeDirectories tree target, hafter.confined, ?_⟩
  intro names hne
  have hshows := hafter.shows names
  rwa [targetPlan_of_ne_nil hne] at hshows

section Examples

/-- The entry of a file. -/
def fileEntry (path content : String) : Entry :=
  ⟨Utf8.encode path, .file, none, some 0o644, Utf8.encode content, true⟩

/-- The entry of a directory. -/
def directoryEntry (path : String) (mode : Nat) : Entry :=
  ⟨Utf8.encode path, .directory, none, some mode, [], true⟩

/-- A target in the working directory. -/
def contracts : Path := Utf8.encode "contracts"

/-- A target is fresh if nothing in the tree is below it once it is made. -/
theorem fresh_of_rows (hmade : ((Edit.makeDirectories target).run tree).1 = .ok ())
    (hstat : (prepared target tree).stat target = .ok (top, .directory directoryMode))
    (hrows : ∀ row ∈ (prepared target tree).nodes, ¬(top <+: row.1 ∧ row.1 ≠ top)) :
    Fresh tree target top := by
  refine ⟨hmade, ⟨directoryMode, hstat, by decide, by decide⟩, fun {loc} hloc => ?_⟩
  rw [node?_eq_lookup hloc.ne_nil, List.lookup_eq_none_iff]
  intro row hrow
  rw [bne_iff_ne]
  rintro rfl
  exact hrows row hrow hloc

/-- A tree that holds nothing but the new target. -/
def onlyContracts : FileTree :=
  ⟨[([contracts], .directory directoryMode)], [], []⟩

theorem fresh_of_prepared
    (hmade : ((Edit.makeDirectories target).run (FileTree.empty [])).1 = .ok ())
    (hprepared : prepared target (FileTree.empty []) = onlyContracts)
    (hstat : onlyContracts.stat target = .ok ([contracts], .directory directoryMode)) :
    Fresh (FileTree.empty []) target [contracts] := by
  refine fresh_of_rows hmade (hprepared ▸ hstat) ?_
  rw [hprepared]
  decide +kernel

theorem fresh_contracts : Fresh (FileTree.empty []) contracts [contracts] :=
  fresh_of_prepared (by decide +kernel) (by decide +kernel) (by decide +kernel)

/-- An archive with a file that comes twice, and with a directory after what is in it. -/
def contractEntries : List Entry :=
  [fileEntry "x/keys/id.json" "[1,2]", fileEntry "x/erc20.so" "old",
    directoryEntry "x/keys/" 0o755, fileEntry "x/erc20.so" "elf"]

/-- The later of the two files is left. -/
theorem unpack_reproduces_contracts :
    ((unpack ⟨contractEntries, false⟩ contracts).run (FileTree.empty [])).1 = .ok () ∧
      (unpacked ⟨contractEntries, false⟩ contracts (FileTree.empty [])).Shows
        [contracts, Utf8.encode "erc20.so"] (some (.file ⟨0o644, Utf8.encode "elf"⟩)) := by
  have hentries : Unpackable contracts (admitted contractEntries) :=
    .of_open (by decide +kernel) (by decide +kernel) (by decide +kernel) (by decide +kernel)
      (by decide +kernel)
  have hverdict : verdict contractEntries = .ok () := by decide +kernel
  have hlaid : layout (admitted contractEntries) [Utf8.encode "erc20.so"] =
      some (.file ⟨0o644, Utf8.encode "elf"⟩) := by decide +kernel
  obtain ⟨hresult, -, -, hshows⟩ := unpack_reproduces fresh_contracts hentries
  refine ⟨hresult.trans hverdict, ?_⟩
  rw [← hlaid]
  exact hshows [Utf8.encode "erc20.so"] (List.cons_ne_nil _ _)

/-- An archive that closes a directory before it is filled. -/
def closedDirectory : List Entry :=
  [directoryEntry "x/d/" 0o555, fileEntry "x/d/f" "hi"]

/-- An archive with a name that no directory can hold. -/
def longName : List Entry :=
  [⟨Utf8.encode "x/" ++ List.replicate 256 (byteOf 'n'), .file, none, some 0o644,
    Utf8.encode "hi", true⟩]

/-- A long spelling of the target. -/
def longTarget : Path :=
  Path.dot ++ List.replicate 4083 Path.separator ++ contracts

/-- Plain entries that agree with each other and lead nowhere else cannot be unpacked into a fresh
target. -/
structure Stopped (target : Path) (entries : List Entry) : Prop where
  fresh : Fresh (FileTree.empty []) target [contracts]
  plain : ∀ entry ∈ entries, entry.IsPlain
  nulFree : ∀ entry ∈ entries, 0 ∉ entry.path
  apart : Apart entries
  allowed : verdict entries = .ok ()
  result : ((unpack ⟨entries, false⟩ target).run (FileTree.empty [])).1 = .error .damaged

/-- A directory is closed before it is filled, a name is too long, or the path of an entry is. -/
theorem unpack_stopped_by_limits :
    Stopped contracts closedDirectory ∧ Stopped contracts longName ∧
      Stopped longTarget [fileEntry "x/file" "hi"] := by
  have hlong : Fresh (FileTree.empty []) longTarget [contracts] :=
    fresh_of_prepared (by decide +kernel) (by decide +kernel) (by decide +kernel)
  refine ⟨⟨fresh_contracts, ?_, ?_, ?_, ?_, ?_⟩, ⟨fresh_contracts, ?_, ?_, ?_, ?_, ?_⟩,
    ⟨hlong, ?_, ?_, ?_, ?_, ?_⟩⟩
  all_goals decide +kernel

end Examples

end StackControl.Archive
