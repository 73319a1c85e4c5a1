import StackControl.Proofs.Archive.Reproduction

/-!
# Other spellings of entry paths

The names on a path can be spelled in many ways: `.` parts and empty parts stand for nothing.  The
names that an entry keeps are the same for every spelling but one kind.  At the very start a `.` is
a component, and then it is what is dropped, so that the top level stays.
-/

namespace StackControl

namespace Path

/-- Names spelled with nothing but separators between them. -/
abbrev plain (names : List Name) : Path :=
  [separator].intercalate names

/-- The ways to spell a path otherwise: it may start at `.`, a `.` or an empty part may stand
anywhere inside it, and a separator or a `.` may end it. -/
inductive Spelling (path : Path) : Path → Prop
  | same : Spelling path path
  | startingHere {p : Path} : Spelling path p → Spelling path (dot ++ separator :: p)
  | here {front rest : Path} : Spelling path (front ++ separator :: rest) →
      Spelling path (front ++ separator :: (dot ++ separator :: rest))
  | doubled {front rest : Path} : Spelling path (front ++ separator :: rest) →
      Spelling path (front ++ separator :: separator :: rest)
  | trailing {p : Path} : Spelling path p → Spelling path (p ++ [separator])
  | endingHere {p : Path} : Spelling path p → Spelling path (p ++ separator :: dot)

/-- A spelling starts at `.`. -/
def StartsHere (path : Path) : Prop :=
  dot ++ [separator] <+: path

instance (path : Path) : Decidable (StartsHere path) :=
  inferInstanceAs (Decidable (_ <+: _))

variable {path p : Path} {names : List Name} {first : Bytes} {others : List Bytes}

/-! ## The parts of a spelling -/

/-- The parts between the separators of a path. -/
def parts (path : Path) : List Bytes :=
  Text.splitAt (· == separator) path

/-- A part that stands for something. -/
def isLive (part : Bytes) : Bool :=
  !part.isEmpty && part != dot

theorem parts_append_separator (front rest : Path) :
    parts (front ++ separator :: rest) = parts front ++ parts rest :=
  splitAt_append_separator front rest

theorem parts_ne_nil (path : Path) : parts path ≠ [] := by
  rw [parts, Text.splitAt_eq_splitOnP]
  exact List.splitOnP_ne_nil _ _

theorem isLive_of_isOrdinary {n : Name} (h : IsOrdinary n) : isLive n = true := by
  have hpart := h.part_ne
  simpa [isLive, Component.part] using hpart

theorem parts_plain (hne : names ≠ []) (hnames : ∀ n ∈ names, IsOrdinary n) :
    parts (plain names) = names :=
  splitAt_names hne hnames

/-- A spelling has the live parts of the path that it spells, and does not start at the root unless
that path does. -/
theorem Spelling.parts (h : Spelling path p) :
    p.parts.filter isLive = path.parts.filter isLive ∧
      (path.parts.head? ≠ some [] → p.parts.head? ≠ some []) := by
  have hhead {front rest : Path} :
      (Path.parts (front ++ separator :: rest)).head? = front.parts.head? := by
    rw [parts_append_separator, List.head?_append_of_ne_nil _ (parts_ne_nil front)]
  have hdot : Path.parts dot = [dot] := by decide
  have hnil : Path.parts [] = [[]] := by decide
  induction h with
  | same => exact ⟨rfl, id⟩
  | startingHere _ ih =>
      refine ⟨?_, fun _ => ?_⟩
      · rw [parts_append_separator, hdot, List.filter_append, ih.1]
        rfl
      · rw [hhead, hdot]
        decide
  | here _ ih =>
      rw [hhead, parts_append_separator, List.filter_append] at ih
      rw [hhead, parts_append_separator, parts_append_separator, hdot, List.filter_append,
        List.filter_append]
      exact ih
  | @doubled front rest _ ih =>
      rw [hhead, parts_append_separator, List.filter_append] at ih
      have hrest : Path.parts (separator :: rest) = [] :: rest.parts := by
        rw [← List.nil_append (separator :: rest), parts_append_separator, hnil,
          List.singleton_append]
      rw [hhead, parts_append_separator, hrest, List.filter_append]
      exact ih
  | trailing _ ih =>
      rw [hhead, parts_append_separator, hnil, List.filter_append, ih.1]
      exact ⟨List.append_nil _, ih.2⟩
  | endingHere _ ih =>
      rw [hhead, parts_append_separator, hdot, List.filter_append, ih.1]
      exact ⟨List.append_nil _, ih.2⟩

/-- The live parts inside a path are its inner components. -/
theorem filterMap_innerComponent? (hlive : others.filter isLive = names)
    (hnames : ∀ n ∈ names, IsOrdinary n) :
    others.filterMap innerComponent? = names.map .name := by
  have hfilter : (others.filter isLive).filterMap innerComponent? =
      others.filterMap innerComponent? := by
    rw [List.filterMap_filter]
    refine List.filterMap_congr fun part _ => ?_
    have hsome := isSome_innerComponent? part
    change _ = isLive part at hsome
    cases hpart : isLive part with
    | true => rfl
    | false =>
        rw [hpart, Option.isSome_eq_false_iff, Option.isNone_iff_eq_none] at hsome
        simp [hsome]
  rw [← hfilter, hlive]
  simpa [Component.part, Function.comp_def] using filterMap_part (isInner_of_mem_names hnames)

/-- A spelling starts at `.` exactly if that is its first part. -/
theorem startsHere_iff (hparts : p.parts = first :: others) (hlive : p.parts.filter isLive ≠ []) :
    p.StartsHere ↔ first = dot := by
  constructor
  · rintro ⟨rest, rfl⟩
    rw [List.append_assoc, List.singleton_append, parts_append_separator,
      show parts dot = [dot] by decide] at hparts
    exact (List.cons.inj hparts).1.symm
  · rintro rfl
    have hjoin : [separator].intercalate p.parts = p := by
      rw [parts, Text.splitAt_eq_splitOnP, ← List.splitOn_eq_splitOnP]
      exact List.intercalate_splitOn separator
    rw [hparts] at hjoin hlive
    cases others with
    | nil => exact absurd rfl hlive
    | cons part others =>
        rw [StartsHere, ← hjoin, Text.intercalate_cons (List.cons_ne_nil _ _), ← List.append_assoc]
        exact List.prefix_append _ _

/-- The components of a spelling of names are the names, after a `.` at its start. -/
theorem Spelling.components (hne : names ≠ []) (hnames : ∀ n ∈ names, IsOrdinary n)
    (h : Spelling (plain names) p) :
    p.components = (if p.StartsHere then [.here] else []) ++ names.map .name := by
  have hlive : p.parts.filter isLive = names := by
    rw [h.parts.1, parts_plain hne hnames, List.filter_eq_self]
    exact fun n hn => isLive_of_isOrdinary (hnames n hn)
  obtain ⟨first, others, hparts⟩ := List.exists_cons_of_ne_nil (parts_ne_nil p)
  have hfirst : first ≠ [] := by
    obtain ⟨n, rest, rfl⟩ := List.exists_cons_of_ne_nil hne
    have hhead := h.parts.2 (by
      rw [parts_plain hne hnames]
      simpa [Component.part] using (hnames n List.mem_cons_self).part_ne.1)
    rw [hparts] at hhead
    simpa using hhead
  have hstarts := startsHere_iff hparts (hlive ▸ hne)
  have hp : p ≠ [] := by
    rintro rfl
    exact hfirst (List.cons.inj hparts).1.symm
  rw [components_of_splitAt hp hparts, startOf, if_neg (by simpa using hfirst)]
  rw [hparts, List.filter_cons] at hlive
  by_cases hdot : first = dot
  · rw [if_pos (hstarts.mpr hdot), if_pos (by simpa using hdot)]
    rw [if_neg (by simp [hdot, isLive])] at hlive
    rw [filterMap_innerComponent? hlive hnames]
  · rw [if_neg (mt hstarts.mp hdot), if_neg (by simpa using hdot)]
    rw [if_pos (by simp [hdot, hfirst, isLive])] at hlive
    subst hlive
    have hinner : [first].filterMap innerComponent? = [first].map .name :=
      filterMap_innerComponent? (by simp [hdot, hfirst, isLive]) fun n hn => hnames n (by simp_all)
    rw [filterMap_innerComponent? rfl fun n hn => hnames n (List.mem_cons_of_mem _ hn)]
    cases hc : innerComponent? first <;> simp_all

end Path

namespace Archive

open StackControl.Path (IsOrdinary Spelling StartsHere plain)

variable {names : List Name} {path target : Path} {top : Name} {entry entry' : Entry}

/-! ## What is kept of a spelling -/

/-- Names that come as components are all kept. -/
theorem foldr_names (names : List Name) :
    (names.map Path.Component.name).foldr
      (fun component names =>
        match component, names with
        | .name n, some names => some (n :: names)
        | .here, some names => some names
        | _, _ => none)
      (some []) = some names := by
  induction names with
  | nil => rfl
  | cons n names ih => rw [List.map_cons, List.foldr_cons, ih]

/-- Of a spelling all names but the first are kept, and all of them if it starts at `.`. -/
theorem namesBelowTop?_spelling (hne : names ≠ []) (hnames : ∀ n ∈ names, IsOrdinary n)
    (h : Spelling (plain names) path) :
    namesBelowTop? path = some (if path.StartsHere then names else names.tail) := by
  rw [namesBelowTop?, h.components hne hnames]
  split
  · exact foldr_names names
  · rw [List.nil_append, ← List.map_drop, List.drop_one]
    exact foldr_names names.tail

theorem not_startsHere_plain (hne : names ≠ []) (hnames : ∀ n ∈ names, IsOrdinary n) :
    ¬(plain names).StartsHere := by
  have hparts := Path.parts_plain hne hnames
  obtain ⟨n, rest, rfl⟩ := List.exists_cons_of_ne_nil hne
  have hlive : (plain (n :: rest)).parts.filter Path.isLive ≠ [] := by
    rw [hparts, List.filter_cons_of_pos (Path.isLive_of_isOrdinary (hnames n List.mem_cons_self))]
    exact List.cons_ne_nil _ _
  rw [Path.startsHere_iff hparts hlive]
  exact (hnames n List.mem_cons_self).part_ne.2

/-- An entry is unpacked by the names that are kept of its path, not by how they are spelled. -/
theorem unpackEntry_congr {kept : List Name} (hkept : namesBelowTop? entry.path = some kept)
    (hkept' : namesBelowTop? entry'.path = some kept)
    (hentry : entry' = { entry with path := entry'.path }) :
    unpackEntry target entry' = unpackEntry target entry := by
  have hplace (path : Path) : place entry' path = place entry path := by
    rw [hentry]
    rfl
  rw [unpackEntry, unpackEntry, hkept, hkept']
  cases kept with
  | nil => rfl
  | cons n rest => simp only [hplace]

/-- An entry with another spelling of its path and the same in all else; where that starts at `.`,
the plain path has one more directory on top.  The kind is the same, too: outside the ustar form of
headers, a separator at the end of its path can make a directory of an entry, and is then more than
another spelling. -/
def Respelled (top : Name) (entry entry' : Entry) : Prop :=
  entry' = { entry with path := entry'.path } ∧
    ∃ names, names ≠ [] ∧ (∀ n ∈ names, IsOrdinary n) ∧ Spelling (plain names) entry'.path ∧
      entry.path = plain (if entry'.path.StartsHere then top :: names else names)

theorem unpackEntry_respelled (htop : IsOrdinary top) (h : Respelled top entry entry') :
    unpackEntry target entry' = unpackEntry target entry := by
  obtain ⟨hentry, names, hne, hnames, hspelling, hpath⟩ := h
  have hkept' := namesBelowTop?_spelling hne hnames hspelling
  refine unpackEntry_congr ?_ hkept' hentry
  rw [hpath]
  split
  · have hall : ∀ n ∈ top :: names, IsOrdinary n := List.forall_mem_cons.mpr ⟨htop, hnames⟩
    have hplain := not_startsHere_plain (List.cons_ne_nil top names) hall
    rw [namesBelowTop?_spelling (List.cons_ne_nil top names) hall .same, if_neg hplain,
      List.tail_cons]
  · rw [namesBelowTop?_spelling hne hnames .same, if_neg (not_startsHere_plain hne hnames)]

theorem unpackEntries_respelled (htop : IsOrdinary top) {entries entries' : List Entry}
    (h : List.Forall₂ (Respelled top) entries entries') :
    unpackEntries target entries' = unpackEntries target entries := by
  induction h with
  | nil => rfl
  | cons hentry _ ih =>
      rw [unpackEntries, unpackEntries, ih, unpackEntry_respelled htop hentry]

/-- A spelling keeps the names that the plain one keeps exactly if it does not start at `.`; if it
does, the first name is kept, too.  So archives whose entries are the same but for the spelling of
their paths are unpacked alike, where a path that starts at `.` counts as a path with one more
directory on top. -/
theorem spelling_keeps_names_iff (hne : names ≠ []) (hnames : ∀ n ∈ names, IsOrdinary n)
    (h : Spelling (plain names) path) :
    namesBelowTop? (plain names) = some names.tail ∧
      (namesBelowTop? path = namesBelowTop? (plain names) ↔ ¬path.StartsHere) ∧
      (path.StartsHere → namesBelowTop? path = some names) ∧
      ∀ top entries entries', IsOrdinary top → List.Forall₂ (Respelled top) entries entries' →
        ∀ damaged target, unpack ⟨entries', damaged⟩ target = unpack ⟨entries, damaged⟩ target := by
  have hplain := namesBelowTop?_spelling hne hnames .same
  rw [if_neg (not_startsHere_plain hne hnames)] at hplain
  have hpath := namesBelowTop?_spelling hne hnames h
  refine ⟨hplain, ?_, fun hstarts => by rw [hpath, if_pos hstarts], ?_⟩
  · rw [hpath, hplain, Option.some.injEq]
    split
    next hstarts =>
      refine iff_of_false (fun heq => ?_) (not_not_intro hstarts)
      have hlength := congrArg List.length heq
      have hpos := List.length_pos_iff.mpr hne
      rw [List.length_tail] at hlength
      omega
    next hstarts => exact iff_of_true rfl hstarts
  · intro top entries entries' htop hentries damaged target
    rw [unpack, unpack, unpackEntries_respelled htop hentries]

section Examples

open Utf8 (encode)

theorem isOrdinary_examples :
    ∀ n ∈ [encode "x", encode "keys", encode "id.json", encode "f"], IsOrdinary n := by
  simp only [IsOrdinary, Path.Component.IsInner]
  decide

/-- A doubled separator and a `.` inside the path of a file make no difference. -/
theorem inner_spelling_ignored :
    namesBelowTop? (encode "x//keys/./id.json") = some [encode "keys", encode "id.json"] ∧
      unpack ⟨[fileEntry "x//keys/./id.json" "[1,2]"], false⟩ contracts =
        unpack ⟨[fileEntry "x/keys/id.json" "[1,2]"], false⟩ contracts := by
  let names := [encode "x", encode "keys", encode "id.json"]
  have hne : names ≠ [] := List.cons_ne_nil _ _
  have hnames : ∀ n ∈ names, IsOrdinary n := fun n hn =>
    isOrdinary_examples n (List.mem_of_mem_take (i := 3) hn)
  have hdoubled : Spelling (plain names) (encode "x" ++ Path.separator :: encode "keys/id.json") :=
    (show plain names = encode "x" ++ Path.separator :: encode "keys/id.json" by decide) ▸ .same
  have hhere : Spelling (plain names)
      (encode "x//keys" ++ Path.separator :: encode "id.json") := hdoubled.doubled
  have hspelling : Spelling (plain names) (encode "x//keys/./id.json") := hhere.here
  have hstarts : ¬StartsHere (encode "x//keys/./id.json") := by decide
  obtain ⟨hplain, hiff, -, hunpack⟩ := spelling_keeps_names_iff hne hnames hspelling
  refine ⟨(hiff.mpr hstarts).trans hplain, ?_⟩
  refine hunpack (encode "x") _ _ (isOrdinary_examples _ List.mem_cons_self)
    (.cons ⟨rfl, names, hne, hnames, hspelling, ?_⟩ .nil) false contracts
  exact (show encode "x/keys/id.json" = plain names by decide).trans
    (congrArg plain (if_neg hstarts).symm)

/-- A `./` in front is dropped in place of the top level, which then comes to stand below the
target. -/
theorem leading_here_keeps_top :
    Spelling (plain [encode "x", encode "f"]) (encode "./x/f") ∧
      namesBelowTop? (encode "x/f") = some [encode "f"] ∧
      namesBelowTop? (encode "./x/f") = some [encode "x", encode "f"] ∧
      (unpacked ⟨[fileEntry "x/f" "hi"], false⟩ contracts (.empty [])).node?
        [contracts, encode "f"] = some (.file 0) ∧
      (unpacked ⟨[fileEntry "./x/f" "hi"], false⟩ contracts (.empty [])).node?
        [contracts, encode "f"] = none ∧
      (unpacked ⟨[fileEntry "./x/f" "hi"], false⟩ contracts (.empty [])).node?
        [contracts, encode "x", encode "f"] = some (.file 0) := by
  have hspelling : Spelling (plain [encode "x", encode "f"])
      (Path.dot ++ Path.separator :: plain [encode "x", encode "f"]) := .startingHere .same
  have hpath : Path.dot ++ Path.separator :: plain [encode "x", encode "f"] = encode "./x/f" := by
    decide
  refine ⟨hpath ▸ hspelling, ?_⟩
  decide +kernel

end Examples

end Archive

end StackControl
