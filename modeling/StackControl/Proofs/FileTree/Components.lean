import StackControl.Proofs.FileTree.Passage
import StackControl.Proofs.Text.Search

/-!
# Components of paths

The components of a path and the path of components undo each other, for components in the order
in which a path has them.  Names that are joined to a path follow its components, and follow its
steps.
-/

namespace StackControl.Path

/-- What the first part of a path stands for. -/
def startOf (first : Bytes) : List Component :=
  if first.isEmpty then [.root]
  else if first == dot then [.here]
  else (innerComponent? first).toList

theorem components_of_splitAt {path : Path} {first : Bytes} {others : List Bytes}
    (hne : path ≠ []) (h : Text.splitAt (· == separator) path = first :: others) :
    path.components = startOf first ++ others.filterMap innerComponent? := by
  have hpath : ¬(first.isEmpty ∧ others.isEmpty) := by
    rintro ⟨hfirst, hothers⟩
    rw [Text.splitAt_eq_splitOnP, ← List.splitOn_eq_splitOnP] at h
    have hjoin : [separator].intercalate (path.splitOn separator) = path :=
      List.intercalate_splitOn separator
    refine hne ?_
    rw [← hjoin, h, List.isEmpty_iff.mp hfirst, List.isEmpty_iff.mp hothers]
    rfl
  simp only [components, h, startOf]
  by_cases hfirst : first.isEmpty
  · have hothers : ¬others.isEmpty := fun hothers => hpath ⟨hfirst, hothers⟩
    simp [hfirst, hothers]
  · simp only [hfirst, Bool.false_eq_true, if_false]
    split <;> rfl

/-! ## Components in order -/

/-- A component that a part inside a path stands for. -/
def Component.IsInner (c : Component) : Prop :=
  separator ∉ c.part ∧ innerComponent? c.part = some c

/-- A component that the first part of a path stands for. -/
def Component.IsFirst (c : Component) : Prop :=
  separator ∉ c.part ∧ startOf c.part = [c]

/-- Components in the order in which a path has them. -/
def InOrder : List Component → Prop
  | [] => True
  | first :: others => first.IsFirst ∧ ∀ c ∈ others, c.IsInner

theorem innerComponent?_eq_some {part : Bytes} {c : Component}
    (h : innerComponent? part = some c) :
    c.part = part := by
  simp only [innerComponent?] at h
  split at h
  · cases h
  split at h
  next hup =>
    cases h
    exact (beq_iff_eq.mp hup).symm
  next =>
    cases h
    rfl

theorem isInner_of_innerComponent? {part : Bytes} {c : Component}
    (hsep : separator ∉ part) (h : innerComponent? part = some c) :
    c.IsInner := by
  have hpart := innerComponent?_eq_some h
  exact ⟨hpart ▸ hsep, hpart ▸ h⟩

theorem Component.IsInner.part_ne {c : Component} (h : c.IsInner) :
    c.part ≠ [] ∧ c.part ≠ dot := by
  have hinner := h.2
  simp only [innerComponent?] at hinner
  split at hinner
  · cases hinner
  · simp_all

theorem Component.IsInner.isFirst {c : Component} (h : c.IsInner) : c.IsFirst := by
  refine ⟨h.1, ?_⟩
  simp [startOf, h.part_ne, h.2]

theorem isFirst_of_mem_startOf {part : Bytes} {c : Component}
    (hsep : separator ∉ part) (h : c ∈ startOf part) :
    c.IsFirst ∧ startOf part = [c] := by
  have hstart := h
  simp only [startOf] at hstart ⊢
  split at hstart
  next hempty =>
    rw [List.mem_singleton] at hstart
    subst hstart
    exact ⟨⟨List.not_mem_nil, rfl⟩, by simp [hempty]⟩
  next hempty =>
    split at hstart
    next hdot =>
      rw [List.mem_singleton] at hstart
      subst hstart
      exact ⟨⟨by decide, by decide⟩, by simp [hempty, hdot]⟩
    next hdot =>
      rw [Option.mem_toList] at hstart
      exact ⟨(isInner_of_innerComponent? hsep hstart).isFirst,
        by simp [hempty, hdot, Option.mem_def.mp hstart]⟩

theorem startOf_ne_nil (part : Bytes) : startOf part ≠ [] := by
  simp only [startOf]
  split
  · simp
  split
  · simp
  next hempty hdot =>
    simp only [innerComponent?, hempty, hdot, Bool.or_self, Bool.false_eq_true, if_false]
    split <;> simp

/-- A path has its components in order. -/
theorem inOrder_components (path : Path) : InOrder path.components := by
  by_cases hne : path = []
  · subst hne
    trivial
  cases hsplit : Text.splitAt (· == separator) path with
  | nil => exact absurd hsplit (by simp [Text.splitAt_eq_splitOnP])
  | cons first others =>
      have hsep : ∀ part ∈ first :: others, separator ∉ part := by
        intro part hpart hmem
        have hfalse := Text.eq_false_of_mem_splitAt (hsplit ▸ hpart) _ hmem
        simp at hfalse
      rw [components_of_splitAt hne hsplit]
      obtain ⟨c, cs, hstart⟩ := List.exists_cons_of_ne_nil (startOf_ne_nil first)
      have hc := isFirst_of_mem_startOf (c := c) (hsep first List.mem_cons_self)
        (by rw [hstart]; exact List.mem_cons_self)
      rw [hc.2]
      refine ⟨hc.1, ?_⟩
      intro d hd
      obtain ⟨part, hpart, hinner⟩ := List.mem_filterMap.mp hd
      exact isInner_of_innerComponent? (hsep part (List.mem_cons_of_mem _ hpart)) hinner

theorem InOrder.take {cs : List Component} (h : InOrder cs) (n : Nat) : InOrder (cs.take n) := by
  cases cs with
  | nil => simp [InOrder]
  | cons c cs =>
      cases n with
      | zero => trivial
      | succ n => exact ⟨h.1, fun d hd => h.2 d (List.mem_of_mem_take hd)⟩

theorem InOrder.append {cs ds : List Component} (h : InOrder cs) (hds : ∀ d ∈ ds, d.IsInner) :
    InOrder (cs ++ ds) := by
  cases cs with
  | nil =>
      cases ds with
      | nil => trivial
      | cons d ds =>
          exact ⟨(hds d List.mem_cons_self).isFirst, fun e he => hds e (List.mem_cons_of_mem _ he)⟩
  | cons c cs =>
      refine ⟨h.1, ?_⟩
      intro d hd
      rcases List.mem_append.mp hd with hd | hd
      · exact h.2 d hd
      · exact hds d hd

theorem InOrder.separator_notMem {cs : List Component} (h : InOrder cs) :
    ∀ part ∈ cs.map Component.part, separator ∉ part := by
  cases cs with
  | nil => simp
  | cons c cs =>
      intro part hpart
      rcases List.mem_cons.mp hpart with rfl | hpart
      · exact h.1.1
      · obtain ⟨d, hd, rfl⟩ := List.mem_map.mp hpart
        exact (h.2 d hd).1

theorem filterMap_part {cs : List Component} (h : ∀ c ∈ cs, c.IsInner) :
    (cs.map Component.part).filterMap innerComponent? = cs := by
  induction cs with
  | nil => rfl
  | cons c cs ih =>
      rw [List.map_cons, List.filterMap_cons_some (h c List.mem_cons_self).2,
        ih fun d hd => h d (List.mem_cons_of_mem _ hd)]

/-! ## The path of components -/

theorem splitAt_ofComponents {cs : List Component} (h : InOrder cs)
    (hne : cs ≠ []) (hroot : cs ≠ [.root]) :
    Text.splitAt (· == separator) (ofComponents cs) = cs.map Component.part := by
  rw [ofComponents, Text.splitAt_eq_splitOnP, ← List.splitOn_eq_splitOnP]
  · exact List.splitOn_intercalate separator h.separator_notMem (by simpa using hne)
  · exact hroot

theorem ofComponents_eq_nil {cs : List Component} (h : InOrder cs) :
    ofComponents cs = [] ↔ cs = [] := by
  constructor
  · intro hnil
    by_cases hroot : cs = [.root]
    · subst hroot
      cases hnil
    cases cs with
    | nil => rfl
    | cons c cs =>
        have hsplit := splitAt_ofComponents h (List.cons_ne_nil _ _) hroot
        rw [hnil] at hsplit
        obtain ⟨hpart, hcs⟩ : [] = c.part ∧ cs = [] := by simpa [Text.splitAt] using hsplit
        have hstart := h.1.2
        rw [← hpart] at hstart
        simp only [startOf, List.isEmpty_nil, if_true, List.cons.injEq, and_true] at hstart
        exact absurd (by rw [← hstart, hcs]) hroot
  · rintro rfl
    rfl

/-- Components are those of their path. -/
theorem components_ofComponents {cs : List Component} (h : InOrder cs) :
    components (ofComponents cs) = cs := by
  by_cases hroot : cs = [.root]
  · subst hroot
    decide
  cases cs with
  | nil => rfl
  | cons c cs =>
      have hsplit := splitAt_ofComponents h (List.cons_ne_nil _ _) hroot
      have hne : ofComponents (c :: cs) ≠ [] := by
        rw [Ne, ofComponents_eq_nil h]
        exact List.cons_ne_nil _ _
      rw [components_of_splitAt hne hsplit, h.1.2, filterMap_part h.2]
      rfl

/-- The parts that the operating system takes as steps. -/
theorem steps_ofComponents {cs : List Component} (h : InOrder cs) :
    (route (ofComponents cs)).steps = (cs.map Component.part).filter (!·.isEmpty) := by
  by_cases hroot : cs = [.root]
  · subst hroot
    decide
  by_cases hne : cs = []
  · subst hne
    decide
  · simp only [route, splitAt_ofComponents h hne hroot]

theorem absolute_eq (path : Path) :
    (route path).absolute = (path.components.head? == some .root) := by
  cases path with
  | nil => rfl
  | cons b path =>
      simp only [route, isAbsolute, List.head?_cons]
      cases hsplit : Text.splitAt (· == separator) (b :: path) with
      | nil => simp [Text.splitAt_eq_splitOnP] at hsplit
      | cons first others =>
          rw [components_of_splitAt (List.cons_ne_nil _ _) hsplit]
          by_cases hb : b = separator
          · subst hb
            simp only [Text.splitAt, beq_self_eq_true, if_true, List.cons.injEq] at hsplit
            obtain ⟨rfl, -⟩ := hsplit
            rfl
          · have hfirst : first.isEmpty = false := by
              simp only [Text.splitAt, beq_iff_eq, hb, if_false] at hsplit
              split at hsplit <;>
                · cases hsplit
                  rfl
            have hbeq : (some b == some separator) = false := by simpa using hb
            rw [hbeq, startOf, hfirst]
            simp only [innerComponent?, hfirst, Bool.false_or, Bool.false_eq_true, if_false]
            split
            · rfl
            · split <;> rfl

theorem isSome_innerComponent? (part : Bytes) :
    (innerComponent? part).isSome = (!part.isEmpty && part != dot) := by
  simp only [innerComponent?]
  cases part.isEmpty <;> cases hdot : part == dot <;> simp [bne, hdot]
  split <;> rfl

theorem map_part_filterMap (parts : List Bytes) :
    (parts.filterMap innerComponent?).map Component.part =
      parts.filter fun part => !part.isEmpty && part != dot := by
  induction parts with
  | nil => rfl
  | cons part parts ih =>
      rw [List.filter_cons, ← isSome_innerComponent? part]
      cases hinner : innerComponent? part with
      | none =>
          rw [List.filterMap_cons_none hinner, ih, Option.isSome_none, if_neg Bool.false_ne_true]
      | some c =>
          rw [List.filterMap_cons_some hinner, List.map_cons, ih, innerComponent?_eq_some hinner,
            Option.isSome_some, if_pos rfl]

theorem filter_startOf (first : Bytes) :
    ((startOf first).map Component.part).filter (fun part => !part.isEmpty && part != dot) =
      [first].filter fun part => !part.isEmpty && part != dot := by
  simp only [startOf]
  split
  next hempty => simp [Component.part, hempty]
  next hempty =>
    split
    next hdot => simp [Component.part, beq_iff_eq.mp hdot]
    next hdot =>
      have hinner := map_part_filterMap [first]
      cases hc : innerComponent? first <;> simp_all

/-- The components of a path are its steps, but for those that stand still. -/
theorem filter_steps (path : Path) :
    ((path.components.map Component.part).filter (!·.isEmpty)).filter (· != dot) =
      (route path).steps.filter (· != dot) := by
  by_cases hne : path = []
  · subst hne
    rfl
  cases hsplit : Text.splitAt (· == separator) path with
  | nil => simp [Text.splitAt_eq_splitOnP] at hsplit
  | cons first others =>
      have hboth (parts : List Bytes) :
          (parts.filter (!·.isEmpty)).filter (· != dot) =
            parts.filter fun part => !part.isEmpty && part != dot := by
        simp only [List.filter_filter, Bool.and_comm]
      rw [components_of_splitAt hne hsplit, route, hsplit, hboth, hboth, List.map_append,
        List.filter_append, filter_startOf, map_part_filterMap, List.filter_filter]
      simp only [Bool.and_self]
      rw [← List.filter_append, List.singleton_append]

/-! ## Names that follow a path -/

/-- A name that a part inside a path can be. -/
def IsOrdinary (name : Name) : Prop :=
  (Component.name name).IsInner

theorem IsOrdinary.isName {name : Name} (h : IsOrdinary name) : FileTree.IsName name := by
  have hinner := h.2
  simp only [Component.part, innerComponent?] at hinner
  refine ⟨h.part_ne.2, ?_⟩
  rintro rfl
  simp [dot, dotDot] at hinner

theorem isInner_of_mem_names {names : List Name} (h : ∀ n ∈ names, IsOrdinary n) :
    ∀ c ∈ names.map Component.name, c.IsInner := by
  intro c hc
  obtain ⟨n, hn, rfl⟩ := List.mem_map.mp hc
  exact h n hn

theorem intercalate_names (names : List Name) :
    [separator].intercalate names = ofComponents (names.map .name) := by
  cases names with
  | nil => rfl
  | cons n names =>
      cases names <;> simp [ofComponents, Component.part, Function.comp_def]

theorem splitAt_append_separator (front rest : Path) :
    Text.splitAt (· == separator) (front ++ separator :: rest) =
      Text.splitAt (· == separator) front ++ Text.splitAt (· == separator) rest := by
  simp only [Text.splitAt_eq_splitOnP]
  exact List.splitOnP_append_cons _ _ (beq_self_eq_true separator)

/-- What follows a separator adds inner components. -/
theorem components_append_separator (front rest : Path) :
    components (front ++ separator :: rest) =
      components (front ++ [separator]) ++
        (Text.splitAt (· == separator) rest).filterMap innerComponent? := by
  cases hfront : Text.splitAt (· == separator) front with
  | nil => simp [Text.splitAt_eq_splitOnP] at hfront
  | cons first others =>
      have hsplit (tail : Path) :
          Text.splitAt (· == separator) (front ++ separator :: tail) =
            first :: (others ++ Text.splitAt (· == separator) tail) := by
        rw [splitAt_append_separator, hfront, List.cons_append]
      rw [components_of_splitAt (by simp) (hsplit rest),
        components_of_splitAt (by simp) (hsplit []), List.filterMap_append,
        List.filterMap_append, List.append_assoc]
      simp [Text.splitAt, innerComponent?]

theorem components_append_singleton_separator {front : Path} (hne : front ≠ []) :
    components (front ++ [separator]) = components front := by
  cases hfront : Text.splitAt (· == separator) front with
  | nil => simp [Text.splitAt_eq_splitOnP] at hfront
  | cons first others =>
      have hsplit : Text.splitAt (· == separator) (front ++ [separator]) =
          first :: (others ++ [[]]) := by
        rw [splitAt_append_separator, hfront, List.cons_append]
        rfl
      rw [components_of_splitAt (by simp) hsplit, components_of_splitAt hne hfront]
      simp [innerComponent?]

theorem steps_append_separator (front rest : Path) :
    (route (front ++ separator :: rest)).steps = (route front).steps ++ (route rest).steps := by
  simp only [route, splitAt_append_separator, List.filter_append]

/-- How a relative path follows another. -/
theorem join_cases (base : Path) {rest : Path} (hrest : rest.isAbsolute = false) :
    (base = [] ∧ join base rest = rest) ∨
      (∃ front, base = front ++ [separator] ∧ join base rest = front ++ separator :: rest) ∨
      base ≠ [] ∧ join base rest = base ++ separator :: rest := by
  by_cases hempty : base = []
  · subst hempty
    exact .inl ⟨rfl, by simp [join, hrest]⟩
  by_cases hends : base.endsInSeparator
  · have hlast : base.getLast? = some separator := beq_iff_eq.mp hends
    obtain ⟨front, rfl⟩ := List.getLast?_eq_some_iff.mp hlast
    exact .inr (.inl ⟨front, rfl, by simp [join, hrest, hends]⟩)
  · exact .inr (.inr ⟨hempty, by simp [join, hrest, hempty, hends]⟩)

/-- The steps of a relative path follow those of the path that it is joined to. -/
theorem steps_join_relative {base rest : Path} (hrest : rest.isAbsolute = false) :
    (route (join base rest)).steps = (route base).steps ++ (route rest).steps := by
  rcases join_cases base hrest with ⟨rfl, hjoin⟩ | ⟨front, rfl, hjoin⟩ | ⟨-, hjoin⟩
  · rw [hjoin]
    rfl
  · rw [hjoin, steps_append_separator, steps_append_separator]
    simp [route, Text.splitAt]
  · rw [hjoin, steps_append_separator]

theorem absolute_join_relative {base rest : Path} (hrest : rest.isAbsolute = false) :
    (route (join base rest)).absolute = (route base).absolute := by
  rcases join_cases base hrest with ⟨rfl, hjoin⟩ | ⟨front, rfl, hjoin⟩ | ⟨hne, hjoin⟩
  · rw [hjoin]
    exact hrest
  · rw [hjoin]
    cases front <;> rfl
  · rw [hjoin]
    cases base with
    | nil => exact absurd rfl hne
    | cons => rfl

section Join

variable {base : Path} {names : List Name}

theorem isAbsolute_names (h : ∀ n ∈ names, IsOrdinary n) :
    isAbsolute ([separator].intercalate names) = false := by
  have horder : InOrder (names.map Component.name) :=
    (show InOrder [] from trivial).append (isInner_of_mem_names h)
  rw [intercalate_names]
  change (route _).absolute = false
  rw [absolute_eq, components_ofComponents horder]
  cases names <;> simp

theorem splitAt_names (hne : names ≠ []) (h : ∀ n ∈ names, IsOrdinary n) :
    Text.splitAt (· == separator) ([separator].intercalate names) = names := by
  rw [Text.splitAt_eq_splitOnP, ← List.splitOn_eq_splitOnP]
  exact List.splitOn_intercalate separator (fun n hn => (h n hn).1) hne

/-- Names that follow a path are its last components. -/
theorem components_join (hne : names ≠ []) (h : ∀ n ∈ names, IsOrdinary n) :
    components (join base ([separator].intercalate names)) =
      base.components ++ names.map .name := by
  have horder : InOrder (names.map Component.name) :=
    (show InOrder [] from trivial).append (isInner_of_mem_names h)
  have hinner : (Text.splitAt (· == separator) ([separator].intercalate names)).filterMap
      innerComponent? = names.map .name := by
    rw [splitAt_names hne h]
    simpa [Component.part, Function.comp_def] using filterMap_part (isInner_of_mem_names h)
  rcases join_cases base (isAbsolute_names h) with
    ⟨rfl, hjoin⟩ | ⟨front, rfl, hjoin⟩ | ⟨hbase, hjoin⟩
  · rw [hjoin, intercalate_names, components_ofComponents horder]
    rfl
  · rw [hjoin, components_append_separator, hinner]
  · rw [hjoin, components_append_separator, components_append_singleton_separator hbase, hinner]

theorem steps_names (hne : names ≠ []) (h : ∀ n ∈ names, IsOrdinary n) :
    (route ([separator].intercalate names)).steps = names := by
  simp only [route, splitAt_names hne h, List.filter_eq_self]
  intro n hn
  simpa [Component.part] using (h n hn).part_ne.1

/-- Names that follow a path are its last steps. -/
theorem steps_join (hne : names ≠ []) (h : ∀ n ∈ names, IsOrdinary n) :
    (route (join base ([separator].intercalate names))).steps = (route base).steps ++ names := by
  rw [steps_join_relative (isAbsolute_names h), steps_names hne h]

theorem absolute_join (h : ∀ n ∈ names, IsOrdinary n) :
    (route (join base ([separator].intercalate names))).absolute = (route base).absolute :=
  absolute_join_relative (isAbsolute_names h)

theorem directory_join (hne : names ≠ []) (h : ∀ n ∈ names, IsOrdinary n) :
    (route (join base ([separator].intercalate names))).directory = false := by
  have hlast (front whole : List Bytes) : front ++ names ≠ whole ++ [[]] := by
    obtain ⟨others, last, rfl⟩ := List.eq_nil_or_concat names |>.resolve_left hne
    intro heq
    rw [List.concat_eq_append, ← List.append_assoc] at heq
    have hnil : last = [] := by simpa using List.append_inj_right' heq rfl
    exact (h last (by simp)).part_ne.1 hnil
  rw [route, ← Bool.not_eq_true]
  intro hends
  obtain ⟨whole, hwhole⟩ := List.getLast?_eq_some_iff.mp (beq_iff_eq.mp hends)
  have hsplit := splitAt_append_separator whole []
  rw [← hwhole] at hsplit
  rcases join_cases base (isAbsolute_names h) with ⟨-, hjoin⟩ | ⟨front, -, hjoin⟩ | ⟨-, hjoin⟩
  · rw [hjoin, splitAt_names hne h] at hsplit
    exact hlast [] _ hsplit
  · rw [hjoin, splitAt_append_separator, splitAt_names hne h] at hsplit
    exact hlast _ _ hsplit
  · rw [hjoin, splitAt_append_separator, splitAt_names hne h] at hsplit
    exact hlast _ _ hsplit

end Join

/-! ## Above a path -/

theorem parent?_join {base : Path} {front : List Name} {last : Name}
    (h : ∀ n ∈ front ++ [last], IsOrdinary n) :
    parent? (join base ([separator].intercalate (front ++ [last]))) =
      some (ofComponents (base.components ++ front.map .name)) := by
  have hcomponents :
      components (join base ([separator].intercalate (front ++ [last]))) =
        (base.components ++ front.map .name) ++ [.name last] := by
    simpa using components_join (by simp) h
  have hroot : (base.components ++ front.map .name) ++ [Component.name last] ≠ [.root] := by
    intro heq
    have hlast := congrArg List.getLast? heq
    simp at hlast
  have hempty :
      (base.components ++ front.map Component.name ++ [Component.name last]).isEmpty = false := by
    simp
  simp only [parent?, hcomponents, hempty, beq_eq_false_iff_ne.mpr hroot, Bool.or_self,
    Bool.false_eq_true, if_false, List.dropLast_concat]

/-- What lies above a path is the path of its first components. -/
theorem exists_take_of_mem_above {cs : List Component} {path : Path} (h : path ∈ above cs) :
    ∃ n, path = ofComponents (cs.take n) := by
  obtain ⟨n, -, hn⟩ := List.mem_filterMap.mp h
  dsimp only at hn
  split at hn
  · cases hn
  · cases hn
    exact ⟨n, rfl⟩

end StackControl.Path
