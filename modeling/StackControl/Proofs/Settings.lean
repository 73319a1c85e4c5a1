import Mathlib.Data.List.Basic
import Mathlib.Data.List.Induction
import Mathlib.Data.List.Nodup
import StackControl.Settings

/-!
# Precedence among the settings

For each setting the value prevails that was given last; failing that, the one of its variable;
failing that, its default.  The settings do not interfere with each other, because every one has a
variable of its own.  For the same reason the exported variables can be resolved anew, and then
tell everything but empty values.
-/

namespace StackControl

/-- A value given for a setting, or the lack of one. -/
abbrev Assignment := StackKey × Option String

/-- The environment that holds just these variables; a later one of the same name wins. -/
def Environment.ofList (pairs : List (String × String)) : Environment := fun name =>
  pairs.reverse.lookup name

variable {assignments assignments' : List Assignment} {environment environment' : Environment}
  {key other : StackKey} {value : String}

theorem StackKey.variableName_injective : Function.Injective StackKey.variableName := by
  intro key other h
  revert h
  cases key <;> cases other <;> decide

theorem StackKey.nodup_all : StackKey.all.Nodup := by
  decide

namespace ExplicitSettings

/-- The settings that are given one after the other. -/
def ofList (assignments : List Assignment) : ExplicitSettings :=
  assignments.foldl (fun explicit assignment => explicit.set assignment.1 assignment.2) none

/-- The values given for one setting, in order. -/
def valuesOf (key : StackKey) (assignments : List Assignment) : List String :=
  (assignments.filter (·.1 = key)).filterMap Prod.snd

theorem value_set (explicit : ExplicitSettings) (key other : StackKey) (value : Option String) :
    (explicit.set key value).value other =
      if other = key then value.or (explicit.value other) else explicit.value other := by
  cases value with
  | none => simp [set]
  | some value => simp [set]

/-- What is given for different settings can be given in either order. -/
theorem set_comm (explicit : ExplicitSettings) (h : key ≠ other) (value value' : Option String) :
    (explicit.set key value).set other value' = (explicit.set other value').set key value := by
  have hvalue (k : StackKey) :
      ((explicit.set key value).set other value').value k =
        ((explicit.set other value').set key value).value k := by
    simp only [value_set]
    by_cases hkey : k = key
    · subst hkey
      simp [h]
    · simp [hkey]
  exact congrArg mk (funext hvalue)

/-- A setting holds the last value that was given for it. -/
theorem value_ofList (key : StackKey) (assignments : List Assignment) :
    (ofList assignments).value key = (valuesOf key assignments).getLast? := by
  -- Only the last assignment is at the surface of the fold.
  induction assignments using List.reverseRecOn with
  | nil => rfl
  | append_singleton assignments assignment ih =>
      obtain ⟨k, value⟩ := assignment
      have hset : ofList (assignments ++ [(k, value)]) = (ofList assignments).set k value := by
        simp [ofList]
      rw [hset, value_set, ih, valuesOf, valuesOf, List.filter_append, List.filterMap_append]
      by_cases hkey : key = k
      · subst hkey
        cases value <;> simp
      · simp [hkey, Ne.symm hkey]

theorem mem_valuesOf : value ∈ valuesOf key assignments ↔ (key, some value) ∈ assignments := by
  simp [valuesOf]

theorem valuesOf_eq_nil :
    valuesOf key assignments = [] ↔ ∀ value, (key, some value) ∉ assignments := by
  simp only [List.eq_nil_iff_forall_not_mem, mem_valuesOf]

theorem valuesOf_append (earlier later : List Assignment) :
    valuesOf key (earlier ++ later) = valuesOf key earlier ++ valuesOf key later := by
  simp [valuesOf]

/-- The last value that was given is followed by none. -/
theorem getLast?_valuesOf_eq_some_iff :
    (valuesOf key assignments).getLast? = some value ↔
      ∃ earlier later, assignments = earlier ++ (key, some value) :: later ∧
        ∀ given, (key, some given) ∉ later := by
  constructor
  · intro h
    induction assignments using List.reverseRecOn with
    | nil => cases h
    | append_singleton assignments assignment ih =>
        rw [valuesOf_append] at h
        by_cases hgiven : valuesOf key [assignment] = []
        · rw [hgiven, List.append_nil] at h
          obtain ⟨earlier, later, rfl, hlater⟩ := ih h
          refine ⟨earlier, later ++ [assignment], by simp, fun given hmem => ?_⟩
          rcases List.mem_append.mp hmem with hmem | hmem
          · exact hlater given hmem
          · exact valuesOf_eq_nil.mp hgiven given hmem
        · rw [List.getLast?_append_of_ne_nil _ hgiven] at h
          have hmem := mem_valuesOf.mp (List.mem_of_mem_getLast? h)
          rw [← List.mem_singleton.mp hmem]
          exact ⟨assignments, [], rfl, fun _ => List.not_mem_nil⟩
  · rintro ⟨earlier, later, rfl, hlater⟩
    have hgiven : valuesOf key ((key, some value) :: later) = [value] := by
      rw [← List.singleton_append, valuesOf_append, valuesOf_eq_nil.mpr hlater]
      simp [valuesOf]
    rw [valuesOf_append, hgiven]
    exact List.getLast?_concat

end ExplicitSettings

namespace StackSettings

open ExplicitSettings (ofList valuesOf value_ofList getLast?_valuesOf_eq_some_iff valuesOf_eq_nil)

/-- The value that prevails for a setting. -/
inductive Prevails (assignments : List Assignment) (environment : Environment) (key : StackKey) :
    String → Prop
  /-- What was given last wins, be it empty. -/
  | given {earlier later : List Assignment} {value : String} :
      assignments = earlier ++ (key, some value) :: later →
        (∀ given, (key, some given) ∉ later) → Prevails assignments environment key value
  /-- A variable counts if nothing was given and it is not empty. -/
  | inherited {value : String} :
      (∀ given, (key, some given) ∉ assignments) →
        environment key.variableName = some value → value ≠ "" →
          Prevails assignments environment key value
  | default :
      (∀ given, (key, some given) ∉ assignments) →
        (∀ value, environment key.variableName = some value → value = "") →
          Prevails assignments environment key key.default

theorem nonEmpty?_eq_some_iff {found : Option String} :
    nonEmpty? found = some value ↔ found = some value ∧ value ≠ "" := by
  cases found with
  | none => simp [nonEmpty?]
  | some text =>
      simp only [nonEmpty?, String.isEmpty_iff]
      split
      next hempty =>
        refine ⟨nofun, fun h => absurd ?_ h.2⟩
        rw [← Option.some.inj h.1, hempty]
      next hne => exact ⟨fun h => ⟨h, Option.some.inj h ▸ hne⟩, And.left⟩

theorem nonEmpty?_eq_none_iff {found : Option String} :
    nonEmpty? found = none ↔ ∀ value, found = some value → value = "" := by
  cases found with
  | none => simp [nonEmpty?]
  | some text => simp [nonEmpty?]

theorem value_resolve (assignments : List Assignment) (environment : Environment)
    (key : StackKey) :
    (resolve (ofList assignments) environment).value key =
      (valuesOf key assignments).getLast?.getD
        ((nonEmpty? (environment key.variableName)).getD key.default) := by
  simp only [resolve, value_ofList]
  cases (valuesOf key assignments).getLast? <;> rfl

theorem prevails_resolve (assignments : List Assignment) (environment : Environment)
    (key : StackKey) :
    Prevails assignments environment key
      ((resolve (ofList assignments) environment).value key) := by
  rw [value_resolve]
  rcases hlast : (valuesOf key assignments).getLast? with _ | value
  · have hnone := valuesOf_eq_nil.mp (List.getLast?_eq_none_iff.mp hlast)
    rcases hfound : nonEmpty? (environment key.variableName) with _ | value
    · exact .default hnone (nonEmpty?_eq_none_iff.mp hfound)
    · obtain ⟨hset, hne⟩ := nonEmpty?_eq_some_iff.mp hfound
      exact .inherited hnone hset hne
  · obtain ⟨earlier, later, hsplit, hlater⟩ := getLast?_valuesOf_eq_some_iff.mp hlast
    exact .given hsplit hlater

theorem Prevails.eq_resolve (h : Prevails assignments environment key value) :
    (resolve (ofList assignments) environment).value key = value := by
  rw [value_resolve]
  cases h with
  | given hsplit hlater =>
      rw [getLast?_valuesOf_eq_some_iff.mpr ⟨_, _, hsplit, hlater⟩]
      rfl
  | inherited hnone hset hne =>
      rw [valuesOf_eq_nil.mpr hnone, nonEmpty?_eq_some_iff.mpr ⟨hset, hne⟩]
      rfl
  | default hnone hunset =>
      rw [valuesOf_eq_nil.mpr hnone, nonEmpty?_eq_none_iff.mpr hunset]
      rfl

/-- What is given for one setting, and its variable, matter to no other setting. -/
theorem value_resolve_of_ne
    (hgiven : assignments.filter (·.1 ≠ key) = assignments'.filter (·.1 ≠ key))
    (hset : ∀ name, name ≠ key.variableName → environment name = environment' name)
    (h : other ≠ key) :
    (resolve (ofList assignments) environment).value other =
      (resolve (ofList assignments') environment').value other := by
  have hkept (assignments : List Assignment) :
      valuesOf other assignments = valuesOf other (assignments.filter (·.1 ≠ key)) := by
    rw [valuesOf, valuesOf, List.filter_filter]
    congr 2
    funext assignment
    by_cases hother : assignment.1 = other
    · simp [hother, h]
    · simp [hother]
  rw [value_resolve, value_resolve, hkept assignments, hkept assignments', hgiven,
    hset _ fun heq => h (StackKey.variableName_injective heq)]

/-! ## Exported variables -/

variable (settings : StackSettings)

theorem mem_composeEnvironment_iff {name : String} :
    (name, value) ∈ settings.composeEnvironment ↔
      ∃ key : StackKey, key.variableName = name ∧ settings.value key = value := by
  simp [composeEnvironment, StackKey.mem_all]

theorem nodup_composeEnvironment : (settings.composeEnvironment.map Prod.fst).Nodup := by
  rw [composeEnvironment, List.map_map]
  exact StackKey.nodup_all.map StackKey.variableName_injective

/-- A variable that is exported has the value of its setting. -/
theorem lookup_composeEnvironment (key : StackKey) :
    Environment.ofList settings.composeEnvironment key.variableName =
      some (settings.value key) := by
  cases key <;> rfl

/-- The exported variables tell every setting that is not empty. -/
theorem value_resolve_composeEnvironment (key : StackKey) :
    (resolve .none (.ofList settings.composeEnvironment)).value key =
      if settings.value key = "" then key.default else settings.value key := by
  have hvalue : (resolve .none (.ofList settings.composeEnvironment)).value key =
      (nonEmpty? (Environment.ofList settings.composeEnvironment key.variableName)).getD
        key.default := rfl
  rw [hvalue, lookup_composeEnvironment]
  by_cases hempty : settings.value key = ""
  · simp [nonEmpty?, hempty]
  · simp [nonEmpty?, hempty]

/-- Each setting has the value that prevails for it, and depends neither on what is given for the
others nor on their variables; what is given for different settings can be given in either order.
The variables of all settings are exported once each, and resolving them anew gives every value that
is not empty back. -/
theorem resolved_by_precedence :
    (∀ (assignments : List Assignment) (environment : Environment) (key : StackKey)
        (value : String),
      (resolve (ofList assignments) environment).value key = value ↔
        Prevails assignments environment key value) ∧
      (∀ (assignments assignments' : List Assignment) (environment environment' : Environment)
          (key : StackKey),
        assignments.filter (·.1 ≠ key) = assignments'.filter (·.1 ≠ key) →
          (∀ name, name ≠ key.variableName → environment name = environment' name) →
            ∀ other, other ≠ key →
              (resolve (ofList assignments) environment).value other =
                (resolve (ofList assignments') environment').value other) ∧
      (∀ (explicit : ExplicitSettings) (key other : StackKey) (value value' : Option String),
        key ≠ other →
          (explicit.set key value).set other value' =
            (explicit.set other value').set key value) ∧
      ∀ settings : StackSettings,
        settings.composeEnvironment.map Prod.fst =
            ["REVISION", "DOCKERHUB_ORG_NAME", "COMPOSE_PROJECT_NAME", "NEON_EVM_COMMIT",
              "FAUCET_COMMIT"] ∧
          (settings.composeEnvironment.map Prod.fst).Nodup ∧
          (∀ name value, (name, value) ∈ settings.composeEnvironment ↔
            ∃ key : StackKey, key.variableName = name ∧ settings.value key = value) ∧
          ∀ key, (resolve .none (.ofList settings.composeEnvironment)).value key =
            if settings.value key = "" then key.default else settings.value key := by
  refine ⟨?_, ?_, ?_, ?_⟩
  · intro assignments environment key value
    constructor
    · rintro rfl
      exact prevails_resolve assignments environment key
    · exact Prevails.eq_resolve
  · intro assignments assignments' environment environment' key hgiven hset other h
    exact value_resolve_of_ne hgiven hset h
  · intro explicit key other value value' h
    exact explicit.set_comm h value value'
  · intro settings
    exact ⟨rfl, nodup_composeEnvironment settings, fun _ _ => mem_composeEnvironment_iff settings,
      value_resolve_composeEnvironment settings⟩

end StackSettings

end StackControl
