import BasicOutline.Settings.Check
import Mathlib.Data.List.Basic

/-! What the check of settings answers.

Each setting is judged by the value given for it alone. The check reports one issue for each value
that is not valid, in the order of the settings, and without issues it gives every setting the value
that was given for it, or its default. -/

namespace BasicOutline

namespace Validation.Check

structure Reports {α : Type} (check : Check α) (issues : List Issue) (valid : α → Prop) : Prop where
  ok : issues = [] → ∃ value, check = .ok value ∧ valid value
  error : issues ≠ [] → check = .error issues

section Reports

variable {α β : Type} {issues others : List Issue}

theorem Reports.map {check : Check α} {valid : α → Prop} (reports : Reports check issues valid)
    (f : α → β) :
    Reports (check.map f) issues fun result => ∃ value, valid value ∧ result = f value := by
  constructor
  · intro none_there
    obtain ⟨value, checked, holds⟩ := reports.ok none_there
    rw [checked]
    exact ⟨f value, rfl, value, holds, rfl⟩
  · intro some_there
    rw [reports.error some_there]
    rfl

theorem Reports.ap {function : Check (α → β)} {check : Check α} {known : (α → β) → Prop}
    {valid : α → Prop} (first : Reports function issues known)
    (second : Reports check others valid) :
    Reports (function.ap check) (issues ++ others) fun result =>
      ∃ f value, known f ∧ valid value ∧ result = f value := by
  by_cases clean : issues = []
  · obtain ⟨f, made, knows⟩ := first.ok clean
    by_cases clear : others = []
    · obtain ⟨value, checked, holds⟩ := second.ok clear
      rw [made, checked, clean, clear]
      exact ⟨fun _ => ⟨f value, rfl, f, value, knows, holds, rfl⟩, fun wrong => absurd rfl wrong⟩
    · rw [made, second.error clear, clean]
      exact ⟨fun wrong => absurd wrong clear, fun _ => rfl⟩
  · rw [first.error clean]
    refine ⟨fun wrong => absurd (List.append_eq_nil_iff.mp wrong).1 clean, fun _ => ?_⟩
    by_cases clear : others = []
    · obtain ⟨value, checked, -⟩ := second.ok clear
      rw [checked, clear, List.append_nil]
      rfl
    · rw [second.error clear]
      rfl

theorem Reports.mono {check : Check α} {valid more : α → Prop}
    (reports : Reports check issues valid) (wider : ∀ value, valid value → more value) :
    Reports check issues more := by
  refine ⟨fun none_there => ?_, reports.error⟩
  obtain ⟨value, checked, holds⟩ := reports.ok none_there
  exact ⟨value, checked, wider value holds⟩

end Reports

end Validation.Check

open Validation

/-- The value is the one that was given, as it is read, or the default if none was. -/
def ComesFrom {α : Type} (read : Json → Except Problem α) (default : α) (given : Option Json)
    (value : α) : Prop :=
  match given with
  | some json => read json = .ok value
  | none => value = default

theorem ComesFrom.unique {α : Type} {read : Json → Except Problem α} {default : α}
    {given : Option Json} {value other : α} (comes : ComesFrom read default given value)
    (again : ComesFrom read default given other) : value = other := by
  cases given with
  | none => exact comes.trans again.symm
  | some json => exact Except.ok.inj (comes.symm.trans again)

def complaint? {α : Type} : Except Problem α → Option Problem
  | .ok _ => none
  | .error problem => some problem

namespace Setting

def problem? : Setting → Json → Option Problem
  | .standardIndentLevel, value => complaint? (natOf value)
  | _, value => complaint? (boolOf value)

def issue? (setting : Setting) (given : Option (Text × Json)) : Option Issue :=
  given.bind fun field =>
    (setting.problem? field.2).map fun problem => ⟨problem, [.field field.1], field.2⟩

def issues (given : Setting → Option (Text × Json)) : List Issue :=
  all.filterMap fun setting => setting.issue? (given setting)

theorem issues_eq_nil_iff {given : Setting → Option (Text × Json)} :
    issues given = [] ↔
      ∀ setting key value, given setting = some (key, value) → setting.problem? value = none := by
  have everywhere : ∀ setting : Setting, setting ∈ all := by
    intro setting
    cases setting <;> decide
  simp only [issues, List.filterMap_eq_nil_iff, everywhere, true_implies, issue?,
    Option.bind_eq_none_iff, Option.map_eq_none_iff, Prod.forall]

/-- The check of one setting, where `read` is how its values are read. -/
theorem reports_check {α : Type} (setting : Setting) {read : Json → Except Problem α}
    (own : ∀ value, setting.problem? value = complaint? (read value)) (fields : Json.Fields)
    (default : α) :
    (setting.check fields default fun value => .ofResult value (read value)).Reports
      (setting.issue? (setting.given? fields)).toList
      (ComesFrom read default ((setting.given? fields).map (·.2))) := by
  unfold Setting.check
  cases setting.given? fields with
  | none => exact ⟨fun _ => ⟨default, rfl, rfl⟩, fun wrong => absurd rfl wrong⟩
  | some field =>
    obtain ⟨key, value⟩ := field
    cases result : read value with
    | ok taken =>
      have clear : setting.issue? (some (key, value)) = none := by
        simp [issue?, own, result, complaint?]
      rw [clear]
      refine ⟨fun _ => ⟨taken, ?_, result⟩, fun wrong => absurd rfl wrong⟩
      simp only [result]
      rfl
    | error problem =>
      have found : setting.issue? (some (key, value)) = some ⟨problem, [.field key], value⟩ := by
        simp [issue?, own, result, complaint?]
      rw [found]
      refine ⟨nofun, fun _ => ?_⟩
      simp only [result]
      rfl

end Setting

namespace Settings

/-- Every setting has the value given for it, or its default. -/
structure Reflects (given : Setting → Option Json) (settings : Settings) : Prop where
  useStandardIndent : ComesFrom boolOf ({} : Settings).useStandardIndent (given .useStandardIndent)
    settings.useStandardIndent
  standardIndentLevel : ComesFrom natOf ({} : Settings).standardIndentLevel
    (given .standardIndentLevel) settings.standardIndentLevel
  showParameters : ComesFrom boolOf ({} : Settings).showParameters (given .showParameters)
    settings.showParameters
  showFunctionType : ComesFrom boolOf ({} : Settings).showFunctionType (given .showFunctionType)
    settings.showFunctionType
  showVarType : ComesFrom boolOf ({} : Settings).showVarType (given .showVarType)
    settings.showVarType

theorem Reflects.unique {given : Setting → Option Json} {settings others : Settings}
    (reflects : Reflects given settings) (again : Reflects given others) : settings = others := by
  cases settings
  cases others
  rw [Settings.mk.injEq]
  exact ⟨reflects.useStandardIndent.unique again.useStandardIndent,
    reflects.standardIndentLevel.unique again.standardIndentLevel,
    reflects.showParameters.unique again.showParameters,
    reflects.showFunctionType.unique again.showFunctionType,
    reflects.showVarType.unique again.showVarType⟩

theorem Reflects.problem?_eq_none {given : Setting → Option Json} {settings : Settings}
    (reflects : Reflects given settings) {setting : Setting} {value : Json}
    (there : given setting = some value) : setting.problem? value = none := by
  have valid {α : Type} {read : Json → Except Problem α} {default taken : α}
      (comes : ComesFrom read default (given setting) taken) : complaint? (read value) = none := by
    rw [there] at comes
    rw [show read value = .ok taken from comes]
    rfl
  cases setting with
  | useStandardIndent => exact valid reflects.useStandardIndent
  | standardIndentLevel => exact valid reflects.standardIndentLevel
  | showParameters => exact valid reflects.showParameters
  | showFunctionType => exact valid reflects.showFunctionType
  | showVarType => exact valid reflects.showVarType

theorem reports_ofFields (fields : Json.Fields) :
    (ofFields fields).Reports (Setting.issues fun setting => setting.given? fields)
      (Reflects fun setting => (setting.given? fields).map (·.2)) := by
  have level : ∀ value, Setting.standardIndentLevel.problem? value = complaint? (natOf value) :=
    fun _ => rfl
  have flag (setting : Setting)
      (own : ∀ value, setting.problem? value = complaint? (boolOf value)) :=
    setting.reports_check own fields false
  have first := (flag .useStandardIndent fun _ => rfl).map Settings.mk
  have second := first.ap (Setting.standardIndentLevel.reports_check level fields 2)
  have third := second.ap (flag .showParameters fun _ => rfl)
  have fourth := third.ap (flag .showFunctionType fun _ => rfl)
  have whole := fourth.ap (flag .showVarType fun _ => rfl)
  have listed : Setting.issues (fun setting => setting.given? fields) = _ :=
    List.filterMap_eq_flatMap_toList _ Setting.all
  simp only [Setting.all, List.flatMap_cons, List.flatMap_nil, List.append_nil,
    ← List.append_assoc] at listed
  rw [listed]
  refine whole.mono ?_
  rintro settings ⟨_, shown, ⟨_, returned, ⟨_, listed, ⟨_, wide, ⟨standard, one, rfl⟩, two, rfl⟩,
    three, rfl⟩, four, rfl⟩, five, rfl⟩
  exact ⟨one, two, three, four, five⟩

end Settings

end BasicOutline
