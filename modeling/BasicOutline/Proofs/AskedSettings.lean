import BasicOutline.CommandLine.Run
import BasicOutline.Proofs.JsonReading
import BasicOutline.Proofs.SettingsAgreement
import BasicOutline.Proofs.SettingsSwitches

/-! What is asked of an outline, as the fields of a request.

The fields give the settings that the switches choose. A level below zero is the one thing that is
wrong with them, in a request and on the command line. -/

namespace BasicOutline

open Validation

theorem Setting.editorKey_beq (setting other : Setting) :
    (setting.editorKey == other.editorKey) = decide (setting = other) := by
  rw [Bool.eq_iff_iff, beq_iff_eq, decide_eq_true_iff]
  exact ⟨Setting.editorKey_injective, congrArg _⟩

namespace CommandLine.Asked

def fields (asked : Asked) : Json.Fields :=
  let flag (given : Bool) (setting : Setting) : Json.Fields :=
    if given then [(setting.editorKey, .bool true)] else []
  flag asked.showParameters .showParameters ++
    flag asked.showFunctionType .showFunctionType ++
    flag asked.showVarType .showVarType ++
    asked.standardIndent.elim [] fun level =>
      [(Setting.useStandardIndent.editorKey, .bool true),
        (Setting.standardIndentLevel.editorKey, .int level)]

def settings (asked : Asked) : Settings where
  useStandardIndent := asked.standardIndent.isSome
  standardIndentLevel := asked.standardIndent.elim 2 Int.toNat
  showParameters := asked.showParameters
  showFunctionType := asked.showFunctionType
  showVarType := asked.showVarType

theorem overrides_choice (asked : Asked) : asked.choice.overrides = asked.fields := by
  obtain ⟨parameters, functionType, varType, level?⟩ := asked
  cases level? <;> rfl

theorem keys_sublist (asked : Asked) :
    (asked.fields.map Prod.fst).Sublist
      ([.showParameters, .showFunctionType, .showVarType, .useStandardIndent,
        .standardIndentLevel].map Setting.editorKey) := by
  have level : ((asked.standardIndent.elim [] fun level =>
      [(Setting.useStandardIndent.editorKey, Json.bool true),
        (Setting.standardIndentLevel.editorKey, .int level)]).map Prod.fst).Sublist
      ([.useStandardIndent, .standardIndentLevel].map Setting.editorKey) := by
    cases asked.standardIndent
    · exact List.nil_sublist _
    · exact .refl _
  simp only [fields, List.map_append]
  exact (((keys_if _ _ _).append (keys_if _ _ _)).append (keys_if _ _ _)).append level

theorem exists_setting_of_mem {asked : Asked} {key : Text}
    (member : key ∈ asked.fields.map Prod.fst) : ∃ setting : Setting, setting.editorKey = key := by
  obtain ⟨setting, -, same⟩ := List.mem_map.mp (asked.keys_sublist.subset member)
  exact ⟨setting, same⟩

theorem not_mem_plainKey (asked : Asked) (setting : Setting) :
    setting.plainKey ∉ asked.fields.map Prod.fst := by
  intro member
  obtain ⟨other, same⟩ := exists_setting_of_mem member
  exact other.editorKey_ne_plainKey setting same

theorem flat_fields (asked : Asked) : Settings.Flat asked.fields := by
  have outside : ∀ setting : Setting, setting.editorKey ≠ Settings.sectionKey ∧
      Settings.sectionMark.isPrefixOf setting.editorKey = false := by
    intro setting
    cases setting <;> decide
  refine ⟨asked.keys_sublist.nodup (by decide), ?_, ?_, fun setting _ => ?_⟩
  · intro member
    obtain ⟨setting, same⟩ := exists_setting_of_mem member
    exact (outside setting).1 same
  · intro key member
    obtain ⟨setting, rfl⟩ := exists_setting_of_mem member
    exact (outside setting).2
  · exact asked.not_mem_plainKey setting

def value? (asked : Asked) : Setting → Option Json
  | .useStandardIndent => asked.standardIndent.map fun _ => .bool true
  | .standardIndentLevel => asked.standardIndent.map .int
  | .showParameters => if asked.showParameters then some (.bool true) else none
  | .showFunctionType => if asked.showFunctionType then some (.bool true) else none
  | .showVarType => if asked.showVarType then some (.bool true) else none

theorem get?_fields (asked : Asked) (setting : Setting) :
    asked.fields.get? setting.editorKey = asked.value? setting := by
  have flag (given : Bool) (other : Setting) :
      List.lookup setting.editorKey (if given then [(other.editorKey, Json.bool true)] else []) =
        if given ∧ setting = other then some (.bool true) else none := by
    cases given <;> simp [lookup_cons_eq_ite, Setting.editorKey_beq]
  have level : List.lookup setting.editorKey (asked.standardIndent.elim [] fun level =>
      [(Setting.useStandardIndent.editorKey, Json.bool true),
        (Setting.standardIndentLevel.editorKey, .int level)]) =
      asked.standardIndent.bind fun level =>
        if setting = .useStandardIndent then some (.bool true)
        else if setting = .standardIndentLevel then some (.int level) else none := by
    cases asked.standardIndent <;> simp [lookup_cons_eq_ite, Setting.editorKey_beq]
  simp only [Json.Fields.get?, fields, List.lookup_append, flag, level]
  cases given : asked.standardIndent <;> cases setting <;> simp [value?, given]

theorem given?_fields (asked : Asked) (setting : Setting) :
    setting.given? asked.fields = (asked.value? setting).map (setting.editorKey, ·) := by
  rw [Setting.given?, get?_fields]
  cases given : asked.value? setting with
  | some value => rfl
  | none =>
    rw [Json.Fields.get?_eq_none_iff.mpr (asked.not_mem_plainKey setting)]
    rfl

def Valid (asked : Asked) : Prop := ∀ level, asked.standardIndent = some level → 0 ≤ level

/-- The only issue that there can be is a level below zero. -/
def issue? (asked : Asked) : Option Issue :=
  asked.standardIndent.bind fun level =>
    if level < 0 then
      some ⟨.negative, [.field Setting.standardIndentLevel.editorKey], .int level⟩
    else none

theorem issue?_eq_none_iff {asked : Asked} : asked.issue? = none ↔ asked.Valid := by
  unfold issue? Valid
  cases asked.standardIndent with
  | none => simp
  | some level => simp

theorem exists_level_of_issue? {asked : Asked} {issue : Issue} (found : asked.issue? = some issue) :
    ∃ level < 0,
      issue = ⟨.negative, [.field Setting.standardIndentLevel.editorKey], .int level⟩ := by
  obtain ⟨level, -, here⟩ := Option.bind_eq_some_iff.mp found
  split at here
  · exact ⟨level, ‹_›, (Option.some.inj here).symm⟩
  · cases here

/-- What holds of valid settings alone. -/
theorem iff_valid {asked : Asked} {p : Prop} (valid : asked.Valid → p)
    (invalid : ∀ issue, asked.issue? = some issue → ¬p) : p ↔ asked.Valid := by
  refine ⟨fun holds => ?_, valid⟩
  rw [← issue?_eq_none_iff]
  cases found : asked.issue? with
  | none => rfl
  | some issue => exact absurd holds (invalid issue found)

theorem issue?_value? (asked : Asked) (setting : Setting) :
    setting.issue? ((asked.value? setting).map (setting.editorKey, ·)) =
      if setting = .standardIndentLevel then asked.issue? else none := by
  unfold value? issue?
  cases setting with
  | useStandardIndent => cases asked.standardIndent <;> rfl
  | standardIndentLevel =>
    cases asked.standardIndent with
    | none => rfl
    | some level =>
      cases level with
      | ofNat n => rfl
      | negSucc n =>
        rw [if_pos rfl, Option.bind_some, if_pos (Int.negSucc_lt_zero n)]
        rfl
  | showParameters => cases asked.showParameters <;> rfl
  | showFunctionType => cases asked.showFunctionType <;> rfl
  | showVarType => cases asked.showVarType <;> rfl

theorem issues_fields (asked : Asked) :
    (Setting.issues fun setting => setting.given? asked.fields) = asked.issue?.toList := by
  simp only [Setting.issues, given?_fields, issue?_value?]
  cases asked.issue? <;> rfl

theorem reflects_settings {asked : Asked} (valid : asked.Valid) :
    Settings.Reflects asked.value? asked.settings := by
  have flag (given : Bool) :
      ComesFrom boolOf false (if given then some (.bool true) else none) given := by
    cases given <;> rfl
  refine ⟨?_, ?_, flag _, flag _, flag _⟩
  · unfold value? settings
    cases asked.standardIndent <;> rfl
  · unfold value? settings
    cases given : asked.standardIndent with
    | none => rfl
    | some level =>
      obtain ⟨n, rfl⟩ := Int.eq_ofNat_of_zero_le (valid level given)
      rfl

theorem check_fields (asked : Asked) :
    (asked.Valid → Settings.ofFields asked.fields = .ok asked.settings) ∧
      ∀ issue, asked.issue? = some issue → Settings.ofFields asked.fields = .error [issue] := by
  have checks := Settings.reports_ofFields asked.fields
  rw [issues_fields] at checks
  simp only [given?_fields, Option.map_map, Function.comp_def, Option.map_id'] at checks
  constructor
  · intro valid
    obtain ⟨taken, passed, reflects⟩ := checks.ok (by rw [issue?_eq_none_iff.mpr valid]; rfl)
    rw [passed, reflects.unique (reflects_settings valid)]
  · intro issue found
    rw [found] at checks
    exact checks.error (List.cons_ne_nil issue [])

theorem readable_fields {asked : Asked} (short : asked.Short) :
    Json.ReadableFields asked.fields := by
  have flag (given : Bool) (key : Text) :
      ∀ field ∈ (if given then [(key, Json.bool true)] else []), field.2.Readable := by
    cases given
    · nofun
    · simp [Json.Readable]
  have level : ∀ field ∈ (asked.standardIndent.elim [] fun level =>
      [(Setting.useStandardIndent.editorKey, Json.bool true),
        (Setting.standardIndentLevel.editorKey, .int level)]), field.2.Readable := by
    cases given : asked.standardIndent with
    | none => nofun
    | some level => simpa [Json.Readable] using short level given
  rw [Json.readableFields_iff, fields]
  simp only [List.forall_mem_append]
  exact ⟨⟨⟨flag _ _, flag _ _⟩, flag _ _⟩, level⟩

theorem loadSettings_of_valid {asked : Asked} (valid : asked.Valid) (fs : FileSystem) :
    loadSettings fs asked.choice = .ok asked.settings := by
  rw [loadSettings, overrides_choice]
  exact asked.flat_fields.load_of_check_ok fs (asked.check_fields.1 valid)

theorem exists_loadSettings_error {asked : Asked} {issue : Issue}
    (found : asked.issue? = some issue) (fs : FileSystem) :
    ∃ error, loadSettings fs asked.choice = .error error := by
  obtain ⟨loaded, failed, -⟩ :=
    asked.flat_fields.load_of_check_error fs (asked.check_fields.2 issue found)
  rw [loadSettings, overrides_choice]
  exact ⟨.invalid loaded, failed⟩

end CommandLine.Asked

end BasicOutline
