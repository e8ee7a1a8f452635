import BasicOutline.Proofs.SettingsResolution
import Mathlib.Data.List.Forall2

/-! The two ways to settings agree.

Settings can be checked as they stand in an object, or loaded with the object as overrides. Both
ways give the same settings, or the same issues under other keys, if the object has neither a
section nor marked keys and gives no setting twice. -/

namespace BasicOutline

open Validation

/-- Fields that are told by a test alone, where it holds of one key only. -/
theorem find?_eq_lookup {fields : Json.Fields} {key : Text} {test : Text × Json → Bool}
    (only : ∀ field ∈ fields, test field = (key == field.1)) :
    (fields.find? test).map (·.2) = fields.lookup key := by
  induction fields with
  | nil => rfl
  | cons field rest ih =>
    rw [List.forall_mem_cons] at only
    rw [List.find?_cons, only.1, lookup_cons_eq_ite]
    cases key == field.1
    · exact ih only.2
    · rfl

theorem Json.Fields.lastOf_eq_get? {fields : Json.Fields}
    (distinct : (fields.map Prod.fst).Nodup) {keys : List Text} {key : Text}
    (only : ∀ name ∈ fields.map Prod.fst, name ∈ keys ↔ name = key) :
    fields.lastOf keys = fields.get? key := by
  rw [lastOf, get?, ← lookup_reverse distinct]
  apply find?_eq_lookup
  intro field member
  have here := only field.1 (List.mem_map_of_mem (List.mem_reverse.mp member))
  rw [Bool.eq_iff_iff, decide_eq_true_iff, beq_iff_eq, here, eq_comm]

theorem Setting.of_given?_eq_some {setting : Setting} {fields : Json.Fields} {key : Text}
    {value : Json} (given : setting.given? fields = some (key, value)) :
    (key = setting.editorKey ∨ key = setting.plainKey) ∧ fields.get? key = some value := by
  unfold given? at given
  cases editor : fields.get? setting.editorKey with
  | some first =>
    rw [editor] at given
    obtain ⟨rfl, rfl⟩ := Prod.mk.inj (Option.some.inj given)
    exact ⟨.inl rfl, editor⟩
  | none =>
    rw [editor] at given
    obtain ⟨other, there, same⟩ := Option.map_eq_some_iff.mp given
    obtain ⟨rfl, rfl⟩ := Prod.mk.inj same
    exact ⟨.inr rfl, there⟩

namespace Settings

/-- An object that gives each setting at most once, and only under one of its two keys. -/
structure Flat (fields : Json.Fields) : Prop where
  distinct : (fields.map Prod.fst).Nodup
  no_section : sectionKey ∉ fields.map Prod.fst
  unmarked : ∀ key ∈ fields.map Prod.fst, sectionMark.isPrefixOf key = false
  once : ∀ setting : Setting,
    setting.editorKey ∈ fields.map Prod.fst → setting.plainKey ∉ fields.map Prod.fst

theorem Flat.mem_topKeys_iff {fields : Json.Fields} (flat : Flat fields) {key : Text}
    (there : key ∈ fields.map Prod.fst) (setting : Setting) :
    key ∈ setting.topKeys ↔ key = setting.editorKey ∨ key = setting.plainKey := by
  have unmarked : ∀ name, key ≠ sectionMark ++ name := by
    rintro name rfl
    have marked := flat.unmarked _ there
    rw [List.isPrefixOf_iff_prefix.mpr (List.prefix_append _ _)] at marked
    cases marked
  simp [Setting.topKeys, Setting.keys, unmarked]

/-- The value that counts is the one that the check finds. -/
theorem Flat.candidate_eq {fields : Json.Fields} (flat : Flat fields) (setting : Setting) :
    setting.candidate fields = (setting.given? fields).map (·.2) := by
  have top : setting.candidate fields = fields.lastOf setting.topKeys := by
    rw [Setting.candidate, Json.Fields.get?_eq_none_iff.mpr flat.no_section]
  rw [top, Setting.given?]
  cases editor : fields.get? setting.editorKey with
  | some value =>
    have present : setting.editorKey ∈ fields.map Prod.fst := by
      by_contra absent
      rw [Json.Fields.get?_eq_none_iff.mpr absent] at editor
      cases editor
    have last : fields.lastOf setting.topKeys = fields.get? setting.editorKey := by
      apply Json.Fields.lastOf_eq_get? flat.distinct
      intro name there
      have other : name ≠ setting.plainKey := by
        rintro rfl
        exact flat.once setting present there
      simp [flat.mem_topKeys_iff there, other]
    rw [last, editor]
    rfl
  | none =>
    have last : fields.lastOf setting.topKeys = fields.get? setting.plainKey := by
      apply Json.Fields.lastOf_eq_get? flat.distinct
      intro name there
      have other : name ≠ setting.editorKey := by
        rintro rfl
        exact Json.Fields.get?_eq_none_iff.mp editor there
      simp [flat.mem_topKeys_iff there, other]
    rw [last, Option.map_map]
    exact Option.map_id'.symm

theorem Flat.chosen_eq {fields : Json.Fields} (flat : Flat fields) (setting : Setting) :
    setting.chosen [] fields = (setting.given? fields).map (·.2) := by
  have nothing : setting.candidate [] = none := rfl
  rw [Setting.chosen, nothing, Option.or_none, flat.candidate_eq]

/-- An issue of the check, and the same issue as it is reported of loaded settings: under the plain
key of the setting instead of the key that was used. -/
structure Restates (fields : Json.Fields) (checked loaded : Issue) : Prop where
  problem : loaded.problem = checked.problem
  input : loaded.input = checked.input
  location : ∃ setting : Setting, ∃ key, (key = setting.editorKey ∨ key = setting.plainKey) ∧
    fields.get? key = some checked.input ∧ checked.location = [.field key] ∧
    loaded.location = [.field setting.plainKey]

theorem Flat.issues_restated {fields : Json.Fields} (flat : Flat fields) :
    List.Forall₂ (Restates fields) (Setting.issues fun setting => setting.given? fields)
      (chosenIssues [] fields) := by
  apply List.rel_filterMap (R := Eq)
  · rintro setting _ rfl
    simp only [flat.chosen_eq, Option.map_map]
    cases given : setting.given? fields with
    | none => exact .none
    | some field =>
      obtain ⟨key, value⟩ := field
      obtain ⟨own, there⟩ := Setting.of_given?_eq_some given
      cases problem : setting.problem? value with
      | none => simp [Setting.issue?, problem]
      | some found =>
        simp only [Setting.issue?, problem, Option.map_some, Function.comp_def, Option.bind_some]
        exact .some ⟨rfl, rfl, setting, key, own, there, rfl, rfl⟩
  · exact List.forall₂_same.mpr fun _ _ => rfl

section Loading

variable {fields : Json.Fields} (fs : FileSystem)

theorem Flat.load_of_check_ok (flat : Flat fields) {settings : Settings}
    (checked : check (.object fields) = .ok settings) : load fs none fields = .ok settings := by
  have checks := reports_ofFields fields
  have clean : (Setting.issues fun setting => setting.given? fields) = [] := by
    by_contra some_there
    have failed := checks.error some_there
    rw [show ofFields fields = .ok settings from checked] at failed
    cases failed
  obtain ⟨taken, passed, reflects⟩ := checks.ok clean
  obtain rfl : taken = settings := Except.ok.inj (passed.symm.trans checked)
  have restated := flat.issues_restated
  rw [clean] at restated
  have read : (none : Option Text).elim (.ok []) (readFile fs) = .ok [] := rfl
  obtain ⟨others, loaded, again⟩ :=
    exists_load_of_valid read (List.forall₂_nil_left_iff.mp restated)
  rw [funext flat.chosen_eq] at again
  rw [loaded, again.unique reflects]

theorem Flat.load_of_check_error (flat : Flat fields) {issues : List Issue}
    (checked : check (.object fields) = .error issues) :
    ∃ loaded, load fs none fields = .error (.invalid loaded) ∧
      List.Forall₂ (Restates fields) issues loaded := by
  have checks := reports_ofFields fields
  have faulty : (Setting.issues fun setting => setting.given? fields) ≠ [] := by
    intro clean
    obtain ⟨settings, passed, -⟩ := checks.ok clean
    rw [show ofFields fields = .error issues from checked] at passed
    cases passed
  obtain rfl : (Setting.issues fun setting => setting.given? fields) = issues :=
    Except.error.inj ((checks.error faulty).symm.trans checked)
  have restated := flat.issues_restated
  have invalid : chosenIssues [] fields ≠ [] := by
    intro clean
    rw [clean] at restated
    exact faulty (List.forall₂_nil_right_iff.mp restated)
  have read : (none : Option Text).elim (.ok []) (readFile fs) = .ok [] := rfl
  exact ⟨_, load_of_invalid read invalid, restated⟩

end Loading

/-- Overrides that give each setting at most once are loaded as they are checked: both give the same
settings, or both fail with the same problems of the same values in the same order. -/
theorem load_agrees_with_check {fields : Json.Fields} (flat : Flat fields) (fs : FileSystem) :
    (∃ settings, load fs none fields = .ok settings ∧ check (.object fields) = .ok settings) ∨
    ∃ checked loaded, check (.object fields) = .error checked ∧
      load fs none fields = .error (.invalid loaded) ∧
      List.Forall₂ (Restates fields) checked loaded := by
  cases checked : check (.object fields) with
  | ok settings => exact .inl ⟨settings, flat.load_of_check_ok fs checked, rfl⟩
  | error issues =>
    obtain ⟨loaded, failed, restated⟩ := flat.load_of_check_error fs checked
    exact .inr ⟨issues, loaded, rfl, failed, restated⟩

/-- Two issues, of which one is reported under another key, and a field that is no setting. -/
theorem load_agrees_with_check_of_null_flag :
    let fields : Json.Fields :=
      [("ShowVarType".toList, .null), ("theme".toList, .text "dark".toList),
        ("standard_indent_level".toList, .int (-1))]
    ∃ loaded, load ⟨[], "/".toList⟩ none fields = .error (.invalid loaded) ∧
      List.Forall₂ (Restates fields)
        [⟨.negative, [.field "standard_indent_level".toList], .int (-1)⟩,
          ⟨.notBool, [.field "ShowVarType".toList], .null⟩] loaded := by
  intro fields
  have once : ∀ setting ∈ Setting.all,
      setting.editorKey ∈ fields.map Prod.fst → setting.plainKey ∉ fields.map Prod.fst := by
    decide
  have flat : Flat fields :=
    ⟨by decide, by decide, by decide, fun setting => once setting (by cases setting <;> decide)⟩
  have checked : check (.object fields) =
      .error [⟨.negative, [.field "standard_indent_level".toList], .int (-1)⟩,
        ⟨.notBool, [.field "ShowVarType".toList], .null⟩] := rfl
  rcases load_agrees_with_check flat ⟨[], "/".toList⟩ with
    ⟨settings, -, passed⟩ | ⟨found, loaded, failed, refused, restated⟩
  · rw [checked] at passed
    cases passed
  · rw [checked] at failed
    rw [← Except.error.inj failed] at restated
    exact ⟨loaded, refused, restated⟩

end Settings

end BasicOutline
