import BasicOutline.Proofs.CheckedSettings
import BasicOutline.Proofs.FieldLookup
import BasicOutline.Proofs.JsonReading
import BasicOutline.Settings.Resolve

/-! How settings are resolved.

An object can give a setting under four keys, and in its section under two. Which of them counts is
said here by the order of the fields alone. The overrides come before the file, and the values that
do not count are never looked at. -/

namespace BasicOutline

open Validation

namespace Json.Fields

def lastOf (keys : List Text) (fields : Fields) : Option Json :=
  (fields.reverse.find? fun field => field.1 ∈ keys).map (·.2)

/-- Renamed fields, of which those that become the field in question have one of the keys. -/
theorem lookup_reverse_renamed {keys : List Text} {key : Text} (kept : Text → Bool)
    (rename : Text → Text)
    (known : ∀ name, (kept name = true ∧ key = rename name) ↔ name ∈ keys) (fields : Fields) :
    (((fields.filter fun field => kept field.1).map fun field =>
      (rename field.1, field.2)).reverse).lookup key = lastOf keys fields := by
  rw [lastOf, ← List.map_reverse, ← List.filter_reverse]
  -- On the reversed fields, where the first that is found is the one that was put last.
  induction fields.reverse with
  | nil => rfl
  | cons field rest ih =>
    have here := known field.1
    by_cases member : field.1 ∈ keys
    · obtain ⟨keep, same⟩ := here.mpr member
      simp [keep, member, lookup_cons_eq_ite, ← same]
    · rw [List.find?_cons_of_neg (by simpa using member), ← ih, List.filter_cons]
      split
      · rename_i keep
        have other : key ≠ rename field.1 := fun same => member (here.mp ⟨keep, same⟩)
        simp [lookup_cons_eq_ite, other]
      · rfl

end Json.Fields

namespace Setting

open Settings (sectionKey sectionMark)

def keys (setting : Setting) : List Text := [setting.editorKey, setting.plainKey]

def topKeys (setting : Setting) : List Text :=
  setting.keys ++ setting.keys.map (sectionMark ++ ·)

/-- The value that an object gives a setting: the last in the section, and if there is none, the
last outside it. -/
def candidate (setting : Setting) (raw : Json.Fields) : Option Json :=
  match raw.get? sectionKey with
  | some (.object inner) => (Json.Fields.lastOf setting.keys inner).or (raw.lastOf setting.topKeys)
  | _ => raw.lastOf setting.topKeys

def chosen (file overrides : Json.Fields) (setting : Setting) : Option Json :=
  (setting.candidate overrides).or (setting.candidate file)

theorem editorKey_injective {setting other : Setting} (same : setting.editorKey = other.editorKey) :
    setting = other := by
  cases setting <;> cases other <;> first | rfl | exact absurd same (by decide)

theorem plainKey_injective {setting other : Setting} (same : setting.plainKey = other.plainKey) :
    setting = other := by
  cases setting <;> cases other <;> first | rfl | exact absurd same (by decide)

theorem editorKey_ne_plainKey (setting other : Setting) : setting.editorKey ≠ other.plainKey := by
  cases setting <;> cases other <;> decide

theorem not_section_of_mem_keys {setting : Setting} {key : Text} (member : key ∈ setting.keys) :
    sectionMark.isPrefixOf key = false ∧ key ≠ sectionKey := by
  have each : ∀ name ∈ setting.keys, sectionMark.isPrefixOf name = false ∧ name ≠ sectionKey := by
    cases setting <;> decide
  exact each key member

end Setting

namespace Settings

section Keys

variable {setting : Setting} {key : Text}

theorem plainKey_cases (key : Text) :
    (∃ other : Setting, other.editorKey = key ∧ plainKey key = other.plainKey) ∨
      (∀ other : Setting, other.editorKey ≠ key) ∧ plainKey key = key := by
  unfold plainKey
  cases found : Setting.all.find? fun setting => setting.editorKey == key with
  | some other => exact .inl ⟨other, by simpa using List.find?_some found, rfl⟩
  | none =>
    refine .inr ⟨fun other => ?_, rfl⟩
    have present : other ∈ Setting.all := by cases other <;> decide
    simpa using List.find?_eq_none.mp found other present

theorem plainKey_eq_iff : setting.plainKey = plainKey key ↔ key ∈ setting.keys := by
  simp only [Setting.keys, List.mem_cons, List.not_mem_nil, or_false]
  rcases plainKey_cases key with ⟨other, rfl, plain⟩ | ⟨foreign, plain⟩
  · rw [plain]
    constructor
    · intro same
      exact .inl (by rw [Setting.plainKey_injective same])
    · intro named
      rcases named with same | same
      · rw [Setting.editorKey_injective same]
      · exact absurd same (other.editorKey_ne_plainKey setting)
  · rw [plain]
    constructor
    · intro same
      exact .inr same.symm
    · intro named
      rcases named with same | same
      · exact absurd same.symm (foreign setting)
      · exact same.symm

theorem editorKey_ne (setting : Setting) (key : Text) : setting.editorKey ≠ plainKey key := by
  rcases plainKey_cases key with ⟨other, -, plain⟩ | ⟨foreign, plain⟩
  · rw [plain]
    exact setting.editorKey_ne_plainKey other
  · rw [plain]
    exact foreign setting

theorem plainTopKey_eq_iff :
    (key ≠ sectionKey ∧ setting.plainKey = plainTopKey key) ↔ key ∈ setting.topKeys := by
  have top : key ∈ setting.topKeys ↔
      key ∈ setting.keys ∨ ∃ name ∈ setting.keys, sectionMark ++ name = key := by
    simp [Setting.topKeys]
  rw [top, plainTopKey, plainKey_eq_iff]
  by_cases marked : sectionMark.isPrefixOf key = true
  · obtain ⟨rest, rfl⟩ := List.isPrefixOf_iff_prefix.mp marked
    have outside : sectionMark ++ rest ≠ sectionKey := by
      intro same
      rw [same] at marked
      exact absurd marked (by decide)
    have foreign : sectionMark ++ rest ∉ setting.keys := by
      intro member
      rw [(Setting.not_section_of_mem_keys member).1] at marked
      cases marked
    rw [if_pos marked, List.drop_left]
    simp [outside, foreign]
  · rw [if_neg marked]
    constructor
    · intro named
      exact .inl named.2
    · intro named
      rcases named with member | ⟨name, -, rfl⟩
      · exact ⟨(Setting.not_section_of_mem_keys member).2, member⟩
      · exact absurd (List.isPrefixOf_iff_prefix.mpr (List.prefix_append _ _)) marked

end Keys

section Merging

/-- The field of a flattened object is the last of the section that becomes it, or else the last
outside the section. -/
theorem get?_flatten_of {key : Text} {inner top : List Text}
    (inside : ∀ name, key = plainKey name ↔ name ∈ inner)
    (outside : ∀ name, (name ≠ sectionKey ∧ key = plainTopKey name) ↔ name ∈ top)
    (raw : Json.Fields) :
    (flatten raw).get? key = ((sectionFields raw).lastOf inner).or (raw.lastOf top) := by
  have within := Json.Fields.lookup_reverse_renamed (fun _ => true) plainKey
    (by simpa using inside) (sectionFields raw)
  have without := Json.Fields.lookup_reverse_renamed (fun name => name ≠ sectionKey) plainTopKey
    (by simpa using outside) raw
  rw [List.filter_true] at within
  rw [flatten, Json.Fields.get?_putAll, List.reverse_append, List.lookup_append, within, without]
  exact Option.or_none

theorem get?_flatten (raw : Json.Fields) (setting : Setting) :
    (flatten raw).get? setting.plainKey = setting.candidate raw := by
  rw [get?_flatten_of (fun _ => plainKey_eq_iff) (fun _ => plainTopKey_eq_iff), Setting.candidate,
    sectionFields]
  rcases raw.get? sectionKey with _ | value
  · rfl
  · cases value <;> rfl

theorem get?_flatten_editorKey (raw : Json.Fields) (setting : Setting) :
    (flatten raw).get? setting.editorKey = none := by
  have inside : ∀ name, setting.editorKey = plainKey name ↔ name ∈ ([] : List Text) := by
    intro name
    simp [editorKey_ne]
  have outside : ∀ name,
      (name ≠ sectionKey ∧ setting.editorKey = plainTopKey name) ↔ name ∈ ([] : List Text) := by
    intro name
    simp [plainTopKey, editorKey_ne]
  rw [get?_flatten_of inside outside]
  simp [Json.Fields.lastOf]

theorem get?_merged (file overrides : Json.Fields) (key : Text) :
    ((flatten file).putAll (flatten overrides)).get? key =
      ((flatten overrides).get? key).or ((flatten file).get? key) := by
  have distinct : ((flatten overrides).map Prod.fst).Nodup := by
    apply Json.Fields.nodup_putAll
    exact List.nodup_nil
  rw [Json.Fields.get?_putAll, lookup_reverse distinct]
  rfl

/-- After the merge every setting is given under its plain key, by the value that counts. -/
theorem given?_merged (file overrides : Json.Fields) (setting : Setting) :
    setting.given? ((flatten file).putAll (flatten overrides)) =
      (setting.chosen file overrides).map (setting.plainKey, ·) := by
  rw [Setting.given?, get?_merged, get?_merged, get?_flatten_editorKey, get?_flatten_editorKey,
    get?_flatten, get?_flatten]
  rfl

end Merging

def chosenIssues (file overrides : Json.Fields) : List Issue :=
  Setting.issues fun setting => (setting.chosen file overrides).map (setting.plainKey, ·)

theorem reports_resolve (file overrides : Json.Fields) :
    (resolve file overrides).Reports (chosenIssues file overrides)
      (Reflects fun setting => setting.chosen file overrides) := by
  have reports := reports_ofFields ((flatten file).putAll (flatten overrides))
  simp only [given?_merged, Option.map_map, Function.comp_def, Option.map_id'] at reports
  exact reports

theorem load_eq {fs : FileSystem} {path? : Option Text} {file : Json.Fields}
    (read : path?.elim (.ok []) (readFile fs) = .ok file) (overrides : Json.Fields) :
    load fs path? overrides = (resolve file overrides).mapError .invalid := by
  unfold load
  cases path? with
  | none =>
    obtain rfl := Except.ok.inj read
    rfl
  | some path =>
    rw [Option.elim_some] at read
    simp only [read]
    rfl

section Loading

variable {fs : FileSystem} {path? : Option Text} {file overrides : Json.Fields}

theorem exists_load_of_valid (read : path?.elim (.ok []) (readFile fs) = .ok file)
    (valid : chosenIssues file overrides = []) :
    ∃ settings, load fs path? overrides = .ok settings ∧
      Reflects (Setting.chosen file overrides) settings := by
  obtain ⟨settings, resolved, reflects⟩ := (reports_resolve file overrides).ok valid
  refine ⟨settings, ?_, reflects⟩
  rw [load_eq read, resolved]
  rfl

theorem load_of_invalid (read : path?.elim (.ok []) (readFile fs) = .ok file)
    (invalid : chosenIssues file overrides ≠ []) :
    load fs path? overrides = .error (.invalid (chosenIssues file overrides)) := by
  rw [load_eq read, (reports_resolve file overrides).error invalid]
  rfl

theorem chosenIssues_eq_nil_iff :
    chosenIssues file overrides = [] ↔
      ∀ setting value, Setting.chosen file overrides setting = some value →
        setting.problem? value = none := by
  rw [chosenIssues, Setting.issues_eq_nil_iff]
  constructor
  · intro clean setting value counts
    exact clean setting setting.plainKey value (by rw [counts]; rfl)
  · intro valid setting key value given
    obtain ⟨other, counts, same⟩ := Option.map_eq_some_iff.mp given
    exact (Prod.mk.inj same).2 ▸ valid setting other counts

end Loading

/-- Settings are resolved from the values that count, and from nothing else: they are loaded exactly
if each of these is valid, and else each that is not is reported under the plain key of its setting,
in the order of the settings. -/
theorem load_resolves {fs : FileSystem} {path? : Option Text} {file : Json.Fields}
    (read : path?.elim (.ok []) (readFile fs) = .ok file) (overrides : Json.Fields) :
    (∀ settings, load fs path? overrides = .ok settings ↔
      Reflects (Setting.chosen file overrides) settings) ∧
    ((∃ settings, load fs path? overrides = .ok settings) ↔
      ∀ setting value, Setting.chosen file overrides setting = some value →
        setting.problem? value = none) ∧
    ∀ error, load fs path? overrides = .error error ↔
      chosenIssues file overrides ≠ [] ∧ error = .invalid (chosenIssues file overrides) := by
  by_cases valid : chosenIssues file overrides = []
  · obtain ⟨settings, loaded, reflects⟩ := exists_load_of_valid read valid
    rw [loaded]
    refine ⟨?_, ?_, ?_⟩
    · intro other
      constructor
      · intro same
        exact Except.ok.inj same ▸ reflects
      · intro again
        rw [reflects.unique again]
    · simp only [Except.ok.injEq, exists_eq', true_iff]
      exact chosenIssues_eq_nil_iff.mp valid
    · simp [valid]
  · rw [load_of_invalid read valid]
    refine ⟨?_, ?_, ?_⟩
    · intro settings
      constructor
      · nofun
      · intro reflects
        refine absurd ?_ valid
        rw [chosenIssues_eq_nil_iff]
        intro setting value counts
        exact reflects.problem?_eq_none counts
    · rw [← chosenIssues_eq_nil_iff]
      simp [valid]
    · intro error
      simp [valid, eq_comm]

theorem readFile_compact {fs : FileSystem} {path : Text} {fields : Json.Fields}
    (there : fs.exists? path = true)
    (text : fs.readText path = .ok (Json.compact (.object fields)))
    (unbroken : Text.unifyBreaks (Json.compact (.object fields)) = Json.compact (.object fields))
    (readable : (Json.object fields).Readable) : readFile fs path = .ok fields := by
  have value : readValue fs path = .ok (.object fields) := by
    rw [readValue, text]
    simp only [unbroken, Json.read_compact readable]
    rfl
  rw [readFile, there, Bool.not_true, if_neg Bool.false_ne_true, value]

/-- In the section of the file the later key counts, and among the overrides the later of a plain
and a marked one. The level that the file gives is not valid, but the overrides have one. Where they
do not, it is reported under its plain key. -/
theorem load_resolves_with_section :
    let file : Json.Fields :=
      [("vbOutline".toList,
          .object [("ShowVarType".toList, .int 7), ("show_var_type".toList, .int 1)]),
        ("StandardIndentLevel".toList, .list [])]
    let text := (Json.object file).compact
    let fs : FileSystem := ⟨[("s".toList, .file (Utf8.encode text))], "/".toList⟩
    let overrides : Json.Fields :=
      [("vbOutline".toList, .int 3), ("standard_indent_level".toList, .text "4".toList),
        ("ShowParameters".toList, .null), ("vbOutline.show_parameters".toList, .bool true)]
    load fs (some "s".toList) overrides = .ok ⟨false, 4, true, false, true⟩ ∧
      load fs (some "s".toList) [("showParameters".toList, .null)] =
        .error (.invalid [⟨.notInt, [.field "standard_indent_level".toList], .list []⟩]) := by
  intro file text fs overrides
  have read : (some "s".toList).elim (.ok []) (readFile fs) = .ok file := by
    apply readFile_compact
    · decide +kernel
    · decide +kernel
    · decide +kernel
    · have short : ∀ n < 10, (Text.natDigits n).length ≤ Text.digitLimit := by decide +kernel
      exact ⟨by decide, ⟨by decide, short 7 (by decide), short 1 (by decide), trivial⟩, trivial,
        trivial⟩
  refine ⟨((load_resolves read overrides).1 _).mpr ⟨rfl, rfl, rfl, rfl, rfl⟩, ?_⟩
  exact ((load_resolves read _).2.2 _).mpr ⟨nofun, rfl⟩

end Settings

end BasicOutline
