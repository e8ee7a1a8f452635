import BasicOutline.Proofs.CommentContents
import BasicOutline.Proofs.LineEndings
import BasicOutline.Proofs.RecordIndent

/-! When a file has no outline.

A scan can fail at one place only: at a field that stands at the margin inside a procedure, when the
indent it is to get is too wide to be written. Where such a field stands is told by the outline
under the default settings, which every file has. -/

namespace BasicOutline

def Settings.IndentTooWide (settings : Settings) : Prop :=
  settings.useStandardIndent = true ∧ indentLimit ≤ settings.standardIndentLevel

namespace Scan

open Text
open Signature (Line)
open Display (indentOf)

/-- The line declares a field at the margin and inside a procedure, and no signature reaches it. -/
structure MarginField (file : List Line) (records : List Record) (index : Nat) : Prop where
  free : ¬ Consumed file records index
  declared : ∃ line, file[index]? = some line ∧ classify (line.getD []) = .declaration .field ∧
    indentOf (line.getD []) = 0
  inside : InProcedure file records index

theorem fieldIndent_error_iff {settings : Settings} {inside : Bool} {line : Text}
    {failure : Failure} :
    fieldIndent settings inside (Display.render settings line) = .error failure ↔
      failure = .indentTooWide ∧ settings.IndentTooWide ∧ inside = true ∧ indentOf line = 0 := by
  have width := (Display.indentedBy_render settings line).width_eq
  simp only [fieldIndent, width, Settings.IndentTooWide, Settings.standardIndent?]
  by_cases standard : settings.useStandardIndent = true
  · rw [if_pos standard]
    by_cases flush : (inside && indentOf line == 0) = true
    · have facts : inside = true ∧ indentOf line = 0 := by simpa using flush
      rw [if_pos flush]
      by_cases narrow : settings.standardIndentLevel < Settings.indentLimit
      · have other : ¬ Settings.indentLimit ≤ settings.standardIndentLevel := by omega
        simp [narrow, other]
      · have wide : Settings.indentLimit ≤ settings.standardIndentLevel := by omega
        simp [narrow, standard, wide, facts, eq_comm]
    · rw [if_neg flush]
      have apart : ¬(inside = true ∧ indentOf line = 0) := by simpa using flush
      simp [apart]
  · simp [standard]

section Positions

variable {file : List Line} {records : List Record} {index : Nat}

def MarginFrom (file : List Line) (records : List Record) (index : Nat) : Prop :=
  ∃ position, index ≤ position ∧ MarginField file records position

theorem marginFrom_iff :
    MarginFrom file records index ↔
      MarginField file records index ∨ MarginFrom file records (index + 1) := by
  constructor
  · intro ⟨position, reached, field⟩
    by_cases same : position = index
    · exact .inl (same ▸ field)
    · exact .inr ⟨position, by omega, field⟩
  · intro either
    rcases either with field | ⟨position, reached, field⟩
    · exact ⟨index, Nat.le_refl index, field⟩
    · exact ⟨position, by omega, field⟩

theorem marginFrom_succ_iff (other : ¬ MarginField file records index) :
    MarginFrom file records index ↔ MarginFrom file records (index + 1) := by
  rw [marginFrom_iff, or_iff_right other]

theorem not_marginField_of_role {line : Line} (here : file[index]? = some line)
    (role : classify (line.getD []) ≠ .declaration .field) :
    ¬ MarginField file records index := by
  intro field
  obtain ⟨other, there, declared, -⟩ := field.declared
  obtain rfl := Option.some.inj (here.symm.trans there)
  exact role declared

end Positions

theorem map_eq_error_iff {ε α β : Type} {f : α → β} {result : Except ε α} {failure : ε} :
    result.map f = .error failure ↔ result = .error failure := by
  cases result with
  | error other => simp [Except.map]
  | ok value => simp [Except.map]

/-- A run fails exactly when it comes to a field at the margin whose indent is too wide. The run
under other settings, which has a trace, goes through the same states. -/
theorem Trace.run_error_iff {base settings : Settings} {index : Nat} {state : State}
    {lines file : List Line} {found : Found} {listed : List Record}
    (trace : Trace base index state lines found) (suffix : file.drop index = lines)
    (history : History file listed index state) {failure : Failure} :
    run settings index state lines = .error failure ↔
      failure = .indentTooWide ∧ settings.IndentTooWide ∧
        MarginFrom file (listed ++ found.records) index := by
  induction trace generalizing listed with
  | @done index state =>
    have outside : ¬ MarginFrom file listed index := by
      intro some_margin
      obtain ⟨position, reached, margin⟩ := some_margin
      obtain ⟨line, present, -⟩ := margin.declared
      have bound := (List.getElem?_eq_some_iff.mp present).1
      rw [List.drop_eq_nil_iff] at suffix
      omega
    simp [run, outside]
  | @used index state line following found taken rest ih =>
    obtain ⟨here, after⟩ := drop_eq_cons suffix
    have whole : Trace base index state (line :: following) found := .used taken rest
    have reached := (history.reached_iff whole).mpr taken
    have step := history.skip here (.inl taken)
    rw [run_used taken, ih after step, marginFrom_succ_iff fun margin => margin.free reached]
  | @passed index state line following found free role rest ih =>
    obtain ⟨here, after⟩ := drop_eq_cons suffix
    have no_end : classify (line.getD []) ≠ .procedureEnd := by
      rcases role with role | role <;> simp [role]
    have no_field : classify (line.getD []) ≠ .declaration .field := by
      rcases role with role | role <;> simp [role]
    have step := history.skip here (.inr no_end)
    rw [run_passed free role, ih after step,
      marginFrom_succ_iff (not_marginField_of_role here no_field)]
  | ended free role rest ih =>
    obtain ⟨here, after⟩ := drop_eq_cons suffix
    rw [run_ended free role, ih after (history.ended here free role),
      marginFrom_succ_iff (not_marginField_of_role here (by simp [role]))]
  | @cls index state line following found free role rest ih =>
    obtain ⟨here, after⟩ := drop_eq_cons suffix
    have step := history.push here ⟨Display.render base (line.getD []), index + 1, .cls⟩
      role rfl (by simp)
    rw [run_cls free role, map_eq_error_iff, ih after step, List.append_assoc,
      marginFrom_succ_iff (not_marginField_of_role here (by simp [role]))]
    rfl
  | @procedure index state line following found signature free role assembled rest ih =>
    obtain ⟨here, after⟩ := drop_eq_cons suffix
    have step := history.procedure free ⟨Display.render base signature.text, index + 1,
      .function⟩ rfl rfl (Signature.grab_of_drop suffix assembled) rfl
    rw [run_procedure free role assembled, map_eq_error_iff, ih after step, List.append_assoc,
      marginFrom_succ_iff (not_marginField_of_role here (by simp [role]))]
    rfl
  | @field index state line following found indent free role indented rest ih =>
    obtain ⟨here, after⟩ := drop_eq_cons suffix
    have whole := Trace.field free role indented rest
    have step := history.push here
      ⟨indent ++ Display.render base (line.getD []), index + 1, .field⟩ role rfl (by simp)
    have later := ih after step
    rw [List.append_assoc] at later
    -- Whether this line is at fault is told by the state, which knows the records before it.
    have field_iff : MarginField file (listed ++ (found.push
        ⟨indent ++ Display.render base (line.getD []), index + 1, .field⟩).records) index ↔
        state.inProcedure = true ∧ indentOf (line.getD []) = 0 := by
      rw [history.inside_iff whole]
      constructor
      · intro margin
        obtain ⟨other, there, -, flush⟩ := margin.declared
        obtain rfl := Option.some.inj (here.symm.trans there)
        exact ⟨margin.inside, flush⟩
      · intro flush
        refine ⟨?_, ⟨line, here, role, flush.2⟩, flush.1⟩
        rw [history.reached_iff whole]
        omega
    rw [run_field free role, marginFrom_iff, field_iff]
    cases outcome : fieldIndent settings state.inProcedure
        (Display.render settings (line.getD [])) with
    | error stopped =>
      obtain ⟨rfl, wide, flush⟩ := fieldIndent_error_iff.mp outcome
      simp [Except.bind, wide, flush, eq_comm]
    | ok added =>
      have kept : settings.IndentTooWide →
          ¬(state.inProcedure = true ∧ indentOf (line.getD []) = 0) := by
        intro wide flush
        have stopped := fieldIndent_error_iff.mpr ⟨rfl, wide, flush⟩
        rw [outcome] at stopped
        cases stopped
      change (run settings (index + 1) state following).map _ = .error failure ↔ _
      rw [map_eq_error_iff, later]
      apply and_congr_right
      intro _
      apply and_congr_right
      intro wide
      rw [or_iff_right (kept wide)]
      rfl

theorem exists_scan_default (lines : List Text) :
    ∃ records, scan {} (lines.map some) = .ok records := by
  obtain ⟨found, ran⟩ := exists_run {} rfl lines 0 {}
  exact ⟨found.records, by rw [scan_eq_map, ran]; rfl⟩

theorem scan_error_iff {base settings : Settings} {lines : List Line} {records : List Record}
    (scanned : scan base lines = .ok records) {failure : Failure} :
    scan settings lines = .error failure ↔
      failure = .indentTooWide ∧ settings.IndentTooWide ∧
        ∃ index, MarginField lines records index := by
  obtain ⟨state, trace⟩ := scan_eq_ok_iff.mp scanned
  rw [scan_eq_map, map_eq_error_iff, trace.run_error_iff rfl (History.start lines)]
  simp [MarginFrom]

end Scan

namespace Outline

open Text

inductive Fails (fs : FileSystem) (settings : Settings) (path : Text) : Prop where
  | unopened {error : FileError} (opened : fs.readBytes path = .error error)
  | undecodable {content : Utf8.Bytes} (opened : fs.readBytes path = .ok content)
      (foreign : ∀ text, Utf8.encode text ≠ content)
  | tooWide {text : Text} {records : List Record} {index : Nat}
      (opened : fs.readBytes path = .ok (Utf8.encode text)) (wide : settings.IndentTooWide)
      (scanned : Scan.scan {} ((lines text).map some) = .ok records)
      (margin : Scan.MarginField ((lines text).map some) records index)

theorem Failure.describe_ne_nil (failure : Failure) : failure.describe ≠ [] := by
  simp [describe]

variable {fs : FileSystem} {settings : Settings} {path : Text}

theorem readLines_of_encode {text : Text} (opened : fs.readBytes path = .ok (Utf8.encode text)) :
    fs.readLines path = .ok (lines text) :=
  FileSystem.readLines_of_readText (FileSystem.readText_eq_ok_iff.mpr opened)

theorem ofFile_of_unread (settings : Settings)
    (unread : ∀ text, fs.readBytes path ≠ .ok (Utf8.encode text)) :
    ∃ error, ofFile fs settings path = .error (.file error) := by
  cases read : fs.readText path with
  | error error =>
    refine ⟨error, ?_⟩
    simp only [ofFile, FileSystem.readLines, read]
    rfl
  | ok text => exact absurd (FileSystem.readText_eq_ok_iff.mp read) (unread text)

theorem ofFile_eq_ok_iff {found : List Record} :
    ofFile fs settings path = .ok found ↔ ∃ text, fs.readBytes path = .ok (Utf8.encode text) ∧
      Scan.scan settings ((lines text).map some) = .ok found := by
  by_cases readable : ∃ text, fs.readBytes path = .ok (Utf8.encode text)
  · obtain ⟨text, opened⟩ := readable
    have unique : ∀ other, fs.readBytes path = .ok (Utf8.encode other) ↔ other = text := by
      intro other
      rw [← FileSystem.readText_eq_ok_iff, FileSystem.readText_eq_ok_iff.mpr opened,
        Except.ok.injEq, eq_comm]
    simp only [unique, exists_eq_left]
    rw [ofFile_of_readLines (readLines_of_encode opened)]
    cases Scan.scan settings ((lines text).map some) <;> simp [Except.mapError]
  · have unread : ∀ text, fs.readBytes path ≠ .ok (Utf8.encode text) := not_exists.mp readable
    obtain ⟨error, failed⟩ := ofFile_of_unread settings unread
    simp [failed, unread]

theorem ofFile_fails_iff :
    (∃ failure, ofFile fs settings path = .error failure) ↔ Fails fs settings path := by
  constructor
  · intro ⟨failure, failed⟩
    cases opened : fs.readBytes path with
    | error error => exact .unopened opened
    | ok content =>
      by_cases valid : ∃ text, Utf8.encode text = content
      · obtain ⟨text, rfl⟩ := valid
        obtain ⟨records, scanned⟩ := Scan.exists_scan_default (lines text)
        rw [ofFile_of_readLines (readLines_of_encode opened)] at failed
        cases stopped : Scan.scan settings ((lines text).map some) with
        | error cause =>
          obtain ⟨-, wide, index, margin⟩ := (Scan.scan_error_iff scanned).mp stopped
          exact .tooWide opened wide scanned margin
        | ok found =>
          rw [stopped] at failed
          cases failed
      · exact .undecodable opened fun text same => valid ⟨text, same⟩
  · intro fails
    cases fails with
    | unopened opened =>
      have unread : ∀ text, fs.readBytes path ≠ .ok (Utf8.encode text) := by simp [opened]
      obtain ⟨error, failed⟩ := ofFile_of_unread settings unread
      exact ⟨_, failed⟩
    | undecodable opened foreign =>
      have unread : ∀ text, fs.readBytes path ≠ .ok (Utf8.encode text) := by
        intro text same
        exact foreign text (Except.ok.inj (opened.symm.trans same)).symm
      obtain ⟨error, failed⟩ := ofFile_of_unread settings unread
      exact ⟨_, failed⟩
    | tooWide opened wide scanned margin =>
      have stopped := (Scan.scan_error_iff scanned).mpr ⟨rfl, wide, _, margin⟩
      rw [ofFile_of_readLines (readLines_of_encode opened), stopped]
      exact ⟨_, rfl⟩

/-- A file has no outline exactly in the ways said, and then it has no records at all, whatever is
declared before the line at fault. Otherwise it has the records that the scan of its lines lists. -/
theorem outline_fails_iff (fs : FileSystem) (settings : Settings) (path : Text) :
    ((∃ failure, ofFile fs settings path = .error failure) ↔ Fails fs settings path) ∧
    (∀ failure, ofFile fs settings path = .error failure → failure.describe ≠ [] ∧
      records fs settings path = [] ∧ entries fs settings path = []) ∧
    (¬ Fails fs settings path → ∃ found present, fs.readLines path = .ok present ∧
      Scan.scan settings (present.map some) = .ok found ∧ ofFile fs settings path = .ok found ∧
      records fs settings path = found ∧ entries fs settings path = found.map Record.toEntry) ∧
    ∀ text, fs.readBytes path = .ok (Utf8.encode text) → ¬ settings.IndentTooWide →
      ∃ found, ofFile fs settings path = .ok found := by
  have outlined : ¬ Fails fs settings path → ∃ found, ofFile fs settings path = .ok found := by
    intro succeeds
    cases outcome : ofFile fs settings path with
    | error failure => exact absurd (ofFile_fails_iff.mp ⟨failure, outcome⟩) succeeds
    | ok found => exact ⟨found, rfl⟩
  refine ⟨ofFile_fails_iff, ?_, ?_, ?_⟩
  · intro failure failed
    have none_listed : records fs settings path = [] := by rw [records, failed]
    refine ⟨failure.describe_ne_nil, none_listed, ?_⟩
    rw [entries, none_listed, List.map_nil]
  · intro succeeds
    obtain ⟨found, listed⟩ := outlined succeeds
    obtain ⟨text, opened, scanned⟩ := ofFile_eq_ok_iff.mp listed
    have all_listed : records fs settings path = found := by rw [records, listed]
    refine ⟨found, lines text, readLines_of_encode opened, scanned, listed, all_listed, ?_⟩
    rw [entries, all_listed]
  · intro text opened narrow
    apply outlined
    intro fails
    cases fails with
    | unopened failed =>
      rw [opened] at failed
      cases failed
    | undecodable other foreign => exact foreign text (Except.ok.inj (opened.symm.trans other))
    | tooWide _ wide _ _ => exact narrow wide

/-- The field on the third line stands at the margin of an open procedure, behind a signature that
takes up a line. It has a wide indent and nothing is listed, or a narrow one and the file is
outlined, though its last signature is never closed. -/
theorem outline_fails_at_margin_field :
    let content := "Sub F(a,\nEnd Sub b)\nDim x\nEnd Sub\nSub G((".toList
    let fs : FileSystem :=
      ⟨[("w".toList, .directory [("a.vb".toList, .file (Utf8.encode content))])], "/w".toList⟩
    let path := "a.vb".toList
    let wide : Settings := ⟨true, 9223372036854775808, false, false, false⟩
    Fails fs wide path ∧ records fs wide path = [] ∧
      ∃ found, ofFile fs ⟨true, 2, false, false, false⟩ path = .ok found := by
  intro content fs path wide
  have stopped : ofFile fs wide path = .error (.scan .indentTooWide) := by decide +kernel
  have narrow : ¬ Settings.IndentTooWide ⟨true, 2, false, false, false⟩ := by
    intro tooWide
    exact absurd tooWide.2 (by decide)
  obtain ⟨fails_iff, failed, -, -⟩ := outline_fails_iff fs wide path
  obtain ⟨-, -, -, outlined⟩ := outline_fails_iff fs ⟨true, 2, false, false, false⟩ path
  exact ⟨fails_iff.mp ⟨_, stopped⟩, (failed _ stopped).2.1, outlined content rfl narrow⟩

end Outline

end BasicOutline
