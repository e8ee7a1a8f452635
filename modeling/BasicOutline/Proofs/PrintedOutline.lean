import BasicOutline.CommandLine.Run
import BasicOutline.Proofs.EntryCodec
import BasicOutline.Proofs.ExactOutline
import BasicOutline.Proofs.RecordIndent

/-! The outline as it is printed.

The text shown for a declaration holds no line break, whatever the file holds. So each entry has a
line of its own, and the lines that are printed are read back as the records of the file. -/

namespace BasicOutline

open Text

theorem Display.IndentedBy.unbroken {width : Nat} {display : Text}
    (indented : IndentedBy width display) : '\n' ∉ display := by
  obtain ⟨body, rfl, -, plain, -⟩ := indented
  rw [List.mem_append, not_or]
  exact ⟨Display.not_mem_spaces (by decide), plain⟩

theorem Scan.unbroken_of_scan {settings : Settings} {lines : List Signature.Line}
    {records : List Record} (scanned : scan settings lines = .ok records) :
    ∀ record ∈ records,
      '\n' ∉ record.display ∧ 0 < record.line ∧ record.line ≤ lines.length := by
  obtain ⟨state, trace⟩ := scan_eq_ok_iff.mp scanned
  intro record member
  obtain ⟨index, line, -, -, inside, -, shown⟩ :=
    trace.indentedAt rfl (History.start _) record member
  have bounds := trace.line_bounds record member
  refine ⟨shown.unbroken, ?_, ?_⟩ <;> omega

theorem Record.unbroken_toEntry {record : Record} (shown : '\n' ∉ record.display) :
    '\n' ∉ record.toEntry := by
  have line : '\n' ∉ numeral record.line :=
    not_mem_numeral (by decide) (by decide) (by decide) record.line
  have kind : '\n' ∉ record.kind.name := by
    cases record.kind <;> decide
  simp only [toEntry, List.mem_append, List.mem_cons, not_or]
  exact ⟨⟨shown, by decide, line⟩, by decide, kind⟩

namespace Outline

variable {fs : FileSystem} {settings : Settings} {path : Text}

theorem unbroken_of_mem_records {record : Record} (member : record ∈ records fs settings path) :
    '\n' ∉ record.display ∧ ∃ lines, fs.readLines path = .ok lines ∧
      0 < record.line ∧ record.line ≤ lines.length := by
  unfold records ofFile at member
  cases read : fs.readLines path with
  | error failure => simp [read] at member
  | ok lines =>
    cases scanned : Scan.scan settings (lines.map some) with
    | error failure => simp [read, scanned, Except.mapError] at member
    | ok found =>
      simp only [read, scanned, Except.mapError] at member
      obtain ⟨shown, positive, bound⟩ := Scan.unbroken_of_scan scanned record member
      rw [List.length_map] at bound
      exact ⟨shown, lines, rfl, positive, bound⟩

theorem ofEntry_of_mem_records
    (short : ∀ lines, fs.readLines path = .ok lines → lines.length < 10 ^ digitLimit)
    {record : Record} (member : record ∈ records fs settings path) :
    Record.ofEntry record.toEntry = .ok record := by
  obtain ⟨-, lines, read, positive, bound⟩ := unbroken_of_mem_records member
  apply Record.ofEntry_toEntry
  apply length_natDigits_le (by decide)
  have few := short lines read
  omega

end Outline

namespace CommandLine

theorem splitOn_entryLines {records : List Record}
    (plain : ∀ record ∈ records, '\n' ∉ record.display) :
    (entryLines records).splitOn '\n' = records.map Record.toEntry ++ [[]] := by
  induction records with
  | nil => rfl
  | cons record rest ih =>
    have here := Record.unbroken_toEntry (plain record List.mem_cons_self)
    have later := ih fun other member => plain other (List.mem_cons_of_mem _ member)
    have first : entryLines (record :: rest) = record.toEntry ++ '\n' :: entryLines rest := by
      simp [entryLines]
    rw [first, List.splitOn_append_cons_self_of_not_mem here, later, List.map_cons,
      List.cons_append]

theorem entryLines_eq_nil_iff {records : List Record} : entryLines records = [] ↔ records = [] := by
  cases records <;> simp [entryLines]

theorem run_of_outline {fs : FileSystem} {arguments : List Text} {verbose json : Bool} {path : Text}
    {choice : SettingsChoice} {settings : Settings}
    (asked : invocation arguments = .ok ⟨verbose, .outline path json choice⟩)
    (loaded : loadSettings fs choice = .ok settings) :
    run fs arguments = runOutline fs verbose path json settings := by
  simp only [run, asked, runCommand, withSettings, loaded]

/-- What is printed for a file, cut at its line breaks, is an entry for each record of the file and
an empty piece at the end, and the entries are read back as the records. Line numbers of more than
`digitLimit` digits, which no file reaches, could not be read. -/
theorem outline_printed_parses {fs : FileSystem} {arguments : List Text} {verbose : Bool}
    {path : Text} {choice : SettingsChoice} {settings : Settings}
    (asked : invocation arguments = .ok ⟨verbose, .outline path false choice⟩)
    (loaded : loadSettings fs choice = .ok settings) :
    let records := Outline.records fs settings path
    let output := (run fs arguments).output
    output.splitOn '\n' = records.map Record.toEntry ++ [[]] ∧
      ((∀ lines, fs.readLines path = .ok lines → lines.length < 10 ^ digitLimit) →
        (output.splitOn '\n').dropLast.map Record.ofEntry = records.map .ok) ∧
      (output = [] ↔ records = []) ∧ (run fs arguments).exitCode = 0 := by
  intro records output
  have printed : output = entryLines records := by
    simp only [output, run_of_outline asked loaded]
    rfl
  have pieces : output.splitOn '\n' = records.map Record.toEntry ++ [[]] := by
    rw [printed]
    exact splitOn_entryLines fun record member => (Outline.unbroken_of_mem_records member).1
  refine ⟨pieces, ?_, ?_, ?_⟩
  · intro short
    rw [pieces, List.dropLast_concat, List.map_map]
    apply List.map_congr_left
    intro record member
    exact Outline.ofEntry_of_mem_records short member
  · rw [printed]
    exact entryLines_eq_nil_iff
  · rw [run_of_outline asked loaded]
    rfl

/-- A file with a lone carriage return, a signature over two lines and a text that looks like an
entry. -/
theorem outline_printed_parses_of_broken_signature :
    let content := "Sub F(a, _\r\n  b)\rx\nConst c|7|field = 1".toList
    let fs : FileSystem :=
      ⟨[("w".toList, .directory [("a.vb".toList, .file (Utf8.encode content))])], "/w".toList⟩
    let arguments := ["outline", "a.vb", "--show-parameters"].map String.toList
    (run fs arguments).output = "Sub F(a, b)\rx|1|function\nConst c|7|field|3|field\n".toList ∧
      ((run fs arguments).output.splitOn '\n').dropLast.map Record.ofEntry =
        [.ok ⟨"Sub F(a, b)\rx".toList, 1, .function⟩,
          .ok ⟨"Const c|7|field".toList, 3, .field⟩] := by
  intro content fs arguments
  have asked : invocation arguments =
      .ok ⟨false, .outline "a.vb".toList false ⟨none, true, false, false, none⟩⟩ := by
    decide +kernel
  have loaded : loadSettings fs ⟨none, true, false, false, none⟩ =
      .ok ⟨false, 2, true, false, false⟩ := by
    rfl
  have lines : fs.readLines "a.vb".toList = .ok (Text.lines content) := by
    decide +kernel
  have records : Outline.records fs ⟨false, 2, true, false, false⟩ "a.vb".toList =
      [⟨"Sub F(a, b)\rx".toList, 1, .function⟩, ⟨"Const c|7|field".toList, 3, .field⟩] := by
    decide +kernel
  obtain ⟨-, parsed, -, -⟩ := outline_printed_parses asked loaded
  refine ⟨by decide +kernel, ?_⟩
  rw [parsed, records]
  · rfl
  · intro others read
    rw [lines] at read
    rw [← Except.ok.inj read]
    have few : (Text.lines content).length = 3 := by decide +kernel
    rw [few]
    exact Nat.lt_of_lt_of_le (by decide : 3 < 10 ^ 1) (Nat.pow_le_pow_right (by decide) (by decide))

end CommandLine

end BasicOutline
