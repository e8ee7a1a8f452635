import BasicOutline.CommandLine.Run
import BasicOutline.Proofs.JsonReading
import BasicOutline.Validation.Model

/-! What is printed as JSON.

The text is read as the value that it was written for, and the checks take this value for the
records or the report. So nothing is lost on the way to a reader. -/

namespace BasicOutline

open Text

namespace Record

theorem readable_toJson {record : Record} (short : record.line.natAbs < 10 ^ digitLimit) :
    record.toJson.Readable := by
  have keys : ["display_text".toList, "source_line".toList, "kind".toList].Nodup := by decide
  exact ⟨keys, trivial, length_natDigits_le (by decide) short, trivial, trivial⟩

theorem readable_list {records : List Record}
    (short : ∀ record ∈ records, record.line.natAbs < 10 ^ digitLimit) :
    (Json.list (records.map toJson)).Readable := by
  apply Json.readableItems_iff.mpr
  rintro item member
  obtain ⟨record, inside, rfl⟩ := List.mem_map.mp member
  exact readable_toJson (short record inside)

end Record

namespace Report

theorem FileOutline.readable_toJson {file : FileOutline}
    (short : ∀ record ∈ file.records, record.line.natAbs < 10 ^ digitLimit) :
    file.toJson.Readable := by
  have keys : ["path".toList, "rel_path".toList, "language".toList, "records".toList,
      "error".toList, "summary".toList].Nodup := by decide
  refine ⟨keys, trivial, trivial, trivial, Record.readable_list short, ?_, trivial, trivial⟩
  cases file.error <;> trivial

theorem readable_toJson {report : Report}
    (short : ∀ file ∈ report.files, ∀ record ∈ file.records,
      record.line.natAbs < 10 ^ digitLimit) : report.toJson.Readable := by
  have keys : ["root".toList, "files".toList, "summary".toList].Nodup := by decide
  refine ⟨keys, trivial, ?_, trivial, trivial⟩
  apply Json.readableItems_iff.mpr
  rintro item member
  obtain ⟨file, inside, rfl⟩ := List.mem_map.mp member
  exact FileOutline.readable_toJson (short file inside)

end Report

namespace Validation

def report : Json → Check Report :=
  Check.object (.notModel "OutlineReport".toList) fun fields =>
    Check.ap
      (Check.ap ((Check.required fields "root".toList text).map Report.mk)
        (Check.required fields "files".toList (list file)))
      (Check.required fields "summary".toList text)

section Checks

variable {α : Type} {check : Json → Check α} {write : α → Json} {fields : Json.Fields}
  {value : Json} {default a : α}

theorem required_of_get? (key : Text) (given : fields.get? key = some value)
    (checked : check value = .ok a) : Check.required fields key check = .ok a := by
  simp only [Check.required, given, checked]
  rfl

theorem optional_of_get? (key : Text) (given : fields.get? key = some value)
    (checked : check value = .ok a) : Check.optional fields key default check = .ok a := by
  simp only [Check.optional, given, checked]
  rfl

theorem items_map (checked : ∀ a, check (write a) = .ok a) (start : Nat) (items : List α) :
    Check.items check start (items.map write) = .ok items := by
  induction items generalizing start with
  | nil => rfl
  | cons item rest ih =>
    rw [List.map_cons, Check.items, checked, ih]
    rfl

theorem list_map (checked : ∀ a, check (write a) = .ok a) (items : List α) :
    list check (.list (items.map write)) = .ok items :=
  items_map checked 0 items

end Checks

theorem record_toJson (record : Record) : Validation.record record.toJson = .ok record := by
  obtain ⟨display, line, kind⟩ := record
  cases kind <;> rfl

theorem file_toJson (file : Report.FileOutline) : Validation.file file.toJson = .ok file := by
  obtain ⟨path, relativePath, language, records, error, summary⟩ := file
  rw [Validation.file, Report.FileOutline.toJson, Check.object, fileOfFields,
    optional_of_get? "records".toList rfl (list_map record_toJson records)]
  cases error <;> rfl

theorem report_toJson (report : Report) : Validation.report report.toJson = .ok report := by
  obtain ⟨root, files, summary⟩ := report
  rw [Validation.report, Report.toJson, Check.object,
    required_of_get? "files".toList rfl (list_map file_toJson files)]
  rfl

end Validation

namespace CommandLine

/-- A text holds a value as JSON, and the value is checked as `a`. The line numbers in it are those
of `records`; numbers of more than `digitLimit` digits, which no file reaches, could not be read. -/
structure Holds {α : Type} (check : Json → Validation.Check α) (a : α) (records : List Record)
    (value : Json) (output : Text) : Prop where
  printed : output = jsonLines value
  read : (∀ record ∈ records, record.line.natAbs < 10 ^ digitLimit) →
    Json.read output = .ok value
  checked : check value = .ok a

theorem read_jsonLines {value : Json} (readable : value.Readable) :
    Json.read (jsonLines value) = .ok value :=
  Json.read_write Json.blank_indented readable (List.all_eq_true.mp (by decide))

theorem holds_records (records : List Record) :
    Holds (Validation.list Validation.record) records records (.list (records.map Record.toJson))
      (jsonLines (.list (records.map Record.toJson))) where
  printed := rfl
  read short := read_jsonLines (Record.readable_list short)
  checked := Validation.list_map Validation.record_toJson records

theorem holds_report (report : Report) :
    Holds Validation.report report (report.files.flatMap (·.records)) report.toJson
      (jsonLines report.toJson) where
  printed := rfl
  read short := read_jsonLines (Report.readable_toJson fun file inside record member =>
    short record (List.mem_flatMap.mpr ⟨file, inside, member⟩))
  checked := Validation.report_toJson report

end CommandLine

end BasicOutline
