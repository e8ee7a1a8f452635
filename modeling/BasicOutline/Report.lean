import BasicOutline.Json.Value
import BasicOutline.Outline

/-! Reports: the outlines of the source files below a directory, with summaries. -/

namespace BasicOutline.Report

open Text

structure Counts where
  classes : Nat
  functions : Nat
  fields : Nat
  deriving DecidableEq, Repr

def countOf (kind : Kind) (records : List Record) : Nat :=
  (records.filter fun record => record.kind = kind).length

def Counts.ofRecords (records : List Record) : Counts :=
  ⟨countOf .cls records, countOf .function records, countOf .field records⟩

def Counts.describe (counts : Counts) : Text :=
  natDigits counts.classes ++ " classes, ".toList ++ natDigits counts.functions ++
    " procedures, ".toList ++ natDigits counts.fields ++ " fields".toList

structure FileOutline where
  path : Text
  relativePath : Text
  language : Text
  records : List Record := []
  error : Option Text := none
  summary : Text := []
  deriving DecidableEq, Repr

namespace FileOutline

def failed (file : FileOutline) : Bool :=
  match file.error with
  | some error => !error.isEmpty
  | none => false

def summarize (file : FileOutline) : Text :=
  "File ".toList ++ file.relativePath ++ ": ".toList ++
    if file.failed then "not outlined (".toList ++ file.error.getD [] ++ ")".toList
    else (Counts.ofRecords file.records).describe

end FileOutline

def summarize (root : Text) (files : List FileOutline) : Text :=
  "Repository at ".toList ++ root ++ ": ".toList ++ natDigits files.length ++
    " source files (".toList ++ natDigits (files.filter FileOutline.failed).length ++
    " unreadable), ".toList ++ (Counts.ofRecords (files.flatMap (·.records))).describe

end BasicOutline.Report

namespace BasicOutline

structure Report where
  root : Text
  files : List Report.FileOutline
  summary : Text
  deriving DecidableEq, Repr

def Record.toJson (record : Record) : Json :=
  .object
    [("display_text".toList, .text record.display), ("source_line".toList, .int record.line),
      ("kind".toList, .text record.kind.name)]

namespace Report

def FileOutline.toJson (file : FileOutline) : Json :=
  .object
    [("path".toList, .text file.path), ("rel_path".toList, .text file.relativePath),
      ("language".toList, .text file.language),
      ("records".toList, .list (file.records.map Record.toJson)),
      ("error".toList, match file.error with
        | some error => .text error
        | none => .null),
      ("summary".toList, .text file.summary)]

def toJson (report : Report) : Json :=
  .object
    [("root".toList, .text report.root),
      ("files".toList, .list (report.files.map FileOutline.toJson)),
      ("summary".toList, .text report.summary)]

end Report

end BasicOutline
