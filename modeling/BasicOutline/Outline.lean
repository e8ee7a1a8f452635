import BasicOutline.FileSystem
import BasicOutline.Record
import BasicOutline.Scan

/-! Outlines of single files. -/

namespace BasicOutline.Outline

inductive Failure where
  | file (error : FileError)
  | scan (failure : Scan.Failure)
  deriving DecidableEq, Repr

namespace Failure

def label : Failure → Text
  | .file error => error.label
  | .scan .missingLine => "TypeError".toList
  | .scan .indentTooWide => "OverflowError".toList

def message : Failure → Text
  | .file error => error.message
  | .scan failure => failure.message

def describe (failure : Failure) : Text := failure.label ++ ": ".toList ++ failure.message

end Failure

def ofFile (fs : FileSystem) (settings : Settings) (path : Text) :
    Except Failure (List Record) :=
  match fs.readLines path with
  | .error error => .error (.file error)
  | .ok lines => (Scan.scan settings (lines.map some)).mapError .scan

def records (fs : FileSystem) (settings : Settings) (path : Text) : List Record :=
  match ofFile fs settings path with
  | .ok records => records
  | .error _ => []

def entries (fs : FileSystem) (settings : Settings) (path : Text) : List Text :=
  (records fs settings path).map Record.toEntry

end BasicOutline.Outline
