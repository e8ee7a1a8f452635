import BasicOutline.FileSystem
import BasicOutline.Json.Reader
import BasicOutline.Settings.Check
import BasicOutline.Validation.Describe

/-! Settings from a file and from overrides. -/

namespace BasicOutline.Settings

open Validation

def sectionKey : Text := "vbOutline".toList

def sectionMark : Text := "vbOutline.".toList

def plainKey (key : Text) : Text :=
  match Setting.all.find? fun setting => setting.editorKey == key with
  | some setting => setting.plainKey
  | none => key

def plainTopKey (key : Text) : Text :=
  plainKey (if sectionMark.isPrefixOf key then key.drop sectionMark.length else key)

def sectionFields (raw : Json.Fields) : Json.Fields :=
  match raw.get? sectionKey with
  | some (.object fields) => fields
  | _ => []

/-- The fields of an object under plain keys: those outside the section, then those in it. Of two
with one key the later counts, in the place of the first. -/
def flatten (raw : Json.Fields) : Json.Fields :=
  Json.Fields.putAll []
    ((raw.filter fun field => field.1 ≠ sectionKey).map (fun field =>
        (plainTopKey field.1, field.2)) ++
      (sectionFields raw).map fun field => (plainKey field.1, field.2))

def resolve (file overrides : Json.Fields) : Check Settings :=
  ofFields ((flatten file).putAll (flatten overrides))

inductive ReadFailure where
  | file (error : FileError)
  | json (error : Json.ReadError)
  deriving DecidableEq, Repr

def ReadFailure.message : ReadFailure → Text
  | .file error => error.message
  | .json error => error.message

inductive LoadError where
  | unreadable (path : Text) (failure : ReadFailure)
  | notObject (path : Text)
  | invalid (issues : List Issue)
  deriving Repr

def LoadError.message : LoadError → Text
  | .unreadable path failure =>
    "Cannot read settings file ".toList ++ path ++ ": ".toList ++ failure.message
  | .notObject path =>
    "Settings file ".toList ++ path ++ " must hold a JSON object".toList
  | .invalid issues => Validation.describe modelName issues

def readValue (fs : FileSystem) (path : Text) : Except ReadFailure Json :=
  match fs.readText path with
  | .error error => .error (.file error)
  | .ok text => (Json.read (Text.unifyBreaks text)).mapError .json

def readFile (fs : FileSystem) (path : Text) : Except LoadError Json.Fields :=
  if !fs.exists? path then .ok []
  else
    match readValue fs path with
    | .error failure => .error (.unreadable path failure)
    | .ok (.object fields) => .ok fields
    | .ok _ => .error (.notObject path)

def load (fs : FileSystem) (path? : Option Text) (overrides : Json.Fields) :
    Except LoadError Settings := do
  let file ← match path? with
    | some path => readFile fs path
    | none => .ok []
  (resolve file overrides).mapError .invalid

end BasicOutline.Settings
