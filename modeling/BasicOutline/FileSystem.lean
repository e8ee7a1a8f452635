import BasicOutline.Path
import BasicOutline.Text.Lines
import BasicOutline.Text.Quoted
import BasicOutline.Text.Utf8

/-! A tree of files, the directory that relative paths begin at, and reading from it. -/

namespace BasicOutline

inductive Node where
  | file (content : Utf8.Bytes)
  | directory (entries : List (Text × Node))
  deriving Inhabited, Repr

abbrev Entries := List (Text × Node)

structure FileSystem where
  root : Entries := []
  /-- An absolute path. -/
  workingDirectory : Text
  deriving Repr

inductive FileError where
  | notFound (path : Text)
  | isDirectory (path : Text)
  | notDirectory (path : Text)
  | nullByte
  | undecodable (error : Utf8.DecodeError)
  deriving DecidableEq, Repr

namespace FileError

def label : FileError → Text
  | .notFound _ => "FileNotFoundError".toList
  | .isDirectory _ => "IsADirectoryError".toList
  | .notDirectory _ => "NotADirectoryError".toList
  | .nullByte => "ValueError".toList
  | .undecodable _ => "UnicodeDecodeError".toList

def message : FileError → Text
  | .notFound path => "[Errno 2] No such file or directory: ".toList ++ Text.quote path
  | .isDirectory path => "[Errno 21] Is a directory: ".toList ++ Text.quote path
  | .notDirectory path => "[Errno 20] Not a directory: ".toList ++ Text.quote path
  | .nullByte => "embedded null byte".toList
  | .undecodable error => error.message

end FileError

namespace Entries

def put (name : Text) (node : Node) : Entries → Entries
  | [] => [(name, node)]
  | entry :: rest => if entry.1 = name then (name, node) :: rest else entry :: put name node rest

/-- Puts a node below a directory, making the directories on the way; `none` where a file is in
the way. -/
def putAt (node : Node) : List Text → Entries → Option Entries
  | [], _ => none
  | [name], entries =>
    match entries.lookup name, node with
    | some (.directory _), .directory _ => some entries
    | some (.directory _), .file _ => none
    | some (.file _), .directory _ => none
    | _, node => some (put name node entries)
  | name :: rest, entries =>
    match entries.lookup name with
    | some (.file _) => none
    | some (.directory inner) =>
      (putAt node rest inner).map fun inner => put name (.directory inner) entries
    | none => (putAt node rest []).map fun inner => put name (.directory inner) entries

def eraseAt : List Text → Entries → Entries
  | [], entries => entries
  | [name], entries => entries.filter fun entry => entry.1 ≠ name
  | name :: rest, entries =>
    match entries.lookup name with
    | some (.directory inner) => put name (.directory (eraseAt rest inner)) entries
    | _ => entries

end Entries

namespace FileSystem

/-- Follows names from a directory, `above` being the directories that contain it, the nearest
first. Only directories can be left or passed. -/
def descend (path : Text) (above : List Node) (node : Node) : List Text → Except FileError Node
  | [] => .ok node
  | name :: rest =>
    match node with
    | .file _ => .error (.notDirectory path)
    | .directory entries =>
      if name = Path.here then descend path above node rest
      else if name = Path.parent then
        match above with
        | [] => descend path [] node rest
        | outer :: above => descend path above outer rest
      else
        match entries.lookup name with
        | some inner => descend path (node :: above) inner rest
        | none => .error (.notFound path)

/-- The names that a path leads through; a final slash asks for a directory. -/
def steps (path : Text) : List Text :=
  Path.components path ++ if path.getLast? = some '/' then [Path.here] else []

def find (fs : FileSystem) (path : Text) : Except FileError Node :=
  if path = [] then .error (.notFound path)
  else if path.contains '\x00' then .error .nullByte
  else if Path.isAbsolute path then descend path [] (.directory fs.root) (steps path)
  else descend path [] (.directory fs.root) (steps fs.workingDirectory ++ steps path)

def exists? (fs : FileSystem) (path : Text) : Bool := (fs.find path).isOk

def entries? (fs : FileSystem) (path : Text) : Option Entries :=
  match fs.find path with
  | .ok (.directory entries) => some entries
  | _ => none

def readBytes (fs : FileSystem) (path : Text) : Except FileError Utf8.Bytes :=
  match fs.find path with
  | .error error => .error error
  | .ok (.directory _) => .error (.isDirectory path)
  | .ok (.file content) => .ok content

def readText (fs : FileSystem) (path : Text) : Except FileError Text := do
  (Utf8.decode (← fs.readBytes path)).mapError .undecodable

def readLines (fs : FileSystem) (path : Text) : Except FileError (List Text) := do
  return Text.lines (← fs.readText path)

def absolute (fs : FileSystem) (path : Text) : Text := Path.absolute fs.workingDirectory path

def put (fs : FileSystem) (path : Text) (node : Node) : Except FileError FileSystem :=
  if path.contains '\x00' then .error .nullByte
  else
    match Entries.putAt node (Path.normalComponents (fs.absolute path)) fs.root with
    | some root => .ok { fs with root := root }
    | none =>
      match fs.find path with
      | .ok (.directory _) => .error (.isDirectory path)
      | _ => .error (.notDirectory path)

def remove (fs : FileSystem) (path : Text) : Except FileError FileSystem := do
  let _ ← fs.readBytes path
  return { fs with
    root := Entries.eraseAt (Path.normalComponents (fs.absolute path)) fs.root }

end FileSystem

end BasicOutline
