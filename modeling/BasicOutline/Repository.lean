import BasicOutline.Report
import BasicOutline.Text.Order

/-! Repositories: the source files below a directory, in the dialects of BASIC that the extensions
of their names tell. -/

namespace BasicOutline

inductive Language where
  | vbNet
  | vb6
  | vba
  | vbScript
  deriving DecidableEq, Repr

namespace Language

def name : Language → Text
  | .vbNet => "vbnet".toList
  | .vb6 => "vb6".toList
  | .vba => "vba".toList
  | .vbScript => "vbscript".toList

def extensions : List (Text × Language) :=
  [(".vb".toList, .vbNet), (".bas".toList, .vb6), (".cls".toList, .vb6), (".frm".toList, .vb6),
    (".ctl".toList, .vb6), (".vba".toList, .vba), (".vbs".toList, .vbScript)]

/-- The language of a file. The extensions hold only letters whose other case is in ASCII too. -/
def ofFileName? (path : Text) : Option Language :=
  extensions.lookup ((Path.extension path).map Char.toLower)

def nameOfFile (path : Text) : Text :=
  match ofFileName? path with
  | some language => language.name
  | none => "unknown".toList

end Language

namespace Repository

def skippedNames : List Text :=
  [".git".toList, ".vs".toList, "node_modules".toList, "bin".toList, "obj".toList, "dist".toList,
    "build".toList, "packages".toList]

structure SourceFile where
  path : Text
  relativePath : Text
  language : Language
  deriving DecidableEq, Repr

def sortByName {α : Type} (entries : List (Text × α)) : List (Text × α) :=
  entries.mergeSort fun first second => Text.le first.1 second.1

def sourceFiles (directory : Text) (entries : Entries) : List (Text × Language) :=
  (sortByName entries).filterMap fun entry =>
    match entry.2 with
    | .directory _ => none
    | .file _ => (Language.ofFileName? entry.1).map (Path.join directory entry.1, ·)

mutual

/-- The source files at or below a directory: first its own by name, then those of its
directories by name. -/
def walk (directory : Text) : Node → List (Text × Language)
  | .file _ => []
  | .directory entries =>
    sourceFiles directory entries ++
      (sortByName (walkEntries directory entries)).flatMap (·.2)

def walkEntries (directory : Text) : List (Text × Node) → List (Text × List (Text × Language))
  | [] => []
  | (name, node) :: rest =>
    if skippedNames.contains name then walkEntries directory rest
    else (name, walk (Path.join directory name) node) :: walkEntries directory rest

end

def files (fs : FileSystem) (root : Text) : List SourceFile :=
  let found := match fs.entries? root with
    | some entries => walk root (.directory entries)
    | none => []
  found.map fun file => ⟨file.1, Path.relative fs.workingDirectory file.1 root, file.2⟩

def outlineFile (fs : FileSystem) (settings : Settings) (file : SourceFile) :
    Report.FileOutline :=
  let outlined : Report.FileOutline :=
    { path := file.path, relativePath := file.relativePath, language := file.language.name }
  let outlined := match Outline.ofFile fs settings file.path with
    | .ok records => { outlined with records := records }
    | .error failure => { outlined with error := some failure.describe }
  { outlined with summary := outlined.summarize }

def report (fs : FileSystem) (settings : Settings) (root : Text) : Report :=
  let outlines := (files fs root).map (outlineFile fs settings)
  ⟨root, outlines, Report.summarize root outlines⟩

def checkRoot (root : Text) : Except FileError Unit :=
  if root.contains '\x00' then .error .nullByte else .ok ()

end Repository

end BasicOutline
