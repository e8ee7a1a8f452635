import BasicOutline.CommandLine.Command
import BasicOutline.Json.Writer
import BasicOutline.Repository
import BasicOutline.Settings.Resolve

/-! Running commands: what they write, and the code that they end with. -/

namespace BasicOutline.CommandLine

structure Outcome where
  exitCode : Nat := 0
  output : Text := []
  errors : Text := []
  /-- The server to be started. -/
  server : Option ServerOptions := none
  /-- An error that the command does not provide for. -/
  fault : Option FileError := none
  deriving DecidableEq, Repr

def Refusal.outcome (refusal : Refusal) : Outcome :=
  match refusal.stop with
  | .help => { output := refusal.help.text }
  | .error message => { exitCode := 2, errors := refusal.help.complaint message }

def settingsFailure (error : Settings.LoadError) : Outcome :=
  { exitCode := 2, errors := "vb-outline: ".toList ++ error.message ++ ['\n'] }

def loadSettings (fs : FileSystem) (choice : SettingsChoice) :
    Except Settings.LoadError Settings :=
  Settings.load fs choice.file choice.overrides

def failureLog (fs : FileSystem) (settings : Settings) (path : Text) : Text :=
  match Outline.ofFile fs settings path with
  | .ok _ => []
  | .error failure =>
    "DEBUG outliner.outline: Outline scan of ".toList ++ path ++ " failed: ".toList ++
      failure.message ++ '\n' :: failure.describe ++ ['\n']

def entryLines (records : List Record) : Text :=
  records.flatMap fun record => record.toEntry ++ ['\n']

def jsonLines (value : Json) : Text := value.indented ++ ['\n']

def runOutline (fs : FileSystem) (verbose : Bool) (path : Text) (json : Bool)
    (settings : Settings) : Outcome :=
  let records := Outline.records fs settings path
  { output := if json then jsonLines (.list (records.map Record.toJson)) else entryLines records
    errors := if verbose then failureLog fs settings path else [] }

def runScan (fs : FileSystem) (verbose : Bool) (path : Text) (settings : Settings) : Outcome :=
  let root := fs.absolute path
  match Repository.checkRoot root with
  | .error error => { exitCode := 1, fault := some error }
  | .ok _ =>
    let report := Repository.report fs settings root
    { output := jsonLines report.toJson
      errors :=
        if verbose then report.files.flatMap fun file => failureLog fs settings file.path else [] }

def withSettings (fs : FileSystem) (choice : SettingsChoice) (run : Settings → Outcome) :
    Outcome :=
  match loadSettings fs choice with
  | .ok settings => run settings
  | .error error => settingsFailure error

def runCommand (fs : FileSystem) (verbose : Bool) : Command → Outcome
  | .outline path json choice =>
    withSettings fs choice fun settings => runOutline fs verbose path json settings
  | .scan path choice => withSettings fs choice fun settings => runScan fs verbose path settings
  | .serve options => { server := some options }

def run (fs : FileSystem) (arguments : List Text) : Outcome :=
  match invocation arguments with
  | .ok invocation => runCommand fs invocation.verbose invocation.command
  | .error refusal => refusal.outcome

end BasicOutline.CommandLine
