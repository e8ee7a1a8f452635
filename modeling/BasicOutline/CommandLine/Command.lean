import BasicOutline.CommandLine.Argument
import BasicOutline.CommandLine.Help
import BasicOutline.Json.Value
import BasicOutline.Settings.Check

/-! The commands that the arguments of the program can ask for. -/

namespace BasicOutline.CommandLine

structure SettingsChoice where
  file : Option Text := none
  showParameters : Bool := false
  showFunctionType : Bool := false
  showVarType : Bool := false
  /-- The width, which the mark in its place leaves out. -/
  standardIndent : Option (Option Int) := none
  deriving DecidableEq, Repr

def SettingsChoice.overrides (choice : SettingsChoice) : Json.Fields :=
  let flag (given : Bool) (setting : Setting) : Json.Fields :=
    if given then [(setting.editorKey, .bool true)] else []
  flag choice.showParameters .showParameters ++
    flag choice.showFunctionType .showFunctionType ++
    flag choice.showVarType .showVarType ++
    match choice.standardIndent with
    | some level =>
      [(Setting.useStandardIndent.editorKey, .bool true),
        (Setting.standardIndentLevel.editorKey, level.elim (.list []) .int)]
    | none => []

structure ServerOptions where
  /-- The mark in its place leaves none. -/
  host : Option Text := some "127.0.0.1".toList
  /-- The mark in its place leaves none. -/
  port : Option Int := some 8000
  reload : Bool := false
  deriving DecidableEq, Repr

inductive Command where
  | outline (path : Text) (json : Bool) (settings : SettingsChoice)
  | scan (path : Text) (settings : SettingsChoice)
  | serve (options : ServerOptions)
  deriving DecidableEq, Repr

structure Invocation where
  verbose : Bool
  command : Command
  deriving DecidableEq, Repr

def helpSwitch : Switch := { key := .help, names := ["-h".toList, "--help".toList] }

def settingsSwitches : List Switch :=
  [{ key := .settings, names := ["--settings".toList], takes := .text },
    { key := .showParameters, names := ["--show-parameters".toList] },
    { key := .showFunctionType, names := ["--show-function-type".toList] },
    { key := .showVarType, names := ["--show-var-type".toList] },
    { key := .standardIndent, names := ["--standard-indent".toList], takes := .integer }]

def mainGrammar : Grammar where
  switches :=
    [helpSwitch, { key := .verbose, names := ["-v".toList, "--verbose".toList] }]
  operand := .remainder "cmd".toList

def outlineGrammar : Grammar where
  switches := helpSwitch :: { key := .json, names := ["--json".toList] } :: settingsSwitches
  operand := .single "path".toList

def scanGrammar : Grammar where
  switches := helpSwitch :: settingsSwitches
  operand := .single "path".toList

def serveGrammar : Grammar where
  switches :=
    [helpSwitch, { key := .host, names := ["--host".toList], takes := .text },
      { key := .port, names := ["--port".toList], takes := .integer },
      { key := .reload, names := ["--reload".toList] }]
  operand := .absent

structure Form where
  name : Text
  grammar : Grammar
  help : Help
  command : Parsed → Command

def settingsChoice (parsed : Parsed) : SettingsChoice where
  file := (parsed.text? .settings).join
  showParameters := parsed.has .showParameters
  showFunctionType := parsed.has .showFunctionType
  showVarType := parsed.has .showVarType
  standardIndent := parsed.integer? .standardIndent

def operand (parsed : Parsed) : Text := parsed.operands.headD []

def serverOptions (parsed : Parsed) : ServerOptions :=
  let defaults : ServerOptions := {}
  { host := (parsed.text? .host).getD defaults.host
    port := (parsed.integer? .port).getD defaults.port
    reload := parsed.has .reload }

def forms : List Form :=
  [{ name := "outline".toList
     grammar := outlineGrammar
     help := Help.outline
     command := fun parsed =>
       .outline (operand parsed) (parsed.has .json) (settingsChoice parsed) },
    { name := "scan".toList
      grammar := scanGrammar
      help := Help.scan
      command := fun parsed => .scan (operand parsed) (settingsChoice parsed) },
    { name := "serve".toList
      grammar := serveGrammar
      help := Help.serve
      command := fun parsed => .serve (serverOptions parsed) }]

structure Refusal where
  help : Help
  stop : Stop
  deriving DecidableEq, Repr

def invalidChoice (name : Text) : Text :=
  "argument cmd: invalid choice: ".toList ++ Text.quote name ++ " (choose from ".toList ++
    List.intercalate ", ".toList (forms.map fun form => Text.quote form.name) ++ ")".toList

def unrecognized (arguments : List Text) : Text :=
  "unrecognized arguments: ".toList ++ List.intercalate [' '] arguments

def refuse {α : Type} (help : Help) (result : Except Stop α) : Except Refusal α :=
  result.mapError fun stop => ⟨help, stop⟩

/-- The command that arguments ask for. The arguments of a command are read before those left
over are complained of. -/
def invocation (arguments : List Text) : Except Refusal Invocation := do
  let parsed ← refuse Help.top (parse mainGrammar arguments)
  let name := operand parsed
  match forms.find? fun form => form.name = name with
  | none => .error ⟨Help.top, .error (invalidChoice name)⟩
  | some form =>
    let inner ← refuse form.help (parse form.grammar parsed.operands.tail)
    let extras := parsed.extras ++ inner.extras
    if extras = [] then .ok ⟨parsed.has .verbose, form.command inner⟩
    else .error ⟨Help.top, .error (unrecognized extras)⟩

end BasicOutline.CommandLine
