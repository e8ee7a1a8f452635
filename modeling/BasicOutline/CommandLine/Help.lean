import BasicOutline.Text.Blank

/-! The usage and help texts of the commands. -/

namespace BasicOutline.CommandLine

def paragraph (lines : List String) : Text := lines.flatMap fun line => line.toList ++ ['\n']

structure Help where
  program : Text
  usage : Text
  details : Text
  deriving DecidableEq, Repr

namespace Help

def text (help : Help) : Text := help.usage ++ help.details

def complaint (help : Help) (message : Text) : Text :=
  help.usage ++ help.program ++ ": error: ".toList ++ message ++ ['\n']

def top : Help where
  program := "vb-outline".toList
  usage := paragraph ["usage: vb-outline [-h] [-v] \x7boutline,scan,serve\x7d ..."]
  details := paragraph
    ["",
     "positional arguments:",
     "  \x7boutline,scan,serve\x7d",
     "    outline             Print the outline of one source file",
     "    scan                Outline every source file below a directory and print",
     "                        JSON",
     "    serve               Run FastAPI server",
     "",
     "options:",
     "  -h, --help            show this help message and exit",
     "  -v, --verbose         Log scan failures"]

def settingsLines : List String :=
  ["  --settings SETTINGS   JSON settings file (editor style)",
   "  --show-parameters     Keep parameter lists",
   "  --show-function-type  Keep function return types",
   "  --show-var-type       Keep variable and constant types",
   "  --standard-indent N   Indent declarations inside procedures by N spaces"]

def outline : Help where
  program := "vb-outline outline".toList
  usage := paragraph
    ["usage: vb-outline outline [-h] [--json] [--settings SETTINGS]",
     "                          [--show-parameters] [--show-function-type]",
     "                          [--show-var-type] [--standard-indent N]",
     "                          path"]
  details := paragraph
    (["",
      "positional arguments:",
      "  path                  Path to a BASIC-family source file",
      "",
      "options:",
      "  -h, --help            show this help message and exit",
      "  --json                Print records as JSON"] ++ settingsLines)

def scan : Help where
  program := "vb-outline scan".toList
  usage := paragraph
    ["usage: vb-outline scan [-h] [--settings SETTINGS] [--show-parameters]",
     "                       [--show-function-type] [--show-var-type]",
     "                       [--standard-indent N]",
     "                       path"]
  details := paragraph
    (["",
      "positional arguments:",
      "  path                  Path to repository root",
      "",
      "options:",
      "  -h, --help            show this help message and exit"] ++ settingsLines)

def serve : Help where
  program := "vb-outline serve".toList
  usage := paragraph ["usage: vb-outline serve [-h] [--host HOST] [--port PORT] [--reload]"]
  details := paragraph
    ["",
     "options:",
     "  -h, --help   show this help message and exit",
     "  --host HOST",
     "  --port PORT",
     "  --reload"]

end Help

end BasicOutline.CommandLine
