import BasicOutline.Text.Blank

/-! What an outline shows, how it indents the fields of procedures, and the keys of these settings.
-/

namespace BasicOutline

structure Settings where
  useStandardIndent : Bool := false
  standardIndentLevel : Nat := 2
  showParameters : Bool := false
  showFunctionType : Bool := false
  showVarType : Bool := false
  deriving DecidableEq, Repr

namespace Settings

def indentLimit : Nat := 9223372036854775808

/-- The standard indent; `none` when it is too wide to be written. -/
def standardIndent? (settings : Settings) : Option Text :=
  if settings.standardIndentLevel < indentLimit then
    some (Text.spaces settings.standardIndentLevel)
  else none

end Settings

inductive Setting where
  | useStandardIndent
  | standardIndentLevel
  | showParameters
  | showFunctionType
  | showVarType
  deriving DecidableEq, Repr

namespace Setting

def all : List Setting :=
  [.useStandardIndent, .standardIndentLevel, .showParameters, .showFunctionType, .showVarType]

def editorKey : Setting → Text
  | .useStandardIndent => "UseStandardIndent".toList
  | .standardIndentLevel => "StandardIndentLevel".toList
  | .showParameters => "ShowParameters".toList
  | .showFunctionType => "ShowFunctionType".toList
  | .showVarType => "ShowVarType".toList

def plainKey : Setting → Text
  | .useStandardIndent => "use_standard_indent".toList
  | .standardIndentLevel => "standard_indent_level".toList
  | .showParameters => "show_parameters".toList
  | .showFunctionType => "show_function_type".toList
  | .showVarType => "show_var_type".toList

end Setting

end BasicOutline
