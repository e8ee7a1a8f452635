import BasicOutline.Declaration
import BasicOutline.Parenthesis
import BasicOutline.Settings
import BasicOutline.Text.Lines

/-! The one line that an outline shows for a declaration. -/

namespace BasicOutline.Display

open Text

def indentOf (t : Text) : Nat := (((lines t).headD []).takeWhile isBlank).length

def dropComment (line : Text) : Text :=
  if line.contains '\x27' then trimEndWhile isSpaceOrTab (line.takeWhile (· != '\x27')) else line

def dropComments (t : Text) : Text :=
  List.intercalate ['\n'] ((t.splitOn '\n').map dropComment)

def isAsClause (t : Text) : Bool :=
  match Declaration.afterBlankAs? t with
  | some type => Declaration.fromLineEnd type == [] || Declaration.fromLineEnd type == ['\n']
  | none => false

/-- Drops the `As` clause after the groups of a procedure; `Dim` and `Const` statements stay. -/
def dropReturnType (t : Text) : Text :=
  if Declaration.occurs t then t
  else
    match Parenthesis.splitGroups (t.dropWhile (· != '(')) with
    | some (groups, rest) =>
      if isAsClause rest then t.takeWhile (· != '(') ++ groups else t
    | none => t

def flatten (t : Text) : Text :=
  Declaration.dropInitializers (joinLines (dropComments t))

/-- The line shown for a declaration: what the settings hide is dropped, the indentation of the
first line stays. -/
def render (settings : Settings) (t : Text) : Text :=
  let flat := flatten t
  let listed := if settings.showParameters then flat else Parenthesis.collapse flat
  let returned := if settings.showFunctionType then listed else dropReturnType listed
  let typed := if settings.showVarType then returned else Declaration.dropTypes returned
  spaces (indentOf t) ++ trimStart typed

end BasicOutline.Display
