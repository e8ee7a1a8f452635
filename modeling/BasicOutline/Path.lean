import BasicOutline.Text.Blank

/-! Paths with `/` between their components. -/

namespace BasicOutline.Path

def isAbsolute (path : Text) : Bool := path.head? == some '/'

def components (path : Text) : List Text := (path.splitOn '/').filter (· ≠ [])

def ofComponents (names : List Text) : Text := List.intercalate ['/'] names

def join (directory path : Text) : Text :=
  if isAbsolute path then path
  else if directory = [] ∨ directory.getLast? = some '/' then directory ++ path
  else directory ++ '/' :: path

def here : Text := ['.']

def parent : Text := ['.', '.']

/-- Adds a name to the names passed so far, the last one first: `.` stays, and `..` goes back
where there is a name to go back from. -/
def pass (absolute : Bool) (passed : List Text) (name : Text) : List Text :=
  if name = [] ∨ name = here then passed
  else if name ≠ parent then name :: passed
  else
    match passed with
    | [] => if absolute then [] else [parent]
    | last :: before => if last = parent then parent :: passed else before

def normalComponents (path : Text) : List Text :=
  ((components path).foldl (pass (isAbsolute path)) []).reverse

/-- The slashes that a normal form begins with: two stay two, more are one. -/
def leadingSlashes (path : Text) : Text :=
  let count := (path.takeWhile (· == '/')).length
  if count = 0 then [] else if count = 2 then ['/', '/'] else ['/']

def normalize (path : Text) : Text :=
  let normal := leadingSlashes path ++ ofComponents (normalComponents path)
  if normal = [] then here else normal

def absolute (directory path : Text) : Text := normalize (join directory path)

def dropCommon : List Text → List Text → List Text × List Text
  | a :: as, b :: bs => if a = b then dropCommon as bs else (a :: as, b :: bs)
  | as, bs => (as, bs)

def relative (directory path start : Text) : Text :=
  let (up, down) :=
    dropCommon (components (absolute directory start)) (components (absolute directory path))
  let names := up.map (fun _ => parent) ++ down
  if names = [] then here else ofComponents names

def baseName (path : Text) : Text := (path.reverse.takeWhile (· != '/')).reverse

/-- The extension of a path with its dot. Dots that begin a name do not begin an extension. -/
def extension (path : Text) : Text :=
  let reversed := (baseName path).reverse
  match reversed.dropWhile (· != '.') with
  | [] => []
  | _ :: stem => if stem.all (· == '.') then [] else '.' :: (reversed.takeWhile (· != '.')).reverse

end BasicOutline.Path
