import BasicOutline.Text.Quoted

/-! Request targets: the path that a target names on the service. A target is a reference; what it
leaves out is that of the service. -/

namespace BasicOutline.Service.Target

open Text

inductive Error where
  | tooLong
  | control (c : Char) (position : Nat)
  | doubleSlash
  | leadingColon
  | badPort (text : Text)
  | unknownScheme (name : Text)
  deriving DecidableEq, Repr

def Error.message : Error → Text
  | .tooLong => "URL too long".toList
  | .control c position =>
    "Invalid non-printable ASCII character in URL, ".toList ++ quote [c] ++
      " at position ".toList ++ natDigits position ++ ['.']
  | .doubleSlash => "Relative URLs cannot have a path starting with '//'".toList
  | .leadingColon => "Relative URLs cannot have a path starting with ':'".toList
  | .badPort text => "Invalid port: ".toList ++ quote text
  | .unknownScheme name => quote name

def lengthLimit : Nat := 65536

def isControl (c : Char) : Bool := c.toNat < 32 || c.toNat == 127

def isSchemeChar (c : Char) : Bool := c.isAlphanum || c == '+' || c == '.' || c == '-'

def splitScheme (t : Text) : Text × Text :=
  let name := t.takeWhile isSchemeChar
  match t.dropWhile isSchemeChar with
  | ':' :: rest =>
    if name.head?.all Char.isAlpha then (name.map Char.toLower, rest) else ([], t)
  | _ => ([], t)

def splitAuthority : Text → Text × Text
  | '/' :: '/' :: rest =>
    let inside := fun c => c != '/' && c != '?' && c != '#'
    (rest.takeWhile inside, rest.dropWhile inside)
  | t => ([], t)

structure Authority where
  user : Text
  host : Text
  port : Text
  deriving DecidableEq, Repr

def Authority.ofText (t : Text) : Authority :=
  let named := (t.reverse.takeWhile (· != '@')).reverse
  let user := (t.take (t.length - named.length)).dropLast
  let host :=
    if named.head? = some '[' ∧ named.contains ']' then
      (named.reverse.dropWhile (· != ']')).reverse
    else named.takeWhile (· != ':')
  match named.drop host.length with
  | ':' :: port => ⟨user, host, port⟩
  | port => ⟨user, host, port⟩

def passSegment (passed : List Text) (segment : Text) : List Text :=
  if segment = ['.'] then passed
  else if segment = ['.', '.'] then if passed = [[]] then passed else passed.tail
  else segment :: passed

def dropDots (path : Text) : Text :=
  List.intercalate ['/'] ((path.splitOn '/').foldl passSegment []).reverse

def fromRoot (path : Text) : Text := dropDots ('/' :: path.dropWhile (· == '/'))

def knownSchemes : List Text := ["http".toList, "https".toList, "ws".toList, "wss".toList]

def pathOfParts (scheme : Text) (authority : Authority) (path : Text) : Except Error Text :=
  if authority.port ≠ [] ∧ !(readInt authority.port).isOk then .error (.badPort authority.port)
  else if scheme = [] ∧ authority = ⟨[], [], []⟩ then
    if ['/', '/'].isPrefixOf path then .error .doubleSlash
    else if path.head? = some ':' then .error .leadingColon
    else .ok (fromRoot path)
  else if scheme = [] ∨ authority.host = [] then .ok (fromRoot (dropDots path))
  else if knownSchemes.contains scheme then .ok (dropDots path)
  else .error (.unknownScheme scheme)

def escapedPath (target : Text) : Except Error Text :=
  if lengthLimit < target.length then .error .tooLong
  else
    match target.find? isControl with
    | some c => .error (.control c (target.takeWhile (!isControl ·)).length)
    | none =>
      let (scheme, rest) := splitScheme target
      let (authority, rest) := splitAuthority rest
      pathOfParts scheme (.ofText authority) (rest.takeWhile fun c => c != '?' && c != '#')

def asciiOfHex? (a b : Char) : Option Char :=
  match hexValue? a, hexValue? b with
  | some high, some low => if high < 8 then some (Char.ofNat (16 * high + low)) else none
  | _, _ => none

/-- Reads the escapes of ASCII characters. Others stay, since no route has them. -/
def unescape : Text → Text
  | '%' :: a :: b :: rest =>
    match asciiOfHex? a b with
    | some plain => plain :: unescape rest
    | none => '%' :: unescape (a :: b :: rest)
  | c :: rest => c :: unescape rest
  | [] => []

/-- The path that a target names. Its escapes are read twice: once as the target is taken apart
and once more as the path is looked up. -/
def path (target : Text) : Except Error Text :=
  (escapedPath target).map fun path => unescape (unescape path)

end BasicOutline.Service.Target
