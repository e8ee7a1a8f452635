import BasicOutline.Parenthesis

/-! Procedure signatures: a declaration that may run over several physical lines. -/

namespace BasicOutline.Signature

open Text

/-- A line as the caller holds it; `none` is a line that is missing. -/
abbrev Line := Option Text

def dropMarker (t : Text) : Text :=
  match t.reverse.dropWhile isSpaceOrTab with
  | '_' :: before => (before.dropWhile isSpaceOrTab).reverse
  | _ => t

/-- Drops the continuation marker of a line, which may end with one line feed. -/
def stripContinuation (line : Text) : Text :=
  if line.getLast? = some '\n' then dropMarker line.dropLast ++ ['\n'] else dropMarker line

def openDepth (first : Text) : Int := Parenthesis.depth (first.dropWhile (· != '('))

structure Assembled where
  text : Text
  extra : Nat
  deriving DecidableEq, Repr

structure MissingLine where
  deriving DecidableEq, Repr

/-- Appends the lines that follow until the nesting is closed or the lines run out. -/
def extend (text : Text) (nesting : Int) : List Line → Except MissingLine Assembled
  | [] => .ok ⟨text, 0⟩
  | line :: following =>
    if nesting ≤ 0 then .ok ⟨text, 0⟩
    else match line with
      | none => .error ⟨⟩
      | some line =>
        let segment := stripContinuation line
        (extend (text ++ '\n' :: segment) (nesting + Parenthesis.depth segment) following).map
          fun assembled => ⟨assembled.text, assembled.extra + 1⟩

def assemble (first : Line) (following : List Line) : Except MissingLine Assembled :=
  match first with
  | none => .error ⟨⟩
  | some line =>
    let text := stripContinuation line
    extend text (openDepth text) following

structure Located where
  text : Text
  last : Int
  deriving DecidableEq, Repr

inductive GrabError where
  | outOfRange
  | indexTooWide
  | missingLine
  deriving DecidableEq, Repr

def GrabError.message : GrabError → Text
  | .outOfRange => "list index out of range".toList
  | .indexTooWide => "cannot fit 'int' into an index-sized integer".toList
  | .missingLine => "expected string or bytes-like object, got 'NoneType'".toList

def leastIndex : Int := -9223372036854775808

/-- The lines read from `start` on. A negative `start` counts from the end, and the reading goes on
with the first line. -/
def readFrom (lines : List Line) (start : Int) : Except GrabError (List Line) :=
  if 0 ≤ start then .ok (lines.drop start.toNat)
  else if -(lines.length : Int) ≤ start then
    .ok (lines.drop (lines.length + start).toNat ++ lines)
  else if leastIndex ≤ start then .error .outOfRange
  else .error .indexTooWide

/-- The signature that begins at the line with index `start`; past the lines it is empty. -/
def grab (lines : List Line) (start : Int) : Except GrabError Located :=
  match readFrom lines start with
  | .error e => .error e
  | .ok [] => .ok ⟨[], start⟩
  | .ok (first :: following) =>
    match assemble first following with
    | .error _ => .error .missingLine
    | .ok assembled => .ok ⟨assembled.text, start + assembled.extra⟩

end BasicOutline.Signature
