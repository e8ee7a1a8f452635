import BasicOutline.Display
import BasicOutline.Record
import BasicOutline.Signature

/-! The scan of source lines for declarations. -/

namespace BasicOutline.Scan

open Text
open Signature (Line)

structure State where
  cursor : Int := -1
  inProcedure : Bool := false
  deriving DecidableEq, Repr

def State.consumeThrough (state : State) (index : Int) : State :=
  { state with cursor := if state.cursor < index then index else state.cursor }

inductive Failure where
  | missingLine
  | indentTooWide
  deriving DecidableEq, Repr

def Failure.message : Failure → Text
  | .missingLine => Signature.GrabError.missingLine.message
  | .indentTooWide => Signature.GrabError.indexTooWide.message

inductive Role where
  | comment
  | procedureEnd
  | declaration (kind : Kind)
  | other
  deriving DecidableEq, Repr

def isComment (line : Text) : Bool := (trimStart line).head? == some '\x27'

def endsProcedure (line : Text) : Bool :=
  mentions "end function".toList line || mentions "end sub".toList line

def declaresClass (line : Text) : Bool := mentions "class ".toList line

def declaresProcedure (line : Text) : Bool :=
  mentions "function ".toList line || mentions "sub ".toList line

def declaresField (line : Text) : Bool :=
  mentions "dim ".toList line || mentions "const ".toList line

/-- The role of a line is the first that fits, in this order. -/
def classify (line : Text) : Role :=
  if isComment line then .comment
  else if endsProcedure line then .procedureEnd
  else if declaresClass line then .declaration .cls
  else if declaresProcedure line then .declaration .function
  else if declaresField line then .declaration .field
  else .other

def fieldIndent (settings : Settings) (inProcedure : Bool) (display : Text) :
    Except Failure Text :=
  let current := (display.takeWhile (· == ' ')).length
  if settings.useStandardIndent then
    if inProcedure && current == 0 then
      match settings.standardIndent? with
      | some indent => .ok indent
      | none => .error .indentTooWide
    else .ok []
  else .ok (spaces current)

structure Found where
  records : List Record
  state : State
  deriving DecidableEq, Repr

def Found.push (record : Record) (found : Found) : Found :=
  { found with records := record :: found.records }

def run (settings : Settings) (index : Nat) (state : State) :
    List Line → Except Failure Found
  | [] => .ok ⟨[], state⟩
  | line :: following =>
    if index ≤ state.cursor then run settings (index + 1) state following
    else
      let text := line.getD []
      match classify text with
      | .procedureEnd => run settings (index + 1) { state with inProcedure := false } following
      | .declaration .cls => do
        let found ← run settings (index + 1) state following
        return found.push ⟨Display.render settings text, index + 1, .cls⟩
      | .declaration .function =>
        match Signature.assemble line following with
        | .error _ => .error .missingLine
        | .ok signature => do
          let state := { state.consumeThrough (index + signature.extra) with inProcedure := true }
          let found ← run settings (index + 1) state following
          return found.push ⟨Display.render settings signature.text, index + 1, .function⟩
      | .declaration .field => do
        let display := Display.render settings text
        let indent ← fieldIndent settings state.inProcedure display
        let found ← run settings (index + 1) state following
        return found.push ⟨indent ++ display, index + 1, .field⟩
      | .comment => run settings (index + 1) state following
      | .other => run settings (index + 1) state following

def scan (settings : Settings) (lines : List Line) : Except Failure (List Record) := do
  return (← run settings 0 {} lines).records

end BasicOutline.Scan
