import BasicOutline.Text.Quoted

/-! Command-line arguments: switches, which may be shortened or run together, and operands. -/

namespace BasicOutline.CommandLine

open Text

inductive Takes where
  | nothing
  | text
  | integer
  deriving DecidableEq, Repr

inductive Key where
  | help
  | verbose
  | json
  | settings
  | showParameters
  | showFunctionType
  | showVarType
  | standardIndent
  | host
  | port
  | reload
  deriving DecidableEq, Repr

structure Switch where
  key : Key
  names : List Text
  takes : Takes := .nothing
  deriving DecidableEq, Repr

def Switch.title (switch : Switch) : Text := List.intercalate ['/'] switch.names

inductive Operand where
  | absent
  /-- One argument. -/
  | single (name : Text)
  /-- An argument with all that follows it. -/
  | remainder (name : Text)
  deriving DecidableEq, Repr

structure Grammar where
  switches : List Switch
  operand : Operand
  deriving DecidableEq, Repr

def Grammar.names (grammar : Grammar) : List (Text × Switch) :=
  grammar.switches.flatMap fun switch => switch.names.map (·, switch)

structure Mention where
  switch : Switch
  name : Text
  given : Option Text
  deriving DecidableEq, Repr

inductive Role where
  | operand
  /-- The mark after which no switches follow. -/
  | separator
  | mention (mention : Mention)
  /-- An argument in the form of a switch that the grammar does not have. -/
  | unknown
  deriving DecidableEq, Repr

inductive Stop where
  | help
  | error (message : Text)
  deriving DecidableEq, Repr

def isDigit (c : Char) : Bool := (digitValue? c).isSome

def isNegativeNumber (argument : Text) : Bool :=
  match if argument.getLast? = some '\n' then argument.dropLast else argument with
  | '-' :: number =>
    match number.dropWhile isDigit with
    | [] => !number.isEmpty
    | '.' :: places => !places.isEmpty && places.all isDigit
    | _ => false
  | _ => false

def splitAssignment (argument : Text) : Text × Option Text :=
  match argument.dropWhile (· != '=') with
  | _ :: given => (argument.takeWhile (· != '='), some given)
  | [] => (argument, none)

/-- The switches that an argument may mean: those with a long name that begins with it, or the one
whose short name begins it. -/
def candidates (grammar : Grammar) (argument : Text) : List Mention :=
  if "--".toList.isPrefixOf argument then
    let (start, given) := splitAssignment argument
    (grammar.names.filter fun name => start.isPrefixOf name.1).map fun name =>
      ⟨name.2, name.1, given⟩
  else
    grammar.names.filterMap fun name =>
      if name.1 = argument.take 2 then some ⟨name.2, name.1, some (argument.drop 2)⟩
      else if argument.isPrefixOf name.1 then some ⟨name.2, name.1, none⟩
      else none

def namedBy? (grammar : Grammar) (argument : Text) : Option Mention :=
  match grammar.names.lookup argument, splitAssignment argument with
  | some switch, _ => some ⟨switch, argument, none⟩
  | none, (name, some given) => (grammar.names.lookup name).map (⟨·, name, some given⟩)
  | none, (_, none) => none

def ambiguous (argument : Text) (mentions : List Mention) : Text :=
  "ambiguous option: ".toList ++ argument ++ " could match ".toList ++
    List.intercalate ", ".toList (mentions.map (·.name))

def classify (grammar : Grammar) (argument : Text) : Except Stop Role :=
  if argument.head? ≠ some '-' ∨ argument = ['-'] then .ok .operand
  else
    match namedBy? grammar argument, candidates grammar argument with
    | some mention, _ => .ok (.mention mention)
    | none, [mention] => .ok (.mention mention)
    | none, [] =>
      if isNegativeNumber argument || argument.contains ' ' then .ok .operand else .ok .unknown
    | none, mentions => .error (.error (ambiguous argument mentions))

def mark : Text := "--".toList

def classifyAll (grammar : Grammar) : List Text → Except Stop (List (Text × Role))
  | [] => .ok []
  | argument :: rest =>
    if argument = mark then
      .ok ((argument, .separator) :: rest.map fun operand => (operand, .operand))
    else do
      let role ← classify grammar argument
      return (argument, role) :: (← classifyAll grammar rest)

inductive Value where
  | flag
  | text (value : Text)
  | integer (value : Int)
  /-- The mark `--` in the place of a value. -/
  | mark
  deriving DecidableEq, Repr

structure Parsed where
  values : List (Key × Value) := []
  operands : List Text := []
  /-- The arguments that have no place in the grammar. -/
  extras : List Text := []
  deriving DecidableEq, Repr

def complaint (switch : Switch) (message : Text) : Stop :=
  .error ("argument ".toList ++ switch.title ++ ": ".toList ++ message)

def ignored (switch : Switch) (given : Text) : Stop :=
  complaint switch ("ignored explicit argument ".toList ++ quote given)

/-- Short names run together: the switches before the last one, the last one, and what is given
to it. -/
def runTogether (grammar : Grammar) (switch : Switch) (short : Bool) :
    Text → Except Stop (List Switch × Switch × Option Text)
  | [] => if switch.takes = .nothing then .error (ignored switch []) else .ok ([], switch, some [])
  | c :: rest =>
    if switch.takes ≠ .nothing then .ok ([], switch, some (c :: rest))
    else
      match short, grammar.names.lookup ['-', c] with
      | true, some next =>
        if rest = [] then .ok ([switch], next, none)
        else (runTogether grammar next true rest).map fun (before, last) => (switch :: before, last)
      | _, _ => .error (ignored switch (c :: rest))

def Mention.switches (grammar : Grammar) (mention : Mention) :
    Except Stop (List Switch × Switch × Option Text) :=
  match mention.given with
  | some given =>
    runTogether grammar mention.switch ((mention.name.drop 1).head? != some '-') given
  | none => .ok ([], mention.switch, none)

def Parsed.take (parsed : Parsed) (switch : Switch) (given : Text) : Except Stop Parsed :=
  if switch.key = .help then .error .help
  else
    let note (value : Value) : Parsed :=
      { parsed with values := parsed.values ++ [(switch.key, value)] }
    match switch.takes with
    | .nothing => .ok (note .flag)
    | .text => .ok (note (if given = mark then .mark else .text given))
    | .integer =>
      if given = mark then .ok (note .mark)
      else match readInt given with
      | .ok n => .ok (note (.integer n))
      | .error _ =>
        .error (complaint switch ("invalid int value: ".toList ++ quote given))

def Parsed.takeAll (parsed : Parsed) (before : List Switch) (last : Switch) (given : Text) :
    Except Stop Parsed := do
  (← before.foldlM (fun parsed switch => parsed.take switch []) parsed).take last given

def Parsed.addExtra (parsed : Parsed) (argument : Text) : Parsed :=
  { parsed with extras := parsed.extras ++ [argument] }

def skipMark : List (Text × Role) → List (Text × Role)
  | (_, .separator) :: rest => rest
  | arguments => arguments

theorem length_skipMark_le (arguments : List (Text × Role)) :
    (skipMark arguments).length ≤ arguments.length := by
  fun_cases skipMark arguments <;> simp

def parseFrom (grammar : Grammar) (parsed : Parsed) : List (Text × Role) → Except Stop Parsed
  | [] => .ok parsed
  | (argument, .unknown) :: rest => parseFrom grammar (parsed.addExtra argument) rest
  | (_, .mention mention) :: rest => do
    let (before, last, given) ← mention.switches grammar
    if given.isSome || last.takes = .nothing then
      parseFrom grammar (← parsed.takeAll before last (given.getD [])) rest
    else
      match rest with
      | (given, .operand) :: rest => parseFrom grammar (← parsed.takeAll before last given) rest
      | _ => .error (complaint last "expected one argument".toList)
  | (argument, .operand) :: rest =>
    match grammar.operand, parsed.operands with
    | .single _, [] => parseFrom grammar { parsed with operands := [argument] } (skipMark rest)
    | .remainder _, [] => .ok { parsed with operands := argument :: rest.map (·.1) }
    | _, _ => parseFrom grammar (parsed.addExtra argument) rest
  | (argument, .separator) :: rest =>
    match rest with
    | [] => .ok (parsed.addExtra argument)
    | (operand, role) :: more =>
      match grammar.operand, parsed.operands with
      | .single _, [] => parseFrom grammar { parsed with operands := [operand] } more
      | .remainder _, [] =>
        .ok { parsed with operands := argument :: operand :: more.map (·.1) }
      | _, _ => parseFrom grammar (parsed.addExtra argument) ((operand, role) :: more)
termination_by arguments => arguments.length
decreasing_by all_goals grind [length_skipMark_le]

def Parsed.requireOperand (grammar : Grammar) (parsed : Parsed) : Except Stop Parsed :=
  match grammar.operand, parsed.operands with
  | .single name, [] | .remainder name, [] =>
    .error (.error ("the following arguments are required: ".toList ++ name))
  | _, _ => .ok parsed

def parse (grammar : Grammar) (arguments : List Text) : Except Stop Parsed := do
  (← parseFrom grammar {} (← classifyAll grammar arguments)).requireOperand grammar

namespace Parsed

def has (parsed : Parsed) (key : Key) : Bool := parsed.values.any fun value => value.1 = key

def last? (parsed : Parsed) (key : Key) : Option Value := parsed.values.reverse.lookup key

def text? (parsed : Parsed) (key : Key) : Option (Option Text) :=
  match parsed.last? key with
  | some (.text value) => some (some value)
  | some .mark => some none
  | _ => none

def integer? (parsed : Parsed) (key : Key) : Option (Option Int) :=
  match parsed.last? key with
  | some (.integer value) => some (some value)
  | some .mark => some none
  | _ => none

end Parsed

end BasicOutline.CommandLine
