import BasicOutline.CommandLine.Command
import BasicOutline.Proofs.NumeralReading
import Mathlib.Data.List.Forall2

/-! Arguments in their full forms are read as what they say.

A path that does not begin with a minus is an operand, and so is every numeral, with a minus or
without. Switches can stand on both sides of the path. -/

namespace BasicOutline.CommandLine

open Text

section Roles

variable {grammar : Grammar}

theorem classify_operand {argument : Text} (plain : argument.head? ≠ some '-') :
    classify grammar argument = .ok .operand := by
  rw [classify, if_pos (.inl plain)]

def isNumbered (name : Text) : Bool := name.tail.head?.any Char.isDigit

theorem isNegativeNumber_numeral (m : Nat) : isNegativeNumber (numeral (.negSucc m)) = true := by
  have unbroken : (numeral (.negSucc m)).getLast? ≠ some '\n' := by
    intro last
    exact not_mem_numeral (by decide) (by decide) (by decide) _ (List.mem_of_getLast? last)
  have digits : (natDigits (m + 1)).dropWhile isDigit = [] := by
    rw [List.dropWhile_eq_nil_iff]
    exact forall_mem_natDigits (by decide) (m + 1)
  obtain ⟨c, more, filled⟩ := exists_natDigits_eq_cons (m + 1)
  rw [filled] at digits
  rw [isNegativeNumber, if_neg unbroken, numeral, filled]
  simp only [digits, List.isEmpty_cons, Bool.not_false]

theorem splitAssignment_of_not_mem {argument : Text} (plain : '=' ∉ argument) :
    splitAssignment argument = (argument, none) := by
  have whole : argument.dropWhile (· != '=') = [] := by
    rw [List.dropWhile_eq_nil_iff]
    intro c member
    rw [bne_iff_ne]
    rintro rfl
    exact plain member
  rw [splitAssignment, whole]

/-- A number with a minus is no switch where no name has a digit after its minus. -/
theorem classify_negative (words : ∀ name ∈ grammar.names, isNumbered name.1 = false) (m : Nat) :
    classify grammar (numeral (.negSucc m)) = .ok .operand := by
  obtain ⟨c, more, filled⟩ := exists_natDigits_eq_cons (m + 1)
  have digit : c.isDigit = true :=
    forall_mem_natDigits (P := fun c => c.isDigit = true) (by decide) (m + 1) c
      (filled ▸ List.mem_cons_self)
  have text : numeral (.negSucc m) = '-' :: c :: more := congrArg ('-' :: ·) filled
  -- A name, the beginning of one and a short name with its value are all excluded by the digit.
  have unlike : ∀ name ∈ grammar.names, ∀ rest, name.1 ≠ '-' :: c :: rest := by
    intro name member rest same
    have word := words name member
    rw [same] at word
    exact absurd (digit.symm.trans word) (by decide)
  have unassigned : splitAssignment (numeral (.negSucc m)) = (numeral (.negSucc m), none) :=
    splitAssignment_of_not_mem (not_mem_numeral (by decide) (by decide) (by decide) _)
  have none_named : namedBy? grammar (numeral (.negSucc m)) = none := by
    have absent : grammar.names.lookup (numeral (.negSucc m)) = none := by
      rw [List.lookup_eq_none_iff]
      intro name member
      rw [bne_iff_ne, text]
      exact fun same => unlike name member more same.symm
    rw [namedBy?, absent, unassigned]
  have none_meant : candidates grammar (numeral (.negSucc m)) = [] := by
    have single : "--".toList.isPrefixOf (numeral (.negSucc m)) = false := by
      have other : '-' ≠ c := by
        rintro rfl
        exact absurd digit (by decide)
      rw [text]
      simp [List.isPrefixOf, other]
    rw [candidates, single, if_neg Bool.false_ne_true, List.filterMap_eq_nil_iff, text]
    intro name member
    have other : name.1 ≠ List.take 2 ('-' :: c :: more) := unlike name member []
    rw [if_neg other, if_neg]
    intro begins
    obtain ⟨rest, same⟩ := List.isPrefixOf_iff_prefix.mp begins
    exact unlike name member (more ++ rest) same.symm
  have minus : ¬((numeral (.negSucc m)).head? ≠ some '-' ∨ numeral (.negSucc m) = ['-']) := by
    rw [text]
    simp
  rw [classify, if_neg minus, none_named, none_meant]
  simp only [isNegativeNumber_numeral, Bool.true_or, if_true]

theorem classify_numeral (words : ∀ name ∈ grammar.names, isNumbered name.1 = false) (n : Int) :
    classify grammar (numeral n) = .ok .operand := by
  cases n with
  | ofNat m =>
    apply classify_operand
    intro minus
    have digit := forall_mem_natDigits (P := fun c => c.isDigit = true) (by decide) m '-'
      (List.mem_of_head? minus)
    exact absurd digit (by decide)
  | negSucc m => exact classify_negative words m

theorem numeral_ne_mark (n : Int) : numeral n ≠ mark := by
  have unsigned : ∀ m, '-' ∉ natDigits m := by
    intro m member
    exact forall_mem_natDigits (P := (· ≠ '-')) (by decide) m '-' member rfl
  intro same
  cases n with
  | ofNat m => exact unsigned m (by rw [show natDigits m = mark from same]; decide)
  | negSucc m =>
    have digits : natDigits (m + 1) = ['-'] := (List.cons.inj same).2
    exact unsigned (m + 1) (by rw [digits]; decide)

end Roles

/-- An argument that does not stop the reading of the arguments before a command is known. -/
def Passes (argument : Text) : Prop :=
  argument ≠ mark ∧ ∃ role, classify mainGrammar argument = .ok role

theorem passes_operand {argument : Text} (plain : argument.head? ≠ some '-') : Passes argument := by
  refine ⟨?_, .operand, classify_operand plain⟩
  rintro rfl
  exact plain rfl

theorem passes_numeral (n : Int) : Passes (numeral n) :=
  ⟨numeral_ne_mark n, .operand, classify_numeral (by decide) n⟩

section Reading

variable {grammar : Grammar}

theorem classifyAll_cons {argument : Text} {role : Role} (inside : argument ≠ mark)
    (known : classify grammar argument = .ok role) (rest : List Text) :
    classifyAll grammar (argument :: rest) =
      (classifyAll grammar rest).map ((argument, role) :: ·) := by
  rw [classifyAll, if_neg inside, known]
  rfl

/-- Arguments that a grammar reads as values of switches, whatever stands around them. -/
structure ReadsAs (grammar : Grammar) (arguments : List Text) (values : List (Key × Value))
    (roles : List (Text × Role)) : Prop where
  classified : ∀ rest, classifyAll grammar (arguments ++ rest) =
    (classifyAll grammar rest).map (roles ++ ·)
  noted : ∀ parsed more, parseFrom grammar parsed (roles ++ more) =
    parseFrom grammar { parsed with values := parsed.values ++ values } more
  unmarked : ∀ role ∈ roles, role.2 ≠ .separator
  passing : ∀ argument ∈ arguments, Passes argument

def Reads (grammar : Grammar) (arguments : List Text) (values : List (Key × Value)) : Prop :=
  ∃ roles, ReadsAs grammar arguments values roles

theorem Reads.nil : Reads grammar [] [] := by
  refine ⟨[], fun rest => ?_, fun parsed more => ?_, nofun, nofun⟩
  · rw [List.nil_append]
    cases classifyAll grammar rest <;> rfl
  · rw [List.nil_append, List.append_nil]

theorem Reads.append {arguments others : List Text} {values more : List (Key × Value)}
    (first : Reads grammar arguments values) (second : Reads grammar others more) :
    Reads grammar (arguments ++ others) (values ++ more) := by
  obtain ⟨roles, one⟩ := first
  obtain ⟨later, two⟩ := second
  refine ⟨roles ++ later, fun rest => ?_, fun parsed after => ?_, ?_, ?_⟩
  · rw [List.append_assoc, one.classified, two.classified]
    cases classifyAll grammar rest with
    | error stop => rfl
    | ok known => simp [Except.map]
  · rw [List.append_assoc, one.noted, two.noted, List.append_assoc]
  · exact List.forall_mem_append.mpr ⟨one.unmarked, two.unmarked⟩
  · exact List.forall_mem_append.mpr ⟨one.passing, two.passing⟩

theorem take_flag (parsed : Parsed) {switch : Switch} (alone : switch.takes = .nothing)
    (command : switch.key ≠ .help) (given : Text) :
    parsed.take switch given =
      .ok { parsed with values := parsed.values ++ [(switch.key, .flag)] } := by
  rw [Parsed.take, if_neg command, alone]

theorem take_integer (parsed : Parsed) {switch : Switch} (takes : switch.takes = .integer)
    (command : switch.key ≠ .help) {given : Text} (inside : given ≠ mark) {n : Int}
    (read : readInt given = .ok n) :
    parsed.take switch given =
      .ok { parsed with values := parsed.values ++ [(switch.key, .integer n)] } := by
  rw [Parsed.take, if_neg command, takes]
  simp only [if_neg inside, read]

theorem parseFrom_flag (parsed : Parsed) {switch : Switch} (alone : switch.takes = .nothing)
    (command : switch.key ≠ .help) (name : Text) (rest : List (Text × Role)) :
    parseFrom grammar parsed ((name, .mention ⟨switch, name, none⟩) :: rest) =
      parseFrom grammar { parsed with values := parsed.values ++ [(switch.key, .flag)] } rest := by
  have taken : parsed.takeAll [] switch [] = _ := take_flag parsed alone command []
  have mentioned : Mention.switches grammar ⟨switch, name, none⟩ = .ok ([], switch, none) := rfl
  rw [parseFrom, mentioned]
  simp only [bind, Except.bind, Option.getD_none, alone, decide_true, Bool.or_true, if_true, taken]

theorem parseFrom_integer (parsed : Parsed) {switch : Switch} (takes : switch.takes = .integer)
    (command : switch.key ≠ .help) (name : Text) {given : Text} (inside : given ≠ mark) {n : Int}
    (read : readInt given = .ok n) (rest : List (Text × Role)) :
    parseFrom grammar parsed ((name, .mention ⟨switch, name, none⟩) :: (given, .operand) :: rest) =
      parseFrom grammar { parsed with values := parsed.values ++ [(switch.key, .integer n)] }
        rest := by
  have taken : parsed.takeAll [] switch given = _ := take_integer parsed takes command inside read
  have mentioned : Mention.switches grammar ⟨switch, name, none⟩ = .ok ([], switch, none) := rfl
  rw [parseFrom, mentioned]
  simp only [bind, Except.bind, takes, reduceCtorEq, decide_false, Option.isSome_none,
    Bool.or_false, if_false, Bool.false_eq_true, taken]

def Gives (grammar : Grammar) (arguments : List Text) (value : Key × Value) : Prop :=
  Reads grammar arguments [value]

theorem Gives.flag {switch : Switch} {name : Text} (passes : Passes name)
    (named : classify grammar name = .ok (.mention ⟨switch, name, none⟩))
    (alone : switch.takes = .nothing) (command : switch.key ≠ .help) :
    Gives grammar [name] (switch.key, .flag) := by
  refine ⟨[(name, .mention ⟨switch, name, none⟩)], fun rest => ?_, fun parsed more => ?_, ?_, ?_⟩
  · exact classifyAll_cons passes.1 named rest
  · exact parseFrom_flag parsed alone command name more
  · simp
  · simpa using passes

theorem Gives.integer {switch : Switch} {name : Text} (passes : Passes name)
    (named : classify grammar name = .ok (.mention ⟨switch, name, none⟩))
    (takes : switch.takes = .integer) (command : switch.key ≠ .help)
    (words : ∀ name ∈ grammar.names, isNumbered name.1 = false) {n : Int}
    (short : (natDigits n.natAbs).length ≤ digitLimit) :
    Gives grammar [name, numeral n] (switch.key, .integer n) := by
  have read := readInt_of_writes (writes_numeral short)
  have number := numeral_ne_mark n
  refine ⟨[(name, .mention ⟨switch, name, none⟩), (numeral n, .operand)], fun rest => ?_,
    fun parsed more => ?_, ?_, ?_⟩
  · rw [List.cons_append, List.singleton_append, classifyAll_cons passes.1 named,
      classifyAll_cons number (classify_numeral words n)]
    cases classifyAll grammar rest <;> rfl
  · exact parseFrom_integer parsed takes command name number read more
  · simp
  · simpa using ⟨passes, passes_numeral n⟩

theorem Reads.flatten {switches : List (List Text)} {values : List (Key × Value)}
    (each : List.Forall₂ (Gives grammar) switches values) :
    Reads grammar switches.flatten values := by
  induction each with
  | nil => exact .nil
  | cons first _ ih => exact Reads.append first ih

theorem Reads.flatten_append {before after : List (List Text)} {values : List (Key × Value)}
    (each : List.Forall₂ (Gives grammar) (before ++ after) values) :
    ∃ first second, values = first ++ second ∧ Reads grammar before.flatten first ∧
      Reads grammar after.flatten second := by
  induction before generalizing values with
  | nil => exact ⟨[], values, rfl, .nil, .flatten each⟩
  | cons arguments rest ih =>
    cases each with
    | cons here later =>
      obtain ⟨first, second, rfl, one, two⟩ := ih later
      exact ⟨_ :: first, second, rfl, Reads.append here one, two⟩

theorem parse_of_reads {title path : Text} (single : grammar.operand = .single title)
    (plain : path.head? ≠ some '-') {before after : List Text} {values more : List (Key × Value)}
    (first : Reads grammar before values) (second : Reads grammar after more) :
    parse grammar (before ++ path :: after) =
      .ok { values := values ++ more, operands := [path] } := by
  obtain ⟨roles, one⟩ := first
  obtain ⟨later, two⟩ := second
  have classified : classifyAll grammar (before ++ path :: after) =
      .ok (roles ++ (path, .operand) :: later) := by
    have ended := two.classified []
    rw [List.append_nil] at ended
    rw [one.classified, classifyAll_cons (passes_operand plain).1 (classify_operand plain), ended]
    simp [classifyAll, Except.map]
  have unmarked : skipMark later = later := by
    fun_cases skipMark later with
    | case1 argument rest => exact absurd rfl (two.unmarked _ List.mem_cons_self)
    | case2 => rfl
  have read : parseFrom grammar {} (roles ++ (path, .operand) :: later) =
      .ok { values := values ++ more, operands := [path] } := by
    have ended := two.noted { values := values, operands := [path] } []
    rw [List.append_nil, parseFrom] at ended
    rw [one.noted, parseFrom, single]
    simp only [unmarked]
    exact ended
  rw [parse, classified]
  simp only [bind, Except.bind, read, Parsed.requireOperand, single]

end Reading

section Commands

theorem exists_classifyAll {arguments : List Text}
    (passing : ∀ argument ∈ arguments, Passes argument) :
    ∃ roles, classifyAll mainGrammar arguments = .ok roles ∧ roles.map (·.1) = arguments := by
  induction arguments with
  | nil => exact ⟨[], rfl, rfl⟩
  | cons argument rest ih =>
    rw [List.forall_mem_cons] at passing
    obtain ⟨⟨inside, role, here⟩, later⟩ := passing
    obtain ⟨roles, classified, same⟩ := ih later
    refine ⟨(argument, role) :: roles, ?_, by rw [List.map_cons, same]⟩
    rw [classifyAll_cons inside here, classified]
    rfl

theorem parse_main {name : Text} {arguments : List Text} (plain : name.head? ≠ some '-')
    (passing : ∀ argument ∈ arguments, Passes argument) :
    parse mainGrammar (name :: arguments) = .ok { operands := name :: arguments } := by
  obtain ⟨roles, classified, same⟩ := exists_classifyAll passing
  rw [parse, classifyAll_cons (passes_operand plain).1 (classify_operand plain), classified]
  simp only [bind, Except.bind, Except.map]
  rw [parseFrom, ← same]
  rfl

theorem invocation_of_reads {form : Form} {name title path : Text}
    (found : forms.find? (fun other => other.name = name) = some form)
    (word : name.head? ≠ some '-') (single : form.grammar.operand = .single title)
    (plain : path.head? ≠ some '-') {before after : List Text} {values more : List (Key × Value)}
    (first : Reads form.grammar before values) (second : Reads form.grammar after more) :
    invocation (name :: (before ++ path :: after)) =
      .ok ⟨false, form.command { values := values ++ more, operands := [path] }⟩ := by
  have passing : ∀ argument ∈ before ++ path :: after, Passes argument := by
    obtain ⟨_, one⟩ := first
    obtain ⟨_, two⟩ := second
    rw [List.forall_mem_append, List.forall_mem_cons]
    exact ⟨one.passing, passes_operand plain, two.passing⟩
  have read := parse_of_reads single plain first second
  have named : operand { operands := name :: (before ++ path :: after) } = name := rfl
  rw [invocation, parse_main word passing]
  simp only [bind, Except.bind, refuse, Except.mapError]
  rw [named, found]
  simp only [List.tail_cons, read]
  rfl

end Commands

end BasicOutline.CommandLine
