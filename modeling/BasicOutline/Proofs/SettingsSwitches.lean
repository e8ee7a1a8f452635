import BasicOutline.Proofs.ArgumentReading
import BasicOutline.Proofs.FieldLookup
import Mathlib.Data.List.Perm.Basic

/-! The switches of the settings.

In whatever order they stand around the path, they choose what they ask for. -/

namespace BasicOutline.CommandLine

open Text

structure Asked where
  showParameters : Bool
  showFunctionType : Bool
  showVarType : Bool
  standardIndent : Option Int
  deriving DecidableEq, Repr

namespace Asked

def switches (asked : Asked) : List (List Text) :=
  (if asked.showParameters then [["--show-parameters".toList]] else []) ++
    (if asked.showFunctionType then [["--show-function-type".toList]] else []) ++
    (if asked.showVarType then [["--show-var-type".toList]] else []) ++
    asked.standardIndent.elim [] fun level => [["--standard-indent".toList, numeral level]]

def Short (asked : Asked) : Prop :=
  ∀ level, asked.standardIndent = some level → (natDigits level.natAbs).length ≤ digitLimit

def values (asked : Asked) : List (Key × Value) :=
  (if asked.showParameters then [(.showParameters, .flag)] else []) ++
    (if asked.showFunctionType then [(.showFunctionType, .flag)] else []) ++
    (if asked.showVarType then [(.showVarType, .flag)] else []) ++
    asked.standardIndent.elim [] fun level => [(.standardIndent, .integer level)]

def choice (asked : Asked) : SettingsChoice where
  showParameters := asked.showParameters
  showFunctionType := asked.showFunctionType
  showVarType := asked.showVarType
  standardIndent := asked.standardIndent.map some

end Asked

structure Offers (grammar : Grammar) : Prop where
  named : ∀ switch ∈ settingsSwitches, ∀ name ∈ switch.names,
    classify grammar name = .ok (.mention ⟨switch, name, none⟩)
  words : ∀ name ∈ grammar.names, isNumbered name.1 = false

theorem offers_outline : Offers outlineGrammar := ⟨by decide +kernel, by decide⟩

theorem offers_scan : Offers scanGrammar := ⟨by decide +kernel, by decide⟩

theorem passes_settingsSwitches {switch : Switch} (offered : switch ∈ settingsSwitches) :
    switch.key ≠ .help ∧ ∀ name ∈ switch.names, Passes name := by
  have each : ∀ switch ∈ settingsSwitches, switch.key ≠ .help ∧ ∀ name ∈ switch.names,
      name ≠ mark ∧ classify mainGrammar name = .ok .unknown := by
    decide +kernel
  obtain ⟨command, names⟩ := each switch offered
  exact ⟨command, fun name own => ⟨(names name own).1, .unknown, (names name own).2⟩⟩

theorem forall₂_if {α β : Type} {R : α → β → Prop} {a : α} {b : β} (related : R a b)
    (given : Bool) : List.Forall₂ R (if given then [a] else []) (if given then [b] else []) := by
  cases given
  · exact .nil
  · exact .cons related .nil

theorem keys_if {α β : Type} (given : Bool) (key : α) (value : β) :
    ((if given then [(key, value)] else []).map Prod.fst).Sublist [key] := by
  cases given
  · exact List.nil_sublist _
  · exact .refl _

section Offers

variable {grammar : Grammar}

theorem Offers.gives_flag (offers : Offers grammar) {key : Key} {name : Text}
    (offered : (⟨key, [name], .nothing⟩ : Switch) ∈ settingsSwitches) :
    Gives grammar [name] (key, .flag) := by
  have own : name ∈ [name] := List.mem_singleton_self name
  obtain ⟨command, passing⟩ := passes_settingsSwitches offered
  exact .flag (passing name own) (offers.named _ offered name own) rfl command

theorem Offers.gives_integer (offers : Offers grammar) {key : Key} {name : Text}
    (offered : (⟨key, [name], .integer⟩ : Switch) ∈ settingsSwitches) {n : Int}
    (short : (natDigits n.natAbs).length ≤ digitLimit) :
    Gives grammar [name, numeral n] (key, .integer n) := by
  have own : name ∈ [name] := List.mem_singleton_self name
  obtain ⟨command, passing⟩ := passes_settingsSwitches offered
  exact .integer (passing name own) (offers.named _ offered name own) rfl command offers.words short

theorem Offers.gives (offers : Offers grammar) {asked : Asked} (short : asked.Short) :
    List.Forall₂ (Gives grammar) asked.switches asked.values := by
  have level : List.Forall₂ (Gives grammar)
      (asked.standardIndent.elim [] fun level => [["--standard-indent".toList, numeral level]])
      (asked.standardIndent.elim [] fun level => [(.standardIndent, .integer level)]) := by
    cases given : asked.standardIndent with
    | none => exact .nil
    | some n => exact .cons (offers.gives_integer (by decide) (short n given)) .nil
  have parameters : Gives grammar ["--show-parameters".toList] (.showParameters, .flag) :=
    offers.gives_flag (by decide)
  have functionType : Gives grammar ["--show-function-type".toList] (.showFunctionType, .flag) :=
    offers.gives_flag (by decide)
  have varType : Gives grammar ["--show-var-type".toList] (.showVarType, .flag) :=
    offers.gives_flag (by decide)
  apply List.rel_append
  · apply List.rel_append
    · apply List.rel_append
      · exact forall₂_if parameters asked.showParameters
      · exact forall₂_if functionType asked.showFunctionType
    · exact forall₂_if varType asked.showVarType
  · exact level

end Offers

/-- Arguments that name a command and give it switches, in any order, around a path. -/
def Spells (name : Text) (switches : List (List Text)) (path : Text) (arguments : List Text) :
    Prop :=
  ∃ before after : List (List Text), (before ++ after).Perm switches ∧
    arguments = name :: (before.flatten ++ path :: after.flatten)

theorem exists_invocation_of_spells {form : Form} {name title path : Text}
    (found : forms.find? (fun other => other.name = name) = some form)
    (word : name.head? ≠ some '-') (single : form.grammar.operand = .single title)
    (plain : path.head? ≠ some '-') {switches : List (List Text)} {values : List (Key × Value)}
    (each : List.Forall₂ (Gives form.grammar) switches values) {arguments : List Text}
    (spelled : Spells name switches path arguments) :
    ∃ read : List (Key × Value), read.Perm values ∧
      invocation arguments = .ok ⟨false, form.command { values := read, operands := [path] }⟩ := by
  obtain ⟨before, after, same, rfl⟩ := spelled
  -- The values follow the switches as they stand, so they are a permutation of the asked ones.
  obtain ⟨read, given, order⟩ := List.perm_comp_forall₂ same each
  obtain ⟨first, second, rfl, one, two⟩ := Reads.flatten_append given
  exact ⟨first ++ second, order, invocation_of_reads found word single plain one two⟩

theorem has_of_perm {read values : List (Key × Value)} (order : read.Perm values) (key : Key)
    (operands : List Text) :
    Parsed.has { values := read, operands := operands } key =
      values.any fun value => value.1 = key :=
  order.any_eq

theorem last?_of_perm {read values : List (Key × Value)} (order : read.Perm values)
    (distinct : (values.map Prod.fst).Nodup) (key : Key) (operands : List Text) :
    Parsed.last? { values := read, operands := operands } key = values.lookup key :=
  (lookup_eq_of_perm distinct ((List.reverse_perm read).trans order).symm).symm

def Asked.allValues (asked : Asked) (json : Bool) : List (Key × Value) :=
  (if json then [(.json, .flag)] else []) ++ asked.values

theorem Asked.distinct_allValues (asked : Asked) (json : Bool) :
    ((asked.allValues json).map Prod.fst).Nodup := by
  have level : ((asked.standardIndent.elim [] fun level =>
      [(Key.standardIndent, Value.integer level)]).map Prod.fst).Sublist [.standardIndent] := by
    cases asked.standardIndent
    · exact List.nil_sublist _
    · exact .refl _
  have all : ((asked.allValues json).map Prod.fst).Sublist
      [.json, .showParameters, .showFunctionType, .showVarType, .standardIndent] := by
    simp only [allValues, values, List.map_append]
    exact (keys_if _ _ _).append
      ((((keys_if _ _ _).append (keys_if _ _ _)).append (keys_if _ _ _)).append level)
  exact all.nodup (by decide)

theorem settingsChoice_of_perm {asked : Asked} {json : Bool} {read : List (Key × Value)}
    (order : read.Perm (asked.allValues json)) (operands : List Text) :
    settingsChoice { values := read, operands := operands } = asked.choice := by
  have distinct := asked.distinct_allValues json
  simp only [settingsChoice, Parsed.text?, Parsed.integer?, has_of_perm order,
    last?_of_perm order distinct]
  obtain ⟨parameters, functionType, varType, level?⟩ := asked
  cases json <;> cases parameters <;> cases functionType <;> cases varType <;> cases level? <;> rfl

theorem has_json_of_perm {asked : Asked} {json : Bool} {read : List (Key × Value)}
    (order : read.Perm (asked.allValues json)) (operands : List Text) :
    Parsed.has { values := read, operands := operands } .json = json := by
  rw [has_of_perm order]
  obtain ⟨parameters, functionType, varType, level?⟩ := asked
  cases json <;> cases parameters <;> cases functionType <;> cases varType <;> cases level? <;> rfl

def Asked.allSwitches (asked : Asked) (json : Bool) : List (List Text) :=
  (if json then [["--json".toList]] else []) ++ asked.switches

section Invocations

variable {asked : Asked} {path : Text} {arguments : List Text}

theorem invocation_outline (short : asked.Short) (plain : path.head? ≠ some '-') {json : Bool}
    (spelled : Spells "outline".toList (asked.allSwitches json) path arguments) :
    invocation arguments = .ok ⟨false, .outline path json asked.choice⟩ := by
  have found : forms.find? (fun other => other.name = "outline".toList) =
      some ⟨"outline".toList, outlineGrammar, Help.outline, fun parsed =>
        .outline (operand parsed) (parsed.has .json) (settingsChoice parsed)⟩ := rfl
  have word : "outline".toList.head? ≠ some '-' := by decide
  have named : classify outlineGrammar "--json".toList =
      .ok (.mention ⟨⟨.json, ["--json".toList], .nothing⟩, "--json".toList, none⟩) := by
    decide +kernel
  have output : Gives outlineGrammar ["--json".toList] (.json, .flag) :=
    .flag ⟨by decide, .unknown, by decide +kernel⟩ named rfl nofun
  have each : List.Forall₂ (Gives outlineGrammar) (asked.allSwitches json) (asked.allValues json) :=
    List.rel_append (forall₂_if output json) (offers_outline.gives short)
  obtain ⟨read, order, invoked⟩ :=
    exists_invocation_of_spells found word rfl plain each spelled
  rw [invoked]
  simp only [has_json_of_perm order, settingsChoice_of_perm order]
  rfl

theorem invocation_scan (short : asked.Short) (plain : path.head? ≠ some '-')
    (spelled : Spells "scan".toList asked.switches path arguments) :
    invocation arguments = .ok ⟨false, .scan path asked.choice⟩ := by
  have found : forms.find? (fun other => other.name = "scan".toList) =
      some ⟨"scan".toList, scanGrammar, Help.scan, fun parsed =>
        .scan (operand parsed) (settingsChoice parsed)⟩ := rfl
  have word : "scan".toList.head? ≠ some '-' := by decide
  have each : List.Forall₂ (Gives scanGrammar) asked.switches (asked.allValues false) :=
    offers_scan.gives short
  obtain ⟨read, order, invoked⟩ := exists_invocation_of_spells found word rfl plain each spelled
  rw [invoked]
  simp only [settingsChoice_of_perm order]
  rfl

end Invocations

end BasicOutline.CommandLine
