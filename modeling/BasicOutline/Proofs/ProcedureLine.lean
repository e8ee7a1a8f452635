import BasicOutline.Proofs.DisplayAgain
import BasicOutline.Proofs.SplitSignature
import BasicOutline.Proofs.TypeClauses

/-! How the line of a procedure is shown.

The first group of the line begins a chain, and only what follows the last group of the chain can be
a return type. Types and initial values inside the groups are shown or hidden with the groups. -/

namespace BasicOutline

namespace Declaration

variable {t : Text}

theorem tails_eq_nil_of_not_occurs (absent : occurs t = false) : tails t = [] := by
  rw [occurs_eq, Bool.not_eq_eq_eq_not, Bool.not_false, List.isEmpty_iff] at absent
  exact absent

theorem drop_eq_self_of_not_occurs (part : Part) (absent : occurs t = false) : drop part t = t := by
  apply dropFrom_eq_self
  intro tail member
  have none : tailsFrom true t = [] := tails_eq_nil_of_not_occurs absent
  rw [none] at member
  cases member

/-- Cutting a text short makes no declaration, unless a word is cut. -/
theorem not_occurs_of_append {more : Text} (breaks : Breaks more)
    (absent : occurs (t ++ more) = false) : occurs t = false := by
  have none := tails_eq_nil_of_not_occurs absent
  rw [occurs_eq, Bool.not_eq_eq_eq_not, Bool.not_false, List.isEmpty_iff,
    List.eq_nil_iff_forall_not_mem]
  intro tail member
  have longer : tail ++ more ∈ tails (t ++ more) := mem_tailsFrom_append breaks member
  rw [none] at longer
  cases longer

end Declaration

namespace Display

open Text Declaration
open Parenthesis (IsGroup Link chain collapse)
open Signature (StartsSolid)

/-- The line of a procedure: what stands before its first group, the chain of groups that begins
there, and what follows the chain. -/
structure ProcedureLine where
  indent : Text
  head : Text
  first : Text
  links : List Link
  tail : Text
  deriving DecidableEq, Repr

namespace ProcedureLine

def text (line : ProcedureLine) : Text :=
  line.indent ++ (line.head ++ (chain line.first line.links ++ line.tail))

structure WellFormed (line : ProcedureLine) : Prop where
  blanks : ∀ c ∈ line.indent, isBlank c = true
  starts : StartsSolid line.head
  no_group : '(' ∉ line.head
  first : IsGroup line.first
  links : ∀ link ∈ line.links, link.WellFormed
  last : (trimStart line.tail).head? ≠ some '('
  no_break : '\n' ∉ line.text
  no_quote : '\x27' ∉ line.text
  undeclared : Declaration.occurs line.text = false
  collapsed : Declaration.occurs (collapse line.text) = false

def shownChain (settings : Settings) (line : ProcedureLine) : Text :=
  if settings.showParameters then chain line.first line.links
  else chain ['(', ')'] (line.links.map Link.emptied)

def shownTail (settings : Settings) (line : ProcedureLine) : Text :=
  if settings.showFunctionType = false ∧ BeginsClause line.tail then []
  else if settings.showParameters then line.tail else collapse line.tail

def shown (settings : Settings) (line : ProcedureLine) : Text :=
  spaces line.indent.length ++ (line.head ++ (line.shownChain settings ++ line.shownTail settings))

end ProcedureLine

section Steps

variable {t front first tail : Text} {links : List Link} {settings : Settings}

theorem flatten_eq_self (no_quote : '\x27' ∉ t) (no_break : '\n' ∉ t)
    (absent : Declaration.occurs t = false) : flatten t = t := by
  rw [flatten, dropComments_eq_self no_quote, joinLines_eq_self no_break]
  exact drop_eq_self_of_not_occurs .initializer absent

theorem isAsClause_iff (no_break : '\n' ∉ t) : isAsClause t = true ↔ BeginsClause t := by
  rw [← isSome_afterBlankAs?_iff]
  unfold isAsClause
  cases found : afterBlankAs? t with
  | none => exact Iff.rfl
  | some type =>
    have plain : '\n' ∉ type := fun member => no_break ((afterBlankAs?_suffix found).subset member)
    simp [fromLineEnd_eq_nil plain]

theorem dropReturnType_chain (plain : '(' ∉ front) (isGroup : IsGroup first)
    (valid : ∀ link ∈ links, link.WellFormed) (last : (trimStart tail).head? ≠ some '(')
    (absent : Declaration.occurs (front ++ (chain first links ++ tail)) = false) :
    dropReturnType (front ++ (chain first links ++ tail)) =
      front ++ (chain first links ++ if isAsClause tail = true then [] else tail) := by
  have stop : ∀ c, (chain first links ++ tail).head? = some c → (c != '(') = false := by
    obtain ⟨rest, same⟩ := isGroup.exists_chain_cons links
    rw [same]
    exact head?_cons_stop rfl _
  rw [dropReturnType, if_neg (by simp [absent]), dropWhile_append_stop (bne_of_not_mem plain) stop,
    takeWhile_append_stop (bne_of_not_mem plain) stop,
    Parenthesis.splitGroups_chain isGroup valid last]
  cases clause : isAsClause tail <;> simp [clause]

/-- Nothing but the return type goes, as there is no declaration whose type could be dropped. -/
theorem typed_returned_chain (plain : '(' ∉ front) (isGroup : IsGroup first)
    (valid : ∀ link ∈ links, link.WellFormed) (last : (trimStart tail).head? ≠ some '(')
    (no_break : '\n' ∉ tail)
    (absent : Declaration.occurs (front ++ (chain first links ++ tail)) = false) :
    typed settings (returned settings (front ++ (chain first links ++ tail))) =
      front ++ (chain first links ++
        if settings.showFunctionType = false ∧ BeginsClause tail then [] else tail) := by
  have returned_eq : returned settings (front ++ (chain first links ++ tail)) =
      front ++ (chain first links ++
        if settings.showFunctionType = false ∧ BeginsClause tail then [] else tail) := by
    unfold returned
    cases shows : settings.showFunctionType with
    | true => simp
    | false =>
      simp only [Bool.false_eq_true, if_false, true_and]
      rw [dropReturnType_chain plain isGroup valid last absent]
      simp only [isAsClause_iff no_break]
  rw [returned_eq, typed]
  split
  · rfl
  · apply drop_eq_self_of_not_occurs
    split
    · rename_i hides
      have whole : Declaration.occurs ((front ++ chain first links) ++ tail) = false := by
        rwa [List.append_assoc]
      rw [List.append_nil]
      exact not_occurs_of_append hides.2.breaks whole
    · exact absent

end Steps

section Shown

variable {line : ProcedureLine}

theorem ProcedureLine.WellFormed.indentOf_text (valid : line.WellFormed) :
    indentOf line.text = line.indent.length := by
  rw [indentOf, lines_eq_singleton valid.no_break, List.headD_cons, ProcedureLine.text,
    takeWhile_append_stop valid.blanks (valid.starts.head?_append_solid _)]

theorem ProcedureLine.WellFormed.no_group_before (valid : line.WellFormed) :
    '(' ∉ line.indent ++ line.head := by
  rw [List.mem_append, not_or]
  exact ⟨fun member => absurd (valid.blanks _ member) (by decide), valid.no_group⟩

theorem ProcedureLine.WellFormed.collapse_text (valid : line.WellFormed) :
    collapse line.text = (line.indent ++ line.head) ++
      (chain ['(', ')'] (line.links.map Link.emptied) ++ collapse line.tail) := by
  rw [ProcedureLine.text, ← List.append_assoc,
    Parenthesis.collapse_append_of_plain valid.no_group_before,
    Parenthesis.collapse_chain valid.first valid.links]

theorem ProcedureLine.WellFormed.tail_plain (valid : line.WellFormed) : '\n' ∉ line.tail := by
  intro member
  apply valid.no_break
  simp [ProcedureLine.text, member]

theorem ProcedureLine.WellFormed.hidden_text (valid : line.WellFormed) (settings : Settings) :
    hidden settings line.text =
      line.indent ++ (line.head ++ (line.shownChain settings ++ line.shownTail settings)) := by
  unfold hidden listed ProcedureLine.shownChain ProcedureLine.shownTail
  rw [← List.append_assoc]
  cases shows : settings.showParameters with
  | true =>
    have absent := valid.undeclared
    simp only [ProcedureLine.text, if_true]
    rw [ProcedureLine.text] at absent
    rw [← List.append_assoc] at absent ⊢
    exact typed_returned_chain valid.no_group_before valid.first valid.links valid.last
      valid.tail_plain absent
  | false =>
    have absent := valid.collapsed
    have last : (trimStart (collapse line.tail)).head? ≠ some '(' := by
      rw [Parenthesis.trimStart_collapse, Parenthesis.head?_collapse]
      exact valid.last
    have no_break : '\n' ∉ collapse line.tail :=
      fun member => valid.tail_plain ((Parenthesis.collapse_sublist _).subset member)
    rw [valid.collapse_text] at absent
    simp only [Bool.false_eq_true, if_false, valid.collapse_text]
    rw [typed_returned_chain valid.no_group_before Parenthesis.isGroup_pair
      (Parenthesis.forall_emptied valid.links) last no_break absent]
    simp only [beginsClause_collapse_iff]

/-- The line of a procedure is shown with its groups, or with empty ones in their place, and with
what follows them, unless that is a return type that is hidden. Whether the types of variables are
shown makes no difference. -/
theorem render_procedureLine (valid : line.WellFormed) (settings : Settings) :
    render settings line.text = line.shown settings ∧
      ∀ shows, render { settings with showVarType := shows } line.text =
        render settings line.text := by
  have rendered : ∀ settings : Settings, render settings line.text = line.shown settings := by
    intro settings
    rw [render_eq, flatten_eq_self valid.no_quote valid.no_break valid.undeclared,
      valid.hidden_text, valid.indentOf_text, reindent, trimStart,
      dropWhile_append_stop valid.blanks (valid.starts.head?_append_solid _)]
    rfl
  refine ⟨rendered settings, fun shows => ?_⟩
  rw [rendered, rendered]
  rfl

/-- A generic function: two groups, a type and an initial value inside the second one, and a group
in the return type. -/
theorem render_procedureLine_of_generic :
    ∃ line : ProcedureLine, line.WellFormed ∧
      line.text = "\t Function Map(Of T) (a As T, Optional n = 3) As List(Of T)".toList ∧
      render {} line.text = "  Function Map() ()".toList ∧
      render ⟨false, 2, true, false, false⟩ line.text =
        "  Function Map(Of T) (a As T, Optional n = 3)".toList ∧
      render ⟨false, 2, false, true, false⟩ line.text = "  Function Map() () As List()".toList := by
  let line : ProcedureLine := {
    indent := "\t ".toList
    head := "Function Map".toList
    first := "(Of T)".toList
    links := [⟨[' '], "(a As T, Optional n = 3)".toList⟩]
    tail := " As List(Of T)".toList }
  have valid : line.WellFormed := {
    blanks := List.all_eq_true.mp (by decide)
    starts := ⟨'F', "unction Map".toList, rfl, by decide⟩
    no_group := by decide
    first := by decide
    links := by
      intro link member
      obtain rfl := List.mem_singleton.mp member
      exact ⟨List.all_eq_true.mp rfl, by decide⟩
    last := by decide
    no_break := by decide
    no_quote := by decide
    undeclared := by decide +kernel
    collapsed := by decide +kernel }
  exact ⟨line, valid, by decide +kernel,
    (render_procedureLine valid _).1.trans (by decide +kernel),
    (render_procedureLine valid _).1.trans (by decide +kernel),
    (render_procedureLine valid _).1.trans (by decide +kernel)⟩

end Shown

end Display

end BasicOutline
