import BasicOutline.Proofs.ProcedureLine

/-! Showing the parameters of a procedure and showing its return type.

Collapsing leaves the blanks between groups as they are, so a chain of groups stays a chain, and a
chain that is broken off by an open group stays broken off. So the return type is found behind the
same chain, whether the groups are collapsed before it is dropped or after. -/

namespace BasicOutline

namespace Parenthesis

variable {t : Text}

theorem splitGroups_of_open (unsplit : splitGroup 0 t = none) : splitGroups t = none := by
  rw [splitGroups]
  split
  · rfl
  · rename_i found
    rw [unsplit] at found
    cases found

/-- The first group of a collapsed text is the first group of the text itself, emptied. -/
theorem splitGroup_collapse (opened : ∀ c, t.head? = some c → (c != '(') = false) :
    splitGroup 0 (collapse t) =
      (splitGroup 0 t).map fun split => (['(', ')'], collapse split.2) := by
  cases t with
  | nil =>
    rw [collapse]
    rfl
  | cons c rest =>
    obtain rfl : c = '(' := by simpa using opened c rfl
    cases split : splitGroup 0 ('(' :: rest) with
    | none =>
      rw [collapse_of_open split, split]
      rfl
    | some parts =>
      obtain ⟨group, after⟩ := parts
      obtain ⟨whole, isGroup⟩ := isGroup_of_splitGroup split
      rw [whole, isGroup.collapse_append]
      exact isGroup_pair.splitGroup_eq _

theorem splitGroups_collapse (opened : ∀ c, t.head? = some c → (c != '(') = false) :
    splitGroups (collapse t) =
      (splitGroups t).map fun split => (collapse split.1, collapse split.2) := by
  fun_induction splitGroups t with
  | case1 t unsplit =>
    have emptied := splitGroup_collapse opened
    rw [unsplit, Option.map_none] at emptied
    exact splitGroups_of_open emptied
  | case2 t group after found more next ih =>
    have isGroup := isGroup_of_found opened found
    have emptied := splitGroup_collapse opened
    rw [found, Option.map_some] at emptied
    obtain ⟨tail, begins⟩ : ∃ tail, collapse ('(' :: more) = '(' :: tail :=
      List.head?_eq_some_iff.mp (head?_collapse _)
    have behind : (collapse after).dropWhile Text.isBlank = '(' :: tail := by
      rw [← begins, ← next]
      exact trimStart_collapse after
    have plain : '(' ∉ after.takeWhile Text.isBlank :=
      fun member => absurd (Text.keep_of_mem_takeWhile _ member) (by decide)
    have joined : ∀ chain, collapse (group ++ after.takeWhile Text.isBlank ++ chain) =
        ['(', ')'] ++ after.takeWhile Text.isBlank ++ collapse chain := by
      intro chain
      rw [List.append_assoc, isGroup.collapse_append, collapse_append_of_plain plain]
      rfl
    rw [splitGroups_of_next emptied behind, ← begins, ih (Text.head?_cons_stop rfl more),
      takeWhile_isBlank_collapse, Option.map_map, Option.map_map]
    simp only [Function.comp_def, joined]
  | case3 t group after found last =>
    have isGroup := isGroup_of_found opened found
    have emptied := splitGroup_collapse opened
    rw [found, Option.map_some] at emptied
    have alone : collapse group = ['(', ')'] := by
      have joined := isGroup.collapse_append []
      rwa [List.append_nil, collapse] at joined
    rw [Option.map_some, alone]
    apply splitGroups_of_last emptied
    intro more next
    have head : (Text.trimStart after).head? = some '(' := by
      rw [← head?_collapse, ← trimStart_collapse]
      exact List.head?_eq_some_iff.mpr ⟨more, next⟩
    obtain ⟨rest, same⟩ := List.head?_eq_some_iff.mp head
    exact last rest same

end Parenthesis

namespace Display

open Text Declaration
open Parenthesis (collapse)

variable {t : Text}

theorem isAsClause_collapse (no_break : '\n' ∉ t) : isAsClause (collapse t) = isAsClause t := by
  have single : '\n' ∉ collapse t :=
    fun member => no_break ((Parenthesis.collapse_sublist t).subset member)
  rw [Bool.eq_iff_iff, isAsClause_iff single, isAsClause_iff no_break]
  exact beginsClause_collapse_iff

theorem dropReturnType_collapse (no_break : '\n' ∉ t) (undeclared : Declaration.occurs t = false)
    (collapsed : Declaration.occurs (collapse t) = false) :
    dropReturnType (collapse t) = collapse (dropReturnType t) := by
  have plain := not_mem_takeWhile_mark '(' t
  have parts : t.takeWhile (· != '(') ++ t.dropWhile (· != '(') = t :=
    List.takeWhile_append_dropWhile
  have stop : ∀ c, (t.dropWhile (· != '(')).head? = some c → (c != '(') = false :=
    head?_dropWhile_stop
  have whole : collapse t = t.takeWhile (· != '(') ++ collapse (t.dropWhile (· != '(')) := by
    rw [← Parenthesis.collapse_append_of_plain plain, parts]
  have kept_stop : ∀ c, (collapse (t.dropWhile (· != '('))).head? = some c →
      (c != '(') = false := by
    rw [Parenthesis.head?_collapse]
    exact stop
  have front_eq : (collapse t).takeWhile (· != '(') = t.takeWhile (· != '(') := by
    rw [whole]
    exact takeWhile_append_stop keep_of_mem_takeWhile kept_stop
  have behind_eq : (collapse t).dropWhile (· != '(') = collapse (t.dropWhile (· != '(')) := by
    rw [whole]
    exact dropWhile_append_stop keep_of_mem_takeWhile kept_stop
  rw [dropReturnType, if_neg (by simp [collapsed]), front_eq, behind_eq,
    Parenthesis.splitGroups_collapse stop, dropReturnType, if_neg (by simp [undeclared])]
  cases split : Parenthesis.splitGroups (t.dropWhile (· != '(')) with
  | none => rfl
  | some chain =>
    obtain ⟨groups, rest⟩ := chain
    have behind := (Parenthesis.splitGroups_append split).2
    have single : '\n' ∉ rest := by
      intro member
      apply no_break
      rw [← parts, ← behind]
      simp [member]
    simp only [Option.map_some, isAsClause_collapse single]
    split
    · rw [Parenthesis.collapse_append_of_plain plain]
    · rfl

theorem returned_collapse (settings : Settings) (no_break : '\n' ∉ t)
    (undeclared : Declaration.occurs t = false)
    (collapsed : Declaration.occurs (collapse t) = false) :
    returned settings (collapse t) = collapse (returned settings t) := by
  unfold returned
  split
  · rfl
  · exact dropReturnType_collapse no_break undeclared collapsed

theorem typed_returned (settings : Settings) (undeclared : Declaration.occurs t = false) :
    typed settings (returned settings t) = returned settings t := by
  obtain ⟨more, whole, breaks⟩ := returned_append settings t
  rw [whole] at undeclared
  unfold typed
  split
  · rfl
  · exact drop_eq_self_of_not_occurs .type (not_occurs_of_append breaks undeclared)

theorem reindent_collapse (n : Nat) (t : Text) :
    reindent n (collapse t) = collapse (reindent n t) := by
  rw [reindent, Parenthesis.trimStart_collapse, reindent,
    Parenthesis.collapse_append_of_plain (not_mem_spaces (by decide))]

/-- Where no variable or constant is declared, the line without parameters is the line with them,
collapsed, whether or not the return type is shown. -/
theorem render_without_parameters
    (undeclared : Declaration.occurs (joinLines (dropComments t)) = false)
    (collapsed : Declaration.occurs (collapse (joinLines (dropComments t))) = false)
    (settings : Settings) :
    render { settings with showParameters := false } t =
      collapse (render { settings with showParameters := true } t) := by
  have flat : flatten t = joinLines (dropComments t) :=
    drop_eq_self_of_not_occurs .initializer undeclared
  have no_break : '\n' ∉ joinLines (dropComments t) := fun member => (mem_folded member).1 rfl
  calc
    render { settings with showParameters := false } t =
        reindent (indentOf t) (typed settings (returned settings (collapse (flatten t)))) := rfl
    _ = reindent (indentOf t) (returned settings (collapse (flatten t))) := by
      rw [flat, typed_returned settings collapsed]
    _ = collapse (reindent (indentOf t) (returned settings (flatten t))) := by
      rw [flat, returned_collapse settings no_break undeclared collapsed, reindent_collapse]
    _ = collapse (reindent (indentOf t) (typed settings (returned settings (flatten t)))) := by
      rw [flat, typed_returned settings undeclared]
    _ = collapse (render { settings with showParameters := true } t) := rfl

/-- A signature over two lines with a comment, a `)` that closes nothing, and a return type whose
group stays open. -/
theorem render_without_parameters_of_malformed :
    let text := "  Function F)(a As Long, ' (\n\tb) (c) As List(Of T".toList
    Declaration.occurs (joinLines (dropComments text)) = false ∧
      Declaration.occurs (collapse (joinLines (dropComments text))) = false ∧
      render ⟨false, 2, true, true, false⟩ text =
        "  Function F)(a As Long, b) (c) As List(Of T".toList ∧
      render ⟨false, 2, false, true, false⟩ text = "  Function F)() () As List(Of T".toList ∧
      render ⟨false, 2, true, false, false⟩ text = "  Function F)(a As Long, b) (c)".toList ∧
      render ⟨false, 2, false, false, false⟩ text = "  Function F)() ()".toList := by
  intro text
  have undeclared : Declaration.occurs (joinLines (dropComments text)) = false := by
    decide +kernel
  have collapsed : Declaration.occurs (collapse (joinLines (dropComments text))) = false := by
    decide +kernel
  have typed : render ⟨false, 2, true, true, false⟩ text =
      "  Function F)(a As Long, b) (c) As List(Of T".toList := by
    decide +kernel
  have untyped : render ⟨false, 2, true, false, false⟩ text =
      "  Function F)(a As Long, b) (c)".toList := by
    decide +kernel
  have hides := render_without_parameters undeclared collapsed
  have hidden : render ⟨false, 2, false, true, false⟩ text =
      collapse (render ⟨false, 2, true, true, false⟩ text) := hides ⟨false, 2, true, true, false⟩
  have untyped_hidden : render ⟨false, 2, false, false, false⟩ text =
      collapse (render ⟨false, 2, true, false, false⟩ text) := hides ⟨false, 2, true, false, false⟩
  refine ⟨undeclared, collapsed, typed, ?_, untyped, ?_⟩
  · rw [hidden, typed]
    decide +kernel
  · rw [untyped_hidden, untyped]
    decide +kernel

end Display

end BasicOutline
