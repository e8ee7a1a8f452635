import BasicOutline.Proofs.DeclarationSettled
import BasicOutline.Proofs.LineFolding

/-! Rendering a line that was rendered before.

Each step of the rendering leaves its own result as it is, and none but the steps for initial values
and types finds anything new in the result of the others. So a line is rendered to itself exactly
when no declaration of it has one of these parts, which holds whenever the text has no attribute
block. -/

namespace BasicOutline.Display

open Text Declaration

section Indentation

variable {t : Text}

def reindent (n : Nat) (t : Text) : Text := spaces n ++ trimStart t

theorem isBlank_of_mem_spaces {n : Nat} {c : Char} (member : c ∈ spaces n) : isBlank c = true := by
  obtain rfl := List.eq_of_mem_replicate member
  decide

theorem not_mem_spaces {n : Nat} {c : Char} (different : c ≠ ' ') : c ∉ spaces n :=
  fun member => different (List.eq_of_mem_replicate member)

theorem trimStart_split (t : Text) : t.takeWhile isBlank ++ trimStart t = t :=
  List.takeWhile_append_dropWhile

theorem trimStart_reindent (n : Nat) (t : Text) : trimStart (reindent n t) = trimStart t :=
  dropWhile_append_stop (fun _ => isBlank_of_mem_spaces) head?_dropWhile_stop

theorem weight_reindent (n : Nat) (t : Text) : weight (reindent n t) = weight t := by
  have light : ∀ {gap : Text}, (∀ c ∈ gap, isBlank c = true) → weight gap = 0 := by
    intro gap blanks
    rw [weight, List.countP_eq_zero]
    intro c member
    simp [isSolid, blanks c member]
  conv => rhs; rw [← trimStart_split t]
  rw [reindent, weight_append, weight_append, light fun _ => isBlank_of_mem_spaces,
    light keep_of_mem_takeWhile]

theorem mem_reindent {n : Nat} {c : Char} (member : c ∈ reindent n t) : c = ' ' ∨ c ∈ t := by
  rcases List.mem_append.mp member with space | inside
  · exact .inl (List.eq_of_mem_replicate space)
  · exact .inr ((List.dropWhile_sublist _).subset inside)

theorem tails_reindent (n : Nat) (plain : '\n' ∉ t) : tails (reindent n t) = tails t := by
  have single : '\n' ∉ t.takeWhile isBlank :=
    fun member => plain ((List.takeWhile_sublist _).subset member)
  conv => rhs; rw [← trimStart_split t]
  rw [reindent, tails_append_blanks (fun _ => isBlank_of_mem_spaces) (not_mem_spaces (by decide)),
    tails_append_blanks keep_of_mem_takeWhile single]

theorem reindent_fixed {step : Text → Text}
    (shift : ∀ gap t, (∀ c ∈ gap, isBlank c = true) → '\n' ∉ gap → step (gap ++ t) = gap ++ step t)
    (n : Nat) (plain : '\n' ∉ t) (fixed : step t = t) : step (reindent n t) = reindent n t := by
  have single : '\n' ∉ t.takeWhile isBlank :=
    fun member => plain ((List.takeWhile_sublist _).subset member)
  have trimmed : step (trimStart t) = trimStart t := by
    have whole := shift (t.takeWhile isBlank) (trimStart t) keep_of_mem_takeWhile single
    rw [trimStart_split, fixed] at whole
    exact List.append_cancel_left (whole.symm.trans (trimStart_split t).symm)
  rw [reindent, shift _ _ (fun _ => isBlank_of_mem_spaces) (not_mem_spaces (by decide)), trimmed]

theorem indentOf_reindent (n : Nat) (plain : '\n' ∉ t) : indentOf (reindent n t) = n := by
  have single : '\n' ∉ reindent n t := by
    intro member
    rcases mem_reindent member with space | inside
    · exact absurd space (by decide)
    · exact plain inside
  rw [indentOf, lines_eq_singleton single, List.headD_cons, reindent, trimStart,
    takeWhile_append_stop (fun _ => isBlank_of_mem_spaces) head?_dropWhile_stop, spaces,
    List.length_replicate]

end Indentation

section ReturnType

variable {t : Text}

theorem dropReturnType_cases (t : Text) :
    dropReturnType t = t ∨
      ∃ front groups clause, t = front ++ groups ++ clause ∧ dropReturnType t = front ++ groups ∧
        (∀ c ∈ front, (c != '(') = true) ∧ (∀ c, groups.head? = some c → (c != '(') = false) ∧
        Parenthesis.splitGroups groups = some (groups, []) ∧ Breaks clause := by
  unfold dropReturnType
  split
  · exact .inl rfl
  · split
    · rename_i groups clause split
      obtain ⟨nonempty, whole⟩ := Parenthesis.splitGroups_append split
      split
      · rename_i typed
        refine .inr ⟨t.takeWhile (· != '('), groups, clause, ?_, rfl, keep_of_mem_takeWhile, ?_,
          Parenthesis.splitGroups_groups split, ?_⟩
        · rw [List.append_assoc, whole, List.takeWhile_append_dropWhile]
        · intro c head
          apply head?_dropWhile_stop (t := t) c
          rw [← whole, List.head?_append, head, Option.some_or]
        · unfold isAsClause at typed
          split at typed
          · rename_i type found
            exact breaks_of_clause found
          · cases typed
      · exact .inl rfl
    · exact .inl rfl

theorem dropReturnType_append (t : Text) : ∃ more, t = dropReturnType t ++ more ∧ Breaks more := by
  rcases dropReturnType_cases t with kept | ⟨front, groups, clause, whole, dropped, -, -, -, breaks⟩
  · exact ⟨[], by rw [kept, List.append_nil], nofun⟩
  · exact ⟨clause, by rw [dropped, ← whole], breaks⟩

theorem dropReturnType_of_occurs (found : Declaration.occurs t = true) : dropReturnType t = t := by
  rw [dropReturnType, if_pos found]

theorem dropReturnType_dropReturnType (t : Text) :
    dropReturnType (dropReturnType t) = dropReturnType t := by
  rcases dropReturnType_cases t with
    kept | ⟨front, groups, clause, -, dropped, plain, stop, alone, -⟩
  · rw [kept, kept]
  · rw [dropped]
    unfold dropReturnType
    rw [dropWhile_append_stop plain stop, alone]
    split <;> rfl

theorem dropReturnType_shift (gap t : Text) (blanks : ∀ c ∈ gap, isBlank c = true)
    (single : '\n' ∉ gap) : dropReturnType (gap ++ t) = gap ++ dropReturnType t := by
  have closed : ∀ c ∈ gap, (c != '(') = true := by
    intro c member
    have different : c ≠ '(' := by
      rintro rfl
      exact absurd (blanks _ member) (by decide)
    simpa using different
  have same_occurs : Declaration.occurs (gap ++ t) = Declaration.occurs t := by
    rw [occurs_eq, occurs_eq, tails_append_blanks blanks single]
  unfold dropReturnType
  rw [same_occurs, List.dropWhile_append_of_pos closed, List.takeWhile_append_of_pos closed]
  split
  · rfl
  · split
    · split
      · rw [List.append_assoc]
      · rfl
    · rfl

end ReturnType

section Steps

variable {settings : Settings} {t : Text}

def listed (settings : Settings) (t : Text) : Text :=
  if settings.showParameters then t else Parenthesis.collapse t

def returned (settings : Settings) (t : Text) : Text :=
  if settings.showFunctionType then t else dropReturnType t

def typed (settings : Settings) (t : Text) : Text :=
  if settings.showVarType then t else dropTypes t

def hidden (settings : Settings) (t : Text) : Text :=
  typed settings (returned settings (listed settings t))

theorem render_eq (settings : Settings) (t : Text) :
    render settings t = reindent (indentOf t) (hidden settings (flatten t)) := rfl

theorem listed_sublist (settings : Settings) (t : Text) : (listed settings t).Sublist t := by
  unfold listed
  split
  · exact List.Sublist.refl t
  · exact Parenthesis.collapse_sublist t

theorem returned_append (settings : Settings) (t : Text) :
    ∃ more, t = returned settings t ++ more ∧ Breaks more := by
  unfold returned
  split
  · exact ⟨[], by rw [List.append_nil], nofun⟩
  · exact dropReturnType_append t

theorem typed_append (settings : Settings) (plain : '\n' ∉ t) :
    ∃ more, t = typed settings t ++ more ∧ Breaks more := by
  unfold typed
  split
  · exact ⟨[], by rw [List.append_nil], nofun⟩
  · exact dropFrom_append .type true plain

theorem returned_sublist (settings : Settings) (t : Text) :
    (returned settings (listed settings t)).Sublist t := by
  obtain ⟨more, whole, -⟩ := returned_append settings (listed settings t)
  have front : returned settings (listed settings t) <+: listed settings t := ⟨more, whole.symm⟩
  exact front.sublist.trans (listed_sublist settings t)

theorem hidden_append (settings : Settings) (plain : '\n' ∉ t) :
    ∃ more, listed settings t = hidden settings t ++ more ∧ Breaks more := by
  have returned_plain : '\n' ∉ returned settings (listed settings t) :=
    fun member => plain ((returned_sublist settings t).subset member)
  obtain ⟨first, first_eq, first_breaks⟩ := returned_append settings (listed settings t)
  obtain ⟨second, second_eq, second_breaks⟩ := typed_append settings returned_plain
  refine ⟨second ++ first, ?_, second_breaks.append first_breaks⟩
  rw [← List.append_assoc, hidden, ← second_eq]
  exact first_eq

theorem hidden_sublist (settings : Settings) (t : Text) : (hidden settings t).Sublist t := by
  refine List.Sublist.trans ?_ (returned_sublist settings t)
  unfold hidden typed
  split
  · exact List.Sublist.refl _
  · exact dropFrom_sublist .type true _

theorem mem_flatten {c : Char} (member : c ∈ flatten t) :
    c ≠ '\n' ∧ c ≠ '\x27' ∧ (c = ' ' ∨ c ∈ t) :=
  mem_folded ((dropFrom_sublist _ _ _).subset member)

theorem flatten_plain (t : Text) : '\n' ∉ flatten t := fun member => (mem_flatten member).1 rfl

theorem hidden_plain (settings : Settings) (t : Text) : '\n' ∉ hidden settings (flatten t) :=
  fun member => flatten_plain t ((hidden_sublist settings (flatten t)).subset member)

theorem mem_render {c : Char} (member : c ∈ render settings t) : c ≠ '\n' ∧ c ≠ '\x27' := by
  rcases mem_reindent member with rfl | inside
  · decide
  · have kept := (hidden_sublist settings (flatten t)).subset inside
    exact ⟨(mem_flatten kept).1, (mem_flatten kept).2.1⟩

end Steps

section Again

variable {settings : Settings} {t : Text}

theorem listed_hidden (settings : Settings) (plain : '\n' ∉ t) :
    listed settings (hidden settings t) = hidden settings t := by
  obtain ⟨more, whole, -⟩ := hidden_append settings plain
  unfold listed at whole ⊢
  split
  · rfl
  · rename_i hides
    rw [if_neg hides] at whole
    have collapsed :
        Parenthesis.collapse (hidden settings t ++ more) = hidden settings t ++ more := by
      rw [← whole, Parenthesis.collapse_collapse]
    exact Parenthesis.collapse_eq_self_of_append collapsed

/-- Where a type was dropped a declaration is left, and then no return type is looked for. -/
theorem returned_hidden (settings : Settings) (plain : '\n' ∉ t) :
    returned settings (hidden settings t) = hidden settings t := by
  have returned_plain : '\n' ∉ returned settings (listed settings t) :=
    fun member => plain ((returned_sublist settings t).subset member)
  have kept_or_occurs : hidden settings t = returned settings (listed settings t) ∨
      Declaration.occurs (hidden settings t) = true := by
    unfold hidden typed
    split
    · exact .inl rfl
    · exact (dropFrom_cases returned_plain).imp_right And.left
  rw [returned]
  split
  · rfl
  · rename_i hides
    rcases kept_or_occurs with kept | found
    · rw [kept, returned, if_neg hides, dropReturnType_dropReturnType]
    · exact dropReturnType_of_occurs found

theorem listed_shift (settings : Settings) (gap t : Text) (blanks : ∀ c ∈ gap, isBlank c = true) :
    listed settings (gap ++ t) = gap ++ listed settings t := by
  have plain : '(' ∉ gap := fun member => absurd (blanks _ member) (by decide)
  unfold listed
  split
  · rfl
  · exact Parenthesis.collapse_append_of_plain plain t

theorem returned_shift (settings : Settings) (gap t : Text) (blanks : ∀ c ∈ gap, isBlank c = true)
    (single : '\n' ∉ gap) : returned settings (gap ++ t) = gap ++ returned settings t := by
  unfold returned
  split
  · rfl
  · exact dropReturnType_shift gap t blanks single

theorem listed_render (settings : Settings) (t : Text) :
    listed settings (render settings t) = render settings t :=
  reindent_fixed (fun gap t blanks _ => listed_shift settings gap t blanks) _
    (hidden_plain settings t) (listed_hidden settings (flatten_plain t))

theorem returned_render (settings : Settings) (t : Text) :
    returned settings (render settings t) = render settings t :=
  reindent_fixed (returned_shift settings) _ (hidden_plain settings t)
    (returned_hidden settings (flatten_plain t))

theorem flatten_render (settings : Settings) (t : Text) :
    flatten (render settings t) = dropInitializers (render settings t) := by
  rw [flatten, dropComments_eq_self fun member => (mem_render member).2 rfl,
    joinLines_eq_self fun member => (mem_render member).1 rfl]

theorem indentOf_render (settings : Settings) (t : Text) :
    indentOf (render settings t) = indentOf t :=
  indentOf_reindent _ (hidden_plain settings t)

theorem reindent_render (settings : Settings) (t : Text) :
    reindent (indentOf t) (render settings t) = render settings t := by
  rw [render_eq, reindent, trimStart_reindent, reindent]

/-- A rendered line is rendered to itself exactly when no declaration of it has a part to drop. -/
theorem render_eq_self_iff (settings : Settings) (t : Text) :
    render settings (render settings t) = render settings t ↔
      Settled .initializer true (render settings t) ∧
        (settings.showVarType = false → Settled .type true (render settings t)) := by
  have again : render settings (render settings t) =
      reindent (indentOf t) (hidden settings (dropInitializers (render settings t))) := by
    rw [render_eq, indentOf_render, flatten_render]
  have plain : '\n' ∉ render settings t := fun member => (mem_render member).1 rfl
  constructor
  · intro same
    -- No step adds anything but blanks, so none of them may take anything else away.
    have heavy : weight (render settings t) ≤
        weight (hidden settings (dropInitializers (render settings t))) := by
      rw [← weight_reindent (indentOf t) (hidden settings _), ← again, same]
    have values : Settled .initializer true (render settings t) :=
      (settled_iff plain).mpr (cut_eq_none_of_weight_le
        (heavy.trans (weight_le_of_sublist (hidden_sublist settings _))))
    refine ⟨values, fun hides => ?_⟩
    have kept : dropInitializers (render settings t) = render settings t :=
      dropFrom_eq_self ((settled_iff plain).mp values)
    rw [kept, hidden, listed_render, returned_render, typed, if_neg (by simp [hides])] at heavy
    exact (settled_iff plain).mpr (cut_eq_none_of_weight_le heavy)
  · rintro ⟨values, types⟩
    have values_kept : dropInitializers (render settings t) = render settings t :=
      dropFrom_eq_self ((settled_iff plain).mp values)
    have types_kept : typed settings (render settings t) = render settings t := by
      unfold typed
      split
      · rfl
      · rename_i hides
        exact dropFrom_eq_self ((settled_iff plain).mp (types (by simpa using hides)))
    rw [again, values_kept, hidden, listed_render, returned_render, types_kept, reindent_render]

theorem settled_render {part : Part} :
    Settled part true (render settings t) ↔ Settled part true (hidden settings (flatten t)) := by
  have same : tails (render settings t) = tails (hidden settings (flatten t)) :=
    tails_reindent (indentOf t) (hidden_plain settings t)
  unfold tails at same
  rw [Settled, Settled, same]

/-- Without attribute blocks every part is dropped the first time. -/
theorem settled_of_bare (bare : '<' ∉ t) :
    Settled .initializer true (render settings t) ∧
      (settings.showVarType = false → Settled .type true (render settings t)) := by
  have folded_bare : '<' ∉ joinLines (dropComments t) := by
    intro member
    rcases (mem_folded member).2.2 with space | inside
    · exact absurd space (by decide)
    · exact bare inside
  have folded_plain : '\n' ∉ joinLines (dropComments t) := fun member => (mem_folded member).1 rfl
  have flat_bare : '<' ∉ flatten t :=
    fun member => folded_bare ((dropFrom_sublist _ _ _).subset member)
  have flat_settled : Settled .initializer true (flatten t) :=
    dropFrom_settled folded_plain folded_bare
  rw [settled_render, settled_render]
  constructor
  · obtain ⟨more, whole, breaks⟩ := hidden_append settings (flatten_plain t)
    have listed_settled : Settled .initializer true (listed settings (flatten t)) := by
      unfold listed
      split
      · exact flat_settled
      · exact flat_settled.collapse flat_bare
    rw [whole] at listed_settled
    exact listed_settled.of_append breaks
  · intro hides
    have sublist := returned_sublist settings (flatten t)
    rw [hidden, typed, if_neg (by simp [hides])]
    exact dropFrom_settled (fun member => flatten_plain t (sublist.subset member))
      fun member => flat_bare (sublist.subset member)

/-- Rendering a second time changes nothing, unless a declaration of the line still has a part to
drop. For that the text must have an attribute block. -/
theorem render_again (settings : Settings) (t : Text) :
    (render settings (render settings t) = render settings t ↔
      Settled .initializer true (render settings t) ∧
        (settings.showVarType = false → Settled .type true (render settings t))) ∧
    ('<' ∉ t → render settings (render settings t) = render settings t) := by
  refine ⟨render_eq_self_iff settings t, fun bare => ?_⟩
  exact (render_eq_self_iff settings t).mpr (settled_of_bare bare)

/-- Collapsing the group of an attribute can end its block at a later mark, and the declaration
behind it is then found the second time only. -/
theorem not_render_idempotent :
    ¬ ∀ settings t, render settings (render settings t) = render settings t := by
  intro idempotent
  have same := idempotent {} "<Obsolete(\"use > instead\")> Dim x = 5".toList
  have first : render {} "<Obsolete(\"use > instead\")> Dim x = 5".toList =
      "<Obsolete()> Dim x = 5".toList := by decide +kernel
  have second : render {} "<Obsolete()> Dim x = 5".toList = "<Obsolete()> Dim x".toList := by
    decide +kernel
  rw [first, second] at same
  exact absurd same (by decide)

end Again

end BasicOutline.Display
