import BasicOutline.Parenthesis
import BasicOutline.Proofs.TextSpans

/-! Groups in parentheses: where one ends, and what is left of a text when they are collapsed. -/

namespace BasicOutline.Parenthesis

/-- A text that ends with the first `)` that brings the nesting to zero. -/
inductive Closes : Int → Text → Prop where
  | close {nesting : Int} (closed : nesting + change ')' = 0) : Closes nesting [')']
  | step {nesting : Int} {c : Char} {group : Text}
      (opened : ¬ (c = ')' ∧ nesting + change c = 0))
      (rest : Closes (nesting + change c) group) : Closes nesting (c :: group)

section Groups

variable {nesting : Int} {t group after : Text}

/-- A group is found by its own characters, whatever stands after it. -/
theorem splitGroup_eq_some_iff :
    splitGroup nesting t = some (group, after) ↔ Closes nesting group ∧ t = group ++ after := by
  constructor
  · intro split
    refine ⟨?_, (splitGroup_append split).symm⟩
    induction t generalizing nesting group with
    | nil => cases split
    | cons c rest ih =>
      rw [splitGroup] at split
      split at split
      · rename_i closed
        obtain ⟨rfl, -⟩ := Prod.mk.inj (Option.some.inj split)
        obtain ⟨rfl, zero⟩ := closed
        exact .close zero
      · rename_i opened
        obtain ⟨⟨inner, tail⟩, found, same⟩ := Option.map_eq_some_iff.mp split
        obtain ⟨rfl, rfl⟩ := Prod.mk.inj same
        exact .step opened (ih found)
  · rintro ⟨closes, rfl⟩
    induction closes with
    | close closed => rw [List.cons_append, splitGroup, if_pos ⟨rfl, closed⟩, List.nil_append]
    | step opened rest ih => rw [List.cons_append, splitGroup, if_neg opened, ih]; rfl

theorem splitGroup_append_right (split : splitGroup nesting t = some (group, after))
    (more : Text) : splitGroup nesting (t ++ more) = some (group, after ++ more) := by
  obtain ⟨closes, rfl⟩ := splitGroup_eq_some_iff.mp split
  exact splitGroup_eq_some_iff.mpr ⟨closes, List.append_assoc _ _ _⟩

theorem Closes.exists_last (closes : Closes nesting group) : ∃ body, group = body ++ [')'] := by
  induction closes with
  | close closed => exact ⟨[], rfl⟩
  | @step nesting c group opened rest ih =>
    obtain ⟨body, rfl⟩ := ih
    exact ⟨c :: body, rfl⟩

theorem pair_sublist_of_splitGroup {rest : Text}
    (split : splitGroup nesting ('(' :: rest) = some (group, after)) :
    ['(', ')'].Sublist group := by
  obtain ⟨closes, whole⟩ := splitGroup_eq_some_iff.mp split
  obtain ⟨body, rfl⟩ := closes.exists_last
  cases body with
  | nil => exact absurd (List.cons.inj whole).1 (by decide)
  | cons c body =>
    obtain ⟨rfl, -⟩ := List.cons.inj whole
    exact (List.sublist_append_right body [')']).cons_cons '('

theorem closes_pair : Closes 0 ['(', ')'] :=
  .step (by decide) (.close (by decide))

end Groups

section Collapse

variable {t : Text}

theorem collapse_cons_of_ne {c : Char} (plain : c ≠ '(') (rest : Text) :
    collapse (c :: rest) = c :: collapse rest := by
  rw [collapse, if_neg plain]

theorem collapse_of_group {rest group after : Text}
    (split : splitGroup 0 ('(' :: rest) = some (group, after)) :
    collapse ('(' :: rest) = '(' :: ')' :: collapse after := by
  rw [collapse, if_pos rfl]
  split
  · rename_i found
    rw [split] at found
    obtain ⟨-, rfl⟩ := Prod.mk.inj (Option.some.inj found)
    rfl
  · rename_i found
    rw [split] at found
    cases found

theorem collapse_of_open {rest : Text} (opened : splitGroup 0 ('(' :: rest) = none) :
    collapse ('(' :: rest) = '(' :: rest := by
  rw [collapse, if_pos rfl]
  split
  · rename_i found
    rw [opened] at found
    cases found
  · rfl

theorem collapse_pair (after : Text) :
    collapse ('(' :: ')' :: after) = '(' :: ')' :: collapse after :=
  collapse_of_group (splitGroup_eq_some_iff.mpr ⟨closes_pair, rfl⟩)

theorem collapse_sublist (t : Text) : (collapse t).Sublist t := by
  fun_induction collapse t with
  | case1 => exact List.Sublist.refl []
  | case2 rest group after split ih =>
    rw [← splitGroup_append split]
    exact (pair_sublist_of_splitGroup split).append ih
  | case3 rest opened => exact List.Sublist.refl _
  | case4 c rest plain ih => exact ih.cons_cons c

theorem collapse_collapse (t : Text) : collapse (collapse t) = collapse t := by
  fun_induction collapse t with
  | case1 => rw [collapse]
  | case2 rest group after split ih => rw [collapse_pair, ih]
  | case3 rest opened => exact collapse_of_open opened
  | case4 c rest plain ih => rw [collapse_cons_of_ne plain, ih]

theorem collapse_append_of_plain {front : Text} (plain : '(' ∉ front) (t : Text) :
    collapse (front ++ t) = front ++ collapse t := by
  induction front with
  | nil => rfl
  | cons c more ih =>
    rw [List.mem_cons, not_or] at plain
    rw [List.cons_append, collapse_cons_of_ne (Ne.symm plain.1), ih plain.2, List.cons_append]

theorem head?_collapse (t : Text) : (collapse t).head? = t.head? := by
  fun_induction collapse t <;> rfl

/-- What has no parenthesis in a collapsed text was there before. -/
theorem exists_of_collapse_eq_append {front after : Text} (plain : '(' ∉ front)
    (split : collapse t = front ++ after) : ∃ rest, t = front ++ rest ∧ after = collapse rest := by
  induction front generalizing t with
  | nil => exact ⟨t, rfl, split.symm⟩
  | cons c more ih =>
    rw [List.mem_cons, not_or] at plain
    have head := head?_collapse t
    rw [split, List.cons_append, List.head?_cons] at head
    obtain ⟨tail, rfl⟩ := List.head?_eq_some_iff.mp head.symm
    rw [collapse_cons_of_ne (Ne.symm plain.1)] at split
    obtain ⟨rest, rfl, after_eq⟩ := ih plain.2 (List.cons.inj split).2
    exact ⟨rest, rfl, after_eq⟩

theorem collapse_eq_self_of_append {front after : Text}
    (collapsed : collapse (front ++ after) = front ++ after) : collapse front = front := by
  fun_induction collapse front with
  | case1 => rfl
  | case2 rest group left split ih =>
    -- The first group is as long as `()`, so it is `()`.
    have whole := splitGroup_append split
    have pair := (pair_sublist_of_splitGroup split).length_le
    have shorter := (collapse_sublist (left ++ after)).length_le
    have longer : splitGroup 0 ('(' :: (rest ++ after)) = some (group, left ++ after) :=
      splitGroup_append_right split after
    rw [List.cons_append, collapse_of_group longer, ← List.cons_append, ← whole,
      List.append_assoc] at collapsed
    have lengths := congrArg List.length collapsed
    simp only [List.length_cons, List.length_append, List.length_nil] at lengths pair shorter
    have same_length : ['(', ')'].length = group.length := by
      simp only [List.length_cons, List.length_nil]
      omega
    obtain ⟨rfl, rest_eq⟩ := List.append_inj collapsed same_length
    rw [ih rest_eq, ← whole]
    rfl
  | case3 rest opened => rfl
  | case4 c rest plain ih =>
    rw [List.cons_append, collapse_cons_of_ne plain] at collapsed
    rw [ih (List.cons.inj collapsed).2]

end Collapse

section Chains

variable {t groups rest : Text}

theorem splitGroups_of_last {group : Text} (split : splitGroup 0 t = some (group, rest))
    (last : ∀ more, rest.dropWhile Text.isBlank ≠ '(' :: more) :
    splitGroups t = some (group, rest) := by
  rw [splitGroups]
  split
  · rename_i opened
    rw [split] at opened
    cases opened
  · rename_i found
    obtain ⟨rfl, rfl⟩ := Prod.mk.inj (Option.some.inj (split.symm.trans found))
    split
    · rename_i more next
      exact absurd next (last more)
    · rfl

theorem splitGroups_of_next {group after more : Text} (split : splitGroup 0 t = some (group, after))
    (next : after.dropWhile Text.isBlank = '(' :: more) :
    splitGroups t = (splitGroups ('(' :: more)).map fun chain =>
      (group ++ after.takeWhile Text.isBlank ++ chain.1, chain.2) := by
  rw [splitGroups]
  split
  · rename_i opened
    rw [split] at opened
    cases opened
  · rename_i found
    obtain ⟨rfl, rfl⟩ := Prod.mk.inj (Option.some.inj (split.symm.trans found))
    split
    · rename_i other same
      obtain ⟨-, rfl⟩ := List.cons.inj (next.symm.trans same)
      rfl
    · rename_i last
      exact absurd next (last more)

theorem splitGroups_append (split : splitGroups t = some (groups, rest)) :
    groups ≠ [] ∧ groups ++ rest = t := by
  fun_induction splitGroups t generalizing groups rest with
  | case1 t opened => cases split
  | case2 t group after found more next ih =>
    obtain ⟨⟨chain, last⟩, later, same⟩ := Option.map_eq_some_iff.mp split
    obtain ⟨rfl, rfl⟩ := Prod.mk.inj same
    refine ⟨by simp [splitGroup_ne_nil found], ?_⟩
    rw [List.append_assoc, List.append_assoc, (ih later).2, ← next, List.takeWhile_append_dropWhile,
      splitGroup_append found]
  | case3 t group after found last =>
    obtain ⟨rfl, rfl⟩ := Prod.mk.inj (Option.some.inj split)
    exact ⟨splitGroup_ne_nil found, splitGroup_append found⟩

theorem splitGroups_groups (split : splitGroups t = some (groups, rest)) :
    splitGroups groups = some (groups, []) := by
  fun_induction splitGroups t generalizing groups rest with
  | case1 t opened => cases split
  | case2 t group after found more next ih =>
    obtain ⟨⟨chain, last⟩, later, same⟩ := Option.map_eq_some_iff.mp split
    obtain ⟨rfl, rfl⟩ := Prod.mk.inj same
    obtain ⟨nonempty, whole⟩ := splitGroups_append later
    obtain ⟨c, chain, rfl⟩ := List.exists_cons_of_ne_nil nonempty
    obtain ⟨rfl, -⟩ := List.cons.inj whole
    have alone : splitGroup 0 (group ++ after.takeWhile Text.isBlank ++ '(' :: chain) =
        some (group, after.takeWhile Text.isBlank ++ '(' :: chain) :=
      splitGroup_eq_some_iff.mpr ⟨(splitGroup_eq_some_iff.mp found).1, List.append_assoc _ _ _⟩
    have stop : ∀ c, ('(' :: chain).head? = some c → Text.isBlank c = false := by
      intro c head
      obtain rfl := Option.some.inj head
      decide
    rw [splitGroups_of_next alone (Text.dropWhile_append_stop Text.keep_of_mem_takeWhile stop),
      ih later, Text.takeWhile_append_stop Text.keep_of_mem_takeWhile stop]
    rfl
  | case3 t group after found last =>
    obtain ⟨rfl, rfl⟩ := Prod.mk.inj (Option.some.inj split)
    refine splitGroups_of_last ?_ (by simp)
    exact splitGroup_eq_some_iff.mpr
      ⟨(splitGroup_eq_some_iff.mp found).1, (List.append_nil _).symm⟩

end Chains

end BasicOutline.Parenthesis
