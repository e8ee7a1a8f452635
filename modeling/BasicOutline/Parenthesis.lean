import BasicOutline.Text.Blank

/-! Round parentheses: nesting depth, balanced groups and their collapse. -/

namespace BasicOutline.Parenthesis

def change (c : Char) : Int :=
  if c = '(' then 1 else if c = ')' then -1 else 0

def depth : Text → Int
  | [] => 0
  | c :: rest => change c + depth rest

theorem depth_append (a b : Text) : depth (a ++ b) = depth a + depth b := by
  induction a with
  | nil => simp [depth]
  | cons c rest ih => simp [depth, ih, Int.add_assoc]

theorem depth_of_plain {t : Text} (plain : ∀ c ∈ t, change c = 0) : depth t = 0 := by
  induction t with
  | nil => rfl
  | cons c rest ih =>
    have here := plain c List.mem_cons_self
    rw [depth, here, ih fun d member => plain d (List.mem_cons_of_mem _ member)]
    rfl

theorem depth_of_blanks {gap : Text} (blanks : ∀ c ∈ gap, Text.isBlank c = true) :
    depth gap = 0 := by
  apply depth_of_plain
  intro c member
  have no_open : c ≠ '(' := by
    rintro rfl
    exact absurd (blanks _ member) (by decide)
  have no_close : c ≠ ')' := by
    rintro rfl
    exact absurd (blanks _ member) (by decide)
  rw [change, if_neg no_open, if_neg no_close]

/-- Splits after the first `)` that brings the nesting to zero, counted from `nesting`. -/
def splitGroup (nesting : Int) : Text → Option (Text × Text)
  | [] => none
  | c :: rest =>
    if c = ')' ∧ nesting + change c = 0 then some ([c], rest)
    else (splitGroup (nesting + change c) rest).map fun split => (c :: split.1, split.2)

theorem splitGroup_append {nesting : Int} {t group rest : Text}
    (split : splitGroup nesting t = some (group, rest)) : group ++ rest = t := by
  induction t generalizing nesting group with
  | nil => simp [splitGroup] at split
  | cons c tail ih =>
    simp only [splitGroup] at split
    split at split
    · simp only [Option.some.injEq, Prod.mk.injEq] at split
      simp [← split.1, ← split.2]
    · simp only [Option.map_eq_some_iff, Prod.exists, Prod.mk.injEq] at split
      obtain ⟨inner, after, found, rfl, rfl⟩ := split
      simp [ih found]

theorem splitGroup_ne_nil {nesting : Int} {t group rest : Text}
    (split : splitGroup nesting t = some (group, rest)) : group ≠ [] := by
  cases t with
  | nil => simp [splitGroup] at split
  | cons c tail =>
    simp only [splitGroup] at split
    split at split
    · simp only [Option.some.injEq, Prod.mk.injEq] at split
      simp [← split.1]
    · simp only [Option.map_eq_some_iff, Prod.exists, Prod.mk.injEq] at split
      obtain ⟨inner, after, found, rfl, rfl⟩ := split
      simp

theorem splitGroup_length_lt {nesting : Int} {t group rest : Text}
    (split : splitGroup nesting t = some (group, rest)) : rest.length < t.length := by
  have whole := congrArg List.length (splitGroup_append split)
  have nonempty := List.length_pos_iff.mpr (splitGroup_ne_nil split)
  simp only [List.length_append] at whole
  omega

/-- The index of the `)` that closes what is open from `start` on. -/
def closing? (t : Text) (start : Nat) : Option Nat :=
  (splitGroup 0 (t.drop start)).map fun split => start + split.1.length - 1

/-- Replaces each outermost group by `()`. From a `(` that is never closed on, the text stays. -/
def collapse : Text → Text
  | [] => []
  | c :: rest =>
    if c = '(' then
      match _ : splitGroup 0 (c :: rest) with
      | some (_, after) => '(' :: ')' :: collapse after
      | none => c :: rest
    else c :: collapse rest
termination_by t => t.length
decreasing_by
  · exact splitGroup_length_lt ‹_›
  · simp

/-- Splits after a chain of groups that blanks alone separate; `none` if one of them stays open.
The text begins with the `(` of the first group. -/
def splitGroups (t : Text) : Option (Text × Text) :=
  match _ : splitGroup 0 t with
  | none => none
  | some (group, rest) =>
    match _ : rest.dropWhile Text.isBlank with
    | '(' :: more =>
      (splitGroups ('(' :: more)).map fun chain =>
        (group ++ rest.takeWhile Text.isBlank ++ chain.1, chain.2)
    | _ => some (group, rest)
termination_by t.length
decreasing_by
  have shorter := splitGroup_length_lt ‹_›
  have tail := Text.length_dropWhile_le Text.isBlank rest
  simp_all only [List.length_cons]
  omega

end BasicOutline.Parenthesis
