import BasicOutline.Proofs.BalancedGroups
import Mathlib.Data.Nat.Find

/-! Where the `)` stands that closes what is open.

The search looks at the nesting at each `)` only. So it passes over a nesting of zero that another
character brings about, and over every negative one. From a `(` on the nesting is positive up to the
`)` that is found. -/

namespace BasicOutline.Parenthesis

def between (t : Text) (start last : Nat) : Text := (t.drop start).take (last + 1 - start)

structure ClosesAt (t : Text) (start index : Nat) : Prop where
  follows : start ≤ index
  mark : t[index]? = some ')'
  balanced : depth (between t start index) = 0

section Positions

variable {nesting : Int} {c : Char} {t rest : Text}

def EndsAt (nesting : Int) (t : Text) (index : Nat) : Prop :=
  t[index]? = some ')' ∧ nesting + depth (t.take (index + 1)) = 0

theorem not_endsAt_nil (index : Nat) : ¬ EndsAt nesting [] index := by
  rintro ⟨mark, -⟩
  cases mark

theorem endsAt_cons_zero : EndsAt nesting (c :: rest) 0 ↔ c = ')' ∧ nesting + change c = 0 := by
  simp [EndsAt, depth]

theorem endsAt_cons_succ {index : Nat} :
    EndsAt nesting (c :: rest) (index + 1) ↔ EndsAt (nesting + change c) rest index := by
  rw [EndsAt, EndsAt, List.getElem?_cons_succ, List.take_succ_cons, depth, ← Int.add_assoc]

/-- A group reaches up to the first index at which it can end. The induction is on the text, with
the nesting before it. -/
theorem length_splitGroup_iff {index : Nat} :
    (splitGroup nesting t).map (fun split => split.1.length) = some (index + 1) ↔
      EndsAt nesting t index ∧ ∀ earlier < index, ¬ EndsAt nesting t earlier := by
  induction t generalizing nesting index with
  | nil => simp [splitGroup, not_endsAt_nil]
  | cons c rest ih =>
    rw [splitGroup]
    by_cases closed : c = ')' ∧ nesting + change c = 0
    · have first : EndsAt nesting (c :: rest) 0 := endsAt_cons_zero.mpr closed
      rw [if_pos closed]
      cases index with
      | zero => simp [first]
      | succ index =>
        refine ⟨fun short => ?_, fun least => absurd first (least.2 0 (Nat.succ_pos index))⟩
        simp at short
    · have still : ¬ EndsAt nesting (c :: rest) 0 := fun first => closed (endsAt_cons_zero.mp first)
      rw [if_neg closed, Option.map_map]
      cases index with
      | zero =>
        simp only [still, false_and, iff_false, Option.map_eq_some_iff, not_exists, not_and]
        intro split found
        have nonempty := List.length_pos_iff.mpr (splitGroup_ne_nil found)
        simp only [Function.comp_apply, List.length_cons]
        omega
      | succ index =>
        rw [endsAt_cons_succ, Nat.forall_lt_succ_left]
        simp only [endsAt_cons_succ, still, not_false_iff, true_and, ← ih]
        simp [Option.map_eq_some_iff]

theorem splitGroup_eq_none_iff_forall :
    splitGroup nesting t = none ↔ ∀ index, ¬ EndsAt nesting t index := by
  constructor
  · intro unsplit index ends
    -- Among the indices at which a group can end there is a first one.
    classical
    have some_end : ∃ index, EndsAt nesting t index := ⟨index, ends⟩
    have first := length_splitGroup_iff.mpr
      ⟨Nat.find_spec some_end, fun earlier before => Nat.find_min some_end before⟩
    rw [unsplit] at first
    cases first
  · intro never
    rw [Option.eq_none_iff_forall_ne_some]
    intro split found
    have nonempty := List.length_pos_iff.mpr (splitGroup_ne_nil found)
    obtain ⟨index, count⟩ := Nat.exists_eq_succ_of_ne_zero nonempty.ne'
    have ends := length_splitGroup_iff.mp
      (show (splitGroup nesting t).map (fun split => split.1.length) = some (index + 1) by
        rw [found, Option.map_some, count])
    exact never index ends.1

end Positions

section Search

variable {t : Text} {start last : Nat}

theorem endsAt_drop_iff {count : Nat} :
    EndsAt 0 (t.drop start) count ↔ ClosesAt t start (start + count) := by
  have width : start + count + 1 - start = count + 1 := by omega
  rw [EndsAt, List.getElem?_drop, Int.zero_add]
  constructor
  · rintro ⟨mark, balanced⟩
    exact ⟨Nat.le_add_right _ _, mark, by rwa [between, width]⟩
  · rintro ⟨-, mark, balanced⟩
    rw [between, width] at balanced
    exact ⟨mark, balanced⟩

theorem closing?_eq_some_iff_length : closing? t start = some last ↔ start ≤ last ∧
    (splitGroup 0 (t.drop start)).map (fun split => split.1.length) = some (last - start + 1) := by
  rw [closing?]
  cases found : splitGroup 0 (t.drop start) with
  | none => simp
  | some split =>
    have nonempty := List.length_pos_iff.mpr (splitGroup_ne_nil found)
    simp only [Option.map_some, Option.some.injEq]
    omega

theorem closing?_eq_some_iff : closing? t start = some last ↔
    ClosesAt t start last ∧ ∀ index < last, ¬ ClosesAt t start index := by
  rw [closing?_eq_some_iff_length, length_splitGroup_iff]
  constructor
  · rintro ⟨follows, ends, first⟩
    have whole : start + (last - start) = last := by omega
    rw [endsAt_drop_iff, whole] at ends
    refine ⟨ends, fun index before closes => ?_⟩
    have later := closes.follows
    apply first (index - start) (by omega)
    rwa [endsAt_drop_iff, Nat.add_sub_cancel' later]
  · rintro ⟨closes, first⟩
    have follows := closes.follows
    refine ⟨follows, ?_, fun earlier before ends => ?_⟩
    · rwa [endsAt_drop_iff, Nat.add_sub_cancel' follows]
    · exact first (start + earlier) (by omega) (endsAt_drop_iff.mp ends)

theorem closing?_eq_none_iff : closing? t start = none ↔ ∀ index, ¬ ClosesAt t start index := by
  rw [closing?, Option.map_eq_none_iff, splitGroup_eq_none_iff_forall]
  constructor
  · intro never index closes
    apply never (index - start)
    rwa [endsAt_drop_iff, Nat.add_sub_cancel' closes.follows]
  · intro never count ends
    exact never (start + count) (endsAt_drop_iff.mp ends)

theorem drop_eq_open (opened : t[start]? = some '(') : ∃ rest, t.drop start = '(' :: rest := by
  apply List.head?_eq_some_iff.mp
  rwa [List.head?_drop]

theorem isGroup_between (opened : t[start]? = some '(') (found : closing? t start = some last) :
    IsGroup (between t start last) := by
  obtain ⟨rest, begins⟩ := drop_eq_open opened
  obtain ⟨follows, count⟩ := closing?_eq_some_iff_length.mp found
  obtain ⟨⟨group, after⟩, split, length_eq⟩ := Option.map_eq_some_iff.mp count
  rw [begins] at split
  obtain ⟨whole, isGroup⟩ := isGroup_of_splitGroup split
  have width : last + 1 - start = group.length := by
    simp only at length_eq
    omega
  rw [between, begins, whole, width, List.take_left]
  exact isGroup

theorem depth_pos_of_unclosed (opened : t[start]? = some '(') (unclosed : closing? t start = none)
    {front : Text} (before : front <+: t.drop start) (nonempty : front ≠ []) : 0 < depth front := by
  obtain ⟨rest, begins⟩ := drop_eq_open opened
  rw [closing?, Option.map_eq_none_iff, begins, splitGroup_open, Option.map_eq_none_iff,
    splitGroup_eq_none_iff (by decide)] at unclosed
  obtain ⟨stays, positive⟩ := unclosed
  rw [begins] at before
  obtain ⟨back, whole⟩ := before
  obtain ⟨d, more, rfl⟩ := List.exists_cons_of_ne_nil nonempty
  rw [List.cons_append, List.cons.injEq] at whole
  obtain ⟨rfl, rfl⟩ := whole
  have up : depth ('(' :: more) = 1 + depth more := rfl
  rw [up]
  cases back with
  | nil => rwa [List.append_nil] at positive
  | cons e left => exact stays more (e :: left) rfl (List.cons_ne_nil e left)

/-- The search gives the least index of a `)` behind which the nesting counted from `start` is zero,
and none if there is no such index, whatever character stands at `start`. If a `(` stands there, the
nesting is positive before that index, or to the end of the text. -/
theorem closing_least (t : Text) (start : Nat) :
    (∀ last, closing? t start = some last ↔
      ClosesAt t start last ∧ ∀ index < last, ¬ ClosesAt t start index) ∧
    (closing? t start = none ↔ ∀ index, ¬ ClosesAt t start index) ∧
    (t[start]? = some '(' →
      (∀ last front back, closing? t start = some last → between t start last = front ++ back →
        front ≠ [] → back ≠ [] → 0 < depth front) ∧
      (closing? t start = none →
        ∀ front, front <+: t.drop start → front ≠ [] → 0 < depth front)) := by
  refine ⟨fun last => closing?_eq_some_iff, closing?_eq_none_iff, fun opened => ⟨?_, ?_⟩⟩
  · intro last front back found whole
    exact (isGroup_between opened found).positive front back whole
  · intro unclosed front before nonempty
    exact depth_pos_of_unclosed opened unclosed before nonempty

/-- Before the `)` that is found the nesting goes below zero, and comes to zero behind a `(`. From
the second `(` on it stays positive to the end. -/
theorem closing_least_of_surplus :
    closing? ")(()(".toList 0 = some 3 ∧ closing? ")(()(".toList 9 = none ∧
      0 < depth "(()(".toList := by
  obtain ⟨found, -, -⟩ := closing_least ")(()(".toList 0
  obtain ⟨-, past, -⟩ := closing_least ")(()(".toList 9
  obtain ⟨-, -, opened⟩ := closing_least ")(()(".toList 1
  refine ⟨(found 3).mpr ⟨⟨by decide, by decide, by decide⟩, ?_⟩, past.mpr ?_, ?_⟩
  · intro index before closes
    have mark := closes.mark
    have balanced := closes.balanced
    have only : index = 0 ∨ index = 1 ∨ index = 2 := by omega
    rcases only with rfl | rfl | rfl
    · exact absurd balanced (by decide)
    · exact absurd mark (by decide)
    · exact absurd mark (by decide)
  · intro index closes
    have follows := closes.follows
    have mark := closes.mark
    rw [List.getElem?_eq_none (by simp; omega)] at mark
    cases mark
  · exact (opened rfl).2 (by decide) _ (List.prefix_refl _) (by decide)

end Search

end BasicOutline.Parenthesis
