import BasicOutline.Proofs.DeclarationDrop
import BasicOutline.Proofs.ParenthesisCollapse

/-! Texts in which no declaration has a part left to drop.

A line without attribute blocks is settled once the part is dropped, and it stays so when its groups
are collapsed or its end is cut off. An attribute block can hide a colon and a whole declaration,
and then a second pass can find more to drop. -/

namespace BasicOutline.Declaration

open Text

def Settled (part : Part) (lineStart : Bool) (t : Text) : Prop :=
  ∀ tail ∈ tailsFrom lineStart t, ¬ part.Within tail

section Tails

variable {part : Part} {lineStart : Bool} {t tail : Text}

theorem suffix_of_mem_tailsFrom (found : tail ∈ tailsFrom lineStart t) : tail <:+ t := by
  induction t generalizing lineStart with
  | nil => cases found
  | cons c rest ih =>
    rcases List.mem_append.mp found with here | later
    · exact (properTail_of_mem_headTails here).1
    · exact (ih later).trans (List.suffix_cons c rest)

theorem not_mem_of_mem_tailsFrom (plain : '\n' ∉ t) (found : tail ∈ tailsFrom lineStart t) :
    '\n' ∉ tail :=
  fun member => plain ((suffix_of_mem_tailsFrom found).subset member)

theorem settled_iff (plain : '\n' ∉ t) :
    Settled part lineStart t ↔ ∀ tail ∈ tailsFrom lineStart t, part.cut tail = none := by
  constructor
  · intro settled tail member
    exact (Part.cut_eq_none_iff (not_mem_of_mem_tailsFrom plain member)).mpr (settled tail member)
  · intro settled tail member
    exact (Part.cut_eq_none_iff (not_mem_of_mem_tailsFrom plain member)).mp (settled tail member)

theorem mem_headTails_append {more : Text} (breaks : Breaks more)
    (found : tail ∈ headTails lineStart t) : tail ++ more ∈ headTails lineStart (t ++ more) := by
  obtain ⟨stop, front, -, rfl, replace⟩ := headTails_replace found
  rw [List.append_assoc]
  exact replace (tail ++ more) (stop.append breaks)

/-- A head is still found when the text goes on, unless its last word does. -/
theorem mem_tailsFrom_append {more : Text} (breaks : Breaks more)
    (found : tail ∈ tailsFrom lineStart t) : tail ++ more ∈ tailsFrom lineStart (t ++ more) := by
  induction t generalizing lineStart with
  | nil => cases found
  | cons c rest ih =>
    rw [List.cons_append, tailsFrom]
    rcases List.mem_append.mp found with here | later
    · exact List.mem_append_left _ (mem_headTails_append breaks here)
    · exact List.mem_append_right _ (ih later)

theorem Settled.of_append {more : Text} (breaks : Breaks more)
    (settled : Settled part lineStart (t ++ more)) : Settled part lineStart t := by
  intro tail member within
  exact settled _ (mem_tailsFrom_append breaks member) (within.append breaks)

theorem tailsFrom_false_cons {c : Char} (plain : c ≠ ':') (rest : Text) :
    tailsFrom false (c :: rest) = tailsFrom (c == '\n') rest := by
  have none : headTails false (c :: rest) = [] := by
    rw [List.eq_nil_iff_forall_not_mem]
    intro tail member
    obtain ⟨-, head, -, same⟩ := mem_headTails_false_iff.mp member
    exact plain (List.cons.inj same).1
  rw [tailsFrom, none, List.nil_append]

theorem tailsFrom_false_append {front : Text} (plain : ':' ∉ front) (single : '\n' ∉ front)
    (rest : Text) : tailsFrom false (front ++ rest) = tailsFrom false rest := by
  induction front with
  | nil => rfl
  | cons c more ih =>
    rw [List.mem_cons, not_or] at plain single
    have within : (c == '\n') = false := by simpa using Ne.symm single.1
    rw [List.cons_append, tailsFrom_false_cons (Ne.symm plain.1), within, ih plain.2 single.2]

theorem tailsFrom_true (t : Text) : tailsFrom true t = afterHeads t ++ tailsFrom false t := by
  cases t with
  | nil =>
    have none : afterHeads [] = [] := by
      rw [List.eq_nil_iff_forall_not_mem]
      intro tail member
      exact absurd (properTail_of_mem_afterHeads member).2 (Nat.not_lt_zero _)
    rw [none]
    rfl
  | cons c rest => rw [tailsFrom, tailsFrom, headTails_true, List.append_assoc]

theorem tails_append_blanks {gap : Text} (blanks : ∀ c ∈ gap, isBlank c = true)
    (single : '\n' ∉ gap) (t : Text) : tails (gap ++ t) = tails t := by
  have plain : ':' ∉ gap := fun member => absurd (blanks ':' member) (by decide)
  have trimmed : afterHeads (gap ++ t) = afterHeads t := by
    rw [afterHeads, afterHeads, trimStart, List.dropWhile_append_of_pos blanks]
    rfl
  rw [tails, tails, tailsFrom_true, tailsFrom_true, trimmed, tailsFrom_false_append plain single]

theorem occurs_eq (t : Text) : occurs t = !(tails t).isEmpty := occursFrom_eq true t

end Tails

section Settle

variable {part : Part} {lineStart : Bool} {t tail : Text}

theorem exists_cons_of_head {front : Text} (found : tail ∈ headTails lineStart (front ++ tail))
    (bare : '<' ∉ front) : ∃ c more, front = c :: more ∧ ':' ∉ more := by
  obtain ⟨-, head, opening, ⟨-, same⟩ | same⟩ := mem_headTails_iff.mp found
  · obtain rfl := List.append_cancel_right same
    have colon : ':' ∉ front := opening.not_mem bare (by decide) (by decide)
    have nonempty : front ≠ [] := by
      rintro rfl
      exact absurd (properTail_of_mem_headTails found).2 (Nat.lt_irrefl _)
    obtain ⟨c, more, rfl⟩ := List.exists_cons_of_ne_nil nonempty
    rw [List.mem_cons, not_or] at colon
    exact ⟨c, more, rfl, colon.2⟩
  · rw [← List.cons_append] at same
    obtain rfl := List.append_cancel_right same
    rw [List.mem_cons, not_or] at bare
    exact ⟨':', head, rfl, opening.not_mem bare.2 (by decide) (by decide)⟩

theorem mem_tailsFrom_of_head {front rest other : Text}
    (found : tail ∈ headTails lineStart (front ++ tail)) (plain : '\n' ∉ front) (bare : '<' ∉ front)
    (member : other ∈ tailsFrom lineStart (front ++ rest)) :
    other ∈ headTails lineStart (front ++ rest) ∨ other ∈ tailsFrom false rest := by
  obtain ⟨c, more, rfl, colon⟩ := exists_cons_of_head found bare
  rw [List.mem_cons, not_or] at plain
  have within : (c == '\n') = false := by simpa using Ne.symm plain.1
  rw [List.cons_append, tailsFrom, within, tailsFrom_false_append colon plain.2] at member
  exact List.mem_append.mp member

theorem not_within_of_uncut (plain : '\n' ∉ t) (found : tail ∈ headTails lineStart t)
    (uncut : part.cut tail = none) : ¬ part.Within tail := by
  have suffix := (properTail_of_mem_headTails found).1
  exact (Part.cut_eq_none_iff fun member => plain (suffix.subset member)).mp uncut

/-- Once a part is dropped from a line without attribute blocks, no declaration has it. -/
theorem dropFrom_settled (plain : '\n' ∉ t) (bare : '<' ∉ t) :
    Settled part lineStart (dropFrom part lineStart t) := by
  fun_induction dropFrom part lineStart t with
  | case1 =>
    intro tail member
    cases member
  | case2 lineStart c rest kept after found ih =>
    obtain ⟨front, tail, inner, head, whole, cut, rfl, nearest⟩ := cutAt_spec found
    rw [whole] at plain bare head nearest
    have front_bare : '<' ∉ front := fun member => bare (List.mem_append_left _ member)
    have front_plain : '\n' ∉ front := fun member => plain (List.mem_append_left _ member)
    have tail_plain : '\n' ∉ tail := fun member => plain (List.mem_append_right _ member)
    have within : part.Within tail := by
      by_contra absent
      rw [(Part.cut_eq_none_iff tail_plain).mpr absent] at cut
      cases cut
    obtain ⟨rfl, settled, more, rfl, breaks⟩ := Part.cut_on_line tail_plain cut
    rw [dropFrom, List.append_nil]
    have of_inner : ∀ {other}, other <:+ inner → ¬ part.Within other :=
      fun suffix inside => settled (inside.of_suffix suffix)
    intro other member
    rcases mem_tailsFrom_of_head head front_plain front_bare member with here | later
    · have suffix := (properTail_of_mem_headTails here).1
      rcases Nat.lt_or_ge inner.length other.length with long | short
      · -- A nearer head would have had the part too, and it would have been cut there.
        have nearer := mem_headTails_append breaks here
        rw [List.append_assoc] at nearer
        have uncut := nearest (other ++ more) nearer (by simpa using long)
        obtain ⟨before, rfl⟩ :=
          List.suffix_of_suffix_length_le (List.suffix_append front inner) suffix long.le
        have longer : part.Within (before ++ inner ++ more) :=
          within.of_suffix ⟨before, (List.append_assoc _ _ _).symm⟩
        exact absurd longer (not_within_of_uncut plain nearer uncut)
      · exact of_inner (List.suffix_of_suffix_length_le suffix (List.suffix_append _ _) short)
    · exact of_inner (suffix_of_mem_tailsFrom later)
  | case3 lineStart c rest none ih =>
    have rest_plain : '\n' ∉ rest := fun member => plain (List.mem_cons_of_mem c member)
    have rest_bare : '<' ∉ rest := fun member => bare (List.mem_cons_of_mem c member)
    intro tail member
    rcases List.mem_append.mp member with here | later
    · obtain ⟨more, whole, breaks⟩ := dropFrom_append part (c == '\n') rest_plain
      have longer := mem_headTails_append breaks here
      rw [List.cons_append, ← whole] at longer
      have uncut := cutAt_eq_none_iff.mp none _ longer
      exact fun within => not_within_of_uncut plain longer uncut (within.append breaks)
    · exact ih rest_plain rest_bare tail later

theorem mem_tailsFrom_of_false (found : tail ∈ tailsFrom false t) :
    tail ∈ tailsFrom lineStart t := by
  cases lineStart with
  | false => exact found
  | true =>
    rw [tailsFrom_true]
    exact List.mem_append_right _ found

theorem mem_tailsFrom_of_suffix {rest : Text} (suffix : rest <:+ t)
    (found : tail ∈ tailsFrom false rest) : tail ∈ tailsFrom lineStart t := by
  obtain ⟨front, rfl⟩ := suffix
  induction front generalizing lineStart with
  | nil => exact mem_tailsFrom_of_false found
  | cons c more ih => exact List.mem_append_right _ ih

theorem mem_headTails_collapse (bare : '<' ∉ t)
    (found : tail ∈ headTails lineStart (Parenthesis.collapse t)) :
    ∃ longer ∈ headTails lineStart t, tail.Sublist longer := by
  obtain ⟨breaks, head, opening, place⟩ := mem_headTails_iff.mp found
  have head_bare : '<' ∉ head := by
    intro member
    apply bare
    apply (Parenthesis.collapse_sublist t).subset
    rcases place with ⟨-, same⟩ | same <;> simp [same, member]
  have grouped : '(' ∉ head := opening.not_mem head_bare (by decide) (by decide)
  have stop : ∀ {rest}, tail = Parenthesis.collapse rest → Breaks rest := by
    rintro rest rfl c first
    exact breaks c ((Parenthesis.head?_collapse rest).trans first)
  rcases place with ⟨start, same⟩ | same
  · obtain ⟨rest, rfl, tail_eq⟩ := Parenthesis.exists_of_collapse_eq_append grouped same
    refine ⟨rest, mem_headTails_iff.mpr ⟨stop tail_eq, head, opening, .inl ⟨start, rfl⟩⟩, ?_⟩
    exact tail_eq ▸ Parenthesis.collapse_sublist rest
  · have colon : '(' ∉ ':' :: head := by simp [grouped]
    obtain ⟨rest, rfl, tail_eq⟩ := Parenthesis.exists_of_collapse_eq_append colon same
    refine ⟨rest, mem_headTails_iff.mpr ⟨stop tail_eq, head, opening, .inr rfl⟩, ?_⟩
    exact tail_eq ▸ Parenthesis.collapse_sublist rest

/-- Collapsing the groups of a text without attribute blocks makes no new heads. -/
theorem mem_tailsFrom_collapse (bare : '<' ∉ t)
    (found : tail ∈ tailsFrom lineStart (Parenthesis.collapse t)) :
    ∃ longer ∈ tailsFrom lineStart t, tail.Sublist longer := by
  fun_induction Parenthesis.collapse t generalizing lineStart with
  | case1 => cases found
  | case2 rest group after split ih =>
    rcases List.mem_append.mp found with here | later
    · rw [← Parenthesis.collapse_of_group split] at here
      obtain ⟨longer, member, sublist⟩ := mem_headTails_collapse bare here
      exact ⟨longer, List.mem_append_left _ member, sublist⟩
    · have inside : tail ∈ tailsFrom false (Parenthesis.collapse after) := by
        rwa [show ('(' == '\n') = false by decide, tailsFrom_false_cons (by decide)] at later
      have suffix : after <:+ '(' :: rest := ⟨group, Parenthesis.splitGroup_append split⟩
      obtain ⟨longer, member, sublist⟩ := ih (fun angle => bare (suffix.subset angle)) inside
      exact ⟨longer, mem_tailsFrom_of_suffix suffix member, sublist⟩
  | case3 rest opened => exact ⟨tail, found, List.Sublist.refl tail⟩
  | case4 c rest plain ih =>
    rcases List.mem_append.mp found with here | later
    · rw [← Parenthesis.collapse_cons_of_ne plain] at here
      obtain ⟨longer, member, sublist⟩ := mem_headTails_collapse bare here
      exact ⟨longer, List.mem_append_left _ member, sublist⟩
    · obtain ⟨longer, member, sublist⟩ :=
        ih (fun angle => bare (List.mem_cons_of_mem c angle)) later
      exact ⟨longer, List.mem_append_right _ member, sublist⟩

theorem Settled.collapse (bare : '<' ∉ t) (settled : Settled .initializer lineStart t) :
    Settled .initializer lineStart (Parenthesis.collapse t) := by
  intro tail member within
  obtain ⟨longer, found, sublist⟩ := mem_tailsFrom_collapse bare member
  exact settled longer found (sublist.subset within)

end Settle

end BasicOutline.Declaration
