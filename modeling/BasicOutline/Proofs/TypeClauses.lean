import BasicOutline.Proofs.BalancedGroups
import BasicOutline.Proofs.DeclarationDrop

/-! `As` clauses: where one begins, and that collapsing groups neither makes nor hides one.

A clause has no parenthesis up to the end of its keyword, and a group that is collapsed leaves its
own parentheses behind. So a clause of the collapsed text stands in the text itself. -/

namespace BasicOutline.Declaration

open Text

/-- Blanks, the keyword `As` in either case, and no further letter of that word. -/
def BeginsClause (t : Text) : Prop :=
  ∃ gap word type, t = gap ++ (word ++ type) ∧ gap ≠ [] ∧ (∀ c ∈ gap, isBlank c = true) ∧
    spells "as".toList word = true ∧ Breaks type

section Clause

variable {t type : Text}

theorem spells_as_iff {word : Text} :
    spells "as".toList word = true ↔
      ∃ a s, word = [a, s] ∧ sameLetter 'a' a = true ∧ sameLetter 's' s = true := by
  rw [spells, beq_iff_eq, afterWord?_as_iff]

theorem afterBlankAs?_eq_some_iff :
    afterBlankAs? t = some type ↔ ∃ gap word, t = gap ++ (word ++ type) ∧ gap ≠ [] ∧
      (∀ c ∈ gap, isBlank c = true) ∧ spells "as".toList word = true ∧ Breaks type := by
  constructor
  · intro found
    obtain ⟨c, rest, rfl, blank, -⟩ := afterBlankAs?_spec found
    rw [afterBlankAs?, if_pos blank] at found
    obtain ⟨a, s, rest_eq, first, second, breaks⟩ := afterAs?_eq_some_iff.mp found
    refine ⟨c :: rest.takeWhile isBlank, [a, s], ?_, by simp, ?_,
      spells_as_iff.mpr ⟨a, s, rfl, first, second⟩, breaks⟩
    · have parts : rest.takeWhile isBlank ++ rest.dropWhile isBlank = rest :=
        List.takeWhile_append_dropWhile
      rw [rest_eq] at parts
      rw [List.cons_append, List.cons_append, List.singleton_append, parts]
    · intro d member
      rcases List.mem_cons.mp member with rfl | inside
      · exact blank
      · exact keep_of_mem_takeWhile d inside
  · rintro ⟨gap, word, rfl, apart, blanks, keyword, breaks⟩
    obtain ⟨a, s, rfl, first, second⟩ := spells_as_iff.mp keyword
    obtain ⟨c, more, rfl⟩ := List.exists_cons_of_ne_nil apart
    have solid : isBlank a = false := isBlank_of_sameLetter (.inl rfl) first
    have behind : (more ++ ([a, s] ++ type)).dropWhile isBlank = a :: s :: type := by
      apply dropWhile_append_stop fun d member => blanks d (List.mem_cons_of_mem c member)
      exact head?_cons_stop solid _
    rw [List.cons_append, afterBlankAs?, if_pos (blanks c List.mem_cons_self), behind]
    exact afterAs?_eq_some_iff.mpr ⟨a, s, rfl, first, second, breaks⟩

theorem isSome_afterBlankAs?_iff : (afterBlankAs? t).isSome = true ↔ BeginsClause t := by
  rw [Option.isSome_iff_exists]
  constructor
  · rintro ⟨type, found⟩
    obtain ⟨gap, word, parts⟩ := afterBlankAs?_eq_some_iff.mp found
    exact ⟨gap, word, type, parts⟩
  · rintro ⟨gap, word, type, parts⟩
    exact ⟨type, afterBlankAs?_eq_some_iff.mpr ⟨gap, word, parts⟩⟩

instance (t : Text) : Decidable (BeginsClause t) :=
  decidable_of_iff ((afterBlankAs? t).isSome = true) isSome_afterBlankAs?_iff

theorem hasClause_iff : HasClause t ↔ ∃ clause, clause <:+ t ∧ BeginsClause clause := by
  unfold HasClause
  simp only [isSome_afterBlankAs?_iff]

theorem BeginsClause.breaks (begins : BeginsClause t) : Breaks t := by
  obtain ⟨type, found⟩ := Option.isSome_iff_exists.mp (isSome_afterBlankAs?_iff.mpr begins)
  exact breaks_of_clause found

end Clause

section Collapse

open Parenthesis

variable {t : Text}

theorem open_not_mem_front {gap word : Text} (blanks : ∀ c ∈ gap, isBlank c = true)
    (keyword : spells "as".toList word = true) : '(' ∉ gap ++ word := by
  intro member
  rcases List.mem_append.mp member with inside | inside
  · exact absurd (blanks _ inside) (by decide)
  · obtain ⟨a, s, rfl, first, second⟩ := spells_as_iff.mp keyword
    simp only [List.mem_cons, List.not_mem_nil, or_false] at inside
    rcases inside with rfl | rfl
    · exact absurd first (by decide)
    · exact absurd second (by decide)

theorem breaks_collapse_iff : Breaks (collapse t) ↔ Breaks t := by
  unfold Breaks
  rw [head?_collapse]

theorem beginsClause_collapse_iff : BeginsClause (collapse t) ↔ BeginsClause t := by
  constructor
  · rintro ⟨gap, word, type, whole, apart, blanks, keyword, breaks⟩
    rw [← List.append_assoc] at whole
    obtain ⟨rest, rfl, rfl⟩ :=
      exists_of_collapse_eq_append (open_not_mem_front blanks keyword) whole
    exact ⟨gap, word, rest, List.append_assoc _ _ _, apart, blanks, keyword,
      breaks_collapse_iff.mp breaks⟩
  · rintro ⟨gap, word, type, rfl, apart, blanks, keyword, breaks⟩
    refine ⟨gap, word, collapse type, ?_, apart, blanks, keyword, breaks_collapse_iff.mpr breaks⟩
    rw [← List.append_assoc, collapse_append_of_plain (open_not_mem_front blanks keyword),
      List.append_assoc]

theorem HasClause.of_collapse (found : HasClause (collapse t)) : HasClause t := by
  have grouped : ∀ {c : Char} {rest : Text}, isBlank c = false → HasClause (c :: rest) →
      HasClause rest := by
    intro c rest solid inside
    rcases hasClause_cons.mp inside with here | later
    · rw [afterBlankAs?, if_neg (by simp [solid])] at here
      cases here
    · exact later
  fun_induction collapse t with
  | case1 => exact found
  | case2 rest group after split ih =>
    have later : Part.type.Within after := ih (grouped (by decide) (grouped (by decide) found))
    exact later.of_suffix ⟨group, splitGroup_append split⟩
  | case3 rest opened => exact found
  | case4 c rest plain ih =>
    rw [hasClause_cons]
    rcases hasClause_cons.mp found with here | later
    · rw [← collapse_cons_of_ne plain, isSome_afterBlankAs?_iff, beginsClause_collapse_iff] at here
      exact .inl (isSome_afterBlankAs?_iff.mpr here)
    · exact .inr (ih later)

end Collapse

section Cut

variable {kept clause type : Text}

/-- A clause that begins before the end of a text without blanks at its end lies in that text, if
blanks follow. -/
theorem BeginsClause.of_append (begins : BeginsClause (kept ++ clause)) (nonempty : kept ≠ [])
    (solid : ∀ c, kept.getLast? = some c → isBlank c = false)
    (apart : ∀ c, clause.head? = some c → isBlank c = true) : BeginsClause kept := by
  obtain ⟨gap, word, type, whole, some_gap, blanks, keyword, breaks⟩ := begins
  obtain ⟨a, s, rfl, first, second⟩ := spells_as_iff.mp keyword
  rcases List.append_eq_append_iff.mp whole with ⟨more, gap_eq, -⟩ | ⟨more, kept_eq, rest_eq⟩
  · -- The text would end with one of the blanks.
    have last := List.getLast?_eq_some_getLast nonempty
    have plain := solid _ last
    have inside : kept.getLast nonempty ∈ gap :=
      gap_eq ▸ List.mem_append_left more (List.getLast_mem nonempty)
    rw [blanks _ inside] at plain
    cases plain
  · match more, rest_eq with
    | [], _ =>
      rw [List.append_nil] at kept_eq
      have plain := solid _ (List.getLast?_eq_some_getLast nonempty)
      rw [blanks _ (kept_eq ▸ List.getLast_mem nonempty)] at plain
      cases plain
    | [x], rest_eq =>
      -- The second letter of the keyword would be a blank.
      have behind := congrArg List.head? (List.cons.inj rest_eq).2
      have blank := apart s behind.symm
      rw [isBlank_of_sameLetter (.inr rfl) second] at blank
      cases blank
    | x :: y :: left, rest_eq =>
      obtain ⟨rfl, others⟩ := List.cons.inj rest_eq
      obtain ⟨rfl, rfl⟩ := List.cons.inj others
      exact ⟨gap, [a, s], left, kept_eq, some_gap, blanks, keyword, breaks.of_append⟩

theorem cutType_append (plain : '\n' ∉ kept) (untyped : ¬ HasClause kept)
    (solid : ∀ c, kept.getLast? = some c → isBlank c = false)
    (found : afterBlankAs? clause = some type) :
    cutType (kept ++ clause) = some (kept, fromLineEnd type) := by
  obtain ⟨d, rest, clause_eq, blank, -⟩ := afterBlankAs?_spec found
  induction kept with
  | nil => rw [List.nil_append, clause_eq, cutType, ← clause_eq, found]; rfl
  | cons c more ih =>
    rw [hasClause_cons, not_or] at untyped
    rw [List.mem_cons, not_or] at plain
    have later := ih plain.2 untyped.2 fun e last => by
      apply solid
      rw [List.getLast?_cons, last, Option.getD_some]
    have apart : ∀ e, clause.head? = some e → isBlank e = true := by
      intro e head
      rw [clause_eq] at head
      rw [← Option.some.inj head]
      exact blank
    have absent : afterBlankAs? (c :: (more ++ clause)) = none := by
      by_contra present
      have early : BeginsClause (c :: more ++ clause) :=
        isSome_afterBlankAs?_iff.mp (Option.isSome_iff_ne_none.mpr present)
      apply untyped.1
      rw [isSome_afterBlankAs?_iff]
      exact early.of_append (by simp) solid apart
    rw [List.cons_append, cutType, absent, Option.map_none, Option.none_or,
      if_neg (Ne.symm plain.1), later, Option.map_some]

end Cut

end BasicOutline.Declaration
