import BasicOutline.Signature
import Mathlib.Data.List.TakeWhile
import Mathlib.Tactic.ByContra

/-! The lines that a signature takes up: they depend on nothing past the line that closes it. -/

namespace BasicOutline.Signature

open Text

theorem mem_of_openDepth_pos {text : Text} (opened : 0 < openDepth text) : '(' ∈ text := by
  by_contra absent
  have empty : text.dropWhile (· != '(') = [] := by
    rw [List.dropWhile_eq_nil_iff]
    intro c member
    have different : c ≠ '(' := fun same => absent (same ▸ member)
    simpa using different
  rw [openDepth, empty] at opened
  exact absurd opened (by decide)

theorem openDepth_append {text : Text} (present : '(' ∈ text) (more : Text) :
    openDepth (text ++ more) = openDepth text + Parenthesis.depth more := by
  have nonempty : text.dropWhile (· != '(') ≠ [] := by
    intro empty
    rw [List.dropWhile_eq_nil_iff] at empty
    have absent := empty '(' present
    simp at absent
  rw [openDepth, List.dropWhile_append, if_neg (by simpa using nonempty),
    Parenthesis.depth_append, openDepth]

theorem depth_newline (t : Text) : Parenthesis.depth ('\n' :: t) = Parenthesis.depth t :=
  Int.zero_add _

/-- Appending a line to a text with an open parenthesis adds the depth of that line. -/
theorem openDepth_push {text : Text} (opened : 0 < openDepth text) (segment : Text) :
    openDepth (text ++ '\n' :: segment) = openDepth text + Parenthesis.depth segment := by
  rw [openDepth_append (mem_of_openDepth_pos opened), depth_newline]

theorem extend_of_closed {text : Text} {nesting : Int} (closed : nesting ≤ 0)
    (following : List Line) : extend text nesting following = .ok ⟨text, 0⟩ := by
  cases following with
  | nil => rfl
  | cons line rest => simp only [extend, if_pos closed]

theorem extend_some {text : Text} {nesting : Int} (opened : 0 < nesting) (line : Text)
    (following : List Line) :
    extend text nesting (some line :: following) =
      (extend (text ++ '\n' :: stripContinuation line)
        (nesting + Parenthesis.depth (stripContinuation line)) following).map
          fun assembled => ⟨assembled.text, assembled.extra + 1⟩ := by
  rw [extend, if_neg (by omega)]

theorem extend_none {text : Text} {nesting : Int} (opened : 0 < nesting)
    (following : List Line) : extend text nesting (none :: following) = .error ⟨⟩ := by
  rw [extend, if_neg (by omega)]

/-- What an extension can do: it stops where nothing is open or no line is left, or it takes up one
more line. -/
theorem extend_cases {text : Text} {following : List Line} {assembled : Assembled}
    (extended : extend text (openDepth text) following = .ok assembled) :
    (assembled = ⟨text, 0⟩ ∧ (openDepth text ≤ 0 ∨ following = [])) ∨
      ∃ line rest inner, 0 < openDepth text ∧ following = some line :: rest ∧
        extend (text ++ '\n' :: stripContinuation line)
          (openDepth (text ++ '\n' :: stripContinuation line)) rest = .ok inner ∧
        assembled = ⟨inner.text, inner.extra + 1⟩ := by
  by_cases closed : openDepth text ≤ 0
  · rw [extend_of_closed closed] at extended
    exact .inl ⟨(Except.ok.inj extended).symm, .inl closed⟩
  · have opened : 0 < openDepth text := by omega
    cases following with
    | nil => exact .inl ⟨(Except.ok.inj extended).symm, .inr rfl⟩
    | cons head rest =>
      cases head with
      | none => rw [extend_none opened] at extended; cases extended
      | some line =>
        rw [extend_some opened, ← openDepth_push opened] at extended
        cases inner : extend (text ++ '\n' :: stripContinuation line)
            (openDepth (text ++ '\n' :: stripContinuation line)) rest with
        | error missing => rw [inner] at extended; cases extended
        | ok result =>
          rw [inner] at extended
          exact .inr ⟨line, rest, result, opened, rfl, inner, (Except.ok.inj extended).symm⟩

theorem extend_extra_le {text : Text} {following : List Line} {assembled : Assembled}
    (extended : extend text (openDepth text) following = .ok assembled) :
    assembled.extra ≤ following.length := by
  induction following generalizing text assembled with
  | nil =>
    obtain ⟨rfl, -⟩ | ⟨_, _, _, _, impossible, _⟩ := extend_cases extended
    · exact Nat.zero_le _
    · cases impossible
  | cons head rest ih =>
    obtain ⟨rfl, -⟩ | ⟨line, tail, inner, -, same, continued, rfl⟩ := extend_cases extended
    · exact Nat.zero_le _
    · obtain ⟨rfl, rfl⟩ := List.cons.inj same
      exact Nat.succ_le_succ (ih continued)

theorem extend_append_of_closed {text : Text} {following : List Line} {assembled : Assembled}
    (extended : extend text (openDepth text) following = .ok assembled)
    (closed : openDepth assembled.text ≤ 0) (more : List Line) :
    extend text (openDepth text) (following ++ more) = .ok assembled := by
  induction following generalizing text assembled with
  | nil =>
    obtain ⟨rfl, -⟩ | ⟨_, _, _, _, impossible, _⟩ := extend_cases extended
    · exact extend_of_closed closed _
    · cases impossible
  | cons head rest ih =>
    obtain ⟨rfl, -⟩ | ⟨line, tail, inner, opened, same, continued, rfl⟩ := extend_cases extended
    · exact extend_of_closed closed _
    · obtain ⟨rfl, rfl⟩ := List.cons.inj same
      rw [List.cons_append, extend_some opened, ← openDepth_push opened, ih continued closed]
      rfl

theorem extra_eq_length_of_open {text : Text} {following : List Line} {assembled : Assembled}
    (extended : extend text (openDepth text) following = .ok assembled)
    (opened : 0 < openDepth assembled.text) : assembled.extra = following.length := by
  induction following generalizing text assembled with
  | nil =>
    obtain ⟨rfl, -⟩ | ⟨_, _, _, _, impossible, _⟩ := extend_cases extended
    · rfl
    · cases impossible
  | cons head rest ih =>
    obtain ⟨rfl, closed | impossible⟩ | ⟨line, tail, inner, -, same, continued, rfl⟩ :=
      extend_cases extended
    · exact absurd opened (by simpa using closed)
    · cases impossible
    · obtain ⟨rfl, rfl⟩ := List.cons.inj same
      exact congrArg Nat.succ (ih continued opened)

theorem assemble_some (line : Text) (following : List Line) :
    assemble (some line) following =
      extend (stripContinuation line) (openDepth (stripContinuation line)) following := rfl

theorem exists_of_assemble {first : Line} {following : List Line} {assembled : Assembled}
    (found : assemble first following = .ok assembled) : ∃ line, first = some line := by
  cases first with
  | none => cases found
  | some line => exact ⟨line, rfl⟩

theorem assemble_extra_le {first : Line} {following : List Line} {assembled : Assembled}
    (found : assemble first following = .ok assembled) : assembled.extra ≤ following.length := by
  obtain ⟨line, rfl⟩ := exists_of_assemble found
  exact extend_extra_le found

theorem assemble_append_of_closed {first : Line} {following : List Line} {assembled : Assembled}
    (found : assemble first following = .ok assembled) (closed : openDepth assembled.text ≤ 0)
    (more : List Line) : assemble first (following ++ more) = .ok assembled := by
  obtain ⟨line, rfl⟩ := exists_of_assemble found
  exact extend_append_of_closed found closed more

theorem assemble_extra_eq_of_open {first : Line} {following : List Line} {assembled : Assembled}
    (found : assemble first following = .ok assembled) (opened : 0 < openDepth assembled.text) :
    assembled.extra = following.length := by
  obtain ⟨line, rfl⟩ := exists_of_assemble found
  exact extra_eq_length_of_open found opened

theorem grab_of_drop {lines : List Line} {start : Nat} {first : Line} {following : List Line}
    {assembled : Assembled} (here : lines.drop start = first :: following)
    (found : assemble first following = .ok assembled) :
    grab lines start = .ok ⟨assembled.text, start + assembled.extra⟩ := by
  have read : readFrom lines start = .ok (first :: following) := by
    rw [readFrom, if_pos (Int.natCast_nonneg start), Int.toNat_natCast, here]
  rw [grab, read]
  simp only [found]

end BasicOutline.Signature
