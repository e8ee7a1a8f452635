import BasicOutline.Proofs.ExactOutline
import BasicOutline.Proofs.LineFolding

/-! What the text of a signature keeps of its lines.

A continuation marker holds no parenthesis, so dropping it changes no count of them. The indentation
of a signature is that of the line it begins with, as the keyword on this line ends the blanks. -/

namespace BasicOutline

namespace Signature

open Text

def isMark (c : Char) : Bool := c == '_' || isSpaceOrTab c

theorem isMark_cases {c : Char} (mark : isMark c = true) : c = '_' ∨ c = ' ' ∨ c = '\t' := by
  simpa [isMark, isSpaceOrTab] using mark

theorem dropMarker_append (t : Text) :
    ∃ mark, t = dropMarker t ++ mark ∧ ∀ c ∈ mark, isMark c = true := by
  have blank : ∀ {c : Char} {run : Text}, c ∈ run.takeWhile isSpaceOrTab → isMark c = true := by
    intro c run member
    have space := List.mem_takeWhile_imp member
    simp [isMark, space]
  unfold dropMarker
  split
  · rename_i before found
    -- The text backwards: blanks, the marker, blanks again and what is kept.
    have outer : t.reverse = t.reverse.takeWhile isSpaceOrTab ++ '_' :: before := by
      rw [← found, List.takeWhile_append_dropWhile]
    have inner : before = before.takeWhile isSpaceOrTab ++ before.dropWhile isSpaceOrTab :=
      List.takeWhile_append_dropWhile.symm
    refine ⟨(t.reverse.takeWhile isSpaceOrTab ++ '_' :: before.takeWhile isSpaceOrTab).reverse,
      ?_, ?_⟩
    · rw [← List.reverse_append, List.append_assoc, List.cons_append, ← inner, ← outer,
        List.reverse_reverse]
    · intro c member
      rw [List.mem_reverse, List.mem_append, List.mem_cons] at member
      rcases member with after | rfl | earlier
      · exact blank after
      · decide
      · exact blank earlier
  · exact ⟨[], by rw [List.append_nil], nofun⟩

/-- Dropping the marker takes a run of marker characters out of the line, at its end or before the
line feed that ends it. -/
theorem stripContinuation_split (line : Text) :
    ∃ front mark back, line = front ++ mark ++ back ∧ stripContinuation line = front ++ back ∧
      (∀ c ∈ mark, isMark c = true) ∧ ∀ c ∈ back, c = '\n' := by
  unfold stripContinuation
  split
  · rename_i last
    obtain ⟨body, rfl⟩ := List.getLast?_eq_some_iff.mp last
    rw [List.dropLast_concat]
    obtain ⟨mark, whole, marks⟩ := dropMarker_append body
    refine ⟨dropMarker body, mark, ['\n'], ?_, rfl, marks, by simp⟩
    rw [← whole]
  · obtain ⟨mark, whole, marks⟩ := dropMarker_append line
    refine ⟨dropMarker line, mark, [], ?_, ?_, marks, nofun⟩
    · rw [List.append_nil, ← whole]
    · rw [List.append_nil]

theorem depth_of_marks {mark : Text} (marks : ∀ c ∈ mark, isMark c = true) :
    Parenthesis.depth mark = 0 := by
  apply Parenthesis.depth_of_plain
  intro c member
  rcases isMark_cases (marks c member) with rfl | rfl | rfl <;> rfl

theorem depth_stripContinuation (line : Text) :
    Parenthesis.depth (stripContinuation line) = Parenthesis.depth line := by
  obtain ⟨front, mark, back, whole, stripped, marks, -⟩ := stripContinuation_split line
  rw [stripped, whole]
  simp only [Parenthesis.depth_append, depth_of_marks marks, Int.add_zero]

theorem openDepth_skip {front : Text} (closed : '(' ∉ front) (rest : Text) :
    openDepth (front ++ rest) = openDepth rest := by
  have skipped : ∀ c ∈ front, (c != '(') = true := by
    intro c member
    have different : c ≠ '(' := fun same => closed (same ▸ member)
    simpa using different
  rw [openDepth, List.dropWhile_append_of_pos skipped, openDepth]

theorem openDepth_stripContinuation (line : Text) :
    openDepth (stripContinuation line) = openDepth line := by
  obtain ⟨front, mark, back, whole, stripped, marks, -⟩ := stripContinuation_split line
  have closed : '(' ∉ mark := fun member => absurd (marks _ member) (by decide)
  rw [stripped, whole, List.append_assoc]
  by_cases present : '(' ∈ front
  · rw [openDepth_append present, openDepth_append present, Parenthesis.depth_append,
      depth_of_marks marks, Int.zero_add]
  · rw [openDepth_skip present, openDepth_skip present, openDepth_skip closed]

theorem extend_isPrefix {text : Text} {following : List Line} {assembled : Assembled}
    (extended : extend text (openDepth text) following = .ok assembled) :
    text <+: assembled.text := by
  induction following generalizing text assembled with
  | nil =>
    obtain ⟨rfl, -⟩ | ⟨_, _, _, _, impossible, _⟩ := extend_cases extended
    · exact List.prefix_rfl
    · cases impossible
  | cons head rest ih =>
    obtain ⟨rfl, -⟩ | ⟨line, tail, inner, -, same, continued, rfl⟩ := extend_cases extended
    · exact List.prefix_rfl
    · obtain ⟨rfl, rfl⟩ := List.cons.inj same
      have longer := ih continued
      exact (List.prefix_append text _).trans longer

end Signature

namespace Display

open Text

theorem indentOf_cons {c : Char} {rest : Text} (plain : c ≠ '\n')
    (single : c = '\r' → rest.head? ≠ some '\n') :
    indentOf (c :: rest) = if isBlank c then indentOf rest + 1 else 0 := by
  unfold indentOf
  rw [lines_cons plain single]
  cases split : lines rest with
  | nil => exact absurd split (lines_ne_nil rest)
  | cons line more =>
    rw [List.modifyHead_cons, List.headD_cons, List.headD_cons, List.takeWhile_cons]
    split <;> rfl

theorem indentOf_append {front : Text} (solid : ∃ c ∈ front, isBlank c = false) (back : Text) :
    indentOf (front ++ back) = indentOf front := by
  induction front with
  | nil => simp at solid
  | cons c rest ih =>
    by_cases line_feed : c = '\n'
    · subst line_feed
      rfl
    · by_cases line_break : c = '\r' ∧ rest.head? = some '\n'
      · obtain ⟨rfl, head⟩ := line_break
        cases rest with
        | nil => cases head
        | cons d more =>
          obtain rfl := Option.some.inj head
          rfl
      · cases blank : isBlank c with
        | false =>
          have not_return : c ≠ '\r' := by
            rintro rfl
            cases blank
          rw [List.cons_append, indentOf_cons line_feed (absurd · not_return),
            indentOf_cons line_feed (absurd · not_return), blank]
          rfl
        | true =>
          have later : ∃ d ∈ rest, isBlank d = false := by
            obtain ⟨d, member, plain⟩ := solid
            rcases List.mem_cons.mp member with rfl | inside
            · rw [plain] at blank
              cases blank
            · exact ⟨d, inside, plain⟩
          -- The rest is not empty, so what is appended does not make a line break of `c`.
          have single : c = '\r' → rest.head? ≠ some '\n' :=
            fun here head => line_break ⟨here, head⟩
          have head_eq : (rest ++ back).head? = rest.head? := by
            obtain ⟨d, member, -⟩ := later
            cases rest with
            | nil => cases member
            | cons e more => rfl
          rw [List.cons_append, indentOf_cons line_feed (head_eq ▸ single),
            indentOf_cons line_feed single, ih later]

end Display

namespace Scan

open Text
open Signature (Line)

theorem exists_of_mentions {letter : Char} {word t : Text}
    (found : mentions (letter :: word) t = true) : ∃ c ∈ t, sameLetter letter c = true := by
  induction t with
  | nil => cases found
  | cons c rest ih =>
    rw [mentions, Bool.or_eq_true] at found
    rcases found with here | later
    · have same : sameLetter letter c = true := by
        by_contra different
        simp [afterWord?, different] at here
      exact ⟨c, List.mem_cons_self, same⟩
    · obtain ⟨d, member, same⟩ := ih later
      exact ⟨d, List.mem_cons_of_mem _ member, same⟩

theorem exists_of_declaresProcedure {line : Text} (declared : declaresProcedure line = true) :
    ∃ c ∈ line, isBlank c = false ∧ Signature.isMark c = false := by
  unfold declaresProcedure at declared
  rcases Bool.or_eq_true_iff.mp declared with function | sub
  · have word : mentions ('f' :: "unction ".toList) line = true := function
    obtain ⟨c, member, same⟩ := exists_of_mentions word
    have letter : c = 'f' ∨ c = 'F' := by simpa [sameLetter, foldsTo] using same
    refine ⟨c, member, ?_⟩
    rcases letter with rfl | rfl <;> decide
  · have word : mentions ('s' :: "ub ".toList) line = true := sub
    obtain ⟨c, member, same⟩ := exists_of_mentions word
    have letter : c = 's' ∨ c = 'S' ∨ c = '\u017F' := by simpa [sameLetter, foldsTo] using same
    refine ⟨c, member, ?_⟩
    rcases letter with rfl | rfl | rfl <;> decide

theorem declaresProcedure_of_role {line : Text} (role : classify line = .declaration .function) :
    declaresProcedure line = true := by
  have kind := (classify_eq_declaration_iff.mp role).2.2.2
  by_contra undeclared
  rw [if_neg undeclared] at kind
  split at kind <;> cases kind

theorem indentOf_assembled {line : Text} {following : List Line}
    {signature : Signature.Assembled} (role : classify line = .declaration .function)
    (assembled : Signature.assemble (some line) following = .ok signature) :
    Display.indentOf signature.text = Display.indentOf line := by
  obtain ⟨front, mark, back, whole, stripped, marks, feed⟩ :=
    Signature.stripContinuation_split line
  have solid : ∃ c ∈ front, isBlank c = false := by
    have declared := declaresProcedure_of_role role
    obtain ⟨c, member, plain, unmarked⟩ := exists_of_declaresProcedure declared
    refine ⟨c, ?_, plain⟩
    rw [whole, List.mem_append, List.mem_append] at member
    rcases member with (inside | marked) | broken
    · exact inside
    · rw [marks c marked] at unmarked
      cases unmarked
    · obtain rfl := feed c broken
      cases plain
  obtain ⟨more, text_eq⟩ := Signature.extend_isPrefix assembled
  calc
    Display.indentOf signature.text = Display.indentOf (front ++ (back ++ more)) := by
      rw [← text_eq, stripped, List.append_assoc]
    _ = Display.indentOf front := Display.indentOf_append solid _
    _ = Display.indentOf (front ++ (mark ++ back)) := (Display.indentOf_append solid _).symm
    _ = Display.indentOf line := by rw [whole, List.append_assoc]

end Scan

end BasicOutline
