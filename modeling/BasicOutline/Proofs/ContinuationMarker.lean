import BasicOutline.Proofs.SignatureText
import BasicOutline.Proofs.TextSpans

/-! The continuation marker of a line.

A marker is a `_` with spaces and tabs around it, at the end of the line or before the line feed
that ends it. Underscores that stand before the marker belong to the line, so there is only one way
in which a line ends with a marker. -/

namespace BasicOutline.Signature

open Text

/-- A text that ends with a marker: what stands before it, and the spaces and tabs around `_`. -/
structure MarkedEnd where
  front : Text
  gap : Text
  trail : Text
  deriving DecidableEq, Repr

def MarkedEnd.text (ending : MarkedEnd) : Text :=
  ending.front ++ (ending.gap ++ '_' :: ending.trail)

structure MarkedEnd.WellFormed (ending : MarkedEnd) : Prop where
  gap : ∀ c ∈ ending.gap, isSpaceOrTab c = true
  trail : ∀ c ∈ ending.trail, isSpaceOrTab c = true
  stop : ∀ c, ending.front.getLast? = some c → isSpaceOrTab c = false

/-- A marker can be read between two parts of a line: any spaces and tabs around `_`, and behind
them the end of the line or the line feed that ends it. -/
structure MarkerAt (line before mark rest : Text) : Prop where
  whole : line = before ++ (mark ++ rest)
  shape : ∃ gap trail, mark = gap ++ '_' :: trail ∧ (∀ c ∈ gap, isSpaceOrTab c = true) ∧
    ∀ c ∈ trail, isSpaceOrTab c = true
  ends : rest = [] ∨ rest = ['\n']

section Endings

variable {ending : MarkedEnd} {t before gap trail : Text}

theorem MarkedEnd.WellFormed.dropMarker_text (valid : ending.WellFormed) :
    dropMarker ending.text = ending.front := by
  have backwards : ending.text.reverse =
      ending.trail.reverse ++ '_' :: (ending.gap.reverse ++ ending.front.reverse) := by
    simp [MarkedEnd.text]
  have outer : ending.text.reverse.dropWhile isSpaceOrTab =
      '_' :: (ending.gap.reverse ++ ending.front.reverse) := by
    rw [backwards]
    apply dropWhile_append_stop fun c member => valid.trail c (List.mem_reverse.mp member)
    exact head?_cons_stop (by decide) _
  have inner : (ending.gap.reverse ++ ending.front.reverse).dropWhile isSpaceOrTab =
      ending.front.reverse := by
    apply dropWhile_append_stop fun c member => valid.gap c (List.mem_reverse.mp member)
    rw [List.head?_reverse]
    exact valid.stop
  rw [dropMarker, outer]
  simp only [inner, List.reverse_reverse]

theorem MarkedEnd.WellFormed.trimEndWhile_text (valid : ending.WellFormed) :
    trimEndWhile isSpaceOrTab ending.text = ending.front ++ (ending.gap ++ ['_']) := by
  have shape : ending.text = ending.front ++ (ending.gap ++ ['_']) ++ ending.trail := by
    simp [MarkedEnd.text]
  rw [shape]
  apply trimEndWhile_append_gap _ valid.trail
  intro c last
  rw [← List.append_assoc, List.getLast?_concat] at last
  rw [← Option.some.inj last]
  decide

/-- The blanks at the end are found first, then the `_`, then the blanks before it. -/
theorem MarkedEnd.WellFormed.eq_of_text_eq {other : MarkedEnd} (valid : ending.WellFormed)
    (sound : other.WellFormed) (same : ending.text = other.text) : ending = other := by
  have trimmed := valid.trimEndWhile_text
  rw [same, sound.trimEndWhile_text, ← List.append_assoc, ← List.append_assoc] at trimmed
  have kept : other.front ++ other.gap = ending.front ++ ending.gap :=
    List.append_cancel_right trimmed
  have front_eq : other.front = ending.front := by
    rw [← trimEndWhile_append_gap sound.stop sound.gap, kept,
      trimEndWhile_append_gap valid.stop valid.gap]
  rw [front_eq] at kept
  have gap_eq := List.append_cancel_left kept
  rw [MarkedEnd.text, MarkedEnd.text, front_eq, gap_eq] at same
  have trail_eq := (List.cons.inj (List.append_cancel_left (List.append_cancel_left same))).2
  cases ending
  cases other
  rw [MarkedEnd.mk.injEq]
  exact ⟨front_eq.symm, gap_eq.symm, trail_eq⟩

/-- Where a marker can be read there is one that takes up all the blanks before it. -/
theorem exists_markedEnd (before : Text) (blank : ∀ c ∈ gap, isSpaceOrTab c = true)
    (blanks : ∀ c ∈ trail, isSpaceOrTab c = true) :
    ∃ ending : MarkedEnd, ending.WellFormed ∧ ending.text = before ++ (gap ++ '_' :: trail) ∧
      ending.front <+: before := by
  obtain ⟨more, whole, apart⟩ := trimEndWhile_append isSpaceOrTab before
  refine ⟨⟨trimEndWhile isSpaceOrTab before, more ++ gap, trail⟩, ⟨?_, blanks, trimEndWhile_last⟩,
    ?_, ⟨more, whole.symm⟩⟩
  · intro c member
    exact (List.mem_append.mp member).elim (apart c) (blank c)
  · rw [MarkedEnd.text, List.append_assoc, ← List.append_assoc, ← whole]

theorem exists_markedEnd_iff :
    (∃ ending : MarkedEnd, ending.WellFormed ∧ ending.text = t) ↔
      (trimEndWhile isSpaceOrTab t).getLast? = some '_' := by
  constructor
  · rintro ⟨ending, valid, rfl⟩
    rw [valid.trimEndWhile_text, ← List.append_assoc, List.getLast?_concat]
  · intro last
    obtain ⟨before, trimmed⟩ := List.getLast?_eq_some_iff.mp last
    obtain ⟨trail, whole, blanks⟩ := trimEndWhile_append isSpaceOrTab t
    obtain ⟨ending, valid, same, -⟩ := exists_markedEnd before (List.forall_mem_nil _) blanks
    refine ⟨ending, valid, ?_⟩
    rw [same, whole, trimmed, List.nil_append, List.append_assoc, List.singleton_append]

theorem dropMarker_of_unmarked (unmarked : (trimEndWhile isSpaceOrTab t).getLast? ≠ some '_') :
    dropMarker t = t := by
  unfold dropMarker
  split
  · rename_i before found
    apply absurd _ unmarked
    rw [trimEndWhile, found, List.getLast?_reverse, List.head?_cons]
  · rfl

end Endings

section Line

variable {line body feed before mark rest : Text}

/-- What ends a line: its line feed, or nothing if it has none. -/
def EndsLine (line feed : Text) : Prop :=
  feed = ['\n'] ∨ feed = [] ∧ line.getLast? ≠ some '\n'

theorem EndsLine.feed_cases (ends : EndsLine line feed) : feed = [] ∨ feed = ['\n'] :=
  ends.elim .inr fun none => .inl none.1

theorem exists_endsLine (line : Text) : ∃ body feed, line = body ++ feed ∧ EndsLine line feed := by
  by_cases last : line.getLast? = some '\n'
  · obtain ⟨body, whole⟩ := List.getLast?_eq_some_iff.mp last
    exact ⟨body, ['\n'], whole, .inl rfl⟩
  · exact ⟨line, [], (List.append_nil line).symm, .inr ⟨rfl, last⟩⟩

theorem stripContinuation_append (whole : line = body ++ feed) (ends : EndsLine line feed) :
    stripContinuation line = dropMarker body ++ feed := by
  unfold stripContinuation
  rcases ends with rfl | ⟨rfl, other⟩
  · rw [whole, if_pos List.getLast?_concat, List.dropLast_concat]
  · rw [if_neg other, whole, List.append_nil, List.append_nil]

theorem MarkerAt.not_mem_mark (marker : MarkerAt line before mark rest) : '\n' ∉ mark := by
  obtain ⟨gap, trail, rfl, blank, blanks⟩ := marker.shape
  rw [List.mem_append, List.mem_cons, not_or, not_or]
  exact ⟨fun member => absurd (blank _ member) (by decide), by decide,
    fun member => absurd (blanks _ member) (by decide)⟩

theorem MarkerAt.rest_eq (marker : MarkerAt line before mark rest) (ends : EndsLine line feed)
    (whole : line = body ++ feed) : rest = feed := by
  have nonempty : mark ≠ [] := by
    obtain ⟨gap, trail, rfl, -⟩ := marker.shape
    simp
  have parts := marker.whole
  rcases marker.ends with rfl | rfl <;> rcases ends with rfl | ⟨rfl, other⟩
  · -- The marker itself would end with a line feed.
    rw [whole, List.append_nil] at parts
    have last := congrArg List.getLast? parts
    rw [List.getLast?_concat, List.getLast?_append, List.getLast?_eq_some_getLast nonempty,
      Option.some_or, Option.some.injEq] at last
    exact absurd (last ▸ List.getLast_mem nonempty) marker.not_mem_mark
  · rfl
  · rfl
  · apply absurd _ other
    rw [parts, ← List.append_assoc, List.getLast?_concat]

theorem MarkerAt.exists_markedEnd (marker : MarkerAt line before mark rest)
    (ends : EndsLine line feed) (whole : line = body ++ feed) :
    ∃ ending : MarkedEnd, ending.WellFormed ∧ ending.text = body ∧ ending.front <+: before := by
  have parts := marker.whole
  rw [marker.rest_eq ends whole, whole, ← List.append_assoc] at parts
  obtain ⟨gap, trail, rfl, blank, blanks⟩ := marker.shape
  obtain ⟨ending, valid, same, shorter⟩ := Signature.exists_markedEnd before blank blanks
  exact ⟨ending, valid, same.trans (List.append_cancel_right parts).symm, shorter⟩

theorem count_blanks (blanks : ∀ c ∈ rest, isSpaceOrTab c = true) : rest.count '_' = 0 := by
  rw [List.count_eq_zero]
  exact fun member => absurd (blanks _ member) (by decide)

theorem MarkedEnd.WellFormed.count_text {ending : MarkedEnd} (valid : ending.WellFormed) :
    ending.text.count '_' = ending.front.count '_' + 1 := by
  rw [MarkedEnd.text, List.count_append, List.count_append, List.count_cons_self,
    count_blanks valid.gap, count_blanks valid.trail, Nat.zero_add]

/-- A line that ends with a marker does so in one way, and loses the marker: one underscore with the
blanks around it, and no marker can be read further to the left. Any other line stays, and no marker
can be read in it. -/
theorem stripContinuation_exact (line : Text) : ∃ body feed,
    line = body ++ feed ∧ EndsLine line feed ∧
    ((trimEndWhile isSpaceOrTab body).getLast? = some '_' → ∃ ending : MarkedEnd,
      (ending.WellFormed ∧ ending.text = body) ∧
      (∀ other : MarkedEnd, other.WellFormed → other.text = body → other = ending) ∧
      stripContinuation line = ending.front ++ feed ∧
      line.count '_' = (stripContinuation line).count '_' + 1 ∧
      MarkerAt line ending.front (ending.gap ++ '_' :: ending.trail) feed ∧
      ∀ before mark rest, MarkerAt line before mark rest → ending.front <+: before) ∧
    ((trimEndWhile isSpaceOrTab body).getLast? ≠ some '_' →
      stripContinuation line = line ∧ ∀ before mark rest, ¬ MarkerAt line before mark rest) ∧
    Parenthesis.depth (stripContinuation line) = Parenthesis.depth line := by
  obtain ⟨body, feed, whole, ends⟩ := exists_endsLine line
  have stripped := stripContinuation_append whole ends
  refine ⟨body, feed, whole, ends, ?_, ?_, depth_stripContinuation line⟩
  · intro last
    obtain ⟨ending, valid, same⟩ := exists_markedEnd_iff.mpr last
    have unique : ∀ other : MarkedEnd, other.WellFormed → other.text = body → other = ending :=
      fun other sound text_eq => sound.eq_of_text_eq valid (text_eq.trans same.symm)
    have cut : stripContinuation line = ending.front ++ feed := by
      rw [stripped, ← same, valid.dropMarker_text]
    have read : MarkerAt line ending.front (ending.gap ++ '_' :: ending.trail) feed :=
      ⟨by rw [whole, ← same, MarkedEnd.text, List.append_assoc],
        ⟨ending.gap, ending.trail, rfl, valid.gap, valid.trail⟩, ends.feed_cases⟩
    refine ⟨ending, ⟨valid, same⟩, unique, cut, ?_, read, ?_⟩
    · rw [cut, whole, ← same, List.count_append, List.count_append, valid.count_text]
      omega
    · intro before mark rest marker
      obtain ⟨other, sound, text_eq, shorter⟩ := marker.exists_markedEnd ends whole
      rwa [unique other sound text_eq] at shorter
  · intro unmarked
    constructor
    · rw [stripped, dropMarker_of_unmarked unmarked, whole]
    · intro before mark rest marker
      obtain ⟨ending, valid, same, -⟩ := marker.exists_markedEnd ends whole
      exact unmarked (exists_markedEnd_iff.mp ⟨ending, valid, same⟩)

example : stripContinuation "a_(_ \t__\t \n".toList = "a_(_ \t_\n".toList := by decide

end Line

end BasicOutline.Signature
