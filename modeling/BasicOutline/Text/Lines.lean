import BasicOutline.Text.Blank

/-! Physical lines: where a text is cut, and how line breaks are folded or unified. -/

namespace BasicOutline.Text

/-- The lines of a text. A line ends at a line feed, with or without a carriage return before it,
and at no other character. -/
def lines : Text → List Text
  | [] => [[]]
  | '\n' :: rest => [] :: lines rest
  | '\r' :: '\n' :: rest => [] :: lines rest
  | c :: rest => (lines rest).modifyHead (c :: ·)

/-- Line breaks with the blanks after them become single spaces. -/
def joinLines : Text → Text
  | [] => []
  | '\n' :: rest => ' ' :: joinLines (rest.dropWhile isBlank)
  | '\r' :: '\n' :: rest => ' ' :: joinLines (rest.dropWhile isBlank)
  | c :: rest => c :: joinLines rest
termination_by t => t.length
decreasing_by all_goals grind [length_dropWhile_le]

def unifyBreaks : Text → Text
  | [] => []
  | '\r' :: '\n' :: rest => '\n' :: unifyBreaks rest
  | '\r' :: rest => '\n' :: unifyBreaks rest
  | c :: rest => c :: unifyBreaks rest

theorem lines_ne_nil (t : Text) : lines t ≠ [] := by
  fun_induction lines t with
  | case1 => simp
  | case2 => simp
  | case3 => simp
  | case4 c rest _ _ ih =>
    cases split : lines rest with
    | nil => exact absurd split ih
    | cons line more => simp

end BasicOutline.Text
