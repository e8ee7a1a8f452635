import BasicOutline.Proofs.SignatureText

/-! Lines up to their comment mark.

What is shown of a line, its indentation and whether it is a comment as a whole depend on the line
up to its first comment mark only. -/

namespace BasicOutline

namespace Text

/-- The line up to its first comment mark, which is kept. -/
def throughMark : Text → Text
  | [] => []
  | c :: rest => if c = '\x27' then [c] else c :: throughMark rest

theorem throughMark_mark (rest : Text) : throughMark ('\x27' :: rest) = ['\x27'] := by
  rw [throughMark, if_pos rfl]

theorem throughMark_cons {c : Char} (plain : c ≠ '\x27') (rest : Text) :
    throughMark (c :: rest) = c :: throughMark rest := by
  rw [throughMark, if_neg plain]

theorem throughMark_append {front : Text} (marked : '\x27' ∈ front) (back : Text) :
    throughMark (front ++ back) = throughMark front := by
  induction front with
  | nil => cases marked
  | cons c rest ih =>
    by_cases mark : c = '\x27'
    · rw [mark, List.cons_append, throughMark_mark, throughMark_mark]
    · have later : '\x27' ∈ rest := by
        rcases List.mem_cons.mp marked with same | inside
        · exact absurd same.symm mark
        · exact inside
      rw [List.cons_append, throughMark_cons mark, throughMark_cons mark, ih later]

theorem throughMark_eq_self {t : Text} (unmarked : '\x27' ∉ t) : throughMark t = t := by
  induction t with
  | nil => rfl
  | cons c rest ih =>
    rw [List.mem_cons, not_or] at unmarked
    rw [throughMark_cons (Ne.symm unmarked.1), ih unmarked.2]

theorem mark_mem_throughMark {t : Text} : '\x27' ∈ throughMark t ↔ '\x27' ∈ t := by
  induction t with
  | nil => rfl
  | cons c rest ih =>
    by_cases mark : c = '\x27'
    · simp [mark, throughMark_mark]
    · rw [throughMark_cons mark, List.mem_cons, List.mem_cons, ih]

theorem throughMark_cases {first second : Text} (same : throughMark first = throughMark second) :
    first = second ∨ '\x27' ∈ first ∧ '\x27' ∈ second := by
  have marked : '\x27' ∈ first ↔ '\x27' ∈ second := by
    rw [← mark_mem_throughMark, same, mark_mem_throughMark]
  by_cases present : '\x27' ∈ first
  · exact .inr ⟨present, marked.mp present⟩
  · rw [throughMark_eq_self present, throughMark_eq_self (fun there => present (marked.mpr there))]
      at same
    exact .inl same

theorem takeWhile_throughMark {keep : Char → Bool} (stop : keep '\x27' = false) (t : Text) :
    (throughMark t).takeWhile keep = t.takeWhile keep := by
  induction t with
  | nil => rfl
  | cons c rest ih =>
    by_cases mark : c = '\x27'
    · simp [mark, throughMark_mark, stop]
    · rw [throughMark_cons mark, List.takeWhile_cons, List.takeWhile_cons, ih]

theorem head?_dropWhile_throughMark {drop : Char → Bool} (stop : drop '\x27' = false) (t : Text) :
    ((throughMark t).dropWhile drop).head? = (t.dropWhile drop).head? := by
  induction t with
  | nil => rfl
  | cons c rest ih =>
    by_cases mark : c = '\x27'
    · simp [mark, throughMark_mark, stop]
    · rw [throughMark_cons mark]
      cases dropped : drop c with
      | true => rw [List.dropWhile_cons_of_pos dropped, List.dropWhile_cons_of_pos dropped, ih]
      | false =>
        rw [List.dropWhile_cons_of_neg (by simp [dropped]),
          List.dropWhile_cons_of_neg (by simp [dropped])]
        rfl

def codeOf (line : Text) : Text := line.takeWhile (· != '\x27')

def commentOf (line : Text) : Text := (line.dropWhile (· != '\x27')).tail

theorem codeOf_congr {first second : Text} (code : throughMark first = throughMark second) :
    codeOf first = codeOf second := by
  unfold codeOf
  rw [← takeWhile_throughMark (by decide) first, code, takeWhile_throughMark (by decide)]

theorem code_comment_cases (line : Text) :
    line = codeOf line ∨ line = codeOf line ++ '\x27' :: commentOf line := by
  have whole : line = codeOf line ++ line.dropWhile (· != '\x27') :=
    List.takeWhile_append_dropWhile.symm
  cases rest : line.dropWhile (· != '\x27') with
  | nil =>
    rw [rest, List.append_nil] at whole
    exact .inl whole
  | cons c comment =>
    have mark : c = '\x27' := by
      have stop := List.head?_dropWhile_not (· != '\x27') line
      rw [rest] at stop
      simpa using stop
    rw [rest, mark] at whole
    rw [commentOf, rest, List.tail_cons]
    exact .inr whole

theorem isSome_afterWord?_append {word : Text}
    (unmarked : ∀ letter ∈ word, sameLetter letter '\x27' = false) (t more : Text) :
    (afterWord? word (t ++ '\x27' :: more)).isSome = (afterWord? word t).isSome := by
  induction word generalizing t with
  | nil => rfl
  | cons letter word ih =>
    have here := unmarked letter List.mem_cons_self
    cases t with
    | nil => simp [afterWord?, here]
    | cons c rest =>
      have later := ih (fun other member => unmarked other (List.mem_cons_of_mem _ member)) rest
      rw [List.cons_append, afterWord?, afterWord?]
      split
      · exact later
      · rfl

theorem mentions_append_mark {word : Text} (nonempty : word ≠ [])
    (unmarked : ∀ letter ∈ word, sameLetter letter '\x27' = false) (t more : Text) :
    mentions word (t ++ '\x27' :: more) = (mentions word t || mentions word more) := by
  have empty : mentions word [] = false := by
    cases word with
    | nil => exact absurd rfl nonempty
    | cons letter rest => rfl
  induction t with
  | nil =>
    have here := isSome_afterWord?_append unmarked [] more
    have nowhere : (afterWord? word []).isSome = false := by
      cases word with
      | nil => exact absurd rfl nonempty
      | cons letter rest => rfl
    rw [List.nil_append] at here ⊢
    rw [empty, mentions, here, nowhere]
  | cons c rest ih =>
    have here := isSome_afterWord?_append unmarked (c :: rest) more
    rw [List.cons_append] at here ⊢
    rw [mentions, here, ih, mentions, Bool.or_assoc]

end Text

namespace Display

open Text

theorem dropComment_throughMark (line : Text) :
    dropComment (throughMark line) = dropComment line := by
  unfold dropComment
  by_cases marked : '\x27' ∈ line
  · have kept := mark_mem_throughMark.mpr marked
    rw [if_pos (List.contains_iff_mem.mpr kept), if_pos (List.contains_iff_mem.mpr marked),
      takeWhile_throughMark (by decide)]
  · rw [throughMark_eq_self marked]

theorem dropComment_congr {first second : Text} (code : throughMark first = throughMark second) :
    dropComment first = dropComment second := by
  rw [← dropComment_throughMark first, code, dropComment_throughMark]

theorem indentOf_congr {first second : Text} (single : '\n' ∉ first) (other : '\n' ∉ second)
    (code : throughMark first = throughMark second) : indentOf first = indentOf second := by
  unfold indentOf
  rw [lines_eq_singleton single, lines_eq_singleton other, List.headD_cons, List.headD_cons,
    ← takeWhile_throughMark (by decide) first, code, takeWhile_throughMark (by decide)]

theorem dropComments_eq_dropComment {line : Text} (single : '\n' ∉ line) :
    dropComments line = dropComment line := by
  rw [dropComments, List.splitOn_eq_singleton single, List.map_singleton,
    List.intercalate_singleton]

theorem render_eq_of_code {first second : Text} (single : '\n' ∉ first) (other : '\n' ∉ second)
    (code : throughMark first = throughMark second) (settings : Settings) :
    render settings first = render settings second := by
  apply render_congr
  · rw [flatten, flatten, dropComments_eq_dropComment single, dropComments_eq_dropComment other,
      dropComment_congr code]
  · exact indentOf_congr single other code

end Display

namespace Signature

open Text

/-- A continuation marker stands before the comment mark of a line or after it. -/
theorem throughMark_stripContinuation {first second : Text}
    (code : throughMark first = throughMark second) :
    throughMark (stripContinuation first) = throughMark (stripContinuation second) := by
  have kept : ∀ {line : Text}, '\x27' ∈ line →
      throughMark (stripContinuation line) = throughMark line := by
    intro line marked
    obtain ⟨front, mark, back, whole, stripped, marks, feed⟩ := stripContinuation_split line
    have inside : '\x27' ∈ front := by
      rw [whole, List.mem_append, List.mem_append] at marked
      rcases marked with (here | within) | after
      · exact here
      · exact absurd (marks _ within) (by decide)
      · exact absurd (feed _ after) (by decide)
    rw [stripped, whole, List.append_assoc, throughMark_append inside, throughMark_append inside]
  rcases throughMark_cases code with same | ⟨marked, other⟩
  · rw [same]
  · rw [kept marked, kept other, code]

end Signature

namespace Scan

open Text

theorem isComment_congr {first second : Text} (code : throughMark first = throughMark second) :
    isComment first = isComment second := by
  unfold isComment trimStart
  rw [← head?_dropWhile_throughMark (by decide) first, code,
    head?_dropWhile_throughMark (by decide)]

def phrases : List Text :=
  ["end function".toList, "end sub".toList, "class ".toList, "function ".toList, "sub ".toList,
    "dim ".toList, "const ".toList]

def Quiet (comment : Text) : Prop :=
  '(' ∉ comment ∧ ')' ∉ comment ∧ ∀ phrase ∈ phrases, mentions phrase comment = false

instance (comment : Text) : Decidable (Quiet comment) :=
  inferInstanceAs (Decidable ('(' ∉ comment ∧ ')' ∉ comment ∧ _))

section Quiet

variable {line other : Text}

theorem Quiet.mentions_eq (quiet : Quiet (commentOf line)) {phrase : Text}
    (known : phrase ∈ phrases) : mentions phrase line = mentions phrase (codeOf line) := by
  have facts : ∀ word ∈ phrases, word ≠ [] ∧
      word.all (fun letter => !sameLetter letter '\x27') = true := by
    decide +kernel
  obtain ⟨nonempty, letters⟩ := facts phrase known
  have unmarked : ∀ letter ∈ phrase, sameLetter letter '\x27' = false := by
    intro letter member
    simpa using List.all_eq_true.mp letters letter member
  rcases code_comment_cases line with bare | divided
  · rw [← bare]
  · have split := mentions_append_mark nonempty unmarked (codeOf line) (commentOf line)
    rw [← divided, quiet.2.2 phrase known, Bool.or_false] at split
    exact split

theorem Quiet.depth_eq (quiet : Quiet (commentOf line)) :
    Parenthesis.depth ('\x27' :: commentOf line) = 0 := by
  apply Parenthesis.depth_of_plain
  intro c member
  rcases List.mem_cons.mp member with rfl | inside
  · rfl
  · have first : c ≠ '(' := fun same => quiet.1 (same ▸ inside)
    have second : c ≠ ')' := fun same => quiet.2.1 (same ▸ inside)
    simp [Parenthesis.change, first, second]

theorem Quiet.depth_code (quiet : Quiet (commentOf line)) :
    Parenthesis.depth line = Parenthesis.depth (codeOf line) := by
  rcases code_comment_cases line with bare | divided
  · rw [← bare]
  · calc
      Parenthesis.depth line = Parenthesis.depth (codeOf line ++ '\x27' :: commentOf line) := by
        rw [← divided]
      _ = Parenthesis.depth (codeOf line) := by
        rw [Parenthesis.depth_append, quiet.depth_eq, Int.add_zero]

theorem Quiet.openDepth_code (quiet : Quiet (commentOf line)) :
    Signature.openDepth line = Signature.openDepth (codeOf line) := by
  rcases code_comment_cases line with bare | divided
  · rw [← bare]
  · have closed : '(' ∉ '\x27' :: commentOf line := by
      intro member
      rcases List.mem_cons.mp member with same | inside
      · exact absurd same (by decide)
      · exact quiet.1 inside
    calc
      Signature.openDepth line = Signature.openDepth (codeOf line ++ '\x27' :: commentOf line) := by
        rw [← divided]
      _ = Signature.openDepth (codeOf line) := by
        by_cases present : '(' ∈ codeOf line
        · rw [Signature.openDepth_append present, quiet.depth_eq, Int.add_zero]
        · have behind := Signature.openDepth_skip closed []
          have before := Signature.openDepth_skip present []
          rw [List.append_nil] at behind before
          rw [Signature.openDepth_skip present, behind, before]

theorem classify_eq_of_quiet (code : throughMark line = throughMark other)
    (quiet : Quiet (commentOf line)) (otherQuiet : Quiet (commentOf other)) :
    classify line = classify other := by
  have same : ∀ phrase ∈ phrases, mentions phrase line = mentions phrase other := by
    intro phrase known
    rw [quiet.mentions_eq known, otherQuiet.mentions_eq known, codeOf_congr code]
  unfold classify endsProcedure declaresClass declaresProcedure declaresField
  rw [isComment_congr code, same "end function".toList (by simp [phrases]),
    same "end sub".toList (by simp [phrases]), same "class ".toList (by simp [phrases]),
    same "function ".toList (by simp [phrases]), same "sub ".toList (by simp [phrases]),
    same "dim ".toList (by simp [phrases]), same "const ".toList (by simp [phrases])]

end Quiet

end Scan

end BasicOutline
