import BasicOutline.Proofs.CommentMark
import BasicOutline.Proofs.LineEndings
import BasicOutline.Proofs.SplitSignature
import BasicOutline.Proofs.TextSpans

/-! Declarations that are laid out over several lines, with comments behind them.

Neither the line endings nor the indentation of the later lines nor the comments are shown. A
comment takes the carriage return of its line ending with it, and what is left of the ending is
folded like any other. -/

namespace BasicOutline

namespace Text

theorem joinLines_append_returnFeed {t : Text} (plain : '\n' ∉ t) (rest : Text) :
    joinLines (t ++ '\r' :: '\n' :: rest) = t ++ ' ' :: joinLines (rest.dropWhile isBlank) := by
  induction t with
  | nil => rw [List.nil_append, joinLines, List.nil_append]
  | cons c more ih =>
    rw [List.mem_cons, not_or] at plain
    rw [List.cons_append, joinLines_cons (Ne.symm plain.1), ih plain.2, List.cons_append]
    intro _ head
    cases more with
    | nil => cases head
    | cons d tail => exact plain.2 (Option.some.inj head ▸ List.mem_cons_self)

theorem joinLines_append_ending {t : Text} (plain : '\n' ∉ t) (clear : t.getLast? ≠ some '\r')
    (ending : LineEnding) (rest : Text) :
    joinLines (t ++ ending.text ++ rest) = t ++ ' ' :: joinLines (rest.dropWhile isBlank) := by
  rw [List.append_assoc]
  cases ending with
  | feed => exact joinLines_append_break plain clear rest
  | returnFeed => exact joinLines_append_returnFeed plain rest

end Text

namespace Signature

open Text

theorem EndsSolid.trimStart_append {t : Text} (solid : EndsSolid t) (more : Text) :
    trimStart (t ++ more) = trimStart t ++ more := by
  obtain ⟨body, c, rfl, plain⟩ := solid
  have stays : ((body ++ [c]).dropWhile isBlank).isEmpty = false := by
    rw [List.dropWhile_append]
    split <;> simp_all
  rw [trimStart, List.dropWhile_append, stays]
  rfl

theorem EndsSolid.trimmed {t : Text} (solid : EndsSolid t) : EndsSolid (trimStart t) := by
  obtain ⟨body, c, rfl, plain⟩ := solid
  have kept : trimStart (body ++ [c]) = trimStart body ++ [c] := by
    rw [trimStart, List.dropWhile_append]
    split <;> simp_all [trimStart]
  exact ⟨trimStart body, c, kept, plain⟩

end Signature

namespace Display

open Text
open Signature (EndsSolid)

structure Comment where
  gap : Text
  body : Text
  deriving DecidableEq, Repr

def Comment.text (comment : Comment) : Text := comment.gap ++ '\x27' :: comment.body

structure Comment.WellFormed (comment : Comment) : Prop where
  blanks : ∀ c ∈ comment.gap, isSpaceOrTab c = true
  no_break : '\n' ∉ comment.body

structure Row where
  code : Text
  comment : Option Comment
  deriving DecidableEq, Repr

namespace Row

def commentText (row : Row) : Text := row.comment.elim [] Comment.text

def text (row : Row) : Text := row.code ++ row.commentText

structure WellFormed (row : Row) : Prop where
  no_break : '\n' ∉ row.code
  no_quote : '\x27' ∉ row.code
  ends : EndsSolid row.code
  comment : ∀ comment ∈ row.comment, comment.WellFormed

end Row

/-- A further line, with the ending of the line before it and the blanks in front of it. -/
structure NextRow where
  ending : LineEnding
  gap : Text
  row : Row
  deriving DecidableEq, Repr

structure NextRow.WellFormed (next : NextRow) : Prop where
  blanks : ∀ c ∈ next.gap, isBlank c = true
  no_break : '\n' ∉ next.gap
  row : next.row.WellFormed

def layout (first : Row) : List NextRow → Text
  | [] => first.text
  | next :: rest => first.text ++ next.ending.text ++ (next.gap ++ layout next.row rest)

def oneLine (first : Row) (rest : List NextRow) : Text :=
  first.code ++ rest.flatMap fun next => ' ' :: trimStart next.row.code

section Comments

variable {row : Row}

theorem Row.WellFormed.text_plain (valid : row.WellFormed) : '\n' ∉ row.text := by
  rw [Row.text, Row.commentText, List.mem_append, not_or]
  refine ⟨valid.no_break, ?_⟩
  cases comment : row.comment with
  | none => exact List.not_mem_nil
  | some written =>
    have known := valid.comment written comment
    rw [Option.elim_some, Comment.text, List.mem_append, List.mem_cons, not_or, not_or]
    exact ⟨fun member => absurd (known.blanks _ member) (by decide), by decide, known.no_break⟩

theorem Row.WellFormed.trimEndWhile_code (valid : row.WellFormed) {gap : Text}
    (blanks : ∀ c ∈ gap, isSpaceOrTab c = true) :
    trimEndWhile isSpaceOrTab (row.code ++ gap) = row.code := by
  have stop : ∀ c, row.code.getLast? = some c → isSpaceOrTab c = false :=
    fun c last => Signature.isSpaceOrTab_of_solid (valid.ends.isBlank_last c last)
  exact trimEndWhile_append_gap stop blanks

theorem dropComment_comment (valid : row.WellFormed) {comment : Comment}
    (known : comment.WellFormed) (more : Text) :
    dropComment (row.code ++ comment.text ++ more) = row.code := by
  have unmarked : '\x27' ∉ row.code ++ comment.gap := by
    rw [List.mem_append, not_or]
    exact ⟨valid.no_quote, fun member => absurd (known.blanks _ member) (by decide)⟩
  have shape : row.code ++ comment.text ++ more =
      (row.code ++ comment.gap) ++ '\x27' :: (comment.body ++ more) := by
    simp [Comment.text]
  rw [dropComment, if_pos (by simp [Comment.text]), shape,
    takeWhile_append_mark unmarked, valid.trimEndWhile_code known.blanks]

theorem dropComment_row (valid : row.WellFormed) : dropComment row.text = row.code := by
  rw [Row.text, Row.commentText]
  cases comment : row.comment with
  | none => rw [Option.elim_none, List.append_nil, dropComment_eq_self valid.no_quote]
  | some written =>
    have dropped := dropComment_comment valid (valid.comment written comment) []
    rwa [List.append_nil] at dropped

theorem dropComments_append_break {line : Text} (single : '\n' ∉ line) (rest : Text) :
    dropComments (line ++ '\n' :: rest) = dropComment line ++ '\n' :: dropComments rest := by
  have split : (line ++ '\n' :: rest).splitOn '\n' = line :: rest.splitOn '\n' := by
    calc
      (line ++ '\n' :: rest).splitOn '\n' = line.splitOn '\n' ++ rest.splitOn '\n' :=
        List.splitOnP_append_cons line rest (beq_self_eq_true '\n')
      _ = line :: rest.splitOn '\n' := by
        rw [List.splitOn_eq_singleton single, List.singleton_append]
  have nonempty : (rest.splitOn '\n').map dropComment ≠ [] := by
    rw [Ne, List.map_eq_nil_iff]
    exact List.splitOn_ne_nil '\n' rest
  rw [dropComments, split, List.map_cons, List.intercalate_cons_of_ne_nil nonempty,
    List.append_assoc, List.singleton_append, dropComments]

/-- What is left of the ending of the line: the comment takes a carriage return with it. -/
def Row.endingLeft (row : Row) (ending : LineEnding) : LineEnding :=
  if row.comment.isSome then .feed else ending

theorem dropComments_row_append (valid : row.WellFormed) (ending : LineEnding) (rest : Text) :
    dropComments (row.text ++ ending.text ++ rest) =
      row.code ++ (row.endingLeft ending).text ++ dropComments rest := by
  cases ending with
  | feed =>
    have left : row.endingLeft .feed = .feed := by simp [Row.endingLeft]
    rw [left, LineEnding.text, List.append_assoc, List.singleton_append,
      dropComments_append_break valid.text_plain, dropComment_row valid, List.append_assoc,
      List.singleton_append]
  | returnFeed =>
    have shape : row.text ++ LineEnding.returnFeed.text ++ rest =
        (row.text ++ ['\r']) ++ '\n' :: rest := by
      simp [LineEnding.text]
    have plain : '\n' ∉ row.text ++ ['\r'] := by
      rw [List.mem_append, not_or]
      exact ⟨valid.text_plain, by decide⟩
    rw [shape, dropComments_append_break plain, Row.text, Row.commentText, Row.endingLeft]
    cases comment : row.comment with
    | none =>
      have unmarked : '\x27' ∉ row.code ++ ['\r'] := by
        rw [List.mem_append, not_or]
        exact ⟨valid.no_quote, by decide⟩
      rw [Option.elim_none, List.append_nil, dropComment_eq_self unmarked]
      simp [LineEnding.text]
    | some written =>
      rw [Option.elim_some, dropComment_comment valid (valid.comment written comment) ['\r']]
      simp [LineEnding.text]

end Comments

section Layout

variable {first : Row} {rest : List NextRow}

def Row.behind (gap : Text) (row : Row) : Row := { row with code := gap ++ row.code }

def Row.trimmed (row : Row) : Row := { row with code := trimStart row.code }

theorem gap_append_layout (gap : Text) (row : Row) (rest : List NextRow) :
    gap ++ layout row rest = layout (row.behind gap) rest := by
  cases rest <;> simp [layout, Row.text, Row.behind, Row.commentText]

theorem NextRow.WellFormed.behind {next : NextRow} (valid : next.WellFormed) :
    (next.row.behind next.gap).WellFormed where
  no_break := by
    rw [Row.behind, List.mem_append, not_or]
    exact ⟨valid.no_break, valid.row.no_break⟩
  no_quote := by
    rw [Row.behind, List.mem_append, not_or]
    exact ⟨fun member => absurd (valid.blanks _ member) (by decide), valid.row.no_quote⟩
  ends := valid.row.ends.append next.gap
  comment := valid.row.comment

theorem Row.WellFormed.trimmed {row : Row} (valid : row.WellFormed) :
    row.trimmed.WellFormed where
  no_break := fun member => valid.no_break ((List.dropWhile_sublist _).subset member)
  no_quote := fun member => valid.no_quote ((List.dropWhile_sublist _).subset member)
  ends := valid.ends.trimmed
  comment := valid.comment

theorem behind_trimmed {gap : Text} (blanks : ∀ c ∈ gap, isBlank c = true) (row : Row) :
    (row.behind gap).trimmed = row.trimmed := by
  rw [Row.behind, Row.trimmed, Row.trimmed, trimStart, List.dropWhile_append_of_pos blanks]
  rfl

theorem dropComments_layout_nil (valid : first.WellFormed) :
    dropComments (layout first []) = first.code := by
  rw [layout, dropComments_eq_dropComment valid.text_plain, dropComment_row valid]

theorem dropComments_layout_cons (valid : first.WellFormed) (next : NextRow) :
    dropComments (layout first (next :: rest)) =
      first.code ++ (first.endingLeft next.ending).text ++
        dropComments (layout (next.row.behind next.gap) rest) := by
  rw [layout, dropComments_row_append valid, gap_append_layout]

/-- Behind a line ending the blanks of the next line go, and nothing else. -/
theorem trimStart_dropComments_layout (valid : first.WellFormed) :
    trimStart (dropComments (layout first rest)) = dropComments (layout first.trimmed rest) := by
  cases rest with
  | nil =>
    rw [dropComments_layout_nil valid, dropComments_layout_nil valid.trimmed]
    rfl
  | cons next rest =>
    rw [dropComments_layout_cons valid, dropComments_layout_cons valid.trimmed, List.append_assoc,
      valid.ends.trimStart_append, ← List.append_assoc]
    rfl

theorem joinLines_layout (valid : first.WellFormed) (others : ∀ next ∈ rest, next.WellFormed) :
    joinLines (dropComments (layout first rest)) = oneLine first rest := by
  induction rest generalizing first with
  | nil =>
    rw [dropComments_layout_nil valid, joinLines_eq_self valid.no_break, oneLine, List.flatMap_nil,
      List.append_nil]
  | cons next rest ih =>
    have here := others next List.mem_cons_self
    have later := ih here.row.trimmed
      fun other member => others other (List.mem_cons_of_mem _ member)
    have clear : first.code.getLast? ≠ some '\r' := valid.ends.getLast?_ne (by decide)
    calc
      joinLines (dropComments (layout first (next :: rest))) =
          first.code ++ ' ' ::
            joinLines (trimStart (dropComments (layout (next.row.behind next.gap) rest))) := by
        rw [dropComments_layout_cons valid, joinLines_append_ending valid.no_break clear]
        rfl
      _ = first.code ++ ' ' :: oneLine next.row.trimmed rest := by
        rw [trimStart_dropComments_layout here.behind, behind_trimmed here.blanks, later]
      _ = oneLine first (next :: rest) := by
        simp [oneLine, Row.trimmed]

theorem not_mem_oneLine {mark : Char} (space : mark ≠ ' ') (absent : mark ∉ first.code)
    (others : ∀ next ∈ rest, mark ∉ next.row.code) : mark ∉ oneLine first rest := by
  rw [oneLine, List.mem_append, List.mem_flatMap, not_or]
  refine ⟨absent, ?_⟩
  rintro ⟨next, member, inside⟩
  rcases List.mem_cons.mp inside with same | later
  · exact space same
  · exact others next member ((List.dropWhile_sublist _).subset later)

theorem exists_layout_eq (first : Row) (rest : List NextRow) :
    ∃ more, layout first rest = first.code ++ more := by
  cases rest with
  | nil => exact ⟨_, rfl⟩
  | cons next rest =>
    exact ⟨_, by rw [layout, Row.text, List.append_assoc, List.append_assoc]⟩

/-- A declaration is shown alike on one line and laid out over several, with or without comments. -/
theorem render_layout (valid : first.WellFormed) (others : ∀ next ∈ rest, next.WellFormed)
    (settings : Settings) :
    render settings (layout first rest) = render settings (oneLine first rest) := by
  have no_quote : '\x27' ∉ oneLine first rest :=
    not_mem_oneLine (by decide) valid.no_quote fun next member => (others next member).row.no_quote
  have no_break : '\n' ∉ oneLine first rest :=
    not_mem_oneLine (by decide) valid.no_break fun next member => (others next member).row.no_break
  have solid : ∃ c ∈ first.code, isBlank c = false := by
    obtain ⟨body, c, same, plain⟩ := valid.ends
    exact ⟨c, by simp [same], plain⟩
  apply render_congr
  · rw [flatten, flatten, joinLines_layout valid others, dropComments_eq_self no_quote,
      joinLines_eq_self no_break]
  · obtain ⟨more, laid⟩ := exists_layout_eq first rest
    rw [laid, indentOf_append solid, oneLine, indentOf_append solid]

/-- Both line endings, a comment before each of them or not, and an open group in a comment. -/
theorem render_layout_of_mixed_endings :
    ∃ (first : Row) (rest : List NextRow), first.WellFormed ∧ (∀ next ∈ rest, next.WellFormed) ∧
      layout first rest = "  Sub F(a, \x27one (\r\n\t b,\r\nc, d\x27As\n)".toList ∧
      render { showParameters := true } (layout first rest) = "  Sub F(a, b, c, d )".toList := by
  let first : Row := ⟨"  Sub F(a,".toList, some ⟨[' '], "one (".toList⟩⟩
  let rest : List NextRow := [
    ⟨.returnFeed, ['\t'], ⟨" b,".toList, none⟩⟩,
    ⟨.returnFeed, [], ⟨"c, d".toList, some ⟨[], "As".toList⟩⟩⟩,
    ⟨.feed, [], ⟨[')'], none⟩⟩]
  have valid : first.WellFormed := by
    refine ⟨by decide, by decide, ⟨"  Sub F(a".toList, ',', rfl, by decide⟩, ?_⟩
    rintro comment ⟨⟩
    exact ⟨List.all_eq_true.mp rfl, by decide⟩
  have others : ∀ next ∈ rest, next.WellFormed := by
    intro next member
    simp only [rest, List.mem_cons, List.not_mem_nil, or_false] at member
    rcases member with rfl | rfl | rfl
    · exact ⟨List.all_eq_true.mp rfl, by decide, by decide, by decide,
        ⟨" b".toList, ',', rfl, by decide⟩, nofun⟩
    · refine ⟨nofun, by decide, by decide, by decide, ⟨"c, ".toList, 'd', rfl, by decide⟩, ?_⟩
      rintro comment ⟨⟩
      exact ⟨nofun, by decide⟩
    · exact ⟨nofun, by decide, by decide, by decide, ⟨[], ')', rfl, by decide⟩, nofun⟩
  exact ⟨first, rest, valid, others, by decide,
    (render_layout valid others _).trans (by decide +kernel)⟩

end Layout

end Display

end BasicOutline
