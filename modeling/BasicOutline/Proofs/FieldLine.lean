import BasicOutline.Proofs.CommentMark
import BasicOutline.Proofs.DeclarationFront
import BasicOutline.Proofs.DisplayAgain
import BasicOutline.Proofs.SplitSignature
import BasicOutline.Proofs.TypeClauses

/-! How the line of a declared variable or constant is shown.

The comment and the initial value always go, the type goes with its setting, and the groups of the
attributes, of the name and of the type are collapsed with theirs. -/

namespace BasicOutline

namespace Declaration

open Text

theorem cutInitializer_append {kept : Text} (absent : '=' ∉ kept)
    (solid : ∀ c, kept.getLast? = some c → isBlank c = false) (value : Text) :
    cutInitializer (kept ++ ' ' :: '=' :: value) = some (kept, fromLineEnd value) := by
  have before : '=' ∉ kept ++ [' '] := by
    rw [List.mem_append, not_or]
    exact ⟨absent, by decide⟩
  have shape : kept ++ ' ' :: '=' :: value = (kept ++ [' ']) ++ '=' :: value := by simp
  have space : ∀ c ∈ [' '], isBlank c = true := List.all_eq_true.mp rfl
  have trimmed : trimEnd (kept ++ [' ']) = kept := trimEndWhile_append_gap solid space
  rw [cutInitializer, shape, dropWhile_append_mark before, takeWhile_append_mark before, trimmed]

def typeText (type : Option Text) : Text := type.elim [] fun type => " As ".toList ++ type

def valueText (value : Option Text) : Text := value.elim [] fun value => " = ".toList ++ value

theorem afterBlankAs?_typeText (type : Text) :
    afterBlankAs? (typeText (some type)) = some (' ' :: type) :=
  afterBlankAs?_eq_some_iff.mpr ⟨[' '], "As".toList, rfl, by decide, List.all_eq_true.mp rfl,
    by decide, head?_cons_stop (by decide) type⟩

end Declaration

namespace Display

open Text Declaration
open Parenthesis (AllClosed collapse)
open Signature (EndsSolid StartsSolid)

structure FieldLine where
  front : Front
  name : Text
  type : Option Text
  value : Option Text
  comment : Option Text
  deriving DecidableEq, Repr

structure Plain (t : Text) : Prop where
  no_break : '\n' ∉ t
  no_quote : '\x27' ∉ t

structure Trimmed (t : Text) : Prop where
  starts : StartsSolid t
  ends : EndsSolid t

namespace FieldLine

def declared (line : FieldLine) : Text := ' ' :: (line.name ++ typeText line.type)

def commentText (line : FieldLine) : Text := line.comment.elim [] fun body => " \x27".toList ++ body

def text (line : FieldLine) : Text :=
  line.front.text ++ (line.declared ++ (valueText line.value ++ line.commentText))

structure WellFormed (line : FieldLine) : Prop where
  front : line.front.WellFormed
  front_closed : ∀ block ∈ line.front.attributes, AllClosed block.body
  name_trimmed : Trimmed line.name
  name_plain : Plain line.name
  name_closed : AllClosed line.name
  name_unvalued : '=' ∉ line.name
  name_untyped : ∀ clause, clause <:+ ' ' :: line.name → ¬ BeginsClause clause
  type_trimmed : ∀ type ∈ line.type, Trimmed type
  type_plain : ∀ type ∈ line.type, Plain type
  type_unvalued : ∀ type ∈ line.type, '=' ∉ type
  value_plain : ∀ value ∈ line.value, Plain value
  comment_no_break : ∀ body ∈ line.comment, '\n' ∉ body

def shown (settings : Settings) (line : FieldLine) : Text :=
  spaces line.front.indent.length ++ (listed settings (blocks line.front.attributes) ++
    (words line.front.modifiers ++ (line.front.keyword ++ ' ' :: (listed settings line.name ++
      if settings.showVarType then typeText (line.type.map (listed settings)) else []))))

end FieldLine

section Listed

variable {settings : Settings} {t front : Text}

theorem listed_append_of_plain (settings : Settings) (plain : '(' ∉ front) (t : Text) :
    listed settings (front ++ t) = front ++ listed settings t := by
  unfold listed
  split
  · rfl
  · exact Parenthesis.collapse_append_of_plain plain t

theorem listed_append_of_closed (settings : Settings) (closed : AllClosed front) (t : Text) :
    listed settings (front ++ t) = listed settings front ++ listed settings t := by
  unfold listed
  split
  · rfl
  · exact closed.collapse_append t

theorem listed_nil (settings : Settings) : listed settings [] = [] := by
  unfold listed
  split
  · rfl
  · rw [collapse]

theorem listed_typeText (settings : Settings) (type : Option Text) :
    listed settings (typeText type) = typeText (type.map (listed settings)) := by
  cases type with
  | none => exact listed_nil settings
  | some type => exact listed_append_of_plain settings (by decide) type

theorem endsSolid_listed (settings : Settings) (ends : EndsSolid t) :
    EndsSolid (listed settings t) := by
  have last : (listed settings t).getLast? = t.getLast? := by
    unfold listed
    split
    · rfl
    · exact Parenthesis.getLast?_collapse t
  obtain ⟨body, c, rfl, solid⟩ := ends
  rw [List.getLast?_concat] at last
  obtain ⟨front, same⟩ := List.getLast?_eq_some_iff.mp last
  exact ⟨front, c, same, solid⟩

theorem not_hasClause_listed (settings : Settings) (untyped : ¬ HasClause t) :
    ¬ HasClause (listed settings t) := by
  unfold listed
  split
  · exact untyped
  · exact fun found => untyped found.of_collapse

def listedFront (settings : Settings) (front : Front) : Front :=
  if settings.showParameters then front else front.collapsed

theorem listed_front_append {front : Front} (settings : Settings) (valid : front.WellFormed)
    (closed : ∀ block ∈ front.attributes, AllClosed block.body) (rest : Text) :
    listed settings (front.text ++ rest) = (listedFront settings front).text ++
      listed settings rest := by
  unfold listed listedFront
  split
  · rfl
  · exact valid.collapse_text closed rest

theorem wellFormed_listedFront {front : Front} (settings : Settings) (valid : front.WellFormed) :
    (listedFront settings front).WellFormed := by
  unfold listedFront
  split
  · exact valid
  · exact valid.collapsed

theorem blocks_listedFront {front : Front} (settings : Settings) (valid : front.WellFormed)
    (closed : ∀ block ∈ front.attributes, AllClosed block.body) :
    blocks (listedFront settings front).attributes = listed settings (blocks front.attributes) := by
  unfold listedFront listed
  split
  · rfl
  · have alone := collapse_blocks valid.attributes closed []
    rw [collapse, List.append_nil, List.append_nil] at alone
    exact alone.symm

@[simp] theorem listedFront_modifiers (settings : Settings) (front : Front) :
    (listedFront settings front).modifiers = front.modifiers := by
  unfold listedFront
  split <;> rfl

@[simp] theorem listedFront_keyword (settings : Settings) (front : Front) :
    (listedFront settings front).keyword = front.keyword := by
  unfold listedFront
  split <;> rfl

end Listed

section Types

variable {front : Front} {name : Text} {settings : Settings}

theorem breaks_of_space (t : Text) : Breaks (' ' :: t) := head?_cons_stop (by decide) t

theorem returned_front_append (settings : Settings) (valid : front.WellFormed) (rest : Text) :
    returned settings (front.text ++ ' ' :: rest) = front.text ++ ' ' :: rest := by
  unfold returned
  split
  · rfl
  · exact dropReturnType_of_occurs (valid.occurs_text (breaks_of_space rest))

theorem typed_front_append (valid : front.WellFormed) (ends : EndsSolid name)
    (no_break : '\n' ∉ name) (untyped : ¬ HasClause (' ' :: name)) {type : Option Text}
    (type_no_break : '\n' ∉ typeText type) :
    typed settings (front.text ++ ' ' :: (name ++ typeText type)) =
      front.text ++ ' ' :: (name ++ if settings.showVarType then typeText type else []) := by
  have name_plain : '\n' ∉ ' ' :: name := by
    rw [List.mem_cons, not_or]
    exact ⟨by decide, no_break⟩
  unfold typed
  cases shows : settings.showVarType with
  | true => simp only [if_true]
  | false =>
    simp only [Bool.false_eq_true, if_false, List.append_nil]
    cases type with
    | none =>
      rw [typeText, Option.elim_none, List.append_nil]
      have absent : ¬ Part.type.Within (' ' :: name) := untyped
      exact valid.drop_eq_self (breaks_of_space name) name_plain absent
    | some type =>
      have solid := (ends.append [' ']).isBlank_last
      have plain : '\n' ∉ ' ' :: (name ++ typeText (some type)) := by
        rw [← List.cons_append, List.mem_append, not_or]
        exact ⟨name_plain, type_no_break⟩
      have cut : Part.type.cut (' ' :: name ++ typeText (some type)) = some (' ' :: name, _) :=
        cutType_append name_plain untyped solid (afterBlankAs?_typeText type)
      exact valid.drop_eq (breaks_of_space _) plain cut

end Types

section Lines

variable {line : FieldLine}

theorem Plain.append {first second : Text} (front : Plain first) (back : Plain second) :
    Plain (first ++ second) where
  no_break := by
    rw [List.mem_append, not_or]
    exact ⟨front.no_break, back.no_break⟩
  no_quote := by
    rw [List.mem_append, not_or]
    exact ⟨front.no_quote, back.no_quote⟩

theorem plain_elim {mark : Text} {part : Option Text} (front : Plain mark)
    (valid : ∀ text ∈ part, Plain text) : Plain (part.elim [] fun text => mark ++ text) := by
  cases part with
  | none => exact ⟨List.not_mem_nil, List.not_mem_nil⟩
  | some text => exact front.append (valid text rfl)

theorem FieldLine.WellFormed.typeText_plain (valid : line.WellFormed) :
    Plain (typeText line.type) :=
  plain_elim ⟨by decide, by decide⟩ valid.type_plain

theorem FieldLine.WellFormed.declared_plain (valid : line.WellFormed) : Plain line.declared := by
  have space : Plain [' '] := ⟨by decide, by decide⟩
  exact space.append (valid.name_plain.append valid.typeText_plain)

theorem FieldLine.WellFormed.declared_ends (valid : line.WellFormed) : EndsSolid line.declared := by
  unfold FieldLine.declared
  cases type : line.type with
  | none =>
    rw [typeText, Option.elim_none, List.append_nil]
    exact valid.name_trimmed.ends.append [' ']
  | some text =>
    have ends := (valid.type_trimmed text type).ends
    exact ((ends.append " As ".toList).append line.name).append [' ']

theorem FieldLine.WellFormed.declared_unvalued (valid : line.WellFormed) : '=' ∉ line.declared := by
  rw [FieldLine.declared, List.mem_cons, List.mem_append, not_or, not_or]
  refine ⟨by decide, valid.name_unvalued, ?_⟩
  cases type : line.type with
  | none => exact List.not_mem_nil
  | some text =>
    rw [typeText, Option.elim_some, List.mem_append, not_or]
    exact ⟨by decide, valid.type_unvalued text type⟩

theorem plain_blocks {attributes : List Block} (valid : ∀ block ∈ attributes, block.WellFormed) :
    Plain (blocks attributes) := by
  have inside : ∀ c ∈ blocks attributes, c ≠ '\n' ∧ c ≠ '\x27' := by
    intro c member
    obtain ⟨block, known, part⟩ := List.mem_flatMap.mp member
    have here := valid block known
    simp only [List.mem_cons, List.mem_append] at part
    rcases part with rfl | body | rfl | gap
    · decide
    · exact ⟨fun same => here.no_break (same ▸ body), fun same => here.no_quote (same ▸ body)⟩
    · decide
    · refine ⟨fun same => here.gap_no_break (same ▸ gap), ?_⟩
      rintro rfl
      exact absurd (here.blanks _ gap) (by decide)
  exact ⟨fun member => (inside _ member).1 rfl, fun member => (inside _ member).2 rfl⟩

theorem plain_front {front : Front} (valid : front.WellFormed) : Plain front.text := by
  have letters := isWord_of_isKeyword valid.keyword
  have indent : Plain front.indent :=
    ⟨valid.no_break, fun member => absurd (valid.blanks _ member) (by decide)⟩
  have modifiers : Plain (words front.modifiers) := ⟨break_not_mem_words valid.modifiers,
    mark_not_mem_words (by decide) (by decide +kernel) valid.modifiers⟩
  have keyword : Plain front.keyword :=
    ⟨fun member => absurd (letters _ member) (by decide +kernel),
      fun member => absurd (letters _ member) (by decide +kernel)⟩
  exact indent.append ((plain_blocks valid.attributes).append (modifiers.append keyword))

theorem FieldLine.WellFormed.code_plain (valid : line.WellFormed) :
    Plain (line.front.text ++ (line.declared ++ valueText line.value)) :=
  (plain_front valid.front).append
    (valid.declared_plain.append (plain_elim ⟨by decide, by decide⟩ valid.value_plain))

theorem FieldLine.WellFormed.text_no_break (valid : line.WellFormed) : '\n' ∉ line.text := by
  have code := valid.code_plain.no_break
  simp only [List.mem_append, not_or] at code
  simp only [FieldLine.text, List.mem_append, not_or]
  refine ⟨code.1, code.2.1, code.2.2, ?_⟩
  rw [FieldLine.commentText]
  cases comment : line.comment with
  | none => exact List.not_mem_nil
  | some body =>
    rw [Option.elim_some, List.mem_append, not_or]
    exact ⟨by decide, valid.comment_no_break body comment⟩

/-- What may be left of the initial value when the comment is dropped: its mark stays. -/
def ValueLeft (line : FieldLine) (left : Text) : Prop :=
  line.value = none ∧ left = [] ∨ ∃ more, left = ' ' :: '=' :: more

theorem valueLeft_valueText (line : FieldLine) : ValueLeft line (valueText line.value) := by
  cases value : line.value with
  | none => exact .inl ⟨value, rfl⟩
  | some text => exact .inr ⟨' ' :: text, rfl⟩

/-- Blanks before the comment go, up to the mark of the initial value at most. -/
theorem FieldLine.WellFormed.trimEndWhile_code (valid : line.WellFormed) :
    ∃ left, trimEndWhile isSpaceOrTab
        (line.front.text ++ (line.declared ++ (valueText line.value ++ [' ']))) =
      line.front.text ++ (line.declared ++ left) ∧ ValueLeft line left := by
  rw [← List.append_assoc]
  cases value : line.value with
  | none =>
    have stop : ∀ c, (line.front.text ++ line.declared).getLast? = some c →
        isSpaceOrTab c = false :=
      fun c last => Signature.isSpaceOrTab_of_solid
        ((valid.declared_ends.append line.front.text).isBlank_last c last)
    refine ⟨[], ?_, .inl ⟨value, rfl⟩⟩
    rw [trimEndWhile_append_stop stop, List.append_assoc]
    rfl
  | some text =>
    have shape : valueText (some text) ++ [' '] = [' ', '='] ++ (' ' :: text ++ [' ']) := by
      simp [valueText]
    have stop : ∀ c, (line.front.text ++ line.declared ++ [' ', '=']).getLast? = some c →
        isSpaceOrTab c = false := by
      intro c last
      have same : c = '=' := by simpa using last.symm
      rw [same]
      decide
    refine ⟨[' ', '='] ++ trimEndWhile isSpaceOrTab (' ' :: text ++ [' ']), ?_, .inr ⟨_, rfl⟩⟩
    rw [shape, ← List.append_assoc, trimEndWhile_append_stop stop, List.append_assoc,
      List.append_assoc]

theorem FieldLine.WellFormed.dropComments_text (valid : line.WellFormed) :
    ∃ left, dropComments line.text = line.front.text ++ (line.declared ++ left) ∧
      ValueLeft line left := by
  rw [FieldLine.text, FieldLine.commentText]
  cases comment : line.comment with
  | none =>
    refine ⟨valueText line.value, ?_, valueLeft_valueText line⟩
    rw [Option.elim_none, List.append_nil, dropComments_eq_self valid.code_plain.no_quote]
  | some body =>
    have single := valid.text_no_break
    rw [FieldLine.text, FieldLine.commentText, comment] at single
    have shape : line.front.text ++ (line.declared ++ (valueText line.value ++
          (some body).elim [] fun body => " \x27".toList ++ body)) =
        (line.front.text ++ (line.declared ++ (valueText line.value ++ [' ']))) ++
          '\x27' :: body := by
      simp
    have unmarked :
        '\x27' ∉ line.front.text ++ (line.declared ++ (valueText line.value ++ [' '])) := by
      have code := valid.code_plain.no_quote
      simp only [List.mem_append, not_or] at code ⊢
      exact ⟨code.1, code.2.1, code.2.2, by decide⟩
    rw [dropComments_eq_dropComment single, shape, dropComment, if_pos (by simp),
      takeWhile_append_mark unmarked]
    exact valid.trimEndWhile_code

theorem FieldLine.WellFormed.flatten_text (valid : line.WellFormed) :
    flatten line.text = line.front.text ++ line.declared := by
  obtain ⟨left, dropped, value⟩ := valid.dropComments_text
  have plain : '\n' ∉ line.front.text ++ (line.declared ++ left) := by
    intro member
    rw [← dropped, dropComments_eq_dropComment valid.text_no_break] at member
    exact valid.text_no_break (mem_dropComment member).2
  have left_plain : '\n' ∉ line.declared ++ left :=
    fun member => plain (List.mem_append_right _ member)
  rw [flatten, dropped, joinLines_eq_self plain]
  rcases value with ⟨-, rfl⟩ | ⟨more, rfl⟩
  · have absent : ¬ Part.initializer.Within line.declared := valid.declared_unvalued
    rw [List.append_nil] at left_plain ⊢
    exact valid.front.drop_eq_self (breaks_of_space _) left_plain absent
  · have cut : Part.initializer.cut (line.declared ++ ' ' :: '=' :: more) =
        some (line.declared, fromLineEnd more) :=
      cutInitializer_append valid.declared_unvalued valid.declared_ends.isBlank_last more
    exact valid.front.drop_eq (breaks_of_space _) left_plain cut

theorem FieldLine.WellFormed.listed_declared (valid : line.WellFormed) (settings : Settings) :
    listed settings line.declared =
      ' ' :: (listed settings line.name ++ typeText (line.type.map (listed settings))) := by
  calc
    listed settings ([' '] ++ (line.name ++ typeText line.type)) =
        [' '] ++ listed settings (line.name ++ typeText line.type) :=
      listed_append_of_plain settings (by decide) _
    _ = [' '] ++ (listed settings line.name ++ typeText (line.type.map (listed settings))) := by
      rw [listed_append_of_closed settings valid.name_closed, listed_typeText]

theorem FieldLine.WellFormed.listed_name_untyped (valid : line.WellFormed) (settings : Settings) :
    ¬ HasClause (' ' :: listed settings line.name) := by
  have spaced : listed settings ([' '] ++ line.name) = ' ' :: listed settings line.name :=
    listed_append_of_plain settings (by decide) line.name
  rw [← spaced]
  apply not_hasClause_listed
  rw [hasClause_iff]
  rintro ⟨clause, suffix, begins⟩
  exact valid.name_untyped clause suffix begins

theorem FieldLine.WellFormed.hidden_text (valid : line.WellFormed) (settings : Settings) :
    hidden settings (line.front.text ++ line.declared) =
      (listedFront settings line.front).text ++ ' ' :: (listed settings line.name ++
        if settings.showVarType then typeText (line.type.map (listed settings)) else []) := by
  have front := wellFormed_listedFront settings valid.front
  have name_no_break : '\n' ∉ listed settings line.name :=
    fun member => valid.name_plain.no_break ((listed_sublist settings _).subset member)
  have type_no_break : '\n' ∉ typeText (line.type.map (listed settings)) := by
    rw [← listed_typeText]
    exact fun member => valid.typeText_plain.no_break ((listed_sublist settings _).subset member)
  rw [hidden, listed_front_append settings valid.front valid.front_closed, valid.listed_declared,
    returned_front_append settings front]
  exact typed_front_append front (endsSolid_listed settings valid.name_trimmed.ends) name_no_break
    (valid.listed_name_untyped settings) type_no_break

theorem front_stop {front : Front} (valid : front.WellFormed) (rest : Text) :
    ∀ c, (blocks front.attributes ++ (words front.modifiers ++ front.keyword) ++ rest).head? =
      some c → isBlank c = false := by
  have attributed := attributed_blocks valid.attributes
    (.plain (modified_words valid.modifiers valid.keyword))
  obtain ⟨d, more, same, solid⟩ := attributed.head?_solid
  rw [same]
  exact head?_cons_stop solid _

theorem FieldLine.WellFormed.indentOf_text (valid : line.WellFormed) :
    indentOf line.text = line.front.indent.length := by
  rw [indentOf, lines_eq_singleton valid.text_no_break, List.headD_cons, FieldLine.text, Front.text,
    List.append_assoc, takeWhile_append_stop valid.front.blanks (front_stop valid.front _)]

theorem trimStart_front {front : Front} (valid : front.WellFormed) (rest : Text) :
    trimStart (front.text ++ rest) =
      blocks front.attributes ++ (words front.modifiers ++ front.keyword) ++ rest := by
  rw [Front.text, List.append_assoc, trimStart,
    dropWhile_append_stop valid.blanks (front_stop valid rest)]

/-- The line of a declaration is shown with its front, its name and, if the settings ask for it, its
type. -/
theorem render_fieldLine (valid : line.WellFormed) (settings : Settings) :
    render settings line.text = line.shown settings := by
  have front := wellFormed_listedFront settings valid.front
  rw [render_eq, valid.flatten_text, valid.hidden_text, valid.indentOf_text, reindent,
    trimStart_front front, blocks_listedFront settings valid.front valid.front_closed]
  simp [FieldLine.shown]

/-- An attribute with a colon and an equals sign inside it, an array, a type with a group, and an
equals sign in the comment. -/
theorem render_fieldLine_of_attributed :
    ∃ line : FieldLine, line.WellFormed ∧
      line.text =
        " \t<A(B:=\"=\")> Public Shared DIM x(1, (2)) As Map(Of T) = 0  \x27 As = (".toList ∧
      render {} line.text = "  <A()> Public Shared DIM x()".toList ∧
      render ⟨false, 2, true, false, true⟩ line.text =
        "  <A(B:=\"=\")> Public Shared DIM x(1, (2)) As Map(Of T)".toList ∧
      render ⟨false, 2, false, false, true⟩ line.text =
        "  <A()> Public Shared DIM x() As Map()".toList := by
  let line : FieldLine := {
    front := {
      indent := " \t".toList
      attributes := [⟨"A(B:=\"=\")".toList, [' ']⟩]
      modifiers := [⟨"Public".toList, [' ']⟩, ⟨"Shared".toList, [' ']⟩]
      keyword := "DIM".toList }
    name := "x(1, (2))".toList
    type := some "Map(Of T)".toList
    value := some "0 ".toList
    comment := some " As = (".toList }
  have front : line.front.WellFormed := {
    blanks := List.all_eq_true.mp (by decide)
    no_break := by decide
    attributes := by
      intro block member
      obtain rfl := List.mem_singleton.mp member
      exact ⟨by decide, by decide, by decide, by decide, by decide, List.all_eq_true.mp rfl,
        by decide⟩
    modifiers := by
      intro modifier member
      simp only [line, List.mem_cons, List.not_mem_nil, or_false] at member
      rcases member with rfl | rfl
      all_goals exact ⟨by decide, List.all_eq_true.mp (by decide +kernel), by decide, by decide,
        List.all_eq_true.mp rfl, by decide⟩
    keyword := by decide }
  have valid : line.WellFormed := {
    front := front
    front_closed := by decide
    name_trimmed :=
      ⟨⟨'x', "(1, (2))".toList, rfl, by decide⟩, ⟨"x(1, (2)".toList, ')', rfl, by decide⟩⟩
    name_plain := ⟨by decide, by decide⟩
    name_closed := by decide
    name_unvalued := by decide
    name_untyped := by
      intro clause suffix
      have checked : ∀ clause ∈ (' ' :: line.name).tails, ¬ BeginsClause clause := by decide
      exact checked clause ((List.mem_tails _ _).mpr suffix)
    type_trimmed := by
      rintro type ⟨⟩
      exact ⟨⟨'M', "ap(Of T)".toList, rfl, by decide⟩, ⟨"Map(Of T".toList, ')', rfl, by decide⟩⟩
    type_plain := by
      rintro type ⟨⟩
      exact ⟨by decide, by decide⟩
    type_unvalued := by decide
    value_plain := by
      rintro value ⟨⟩
      exact ⟨by decide, by decide⟩
    comment_no_break := by decide }
  exact ⟨line, valid, by decide +kernel, (render_fieldLine valid _).trans (by decide +kernel),
    (render_fieldLine valid _).trans (by decide +kernel),
    (render_fieldLine valid _).trans (by decide +kernel)⟩

end Lines

end Display

end BasicOutline
