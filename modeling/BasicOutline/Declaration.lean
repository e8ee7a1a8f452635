import BasicOutline.Text.Word

/-! `Dim` and `Const` statements: where one begins, and the parts of it that can be dropped. -/

namespace BasicOutline.Declaration

open Text

def isKeyword (word : Text) : Bool :=
  spells "dim".toList word || spells "const".toList word

def afterAttributes : Text → Text
  | '<' :: rest =>
    match _ : rest.dropWhile (· != '>') with
    | _ :: after => afterAttributes (after.dropWhile isBlank)
    | [] => '<' :: rest
  | t => t
termination_by t => t.length
decreasing_by
  have outer := length_dropWhile_le (· != '>') rest
  have inner := length_dropWhile_le isBlank after
  simp_all only [List.length_cons]
  omega

theorem afterAttributes_suffix (t : Text) : afterAttributes t <:+ t := by
  fun_induction afterAttributes t with
  | case1 rest mark after found ih =>
    have block : after <:+ rest :=
      (List.suffix_cons mark after).trans (found ▸ List.dropWhile_suffix _)
    exact (ih.trans (List.dropWhile_suffix _)).trans (block.trans (List.suffix_cons _ _))
  | case2 => exact List.suffix_rfl
  | case3 => exact List.suffix_rfl

theorem length_dropWhile_lt {keep : Char → Bool} {t : Text} (kept : t.takeWhile keep ≠ []) :
    (t.dropWhile keep).length < t.length := by
  have parts := congrArg List.length (List.takeWhile_append_dropWhile (p := keep) (l := t))
  have some_kept := List.length_pos_iff.mpr kept
  simp only [List.length_append] at parts
  omega

/-- What follows each keyword among the words at the beginning of a text, the nearest first. The
words before a keyword are its modifiers. -/
def afterKeywords (t : Text) : List Text :=
  if _ : t.takeWhile isWord = [] then []
  else
    let after := t.dropWhile isWord
    let here := if isKeyword (t.takeWhile isWord) then [after] else []
    if (after.takeWhile isBlank).isEmpty then here
    else here ++ afterKeywords (after.dropWhile isBlank)
termination_by t.length
decreasing_by
  have word := length_dropWhile_lt ‹_›
  have blanks := length_dropWhile_le isBlank (t.dropWhile isWord)
  omega

def ProperTail (tail t : Text) : Prop := tail <:+ t ∧ tail.length < t.length

theorem ProperTail.of_suffix {tail t u : Text} (proper : ProperTail tail t) (suffix : t <:+ u) :
    ProperTail tail u :=
  ⟨proper.1.trans suffix, Nat.lt_of_lt_of_le proper.2 suffix.length_le⟩

theorem properTail_of_mem_afterKeywords {t tail : Text} (found : tail ∈ afterKeywords t) :
    ProperTail tail t := by
  fun_induction afterKeywords t with
  | case1 => simp at found
  | case2 t word after here _ =>
    have keyword : tail = after := by grind
    exact keyword ▸ ⟨List.dropWhile_suffix _, length_dropWhile_lt word⟩
  | case3 t word after here _ ih =>
    rcases List.mem_append.mp found with first | later
    · have keyword : tail = after := by grind
      exact keyword ▸ ⟨List.dropWhile_suffix _, length_dropWhile_lt word⟩
    · exact (ih later).of_suffix ((List.dropWhile_suffix _).trans (List.dropWhile_suffix _))

def afterHeads (statement : Text) : List Text :=
  afterKeywords (afterAttributes (trimStart statement))

/-- What follows each declaration head at the beginning of a text. A statement begins with a line
or after a colon. -/
def headTails (lineStart : Bool) (t : Text) : List Text :=
  (if lineStart then afterHeads t else []) ++
    match t with
    | ':' :: statement => afterHeads statement
    | _ => []

theorem properTail_of_mem_afterHeads {t tail : Text} (found : tail ∈ afterHeads t) :
    ProperTail tail t :=
  (properTail_of_mem_afterKeywords found).of_suffix
    ((afterAttributes_suffix _).trans (List.dropWhile_suffix _))

theorem properTail_of_mem_headTails {lineStart : Bool} {t tail : Text}
    (found : tail ∈ headTails lineStart t) : ProperTail tail t := by
  rcases List.mem_append.mp found with first | colon
  · have heads : tail ∈ afterHeads t := by grind
    exact properTail_of_mem_afterHeads heads
  · split at colon
    · exact (properTail_of_mem_afterHeads colon).of_suffix (List.suffix_cons _ _)
    · cases colon

def occursFrom (lineStart : Bool) : Text → Bool
  | [] => false
  | c :: rest => !(headTails lineStart (c :: rest)).isEmpty || occursFrom (c == '\n') rest

def occurs (t : Text) : Bool := occursFrom true t

def afterAs? (t : Text) : Option Text :=
  match afterWord? "as".toList t with
  | some [] => some []
  | some (c :: rest) => if isWord c then none else some (c :: rest)
  | none => none

def afterBlankAs? (t : Text) : Option Text :=
  match t with
  | c :: rest => if isBlank c then afterAs? (rest.dropWhile isBlank) else none
  | [] => none

def fromLineEnd (t : Text) : Text := t.dropWhile (· != '\n')

/-- Cuts an initializer: what stands before the first `=`, and the rest after the line of it. -/
def cutInitializer (tail : Text) : Option (Text × Text) :=
  match tail.dropWhile (· != '=') with
  | _ :: value => some (trimEnd (tail.takeWhile (· != '=')), fromLineEnd value)
  | [] => none

/-- Cuts a type: what stands on the line before the first `As`, and the rest after the line of
it. -/
def cutType : Text → Option (Text × Text)
  | [] => none
  | c :: rest =>
    ((afterBlankAs? (c :: rest)).map fun type => ([], fromLineEnd type)).or
      (if c = '\n' then none else (cutType rest).map fun cut => (c :: cut.1, cut.2))

inductive Part where
  | initializer
  | type
  deriving DecidableEq, Repr

def Part.cut : Part → Text → Option (Text × Text)
  | .initializer => cutInitializer
  | .type => cutType

theorem afterAs?_suffix {t rest : Text} (found : afterAs? t = some rest) : rest <:+ t := by
  simp only [afterAs?] at found
  split at found <;> grind [afterWord?_suffix]

theorem afterBlankAs?_suffix {t rest : Text} (found : afterBlankAs? t = some rest) :
    rest <:+ t := by
  cases t with
  | nil => simp [afterBlankAs?] at found
  | cons c tail =>
    simp only [afterBlankAs?] at found
    split at found
    · exact ((afterAs?_suffix found).trans (List.dropWhile_suffix _)).trans (List.suffix_cons _ _)
    · cases found

theorem cutInitializer_suffix {tail kept rest : Text}
    (found : cutInitializer tail = some (kept, rest)) : rest <:+ tail := by
  simp only [cutInitializer] at found
  split at found
  · rename_i mark value equals
    simp only [Option.some.injEq, Prod.mk.injEq] at found
    have after : value <:+ tail :=
      (List.suffix_cons mark value).trans (equals ▸ List.dropWhile_suffix _)
    exact found.2 ▸ (List.dropWhile_suffix _).trans after
  · cases found

theorem cutType_suffix {tail kept rest : Text} (found : cutType tail = some (kept, rest)) :
    rest <:+ tail := by
  induction tail generalizing kept with
  | nil => simp [cutType] at found
  | cons c more ih =>
    simp only [cutType, Option.or_eq_some_iff, Option.map_eq_some_iff, Prod.mk.injEq] at found
    rcases found with ⟨type, clause, _, rfl⟩ | ⟨_, later⟩
    · exact (List.dropWhile_suffix _).trans (afterBlankAs?_suffix clause)
    · split at later
      · cases later
      · simp only [Option.map_eq_some_iff, Prod.exists, Prod.mk.injEq] at later
        obtain ⟨inner, after, cut, _, rfl⟩ := later
        exact (ih cut).trans (List.suffix_cons _ _)

theorem Part.cut_suffix {part : Part} {tail kept rest : Text}
    (found : part.cut tail = some (kept, rest)) : rest <:+ tail := by
  cases part
  · exact cutInitializer_suffix found
  · exact cutType_suffix found

def cutAt (part : Part) (lineStart : Bool) (t : Text) : Option (Text × Text) :=
  (headTails lineStart t).findSome? fun tail =>
    (part.cut tail).map fun cut => (t.take (t.length - tail.length) ++ cut.1, cut.2)

theorem cutAt_length_lt {part : Part} {lineStart : Bool} {t kept rest : Text}
    (found : cutAt part lineStart t = some (kept, rest)) : rest.length < t.length := by
  unfold cutAt at found
  obtain ⟨tail, head, cut⟩ := List.exists_of_findSome?_eq_some found
  simp only [Option.map_eq_some_iff, Prod.exists, Prod.mk.injEq] at cut
  obtain ⟨inner, after, piece, _, rfl⟩ := cut
  exact Nat.lt_of_le_of_lt (Part.cut_suffix piece).length_le (properTail_of_mem_headTails head).2

/-- Drops the part from the declarations of a text, from the left; the search goes on after the
line that was cut. -/
def dropFrom (part : Part) (lineStart : Bool) : Text → Text
  | [] => []
  | c :: rest =>
    match _ : cutAt part lineStart (c :: rest) with
    | some (kept, after) => kept ++ dropFrom part false after
    | none => c :: dropFrom part (c == '\n') rest
termination_by t => t.length
decreasing_by
  · exact cutAt_length_lt ‹_›
  · simp

def drop (part : Part) (t : Text) : Text := dropFrom part true t

def dropInitializers (t : Text) : Text := drop .initializer t

def dropTypes (t : Text) : Text := drop .type t

end BasicOutline.Declaration
