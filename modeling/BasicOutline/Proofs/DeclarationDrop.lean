import BasicOutline.Proofs.DeclarationTails

/-! Dropping the initial values and the types of declarations.

What is left is a part of the text. Something is dropped exactly where a declaration head is
followed by the part, and then the text gets lighter. -/

namespace BasicOutline.Declaration

open Text

section Cuts

variable {tail kept rest : Text}

theorem cutInitializer_eq_none_iff : cutInitializer tail = none ↔ '=' ∉ tail := by
  unfold cutInitializer
  split
  · rename_i mark value found
    refine ⟨nofun, fun absent => ?_⟩
    have inside : mark ∈ tail := (List.dropWhile_sublist _).subset (found ▸ List.mem_cons_self)
    obtain rfl : mark = '=' := eq_mark_of_dropWhile found
    exact absurd inside absent
  · rename_i found
    refine ⟨fun _ member => ?_, fun _ => rfl⟩
    have different := List.dropWhile_eq_nil_iff.mp found '=' member
    simp at different

theorem cutInitializer_spec (found : cutInitializer tail = some (kept, rest)) :
    ∃ before value, tail = before ++ '=' :: value ∧ '=' ∉ before ∧ kept = trimEnd before ∧
      rest = fromLineEnd value := by
  unfold cutInitializer at found
  split at found
  · rename_i mark value equals
    obtain rfl : mark = '=' := eq_mark_of_dropWhile equals
    obtain ⟨rfl, rfl⟩ := Prod.mk.inj (Option.some.inj found)
    refine ⟨tail.takeWhile (· != '='), value, ?_, not_mem_takeWhile_mark '=' tail, rfl, rfl⟩
    rw [← equals, List.takeWhile_append_dropWhile]
  · cases found

theorem isBlank_of_sameLetter {letter c : Char} (known : letter = 'a' ∨ letter = 's')
    (same : sameLetter letter c = true) : isBlank c = false := by
  rcases known with rfl | rfl
  · have cases : c = 'a' ∨ c = 'A' := by simpa [sameLetter, foldsTo] using same
    rcases cases with rfl | rfl <;> decide
  · have cases : c = 's' ∨ c = 'S' ∨ c = '\u017F' := by simpa [sameLetter, foldsTo] using same
    rcases cases with rfl | rfl | rfl <;> decide

theorem afterWord?_as_iff {t rest : Text} :
    afterWord? "as".toList t = some rest ↔
      ∃ a s, t = a :: s :: rest ∧ sameLetter 'a' a = true ∧ sameLetter 's' s = true := by
  have word : "as".toList = ['a', 's'] := rfl
  rw [word]
  match t with
  | [] => simp [afterWord?]
  | [a] => simp [afterWord?]
  | a :: s :: more =>
    simp only [afterWord?, List.cons.injEq]
    grind

theorem afterAs?_eq_some_iff {t type : Text} :
    afterAs? t = some type ↔ ∃ a s, t = a :: s :: type ∧ sameLetter 'a' a = true ∧
      sameLetter 's' s = true ∧ Breaks type := by
  have breaks : afterAs? t = some type ↔ afterWord? "as".toList t = some type ∧ Breaks type := by
    unfold afterAs?
    cases afterWord? "as".toList t with
    | none => simp
    | some rest =>
      cases rest with
      | nil =>
        simp only [Option.some.injEq]
        refine ⟨?_, fun same => same.1⟩
        rintro rfl
        exact ⟨rfl, nofun⟩
      | cons c more =>
        cases letter : isWord c with
        | false =>
          simp only [letter, Bool.false_eq_true, if_false, Option.some.injEq]
          refine ⟨?_, fun same => same.1⟩
          rintro rfl
          exact ⟨rfl, fun d head => Option.some.inj head ▸ letter⟩
        | true =>
          simp only [letter, if_true, Option.some.injEq]
          refine ⟨nofun, ?_⟩
          rintro ⟨rfl, stop⟩
          have plain := stop c rfl
          rw [letter] at plain
          cases plain
  rw [breaks, afterWord?_as_iff]
  constructor
  · rintro ⟨⟨a, s, same, first, second⟩, stop⟩
    exact ⟨a, s, same, first, second, stop⟩
  · rintro ⟨a, s, same, first, second, stop⟩
    exact ⟨⟨a, s, same, first, second⟩, stop⟩

theorem afterBlankAs?_spec {t type : Text} (found : afterBlankAs? t = some type) :
    ∃ c rest, t = c :: rest ∧ isBlank c = true ∧ weight type < weight t := by
  cases t with
  | nil => cases found
  | cons c rest =>
    rw [afterBlankAs?] at found
    split at found
    · rename_i blank
      obtain ⟨a, s, rest_eq, first, -, -⟩ := afterAs?_eq_some_iff.mp found
      have solid := isBlank_of_sameLetter (.inl rfl) first
      refine ⟨c, rest, rfl, blank, ?_⟩
      have clause : weight (a :: s :: type) ≤ weight (c :: rest) :=
        weight_le_of_sublist (rest_eq ▸ (List.dropWhile_sublist _).cons c)
      have letter : weight (a :: s :: type) = weight (s :: type) + 1 := by
        rw [weight, List.countP_cons_of_pos (by simp [isSolid, solid]), weight]
      have type_le : weight type ≤ weight (s :: type) :=
        weight_le_of_sublist (List.sublist_cons_self s type)
      omega
    · cases found

theorem Breaks.append {first second : Text} (breaks : Breaks first) (more : Breaks second) :
    Breaks (first ++ second) := by
  cases first with
  | nil => exact more
  | cons c rest => exact breaks

theorem Breaks.of_append {first second : Text} (breaks : Breaks (first ++ second)) :
    Breaks first := by
  intro c head
  exact breaks c (by rw [List.head?_append, head, Option.some_or])

/-- A clause is still found when the text goes on, unless its last word does. -/
theorem afterBlankAs?_append {t type more : Text} (found : afterBlankAs? t = some type)
    (breaks : Breaks more) : afterBlankAs? (t ++ more) = some (type ++ more) := by
  cases t with
  | nil => cases found
  | cons c rest =>
    rw [afterBlankAs?] at found
    split at found
    · rename_i blank
      obtain ⟨a, s, rest_eq, first, second, stop⟩ := afterAs?_eq_some_iff.mp found
      have longer : (rest ++ more).dropWhile isBlank = a :: s :: (type ++ more) := by
        rw [List.dropWhile_append, rest_eq]
        rfl
      rw [List.cons_append, afterBlankAs?, if_pos blank, longer]
      exact afterAs?_eq_some_iff.mpr ⟨a, s, rfl, first, second, stop.append breaks⟩
    · cases found

theorem breaks_of_clause {clause type : Text} (found : afterBlankAs? clause = some type) :
    Breaks clause := by
  obtain ⟨c, rest, rfl, blank, -⟩ := afterBlankAs?_spec found
  intro d head
  obtain rfl := Option.some.inj head
  exact isWord_of_isBlank blank

def HasClause (t : Text) : Prop := ∃ clause, clause <:+ t ∧ (afterBlankAs? clause).isSome = true

theorem not_hasClause_nil : ¬ HasClause [] := by
  rintro ⟨clause, suffix, found⟩
  obtain rfl := List.suffix_nil.mp suffix
  cases found

theorem hasClause_cons {c : Char} {t : Text} :
    HasClause (c :: t) ↔ (afterBlankAs? (c :: t)).isSome = true ∨ HasClause t := by
  simp only [HasClause, List.suffix_cons_iff, or_and_right, exists_or, exists_eq_left]

theorem cutType_spec (found : cutType tail = some (kept, rest)) :
    ∃ clause type, tail = kept ++ clause ∧ afterBlankAs? clause = some type ∧
      rest = fromLineEnd type := by
  induction tail generalizing kept with
  | nil => cases found
  | cons c more ih =>
    rw [cutType, Option.or_eq_some_iff] at found
    rcases found with here | ⟨-, later⟩
    · obtain ⟨type, clause, same⟩ := Option.map_eq_some_iff.mp here
      obtain ⟨rfl, rfl⟩ := Prod.mk.inj same
      exact ⟨c :: more, type, rfl, clause, rfl⟩
    · split at later
      · cases later
      · obtain ⟨⟨inner, after⟩, cut, same⟩ := Option.map_eq_some_iff.mp later
        obtain ⟨rfl, rfl⟩ := Prod.mk.inj same
        obtain ⟨clause, type, rfl, clause_eq, rfl⟩ := ih cut
        exact ⟨clause, type, rfl, clause_eq, rfl⟩

theorem cutType_eq_none_iff {t : Text} (plain : '\n' ∉ t) :
    cutType t = none ↔ ¬ HasClause t := by
  induction t with
  | nil => exact ⟨fun _ => not_hasClause_nil, fun _ => rfl⟩
  | cons c more ih =>
    rw [List.mem_cons, not_or] at plain
    rw [hasClause_cons, not_or, ← ih plain.2, cutType, Option.or_eq_none_iff,
      if_neg (Ne.symm plain.1)]
    simp

theorem not_hasClause_of_cutType (found : cutType tail = some (kept, rest)) :
    ¬ HasClause kept := by
  induction tail generalizing kept with
  | nil => cases found
  | cons c more ih =>
    rw [cutType, Option.or_eq_some_iff] at found
    rcases found with here | ⟨absent, later⟩
    · obtain ⟨type, clause, same⟩ := Option.map_eq_some_iff.mp here
      obtain ⟨rfl, -⟩ := Prod.mk.inj same
      exact not_hasClause_nil
    · split at later
      · cases later
      · obtain ⟨⟨inner, after⟩, cut, same⟩ := Option.map_eq_some_iff.mp later
        obtain ⟨rfl, rfl⟩ := Prod.mk.inj same
        obtain ⟨clause, type, rfl, clause_eq, -⟩ := cutType_spec cut
        rw [hasClause_cons, not_or]
        refine ⟨fun early => ?_, ih cut⟩
        obtain ⟨first, early⟩ := Option.isSome_iff_exists.mp early
        have longer := afterBlankAs?_append early (breaks_of_clause clause_eq)
        rw [List.cons_append] at longer
        rw [longer] at absent
        cases absent

theorem Part.cut_sublist {part : Part} (found : part.cut tail = some (kept, rest)) :
    (kept ++ rest).Sublist tail := by
  cases part with
  | initializer =>
    obtain ⟨before, value, rfl, -, rfl, rfl⟩ := cutInitializer_spec found
    exact (trimEnd_isPrefix before).sublist.append ((List.dropWhile_sublist _).cons '=')
  | type =>
    obtain ⟨clause, type, rfl, clause_eq, rfl⟩ := cutType_spec found
    exact (List.Sublist.refl kept).append
      ((List.dropWhile_sublist _).trans (afterBlankAs?_suffix clause_eq).sublist)

theorem Part.cut_weight {part : Part} (found : part.cut tail = some (kept, rest)) :
    weight (kept ++ rest) < weight tail := by
  cases part with
  | initializer =>
    obtain ⟨before, value, rfl, -, rfl, rfl⟩ := cutInitializer_spec found
    have first := weight_le_of_sublist (trimEnd_isPrefix before).sublist
    have second : weight (fromLineEnd value) ≤ weight value :=
      weight_le_of_sublist (List.dropWhile_sublist _)
    have mark : weight ('=' :: value) = weight value + 1 := by
      rw [weight, List.countP_cons_of_pos (by decide), weight]
    rw [weight_append, weight_append, mark]
    omega
  | type =>
    obtain ⟨clause, type, rfl, clause_eq, rfl⟩ := cutType_spec found
    obtain ⟨-, -, -, -, lighter⟩ := afterBlankAs?_spec clause_eq
    have second : weight (fromLineEnd type) ≤ weight type :=
      weight_le_of_sublist (List.dropWhile_sublist _)
    rw [weight_append, weight_append]
    omega

def Part.Within : Part → Text → Prop
  | .initializer, tail => '=' ∈ tail
  | .type, tail => HasClause tail

theorem Part.cut_eq_none_iff {part : Part} (plain : '\n' ∉ tail) :
    part.cut tail = none ↔ ¬ part.Within tail := by
  cases part with
  | initializer => exact cutInitializer_eq_none_iff
  | type => exact cutType_eq_none_iff plain

theorem Part.Within.of_suffix {part : Part} {longer : Text} (within : part.Within tail)
    (suffix : tail <:+ longer) : part.Within longer := by
  cases part with
  | initializer => exact suffix.subset within
  | type =>
    obtain ⟨clause, clause_suffix, found⟩ := within
    exact ⟨clause, clause_suffix.trans suffix, found⟩

theorem Part.Within.append {part : Part} {more : Text} (within : part.Within tail)
    (breaks : Breaks more) : part.Within (tail ++ more) := by
  cases part with
  | initializer => exact List.mem_append_left more within
  | type =>
    obtain ⟨clause, ⟨before, rfl⟩, found⟩ := within
    obtain ⟨type, found⟩ := Option.isSome_iff_exists.mp found
    refine ⟨clause ++ more, ⟨before, by rw [List.append_assoc]⟩, ?_⟩
    rw [afterBlankAs?_append found breaks]
    rfl

theorem fromLineEnd_eq_nil {t : Text} (plain : '\n' ∉ t) : fromLineEnd t = [] := by
  rw [fromLineEnd, List.dropWhile_eq_nil_iff]
  intro c member
  simpa using fun same : c = '\n' => plain (same ▸ member)

/-- On one line a part goes with all that follows it, and nothing of it is kept. -/
theorem Part.cut_on_line {part : Part} (plain : '\n' ∉ tail)
    (found : part.cut tail = some (kept, rest)) :
    rest = [] ∧ ¬ part.Within kept ∧ ∃ more, tail = kept ++ more ∧ Breaks more := by
  cases part with
  | initializer =>
    obtain ⟨before, value, rfl, absent, rfl, rfl⟩ := cutInitializer_spec found
    obtain ⟨blanks, before_eq, blank⟩ := trimEnd_append before
    refine ⟨fromLineEnd_eq_nil fun member => plain (by simp [member]),
      fun member => absent ((trimEnd_isPrefix before).subset member), blanks ++ '=' :: value,
      ?_, ?_⟩
    · rw [← List.append_assoc, ← before_eq]
    · cases blanks with
      | nil => exact fun c head => Option.some.inj head ▸ by decide
      | cons d more =>
        intro c head
        obtain rfl := Option.some.inj head
        exact isWord_of_isBlank (blank d List.mem_cons_self)
  | type =>
    obtain ⟨clause, type, rfl, clause_eq, rfl⟩ := cutType_spec found
    refine ⟨fromLineEnd_eq_nil fun member => plain ?_, not_hasClause_of_cutType found, clause, rfl,
      breaks_of_clause clause_eq⟩
    exact List.mem_append_right _ ((afterBlankAs?_suffix clause_eq).subset member)

end Cuts

section Drops

variable {part : Part} {lineStart : Bool} {t : Text}

theorem cutAt_eq_none_iff :
    cutAt part lineStart t = none ↔ ∀ tail ∈ headTails lineStart t, part.cut tail = none := by
  simp [cutAt]

/-- The part is cut out of the tail of the nearest head that has it, and what stands before the
tail is kept. -/
theorem cutAt_spec {kept after : Text} (found : cutAt part lineStart t = some (kept, after)) :
    ∃ front tail inner, tail ∈ headTails lineStart t ∧ t = front ++ tail ∧
      part.cut tail = some (inner, after) ∧ kept = front ++ inner ∧
      ∀ near ∈ headTails lineStart t, tail.length < near.length → part.cut near = none := by
  obtain ⟨nearer, tail, farther, heads, cut, absent⟩ := List.findSome?_eq_some_iff.mp found
  have head : tail ∈ headTails lineStart t := by simp [heads]
  obtain ⟨⟨inner, rest⟩, piece, same⟩ := Option.map_eq_some_iff.mp cut
  obtain ⟨rfl, rfl⟩ := Prod.mk.inj same
  obtain ⟨front, rfl⟩ := (properTail_of_mem_headTails head).1
  refine ⟨front, tail, inner, head, rfl, piece, by simp, ?_⟩
  intro near member longer
  have ordered := pairwise_headTails lineStart (front ++ tail)
  rw [heads] at member ordered
  obtain ⟨-, ordered, -⟩ := List.pairwise_append.mp ordered
  rcases List.mem_append.mp member with before | behind
  · exact Option.map_eq_none_iff.mp (absent near before)
  · rcases List.mem_cons.mp behind with rfl | later
    · omega
    · have shorter := List.rel_of_pairwise_cons ordered later
      omega

theorem dropFrom_sublist (part : Part) (lineStart : Bool) (t : Text) :
    (dropFrom part lineStart t).Sublist t := by
  fun_induction dropFrom part lineStart t with
  | case1 => exact List.Sublist.refl []
  | case2 lineStart c rest kept after found ih =>
    obtain ⟨front, tail, inner, -, same, cut, rfl, -⟩ := cutAt_spec found
    rw [same, List.append_assoc]
    exact (List.Sublist.refl front).append
      (((List.Sublist.refl inner).append ih).trans (Part.cut_sublist cut))
  | case3 lineStart c rest none ih => exact ih.cons_cons c

theorem dropFrom_eq_self (settled : ∀ tail ∈ tailsFrom lineStart t, part.cut tail = none) :
    dropFrom part lineStart t = t := by
  fun_induction dropFrom part lineStart t with
  | case1 => rfl
  | case2 lineStart c rest kept after found ih =>
    have kept_whole : cutAt part lineStart (c :: rest) = none :=
      cutAt_eq_none_iff.mpr fun tail member => settled tail (List.mem_append_left _ member)
    rw [kept_whole] at found
    cases found
  | case3 lineStart c rest none ih =>
    rw [ih fun tail member => settled tail (List.mem_append_right _ member)]

theorem cut_eq_none_of_weight_le (heavy : weight t ≤ weight (dropFrom part lineStart t)) :
    ∀ tail ∈ tailsFrom lineStart t, part.cut tail = none := by
  fun_induction dropFrom part lineStart t with
  | case1 =>
    intro tail member
    cases member
  | case2 lineStart c rest kept after found ih =>
    obtain ⟨front, tail, inner, -, same, cut, rfl, -⟩ := cutAt_spec found
    have lighter := Part.cut_weight cut
    have shorter := weight_le_of_sublist (dropFrom_sublist part false after)
    rw [same] at heavy
    simp only [weight_append] at heavy lighter
    omega
  | case3 lineStart c rest none ih =>
    have tail_heavy : weight rest ≤ weight (dropFrom part (c == '\n') rest) := by
      simp only [weight, List.countP_cons] at heavy ⊢
      omega
    intro tail member
    rcases List.mem_append.mp member with here | later
    · exact cutAt_eq_none_iff.mp none tail here
    · exact ih tail_heavy tail later

theorem occursFrom_of_mem {tail : Text} (found : tail ∈ headTails lineStart t) (nonempty : t ≠ []) :
    occursFrom lineStart t = true := by
  obtain ⟨c, rest, rfl⟩ := List.exists_cons_of_ne_nil nonempty
  rw [occursFrom, Bool.or_eq_true]
  left
  simpa using List.ne_nil_of_mem found

theorem dropFrom_cases (plain : '\n' ∉ t) :
    dropFrom part lineStart t = t ∨
      occursFrom lineStart (dropFrom part lineStart t) = true ∧
        ∃ more, t = dropFrom part lineStart t ++ more ∧ Breaks more := by
  fun_induction dropFrom part lineStart t with
  | case1 => exact .inl rfl
  | case2 lineStart c rest kept after found ih =>
    obtain ⟨front, tail, inner, head, whole, cut, rfl, -⟩ := cutAt_spec found
    obtain ⟨breaks, front', nonempty, whole', replace⟩ := headTails_replace head
    obtain rfl : front = front' := List.append_cancel_right (whole.symm.trans whole')
    have tail_plain : '\n' ∉ tail := fun member => plain (whole ▸ List.mem_append_right _ member)
    obtain ⟨rfl, -, more, rfl, stop⟩ := Part.cut_on_line tail_plain cut
    rw [dropFrom, List.append_nil]
    refine .inr ⟨?_, more, by rw [whole, List.append_assoc], stop⟩
    exact occursFrom_of_mem (replace inner breaks.of_append) (by simp [nonempty])
  | case3 lineStart c rest none ih =>
    rw [List.mem_cons, not_or] at plain
    rcases ih plain.2 with kept | ⟨occurs, more, whole, stop⟩
    · exact .inl (congrArg (c :: ·) kept)
    · refine .inr ⟨?_, more, congrArg (c :: ·) whole, stop⟩
      rw [occursFrom, occurs, Bool.or_true]

theorem dropFrom_append (part : Part) (lineStart : Bool) (plain : '\n' ∉ t) :
    ∃ more, t = dropFrom part lineStart t ++ more ∧ Breaks more := by
  rcases dropFrom_cases plain with kept | ⟨-, dropped⟩
  · exact ⟨[], by rw [kept, List.append_nil], nofun⟩
  · exact dropped

end Drops

end BasicOutline.Declaration
