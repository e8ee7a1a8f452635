import BasicOutline.Proofs.BalancedGroups
import BasicOutline.Proofs.DeclarationSettled

/-! The front of a well-formed declaration: attribute blocks, modifiers and the keyword.

A block may hold colons, but no keyword. So the first head of the line ends with the keyword of the
front, every other head ends behind it, and a part is dropped from what follows the front. -/

namespace BasicOutline

namespace Text

section Mentions

variable {word t : Text}

theorem isSome_afterWord?_append_right (found : (afterWord? word t).isSome = true) (more : Text) :
    (afterWord? word (t ++ more)).isSome = true := by
  fun_induction afterWord? word t with
  | case1 t => rfl
  | case2 => cases found
  | case3 letter word c rest same ih =>
    rw [List.cons_append, afterWord?, if_pos same]
    exact ih found
  | case4 => cases found

theorem mentions_append_left (front : Text) (found : mentions word t = true) :
    mentions word (front ++ t) = true := by
  induction front with
  | nil => exact found
  | cons c rest ih => rw [List.cons_append, mentions, ih, Bool.or_true]

theorem mentions_append_right (found : mentions word t = true) (more : Text) :
    mentions word (t ++ more) = true := by
  induction t with
  | nil =>
    rw [mentions, List.isEmpty_iff] at found
    subst found
    cases more <;> simp [mentions, afterWord?]
  | cons c rest ih =>
    rw [mentions, Bool.or_eq_true] at found
    rw [List.cons_append, mentions, Bool.or_eq_true]
    rcases found with here | later
    · exact .inl (isSome_afterWord?_append_right here more)
    · exact .inr (ih later)

theorem mentions_of_spells (nonempty : word ≠ []) (spelled : spells word t = true) :
    mentions word t = true := by
  rw [spells, beq_iff_eq] at spelled
  cases t with
  | nil =>
    cases word with
    | nil => exact absurd rfl nonempty
    | cons letter rest => cases spelled
  | cons c rest => rw [mentions, spelled]; rfl

theorem exists_letter_of_afterWord? (found : afterWord? word t = some []) :
    ∀ c ∈ t, ∃ letter ∈ word, sameLetter letter c = true := by
  fun_induction afterWord? word t with
  | case1 t =>
    obtain rfl := Option.some.inj found
    exact fun c member => absurd member List.not_mem_nil
  | case2 => cases found
  | case3 letter word c rest same ih =>
    intro d member
    rcases List.mem_cons.mp member with rfl | later
    · exact ⟨letter, List.mem_cons_self, same⟩
    · obtain ⟨other, inside, known⟩ := ih found d later
      exact ⟨other, List.mem_cons_of_mem _ inside, known⟩
  | case4 => cases found

theorem isSome_afterWord?_of_collapse (unopened : ∀ letter ∈ word, sameLetter letter '(' = false)
    (found : (afterWord? word (Parenthesis.collapse t)).isSome = true) :
    (afterWord? word t).isSome = true := by
  induction word generalizing t with
  | nil => rfl
  | cons letter letters ih =>
    have head := Parenthesis.head?_collapse t
    match t with
    | [] => rw [Parenthesis.collapse] at found; exact found
    | c :: rest =>
      by_cases opens : c = '('
      · obtain ⟨tail, same⟩ := List.head?_eq_some_iff.mp head
        rw [same, opens, afterWord?, unopened letter List.mem_cons_self] at found
        cases found
      · rw [Parenthesis.collapse_cons_of_ne opens, afterWord?] at found
        rw [afterWord?]
        split at found
        · rename_i same
          rw [if_pos same]
          exact ih (fun other member => unopened other (List.mem_cons_of_mem _ member)) found
        · cases found

theorem mentions_of_cons {c : Char} (nonempty : word ≠ [])
    (absent : ∀ letter ∈ word, sameLetter letter c = false)
    (found : mentions word (c :: t) = true) : mentions word t = true := by
  rw [mentions, Bool.or_eq_true] at found
  rcases found with here | later
  · obtain ⟨letter, letters, rfl⟩ := List.exists_cons_of_ne_nil nonempty
    rw [afterWord?, absent letter List.mem_cons_self] at here
    cases here
  · exact later

theorem mentions_of_collapse (nonempty : word ≠ [])
    (plain : word.all (fun letter => !(sameLetter letter '(' || sameLetter letter ')')) = true)
    (found : mentions word (Parenthesis.collapse t) = true) : mentions word t = true := by
  have plain : ∀ letter ∈ word, sameLetter letter '(' = false ∧ sameLetter letter ')' = false := by
    intro letter member
    simpa using List.all_eq_true.mp plain letter member
  have unopened : ∀ letter ∈ word, sameLetter letter '(' = false :=
    fun letter member => (plain letter member).1
  have unclosed : ∀ letter ∈ word, sameLetter letter ')' = false :=
    fun letter member => (plain letter member).2
  fun_induction Parenthesis.collapse t with
  | case1 => exact found
  | case2 rest group after split ih =>
    rw [← Parenthesis.splitGroup_append split]
    apply mentions_append_left
    apply ih
    apply mentions_of_cons nonempty unclosed
    exact mentions_of_cons nonempty unopened found
  | case3 rest opened => exact found
  | case4 c rest other ih =>
    rw [mentions, Bool.or_eq_true] at found ⊢
    rcases found with here | later
    · rw [← Parenthesis.collapse_cons_of_ne other] at here
      exact .inl (isSome_afterWord?_of_collapse unopened here)
    · exact .inr (ih later)

end Mentions

theorem append_mark_inj {mark : Char} {a b x y : Text} (left : mark ∉ a) (right : mark ∉ b)
    (same : a ++ mark :: x = b ++ mark :: y) : a = b ∧ x = y := by
  constructor
  · have taken := congrArg (List.takeWhile (· != mark)) same
    rwa [takeWhile_append_mark left, takeWhile_append_mark right] at taken
  · have dropped := congrArg (List.dropWhile (· != mark)) same
    rw [dropWhile_append_mark left, dropWhile_append_mark right] at dropped
    exact (List.cons.inj dropped).2

end Text

namespace Declaration

open Text
open Parenthesis (AllClosed collapse)

structure Block where
  body : Text
  gap : Text
  deriving DecidableEq, Repr

structure Block.WellFormed (block : Block) : Prop where
  inside : '>' ∉ block.body
  no_dim : mentions "dim".toList block.body = false
  no_const : mentions "const".toList block.body = false
  no_break : '\n' ∉ block.body
  no_quote : '\x27' ∉ block.body
  blanks : ∀ c ∈ block.gap, isBlank c = true
  gap_no_break : '\n' ∉ block.gap

structure Modifier where
  word : Text
  gap : Text
  deriving DecidableEq, Repr

structure Modifier.WellFormed (modifier : Modifier) : Prop where
  named : modifier.word ≠ []
  letters : ∀ c ∈ modifier.word, isWord c = true
  other : isKeyword modifier.word = false
  apart : modifier.gap ≠ []
  blanks : ∀ c ∈ modifier.gap, isBlank c = true
  no_break : '\n' ∉ modifier.gap

def blocks (attributes : List Block) : Text :=
  attributes.flatMap fun block => '<' :: (block.body ++ '>' :: block.gap)

def words (modifiers : List Modifier) : Text :=
  modifiers.flatMap fun modifier => modifier.word ++ modifier.gap

/-- What stands before the name of a declared variable, with the indentation. -/
structure Front where
  indent : Text
  attributes : List Block
  modifiers : List Modifier
  keyword : Text
  deriving DecidableEq, Repr

def Front.text (front : Front) : Text :=
  front.indent ++ (blocks front.attributes ++ (words front.modifiers ++ front.keyword))

structure Front.WellFormed (front : Front) : Prop where
  blanks : ∀ c ∈ front.indent, isBlank c = true
  no_break : '\n' ∉ front.indent
  attributes : ∀ block ∈ front.attributes, block.WellFormed
  modifiers : ∀ modifier ∈ front.modifiers, modifier.WellFormed
  keyword : isKeyword front.keyword = true

section Keywords

variable {word head tail t : Text}

theorem isWord_of_spells
    (letters : word.all (fun letter => isWord letter && isWord letter.toUpper) = true)
    (spelled : spells word t = true) : ∀ c ∈ t, isWord c = true := by
  intro c member
  rw [spells, beq_iff_eq] at spelled
  obtain ⟨letter, inside, same⟩ := exists_letter_of_afterWord? spelled c member
  have known := List.all_eq_true.mp letters letter inside
  rw [Bool.and_eq_true] at known
  simp only [sameLetter, foldsTo, Bool.or_eq_true, Bool.and_eq_true, beq_iff_eq] at same
  rcases same with rfl | ⟨-, rfl | ((⟨-, rfl | rfl⟩ | ⟨-, rfl⟩) | ⟨-, rfl⟩)⟩
  · exact known.1
  · exact known.2
  all_goals decide +kernel

theorem isWord_of_isKeyword (keyword : isKeyword word = true) : ∀ c ∈ word, isWord c = true := by
  rw [isKeyword, Bool.or_eq_true] at keyword
  rcases keyword with dim | const
  · exact isWord_of_spells (by decide +kernel) dim
  · exact isWord_of_spells (by decide +kernel) const

theorem Modified.mentions (modified : Modified head) :
    mentions "dim".toList head = true ∨ mentions "const".toList head = true := by
  induction modified with
  | keyword letters keyword =>
    rw [isKeyword, Bool.or_eq_true] at keyword
    exact keyword.imp (mentions_of_spells (by decide)) (mentions_of_spells (by decide))
  | modifier named letters apart blanks rest ih =>
    exact ih.imp (fun found => mentions_append_left _ (mentions_append_left _ found))
      fun found => mentions_append_left _ (mentions_append_left _ found)

theorem Modified.mark_not_mem (modified : Modified head) : '>' ∉ head := by
  induction modified with
  | keyword letters keyword => exact fun member => absurd (letters _ member) (by decide +kernel)
  | modifier named letters apart blanks rest ih =>
    rw [List.mem_append, List.mem_append, not_or, not_or]
    exact ⟨fun member => absurd (letters _ member) (by decide +kernel),
      fun member => absurd (blanks _ member) (by decide), ih⟩

end Keywords

section Heads

variable {tail t : Text}

theorem afterHeads_append_blanks {gap : Text} (blanks : ∀ c ∈ gap, isBlank c = true) (t : Text) :
    afterHeads (gap ++ t) = afterHeads t := by
  rw [afterHeads, trimStart, List.dropWhile_append_of_pos blanks]
  rfl

/-- What is left of a block begins no head of its own: a head can only reach across its end. -/
theorem mem_afterHeads_inside {inner gap : Text} (inside : '>' ∉ inner)
    (no_dim : mentions "dim".toList inner = false)
    (no_const : mentions "const".toList inner = false) (blanks : ∀ c ∈ gap, isBlank c = true)
    (found : tail ∈ afterHeads (inner ++ '>' :: (gap ++ t))) : tail ∈ afterHeads t := by
  obtain ⟨breaks, head, ⟨before, core, rfl, before_blanks, attributed⟩, whole⟩ :=
    mem_afterHeads_iff.mp found
  have before_plain : '>' ∉ before := fun member => absurd (before_blanks _ member) (by decide)
  cases attributed with
  | plain modified =>
    have plain : '>' ∉ before ++ core := by
      rw [List.mem_append, not_or]
      exact ⟨before_plain, modified.mark_not_mem⟩
    have front : before ++ core <+: inner := by
      rcases List.append_eq_append_iff.mp whole with ⟨more, head_eq, rest_eq⟩ | ⟨more, same, -⟩
      · cases more with
        | nil => rw [List.append_nil] at head_eq; exact head_eq ▸ List.prefix_rfl
        | cons c rest =>
          obtain ⟨rfl, -⟩ := List.cons.inj rest_eq
          exact absurd (by simp [head_eq]) plain
      · exact ⟨more, same.symm⟩
    obtain ⟨more, rfl⟩ := front
    rcases modified.mentions with dim | const
    · rw [mentions_append_right (mentions_append_left before dim) more] at no_dim
      cases no_dim
    · rw [mentions_append_right (mentions_append_left before const) more] at no_const
      cases no_const
  | @block body after head body_plain after_blanks rest =>
    have shape : before ++ '<' :: (body ++ '>' :: (after ++ head)) ++ tail =
        (before ++ '<' :: body) ++ '>' :: (after ++ head ++ tail) := by
      simp
    have block_plain : '>' ∉ before ++ '<' :: body := by
      rw [List.mem_append, List.mem_cons, not_or, not_or]
      exact ⟨before_plain, by decide, body_plain⟩
    rw [shape] at whole
    have behind := (append_mark_inj inside block_plain whole).2
    rw [← afterHeads_append_blanks blanks t, behind]
    exact mem_afterHeads_iff.mpr
      ⟨breaks, after ++ head, ⟨after, head, rfl, after_blanks, rest⟩, rfl⟩

theorem mem_tails_of_inside {inner gap : Text} (inside : '>' ∉ inner)
    (no_dim : mentions "dim".toList inner = false)
    (no_const : mentions "const".toList inner = false)
    (no_break : '\n' ∉ inner) (blanks : ∀ c ∈ gap, isBlank c = true) (gap_no_break : '\n' ∉ gap)
    (found : tail ∈ tailsFrom false (inner ++ '>' :: (gap ++ t))) : tail ∈ tails t := by
  induction inner with
  | nil =>
    have colon : ':' ∉ gap := fun member => absurd (blanks _ member) (by decide)
    rw [List.nil_append, tailsFrom_false_cons (by decide), show ('>' == '\n') = false by decide,
      tailsFrom_false_append colon gap_no_break] at found
    exact mem_tailsFrom_of_false found
  | cons c inner ih =>
    rw [List.mem_cons, not_or] at inside no_break
    rw [Text.mentions, Bool.or_eq_false_iff] at no_dim no_const
    have single : (c == '\n') = false := by simpa using Ne.symm no_break.1
    rw [List.cons_append, tailsFrom, single] at found
    rcases List.mem_append.mp found with here | later
    · obtain ⟨breaks, head, opening, same⟩ := mem_headTails_false_iff.mp here
      have begins : tail ∈ afterHeads (inner ++ '>' :: (gap ++ t)) :=
        mem_afterHeads_iff.mpr ⟨breaks, head, opening, (List.cons.inj same).2⟩
      rw [tails, tailsFrom_true]
      exact List.mem_append_left _
        (mem_afterHeads_inside inside.2 no_dim.2 no_const.2 blanks begins)
    · exact ih inside.2 no_dim.2 no_const.2 no_break.2 later

theorem afterHeads_block {body gap : Text} (inside : '>' ∉ body)
    (blanks : ∀ c ∈ gap, isBlank c = true) (t : Text) :
    afterHeads ('<' :: (body ++ '>' :: (gap ++ t))) = afterHeads t := by
  have block := dropWhile_append_mark inside (gap ++ t)
  rw [afterHeads, trimStart, List.dropWhile_cons_of_neg (by decide), afterAttributes]
  split
  · rename_i mark after same
    obtain ⟨-, rfl⟩ := List.cons.inj (block.symm.trans same)
    rw [List.dropWhile_append_of_pos blanks]
    rfl
  · rename_i same
    rw [block] at same
    cases same

theorem mem_tails_of_block {block : Block} (valid : block.WellFormed)
    (found : tail ∈ tails ('<' :: (block.body ++ '>' :: (block.gap ++ t)))) :
    tail ∈ tails t := by
  rw [tails, tailsFrom_true, afterHeads_block valid.inside valid.blanks] at found
  rcases List.mem_append.mp found with here | later
  · rw [tails, tailsFrom_true]
    exact List.mem_append_left _ here
  · rw [tailsFrom_false_cons (by decide), show ('<' == '\n') = false by decide] at later
    exact mem_tails_of_inside valid.inside valid.no_dim valid.no_const valid.no_break valid.blanks
      valid.gap_no_break later

theorem afterHeads_of_word {c : Char} (letter : isWord c = true) (t : Text) :
    afterHeads (c :: t) = afterKeywords (c :: t) := by
  have solid := isBlank_of_isWord letter
  have different : c ≠ '<' := by
    rintro rfl
    exact absurd letter (by decide +kernel)
  rw [afterHeads, trimStart, List.dropWhile_cons_of_neg (by simp [solid]), afterAttributes]
  intro rest same
  exact different (List.cons.inj same).1

theorem suffix_of_mem_afterKeywords {keyword rest : Text} (known : isKeyword keyword = true)
    (breaks : Breaks rest) (found : tail ∈ afterKeywords (keyword ++ rest)) : tail <:+ rest := by
  have letters := isWord_of_isKeyword known
  rw [afterKeywords, takeWhile_append_stop letters breaks, dropWhile_append_stop letters breaks,
    dif_neg (ne_nil_of_isKeyword known)] at found
  simp only [known, if_true] at found
  split at found
  · exact List.mem_singleton.mp found ▸ List.suffix_rfl
  · rcases List.mem_append.mp found with here | later
    · exact List.mem_singleton.mp here ▸ List.suffix_rfl
    · exact (properTail_of_mem_afterKeywords later).1.trans (List.dropWhile_suffix _)

theorem afterKeywords_modifier {modifier : Modifier} (valid : modifier.WellFormed) {c : Char}
    (letter : isWord c = true) (t : Text) :
    afterKeywords (modifier.word ++ (modifier.gap ++ c :: t)) = afterKeywords (c :: t) := by
  have stop_word : ∀ d, (modifier.gap ++ c :: t).head? = some d → isWord d = false := by
    intro d head
    obtain ⟨e, more, same⟩ := List.exists_cons_of_ne_nil valid.apart
    rw [same] at head
    exact head?_cons_stop (isWord_of_isBlank (valid.blanks e (same ▸ List.mem_cons_self))) _ d head
  have stop_blank : ∀ d, (c :: t).head? = some d → isBlank d = false :=
    head?_cons_stop (isBlank_of_isWord letter) t
  rw [afterKeywords, takeWhile_append_stop valid.letters stop_word,
    dropWhile_append_stop valid.letters stop_word, dif_neg valid.named]
  simp only [takeWhile_append_stop valid.blanks stop_blank,
    dropWhile_append_stop valid.blanks stop_blank, valid.other, Bool.false_eq_true, if_false]
  rw [if_neg (by simpa using valid.apart), List.nil_append]

end Heads

section Fronts

variable {front : Front} {modifiers : List Modifier} {keyword tail rest t : Text}

theorem modified_words (valid : ∀ modifier ∈ modifiers, modifier.WellFormed)
    (known : isKeyword keyword = true) : Modified (words modifiers ++ keyword) := by
  induction modifiers with
  | nil => exact .keyword (isWord_of_isKeyword known) known
  | cons modifier more ih =>
    have here := valid modifier List.mem_cons_self
    have later := ih fun other member => valid other (List.mem_cons_of_mem _ member)
    have shape : words (modifier :: more) ++ keyword =
        modifier.word ++ (modifier.gap ++ (words more ++ keyword)) := by
      simp [words]
    rw [shape]
    exact .modifier here.named here.letters here.apart here.blanks later

theorem blocks_cons (block : Block) (more : List Block) (t : Text) :
    blocks (block :: more) ++ t =
      '<' :: (block.body ++ '>' :: (block.gap ++ (blocks more ++ t))) := by
  simp [blocks]

theorem attributed_blocks {attributes : List Block} {head : Text}
    (valid : ∀ block ∈ attributes, block.WellFormed) (rest : Attributed head) :
    Attributed (blocks attributes ++ head) := by
  induction attributes with
  | nil => exact rest
  | cons block more ih =>
    have here := valid block List.mem_cons_self
    rw [blocks_cons]
    exact .block here.inside here.blanks
      (ih fun other member => valid other (List.mem_cons_of_mem _ member))

theorem mem_tails_of_blocks {attributes : List Block}
    (valid : ∀ block ∈ attributes, block.WellFormed)
    (found : tail ∈ tails (blocks attributes ++ t)) : tail ∈ tails t := by
  induction attributes with
  | nil => exact found
  | cons block more ih =>
    rw [blocks_cons] at found
    exact ih (fun other member => valid other (List.mem_cons_of_mem _ member))
      (mem_tails_of_block (valid block List.mem_cons_self) found)

/-- The words before the keyword are no keywords, so each head reaches to the keyword. -/
theorem suffix_of_mem_afterKeywords_words (valid : ∀ modifier ∈ modifiers, modifier.WellFormed)
    (known : isKeyword keyword = true) (breaks : Breaks rest)
    (found : tail ∈ afterKeywords (words modifiers ++ (keyword ++ rest))) : tail <:+ rest := by
  induction modifiers with
  | nil => exact suffix_of_mem_afterKeywords known breaks found
  | cons modifier more ih =>
    have others : ∀ other ∈ more, other.WellFormed :=
      fun other member => valid other (List.mem_cons_of_mem _ member)
    obtain ⟨c, text, same, letter⟩ := (modified_words others known).head?_isWord
    have behind : words more ++ (keyword ++ rest) = c :: (text ++ rest) := by
      rw [← List.append_assoc, same, List.cons_append]
    have shape : words (modifier :: more) ++ (keyword ++ rest) =
        modifier.word ++ (modifier.gap ++ c :: (text ++ rest)) := by
      rw [← behind]
      simp [words]
    rw [shape, afterKeywords_modifier (valid modifier List.mem_cons_self) letter, ← behind] at found
    exact ih others found

theorem mark_not_mem_words {mark : Char} (solid : isBlank mark = false)
    (other : isWord mark = false) (valid : ∀ modifier ∈ modifiers, modifier.WellFormed) :
    mark ∉ words modifiers := by
  rw [words, List.mem_flatMap]
  rintro ⟨modifier, member, inside⟩
  have here := valid modifier member
  rcases List.mem_append.mp inside with letter | blank
  · rw [here.letters mark letter] at other
    cases other
  · rw [here.blanks mark blank] at solid
    cases solid

theorem break_not_mem_words (valid : ∀ modifier ∈ modifiers, modifier.WellFormed) :
    '\n' ∉ words modifiers := by
  rw [words, List.mem_flatMap]
  rintro ⟨modifier, member, inside⟩
  have here := valid modifier member
  rcases List.mem_append.mp inside with letter | blank
  · exact absurd (here.letters _ letter) (by decide +kernel)
  · exact here.no_break blank

theorem suffix_of_mem_tails_words (valid : ∀ modifier ∈ modifiers, modifier.WellFormed)
    (known : isKeyword keyword = true) (breaks : Breaks rest)
    (found : tail ∈ tails (words modifiers ++ (keyword ++ rest))) : tail <:+ rest := by
  obtain ⟨c, text, same, letter⟩ := (modified_words valid known).head?_isWord
  have letters := isWord_of_isKeyword known
  rw [tails, tailsFrom_true] at found
  rcases List.mem_append.mp found with here | later
  · have shape : words modifiers ++ (keyword ++ rest) = c :: (text ++ rest) := by
      rw [← List.append_assoc, same, List.cons_append]
    rw [shape, afterHeads_of_word letter, ← shape] at here
    exact suffix_of_mem_afterKeywords_words valid known breaks here
  · have colon : ':' ∉ words modifiers ++ keyword := by
      rw [List.mem_append, not_or]
      exact ⟨mark_not_mem_words (by decide) (by decide +kernel) valid,
        fun member => absurd (letters _ member) (by decide +kernel)⟩
    have single : '\n' ∉ words modifiers ++ keyword := by
      rw [List.mem_append, not_or]
      exact ⟨break_not_mem_words valid, fun member => absurd (letters _ member) (by decide +kernel)⟩
    rw [← List.append_assoc, tailsFrom_false_append colon single] at later
    exact suffix_of_mem_tailsFrom later

/-- Every head of the line ends with the keyword of the front or behind it. -/
theorem Front.WellFormed.suffix_of_mem_tails (valid : front.WellFormed) (breaks : Breaks rest)
    (found : tail ∈ tails (front.text ++ rest)) : tail <:+ rest := by
  rw [Front.text, List.append_assoc, tails_append_blanks valid.blanks valid.no_break,
    List.append_assoc, List.append_assoc] at found
  exact suffix_of_mem_tails_words valid.modifiers valid.keyword breaks
    (mem_tails_of_blocks valid.attributes found)

theorem Front.WellFormed.mem_headTails (valid : front.WellFormed) (breaks : Breaks rest) :
    rest ∈ headTails true (front.text ++ rest) := by
  have attributed := attributed_blocks valid.attributes
    (.plain (modified_words valid.modifiers valid.keyword))
  exact mem_headTails_iff.mpr ⟨breaks, front.text,
    ⟨front.indent, _, rfl, valid.blanks, attributed⟩, .inl ⟨rfl, rfl⟩⟩

theorem Front.WellFormed.text_append_ne_nil (valid : front.WellFormed) (rest : Text) :
    front.text ++ rest ≠ [] := by
  have nonempty := ne_nil_of_isKeyword valid.keyword
  simp [Front.text, nonempty]

end Fronts

section Drops

variable {front : Front} {part : Part} {rest kept after : Text}

theorem Front.WellFormed.drop_eq_self (valid : front.WellFormed) (breaks : Breaks rest)
    (plain : '\n' ∉ rest) (absent : ¬ part.Within rest) :
    drop part (front.text ++ rest) = front.text ++ rest := by
  apply dropFrom_eq_self
  intro tail member
  have suffix := valid.suffix_of_mem_tails breaks member
  rw [Part.cut_eq_none_iff fun inside => plain (suffix.subset inside)]
  exact fun within => absent (within.of_suffix suffix)

theorem Front.WellFormed.cutAt_eq (valid : front.WellFormed) (breaks : Breaks rest)
    (cut : part.cut rest = some (kept, after)) :
    cutAt part true (front.text ++ rest) = some (front.text ++ kept, after) := by
  have head := valid.mem_headTails breaks
  have suffix : ∀ tail ∈ headTails true (front.text ++ rest), tail <:+ rest := by
    intro tail member
    obtain ⟨c, more, same⟩ := List.exists_cons_of_ne_nil (valid.text_append_ne_nil rest)
    apply valid.suffix_of_mem_tails breaks
    rw [same] at member ⊢
    exact List.mem_append_left _ member
  cases found : cutAt part true (front.text ++ rest) with
  | none =>
    rw [cutAt_eq_none_iff.mp found rest head] at cut
    cases cut
  | some pieces =>
    obtain ⟨before, tail, inner, member, whole, piece, kept_eq, nearest⟩ := cutAt_spec found
    have longest : ¬ tail.length < rest.length := by
      intro shorter
      rw [nearest rest head shorter] at cut
      cases cut
    obtain rfl : tail = rest := (suffix tail member).eq_of_length_le (by omega)
    obtain rfl : front.text = before := List.append_cancel_right whole
    obtain ⟨rfl, after_eq⟩ := Prod.mk.inj (Option.some.inj (cut.symm.trans piece))
    exact congrArg some (Prod.ext kept_eq after_eq.symm)

theorem Front.WellFormed.drop_eq (valid : front.WellFormed) (breaks : Breaks rest)
    (plain : '\n' ∉ rest) (cut : part.cut rest = some (kept, after)) :
    drop part (front.text ++ rest) = front.text ++ kept := by
  have found := valid.cutAt_eq breaks cut
  obtain ⟨rfl, -, -⟩ := Part.cut_on_line plain cut
  obtain ⟨c, more, same⟩ := List.exists_cons_of_ne_nil (valid.text_append_ne_nil rest)
  rw [drop, same, dropFrom]
  rw [same] at found
  split
  · rename_i first second known
    obtain ⟨rfl, rfl⟩ := Prod.mk.inj (Option.some.inj (found.symm.trans known))
    rw [dropFrom, List.append_nil]
  · rename_i none
    rw [found] at none
    cases none

theorem Front.WellFormed.occurs_text (valid : front.WellFormed) (breaks : Breaks rest) :
    occurs (front.text ++ rest) = true :=
  occursFrom_of_mem (valid.mem_headTails breaks) (valid.text_append_ne_nil rest)

end Drops

section Collapse

variable {front : Front} {attributes : List Block} {rest : Text}

def Block.collapsed (block : Block) : Block := { block with body := collapse block.body }

def Front.collapsed (front : Front) : Front :=
  { front with attributes := front.attributes.map Block.collapsed }

theorem Block.WellFormed.collapsed {block : Block} (valid : block.WellFormed) :
    block.collapsed.WellFormed := by
  have kept : ∀ {c}, c ∈ collapse block.body → c ∈ block.body :=
    fun member => (Parenthesis.collapse_sublist _).subset member
  have absent : ∀ {word : Text}, word ≠ [] →
      word.all (fun letter => !(sameLetter letter '(' || sameLetter letter ')')) = true →
      mentions word block.body = false → mentions word (collapse block.body) = false := by
    intro word nonempty plain none
    by_contra found
    rw [Bool.not_eq_false] at found
    rw [mentions_of_collapse nonempty plain found] at none
    cases none
  exact {
    inside := fun member => valid.inside (kept member)
    no_dim := absent (by decide) (by decide) valid.no_dim
    no_const := absent (by decide) (by decide) valid.no_const
    no_break := fun member => valid.no_break (kept member)
    no_quote := fun member => valid.no_quote (kept member)
    blanks := valid.blanks
    gap_no_break := valid.gap_no_break }

theorem Front.WellFormed.collapsed (valid : front.WellFormed) : front.collapsed.WellFormed where
  blanks := valid.blanks
  no_break := valid.no_break
  attributes := by
    intro block member
    obtain ⟨source, inside, rfl⟩ := List.mem_map.mp member
    exact (valid.attributes source inside).collapsed
  modifiers := valid.modifiers
  keyword := valid.keyword

theorem collapse_blocks (valid : ∀ block ∈ attributes, block.WellFormed)
    (closed : ∀ block ∈ attributes, AllClosed block.body) (t : Text) :
    collapse (blocks attributes ++ t) = blocks (attributes.map Block.collapsed) ++ collapse t := by
  induction attributes with
  | nil => rfl
  | cons block more ih =>
    have later := ih (fun other member => valid other (List.mem_cons_of_mem _ member))
      fun other member => closed other (List.mem_cons_of_mem _ member)
    have gap_plain : '(' ∉ block.gap :=
      fun member => absurd ((valid block List.mem_cons_self).blanks _ member) (by decide)
    rw [blocks_cons, Parenthesis.collapse_cons_of_ne (by decide),
      (closed block List.mem_cons_self).collapse_append,
      Parenthesis.collapse_cons_of_ne (by decide), Parenthesis.collapse_append_of_plain gap_plain,
      later, List.map_cons, blocks_cons]
    rfl

theorem Front.WellFormed.collapse_text (valid : front.WellFormed)
    (closed : ∀ block ∈ front.attributes, AllClosed block.body) (rest : Text) :
    collapse (front.text ++ rest) = front.collapsed.text ++ collapse rest := by
  have indent_plain : '(' ∉ front.indent :=
    fun member => absurd (valid.blanks _ member) (by decide)
  have words_plain : '(' ∉ words front.modifiers ++ front.keyword := by
    rw [List.mem_append, not_or]
    exact ⟨mark_not_mem_words (by decide) (by decide +kernel) valid.modifiers,
      fun member => absurd (isWord_of_isKeyword valid.keyword _ member) (by decide +kernel)⟩
  rw [Front.text, List.append_assoc, Parenthesis.collapse_append_of_plain indent_plain,
    List.append_assoc, collapse_blocks valid.attributes closed,
    Parenthesis.collapse_append_of_plain words_plain]
  simp [Front.text, Front.collapsed]

end Collapse

end Declaration

end BasicOutline
