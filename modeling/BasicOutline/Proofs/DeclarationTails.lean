import BasicOutline.Declaration
import BasicOutline.Proofs.TextSpans

/-! Declaration heads: what stands after each of them, and when a part can be dropped.

A head is found by what stands before its tail only. So the tail can be replaced by any other text
that does not go on with the keyword, and the head is still found. -/

namespace BasicOutline.Declaration

open Text

/-- A text that does not go on with the word before it. -/
def Breaks (t : Text) : Prop := ∀ c, t.head? = some c → isWord c = false

inductive Modified : Text → Prop where
  | keyword {word : Text} (letters : ∀ c ∈ word, isWord c = true)
      (keyword : isKeyword word = true) : Modified word
  | modifier {word gap head : Text} (named : word ≠ []) (letters : ∀ c ∈ word, isWord c = true)
      (apart : gap ≠ []) (blanks : ∀ c ∈ gap, isBlank c = true) (rest : Modified head) :
      Modified (word ++ (gap ++ head))

/-- Attribute blocks with blanks after each, then words and a keyword. -/
inductive Attributed : Text → Prop where
  | plain {head : Text} (rest : Modified head) : Attributed head
  | block {body gap head : Text} (inside : '>' ∉ body) (blanks : ∀ c ∈ gap, isBlank c = true)
      (rest : Attributed head) : Attributed ('<' :: (body ++ '>' :: (gap ++ head)))

def Opening (head : Text) : Prop :=
  ∃ gap inner, head = gap ++ inner ∧ (∀ c ∈ gap, isBlank c = true) ∧ Attributed inner

section Grammar

variable {head tail t : Text}

theorem ne_nil_of_isKeyword {word : Text} (keyword : isKeyword word = true) : word ≠ [] := by
  rintro rfl
  exact absurd keyword (by decide)

theorem Modified.head?_isWord (modified : Modified head) :
    ∃ c rest, head = c :: rest ∧ isWord c = true := by
  cases modified with
  | keyword letters keyword =>
    obtain ⟨c, rest, rfl⟩ := List.exists_cons_of_ne_nil (ne_nil_of_isKeyword keyword)
    exact ⟨c, rest, rfl, letters c List.mem_cons_self⟩
  | modifier named letters apart blanks rest =>
    obtain ⟨c, more, rfl⟩ := List.exists_cons_of_ne_nil named
    exact ⟨c, _, rfl, letters c List.mem_cons_self⟩

theorem Attributed.head?_solid (attributed : Attributed head) :
    ∃ c rest, head = c :: rest ∧ isBlank c = false := by
  cases attributed with
  | plain rest =>
    obtain ⟨c, more, rfl, word⟩ := rest.head?_isWord
    exact ⟨c, more, rfl, isBlank_of_isWord word⟩
  | block inside blanks rest => exact ⟨'<', _, rfl, by decide⟩

theorem breaks_dropWhile (t : Text) : Breaks (t.dropWhile isWord) := head?_dropWhile_stop

theorem modified_of_mem {t tail : Text}
    (found : tail ∈ if isKeyword (t.takeWhile isWord) then [t.dropWhile isWord] else []) :
    Breaks tail ∧ ∃ head, Modified head ∧ t = head ++ tail := by
  split at found
  · rename_i keyword
    obtain rfl := List.mem_singleton.mp found
    exact ⟨breaks_dropWhile t, _, .keyword keep_of_mem_takeWhile keyword,
      List.takeWhile_append_dropWhile.symm⟩
  · cases found

theorem mem_afterKeywords_iff :
    tail ∈ afterKeywords t ↔ Breaks tail ∧ ∃ head, Modified head ∧ t = head ++ tail := by
  constructor
  · intro found
    fun_induction afterKeywords t with
    | case1 => cases found
    | case2 t word after here single => exact modified_of_mem found
    | case3 t word after here more ih =>
      rcases List.mem_append.mp found with first | later
      · exact modified_of_mem first
      · obtain ⟨breaks, head, modified, rest_eq⟩ := ih later
        have after_eq : after.takeWhile isBlank ++ (head ++ tail) = after := by
          rw [← rest_eq, List.takeWhile_append_dropWhile]
        refine ⟨breaks, t.takeWhile isWord ++ (after.takeWhile isBlank ++ head), ?_, ?_⟩
        · exact .modifier word keep_of_mem_takeWhile (by simpa using more) keep_of_mem_takeWhile
            modified
        · rw [List.append_assoc, List.append_assoc, after_eq]
          exact List.takeWhile_append_dropWhile.symm
  · rintro ⟨breaks, head, modified, rfl⟩
    induction modified with
    | @keyword word letters keyword =>
      rw [afterKeywords, takeWhile_append_stop letters breaks, dropWhile_append_stop letters breaks,
        dif_neg (ne_nil_of_isKeyword keyword)]
      simp only [keyword, if_true]
      split <;> simp
    | @modifier word gap head named letters apart blanks rest ih =>
      have stop_word : ∀ c, (gap ++ (head ++ tail)).head? = some c → isWord c = false := by
        intro c first
        obtain ⟨d, more, rfl⟩ := List.exists_cons_of_ne_nil apart
        obtain rfl := Option.some.inj first
        exact isWord_of_isBlank (blanks d List.mem_cons_self)
      have stop_blank : ∀ c, (head ++ tail).head? = some c → isBlank c = false := by
        intro c first
        obtain ⟨d, more, rfl, letter⟩ := rest.head?_isWord
        obtain rfl := Option.some.inj first
        exact isBlank_of_isWord letter
      rw [List.append_assoc, List.append_assoc, afterKeywords,
        takeWhile_append_stop letters stop_word, dropWhile_append_stop letters stop_word,
        dif_neg named]
      simp only [takeWhile_append_stop blanks stop_blank, dropWhile_append_stop blanks stop_blank]
      rw [if_neg (by simpa using apart)]
      exact List.mem_append_right _ ih

theorem mem_afterAttributes_iff :
    tail ∈ afterKeywords (afterAttributes t) ↔
      Breaks tail ∧ ∃ head, Attributed head ∧ t = head ++ tail := by
  constructor
  · intro found
    fun_induction afterAttributes t with
    | case1 rest mark after block ih =>
      obtain ⟨breaks, head, attributed, rest_eq⟩ := ih found
      obtain rfl : mark = '>' := eq_mark_of_dropWhile block
      have inside := not_mem_takeWhile_mark '>' rest
      have after_eq : after.takeWhile isBlank ++ (head ++ tail) = after := by
        rw [← rest_eq, List.takeWhile_append_dropWhile]
      have rest_split : rest = rest.takeWhile (· != '>') ++ '>' :: after := by
        rw [← block, List.takeWhile_append_dropWhile]
      refine ⟨breaks, '<' :: (rest.takeWhile (· != '>') ++ '>' ::
        (after.takeWhile isBlank ++ head)), .block inside keep_of_mem_takeWhile attributed, ?_⟩
      rw [List.cons_append, List.append_assoc, List.cons_append, List.append_assoc, after_eq,
        ← rest_split]
    | case2 rest block =>
      obtain ⟨breaks, head, modified, rest_eq⟩ := mem_afterKeywords_iff.mp found
      exact ⟨breaks, head, .plain modified, rest_eq⟩
    | case3 t other =>
      obtain ⟨breaks, head, modified, rest_eq⟩ := mem_afterKeywords_iff.mp found
      exact ⟨breaks, head, .plain modified, rest_eq⟩
  · rintro ⟨breaks, head, attributed, rfl⟩
    induction attributed with
    | @plain head modified =>
      obtain ⟨c, more, rfl, letter⟩ := modified.head?_isWord
      have different : c ≠ '<' := by
        rintro rfl
        exact absurd letter (by decide)
      rw [afterAttributes]
      · exact mem_afterKeywords_iff.mpr ⟨breaks, _, modified, rfl⟩
      · intro rest same
        exact different (List.cons.inj same).1
    | @block body gap head inside blanks attributed ih =>
      have stop_blank : ∀ c, (head ++ tail).head? = some c → isBlank c = false := by
        intro c first
        obtain ⟨d, more, rfl, solid⟩ := attributed.head?_solid
        obtain rfl := Option.some.inj first
        exact solid
      have open_body : ∀ c ∈ body, (c != '>') = true := by
        intro c member
        simpa using fun same : c = '>' => inside (same ▸ member)
      have block : (body ++ '>' :: (gap ++ (head ++ tail))).dropWhile (· != '>') =
          '>' :: (gap ++ (head ++ tail)) :=
        dropWhile_append_stop open_body (by simp)
      have shape : '<' :: (body ++ '>' :: (gap ++ head)) ++ tail =
          '<' :: (body ++ '>' :: (gap ++ (head ++ tail))) := by simp
      rw [shape, afterAttributes]
      split
      · rename_i mark after same
        obtain ⟨-, rfl⟩ := List.cons.inj (block.symm.trans same)
        rwa [dropWhile_append_stop blanks stop_blank]
      · rename_i same
        rw [block] at same
        cases same

theorem mem_afterHeads_iff :
    tail ∈ afterHeads t ↔ Breaks tail ∧ ∃ head, Opening head ∧ t = head ++ tail := by
  rw [afterHeads, mem_afterAttributes_iff]
  constructor
  · rintro ⟨breaks, inner, attributed, rest_eq⟩
    refine ⟨breaks, t.takeWhile isBlank ++ inner,
      ⟨_, inner, rfl, keep_of_mem_takeWhile, attributed⟩, ?_⟩
    rw [List.append_assoc, ← rest_eq, trimStart, List.takeWhile_append_dropWhile]
  · rintro ⟨breaks, head, ⟨gap, inner, rfl, blanks, attributed⟩, rfl⟩
    refine ⟨breaks, inner, attributed, ?_⟩
    rw [List.append_assoc, trimStart, dropWhile_append_stop blanks]
    intro c first
    obtain ⟨d, more, rfl, solid⟩ := attributed.head?_solid
    obtain rfl := Option.some.inj first
    exact solid

theorem mem_headTails_false_iff :
    tail ∈ headTails false t ↔ Breaks tail ∧ ∃ head, Opening head ∧ t = ':' :: (head ++ tail) := by
  unfold headTails
  rw [if_neg Bool.false_ne_true, List.nil_append]
  split
  · rw [mem_afterHeads_iff]
    simp
  · rename_i other
    refine ⟨nofun, ?_⟩
    rintro ⟨-, head, -, rfl⟩
    exact absurd rfl (other _)

theorem headTails_true (t : Text) : headTails true t = afterHeads t ++ headTails false t := rfl

theorem mem_headTails_iff {lineStart : Bool} :
    tail ∈ headTails lineStart t ↔ Breaks tail ∧ ∃ head, Opening head ∧
      (lineStart = true ∧ t = head ++ tail ∨ t = ':' :: (head ++ tail)) := by
  cases lineStart with
  | false => simp [mem_headTails_false_iff]
  | true =>
    rw [headTails_true, List.mem_append, mem_afterHeads_iff, mem_headTails_false_iff]
    constructor
    · rintro (⟨breaks, head, opening, same⟩ | ⟨breaks, head, opening, same⟩)
      · exact ⟨breaks, head, opening, .inl ⟨rfl, same⟩⟩
      · exact ⟨breaks, head, opening, .inr same⟩
    · rintro ⟨breaks, head, opening, ⟨-, same⟩ | same⟩
      · exact .inl ⟨breaks, head, opening, same⟩
      · exact .inr ⟨breaks, head, opening, same⟩

/-- The tail of a head can be replaced by any text that does not go on with the keyword. -/
theorem headTails_replace {lineStart : Bool} (found : tail ∈ headTails lineStart t) :
    Breaks tail ∧ ∃ front, front ≠ [] ∧ t = front ++ tail ∧
      ∀ other, Breaks other → other ∈ headTails lineStart (front ++ other) := by
  obtain ⟨breaks, head, opening, place⟩ := mem_headTails_iff.mp found
  have nonempty : head ≠ [] := by
    obtain ⟨gap, inner, rfl, -, attributed⟩ := opening
    obtain ⟨c, more, rfl, -⟩ := attributed.head?_solid
    simp
  refine ⟨breaks, ?_⟩
  rcases place with ⟨start, rfl⟩ | rfl
  · exact ⟨head, nonempty, rfl, fun other stop =>
      mem_headTails_iff.mpr ⟨stop, head, opening, .inl ⟨start, rfl⟩⟩⟩
  · exact ⟨':' :: head, by simp, rfl, fun other stop =>
      mem_headTails_iff.mpr ⟨stop, head, opening, .inr rfl⟩⟩

theorem Opening.not_mem {c : Char} (opening : Opening head) (bare : '<' ∉ head)
    (solid : isBlank c = false) (plain : isWord c = false) : c ∉ head := by
  obtain ⟨gap, inner, rfl, blanks, attributed⟩ := opening
  rw [List.mem_append, not_or] at bare ⊢
  refine ⟨fun member => by simp [blanks c member] at solid, ?_⟩
  cases attributed with
  | block inside gap_blanks rest => exact absurd List.mem_cons_self bare.2
  | plain modified =>
    clear bare
    induction modified with
    | keyword letters keyword => exact fun member => by simp [letters c member] at plain
    | modifier named letters apart gap_blanks rest ih =>
      rw [List.mem_append, List.mem_append, not_or, not_or]
      exact ⟨fun member => by simp [letters c member] at plain,
        fun member => by simp [gap_blanks c member] at solid, ih⟩

end Grammar

section Order

theorem pairwise_afterKeywords (t : Text) :
    (afterKeywords t).Pairwise fun near far => far.length < near.length := by
  fun_induction afterKeywords t with
  | case1 => exact List.Pairwise.nil
  | case2 t word after here single =>
    simp only [here]
    split <;> simp
  | case3 t word after here more ih =>
    refine List.pairwise_append.mpr ⟨?_, ih, ?_⟩
    · simp only [here]
      split <;> simp
    · intro near inHere far inLater
      obtain rfl : near = after := by
        simp only [here] at inHere
        split at inHere
        · exact List.mem_singleton.mp inHere
        · cases inHere
      have shorter := (properTail_of_mem_afterKeywords inLater).2
      have blanks := length_dropWhile_le isBlank after
      omega

theorem afterHeads_colon (statement : Text) : afterHeads (':' :: statement) = [] := by
  have letter : isWord ':' = false := by decide
  rw [afterHeads, trimStart, List.dropWhile_cons_of_neg (by decide), afterAttributes, afterKeywords,
    dif_pos (by rw [List.takeWhile_cons_of_neg (by simp [letter])])]
  simp

theorem pairwise_headTails_false (t : Text) :
    (headTails false t).Pairwise fun near far => far.length < near.length := by
  unfold headTails
  rw [if_neg Bool.false_ne_true, List.nil_append]
  split
  · exact pairwise_afterKeywords _
  · exact List.Pairwise.nil

theorem pairwise_headTails (lineStart : Bool) (t : Text) :
    (headTails lineStart t).Pairwise fun near far => far.length < near.length := by
  cases lineStart with
  | false => exact pairwise_headTails_false t
  | true =>
    rw [headTails_true]
    refine List.pairwise_append.mpr ⟨pairwise_afterKeywords _, pairwise_headTails_false t, ?_⟩
    intro near first far colon
    obtain ⟨-, head, -, rfl⟩ := mem_headTails_false_iff.mp colon
    rw [afterHeads_colon] at first
    cases first

end Order

def tailsFrom (lineStart : Bool) : Text → List Text
  | [] => []
  | c :: rest => headTails lineStart (c :: rest) ++ tailsFrom (c == '\n') rest

def tails (t : Text) : List Text := tailsFrom true t

theorem occursFrom_eq (lineStart : Bool) (t : Text) :
    occursFrom lineStart t = !(tailsFrom lineStart t).isEmpty := by
  induction t generalizing lineStart with
  | nil => rfl
  | cons c rest ih =>
    rw [occursFrom, tailsFrom, ih]
    cases headTails lineStart (c :: rest) <;> simp

end BasicOutline.Declaration
