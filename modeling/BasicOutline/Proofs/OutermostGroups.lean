import BasicOutline.Proofs.BalancedGroups
import Mathlib.Data.List.Basic

/-! The outermost groups of a text, and what stands between them.

A group ends where its nesting comes back to zero for the first time, and a `(` that is never closed
hides every group behind it. So a text has its outermost groups in one way only. Collapsing empties
them in their places and leaves everything else as it is. -/

namespace BasicOutline.Parenthesis

structure Unclosed (t : Text) : Prop where
  opened : t.head? = some '('
  never : ∀ group after, t = group ++ after → ¬ IsGroup group

structure Span where
  group : Text
  after : Text
  deriving DecidableEq, Repr

def Span.text (span : Span) : Text := span.group ++ span.after

structure Span.WellFormed (span : Span) : Prop where
  isGroup : IsGroup span.group
  plain : '(' ∉ span.after

/-- A text by its outermost groups: what stands before the first of them, each with what follows it,
and the rest from a `(` on that is never closed. -/
structure Grouping where
  front : Text
  spans : List Span
  rest : Text
  deriving DecidableEq, Repr

namespace Grouping

def behind (grouping : Grouping) : Text := grouping.spans.flatMap Span.text ++ grouping.rest

def text (grouping : Grouping) : Text := grouping.front ++ grouping.behind

structure WellFormed (grouping : Grouping) : Prop where
  plain : '(' ∉ grouping.front
  spans : ∀ span ∈ grouping.spans, span.WellFormed
  rest : grouping.rest = [] ∨ Unclosed grouping.rest

def emptied (grouping : Grouping) : Grouping :=
  { grouping with spans := grouping.spans.map fun span => { span with group := ['(', ')'] } }

end Grouping

section Groups

variable {t rest : Text} {span : Span} {spans : List Span}

theorem unclosed_iff : Unclosed t ↔ t.head? = some '(' ∧ splitGroup 0 t = none := by
  constructor
  · intro unclosed
    refine ⟨unclosed.opened, ?_⟩
    obtain ⟨more, begins⟩ := List.head?_eq_some_iff.mp unclosed.opened
    rw [Option.eq_none_iff_forall_ne_some]
    intro (group, after) split
    rw [begins] at split
    obtain ⟨whole, isGroup⟩ := isGroup_of_splitGroup split
    exact unclosed.never group after (begins.trans whole) isGroup
  · intro ⟨opened, unsplit⟩
    refine ⟨opened, ?_⟩
    intro group after whole isGroup
    rw [whole, isGroup.splitGroup_eq after] at unsplit
    cases unsplit

theorem splitGroup_rest (ends : rest = [] ∨ Unclosed rest) : splitGroup 0 rest = none := by
  rcases ends with empty | unclosed
  · rw [empty]
    rfl
  · exact (unclosed_iff.mp unclosed).2

theorem splitGroup_spans (valid : span.WellFormed) (spans : List Span) (rest : Text) :
    splitGroup 0 ((span :: spans).flatMap Span.text ++ rest) =
      some (span.group, span.after ++ (spans.flatMap Span.text ++ rest)) := by
  have parts : (span :: spans).flatMap Span.text ++ rest =
      span.group ++ (span.after ++ (spans.flatMap Span.text ++ rest)) := by
    simp [Span.text]
  rw [parts]
  exact valid.isGroup.splitGroup_eq _

theorem head?_spans (valid : ∀ span ∈ spans, span.WellFormed) (ends : rest = [] ∨ Unclosed rest) :
    ∀ c, (spans.flatMap Span.text ++ rest).head? = some c → (c != '(') = false := by
  intro c head
  have opened : some c = some '(' := by
    cases spans with
    | nil =>
      rcases ends with empty | unclosed
      · rw [empty] at head
        cases head
      · exact head.symm.trans unclosed.opened
    | cons span more =>
      obtain ⟨inside, group_eq⟩ := (valid span List.mem_cons_self).isGroup.exists_cons
      rw [List.flatMap_cons, Span.text, group_eq] at head
      exact head.symm
  rw [Option.some.inj opened]
  rfl

theorem eq_of_append_spans {front other : Text} {others : List Span} {left : Text}
    (plain : '(' ∉ front) (valid : ∀ span ∈ spans, span.WellFormed)
    (ends : rest = [] ∨ Unclosed rest) (free : '(' ∉ other)
    (sound : ∀ span ∈ others, span.WellFormed) (stops : left = [] ∨ Unclosed left)
    (same : front ++ (spans.flatMap Span.text ++ rest) =
      other ++ (others.flatMap Span.text ++ left)) :
    front = other ∧ spans.flatMap Span.text ++ rest = others.flatMap Span.text ++ left := by
  have before : front = other := by
    calc
      front = (front ++ (spans.flatMap Span.text ++ rest)).takeWhile (· != '(') :=
        (Text.takeWhile_append_stop (Text.bne_of_not_mem plain) (head?_spans valid ends)).symm
      _ = (other ++ (others.flatMap Span.text ++ left)).takeWhile (· != '(') := by rw [same]
      _ = other := Text.takeWhile_append_stop (Text.bne_of_not_mem free) (head?_spans sound stops)
  rw [before] at same
  exact ⟨before, List.append_cancel_left same⟩

/-- Groups one after the other are known by their text. The first group of both is what is split
off, and what follows it is the front of the groups that are left. -/
theorem spans_injective {others : List Span} {left : Text}
    (valid : ∀ span ∈ spans, span.WellFormed) (ends : rest = [] ∨ Unclosed rest)
    (sound : ∀ span ∈ others, span.WellFormed) (stops : left = [] ∨ Unclosed left)
    (same : spans.flatMap Span.text ++ rest = others.flatMap Span.text ++ left) :
    spans = others ∧ rest = left := by
  induction spans generalizing others with
  | nil =>
    cases others with
    | nil => exact ⟨rfl, same⟩
    | cons other more =>
      have found := splitGroup_spans (sound other List.mem_cons_self) more left
      rw [← same, List.flatMap_nil, List.nil_append, splitGroup_rest ends] at found
      cases found
  | cons span spans ih =>
    have here := valid span List.mem_cons_self
    have found := splitGroup_spans here spans rest
    cases others with
    | nil =>
      rw [same, List.flatMap_nil, List.nil_append, splitGroup_rest stops] at found
      cases found
    | cons other more =>
      have there := sound other List.mem_cons_self
      rw [same, splitGroup_spans there more left] at found
      obtain ⟨group_eq, after_eq⟩ := Prod.mk.inj (Option.some.inj found)
      have later : ∀ span ∈ spans, span.WellFormed :=
        fun span member => valid span (List.mem_cons_of_mem _ member)
      have others : ∀ span ∈ more, span.WellFormed :=
        fun span member => sound span (List.mem_cons_of_mem _ member)
      obtain ⟨plain_eq, behind_eq⟩ :=
        eq_of_append_spans there.plain others stops here.plain later ends after_eq
      obtain ⟨spans_eq, rest_eq⟩ := ih later others behind_eq.symm
      have span_eq : span = other := by
        cases span
        cases other
        exact congrArg₂ Span.mk group_eq.symm plain_eq.symm
      exact ⟨congrArg₂ List.cons span_eq spans_eq, rest_eq⟩

theorem collapse_spans (valid : ∀ span ∈ spans, span.WellFormed)
    (ends : rest = [] ∨ Unclosed rest) :
    collapse (spans.flatMap Span.text ++ rest) =
      spans.flatMap (fun span => '(' :: ')' :: span.after) ++ rest := by
  induction spans with
  | nil =>
    rw [List.flatMap_nil, List.flatMap_nil, List.nil_append]
    rcases ends with empty | unclosed
    · rw [empty, collapse]
    · obtain ⟨opened, unsplit⟩ := unclosed_iff.mp unclosed
      obtain ⟨more, begins⟩ := List.head?_eq_some_iff.mp opened
      rw [begins] at unsplit ⊢
      exact collapse_of_open unsplit
  | cons span spans ih =>
    have here := valid span List.mem_cons_self
    have later := ih fun other member => valid other (List.mem_cons_of_mem _ member)
    calc
      collapse ((span :: spans).flatMap Span.text ++ rest) =
          collapse (span.group ++ (span.after ++ (spans.flatMap Span.text ++ rest))) := by
        simp [Span.text]
      _ = '(' :: ')' :: (span.after ++
          (spans.flatMap (fun span => '(' :: ')' :: span.after) ++ rest)) := by
        rw [here.isGroup.collapse_append, collapse_append_of_plain here.plain, later]
      _ = (span :: spans).flatMap (fun span => '(' :: ')' :: span.after) ++ rest := by simp

theorem depth_spans (valid : ∀ span ∈ spans, span.WellFormed) :
    depth (spans.flatMap Span.text) =
      depth (spans.flatMap fun span => '(' :: ')' :: span.after) := by
  induction spans with
  | nil => rfl
  | cons span spans ih =>
    have closed := (valid span List.mem_cons_self).isGroup.closed
    have pair : depth (['(', ')'] ++ span.after) = depth span.after := by
      rw [depth_append, isGroup_pair.closed, Int.zero_add]
    have later := ih fun other member => valid other (List.mem_cons_of_mem _ member)
    calc
      depth ((span :: spans).flatMap Span.text) =
          depth span.after + depth (spans.flatMap Span.text) := by
        rw [List.flatMap_cons, depth_append, Span.text, depth_append, closed, Int.zero_add]
      _ = depth ((span :: spans).flatMap fun span => '(' :: ')' :: span.after) := by
        rw [later, List.flatMap_cons, depth_append, ← pair]
        rfl

end Groups

namespace Grouping

variable {grouping first second : Grouping}

theorem emptied_text : grouping.emptied.text = grouping.front ++
    (grouping.spans.flatMap (fun span => '(' :: ')' :: span.after) ++ grouping.rest) := by
  rw [text, behind, emptied, List.flatMap_map]
  rfl

theorem WellFormed.emptied (valid : grouping.WellFormed) : grouping.emptied.WellFormed where
  plain := valid.plain
  spans := by
    intro span member
    obtain ⟨source, inside, same⟩ := List.mem_map.mp member
    rw [← same]
    exact ⟨isGroup_pair, (valid.spans source inside).plain⟩
  rest := valid.rest

theorem WellFormed.eq_of_text_eq (valid : first.WellFormed) (sound : second.WellFormed)
    (same : first.text = second.text) : first = second := by
  obtain ⟨front_eq, behind_eq⟩ := eq_of_append_spans valid.plain valid.spans valid.rest sound.plain
    sound.spans sound.rest same
  obtain ⟨spans_eq, rest_eq⟩ :=
    spans_injective valid.spans valid.rest sound.spans sound.rest behind_eq
  cases first
  cases second
  rw [mk.injEq]
  exact ⟨front_eq, spans_eq, rest_eq⟩

theorem WellFormed.collapse_text (valid : grouping.WellFormed) :
    collapse grouping.text = grouping.emptied.text := by
  rw [text, behind, collapse_append_of_plain valid.plain, collapse_spans valid.spans valid.rest,
    emptied_text]

theorem WellFormed.depth_text (valid : grouping.WellFormed) :
    depth grouping.emptied.text = depth grouping.text := by
  rw [emptied_text, text, behind]
  simp only [depth_append, depth_spans valid.spans]

/-- Texts collapse to the same if they differ inside their outermost groups at most. -/
theorem WellFormed.collapse_eq_iff (valid : first.WellFormed) (sound : second.WellFormed) :
    collapse first.text = collapse second.text ↔ first.emptied = second.emptied := by
  rw [valid.collapse_text, sound.collapse_text]
  exact ⟨valid.emptied.eq_of_text_eq sound.emptied, congrArg text⟩

end Grouping

/-- Read from the left, every text is made of groups, of what stands between them, and of a rest. -/
theorem exists_grouping (t : Text) :
    ∃ grouping : Grouping, grouping.WellFormed ∧ grouping.text = t := by
  fun_induction collapse t with
  | case1 =>
    exact ⟨⟨[], [], []⟩, ⟨List.not_mem_nil, List.forall_mem_nil _, .inl rfl⟩, rfl⟩
  | case2 more group after split ih =>
    obtain ⟨later, valid, behind⟩ := ih
    obtain ⟨whole, isGroup⟩ := isGroup_of_splitGroup split
    refine ⟨⟨[], ⟨group, later.front⟩ :: later.spans, later.rest⟩,
      ⟨List.not_mem_nil, ?_, valid.rest⟩, ?_⟩
    · exact List.forall_mem_cons.mpr ⟨⟨isGroup, valid.plain⟩, valid.spans⟩
    · rw [whole, ← behind]
      simp [Grouping.text, Grouping.behind, Span.text]
  | case3 more opened =>
    have unclosed : Unclosed ('(' :: more) := unclosed_iff.mpr ⟨rfl, opened⟩
    exact ⟨⟨[], [], '(' :: more⟩, ⟨List.not_mem_nil, List.forall_mem_nil _, .inr unclosed⟩, rfl⟩
  | case4 c more other ih =>
    obtain ⟨later, valid, behind⟩ := ih
    refine ⟨{ later with front := c :: later.front }, ⟨?_, valid.spans, valid.rest⟩, ?_⟩
    · rw [List.mem_cons, not_or]
      exact ⟨Ne.symm other, valid.plain⟩
    · rw [← behind]
      rfl

/-- A text has its outermost groups in one way, and collapsing empties them. So a collapsed text
stays as it is, its parentheses count the same, and it tells everything but what the groups held. -/
theorem collapse_grouped (t : Text) :
    ∃ grouping : Grouping, (grouping.WellFormed ∧ grouping.text = t) ∧
      (∀ other : Grouping, other.WellFormed → other.text = t → other = grouping) ∧
      collapse t = grouping.emptied.text ∧ collapse (collapse t) = collapse t ∧
      depth (collapse t) = depth t ∧
      ∀ other : Grouping, other.WellFormed →
        (collapse other.text = collapse t ↔ other.emptied = grouping.emptied) := by
  obtain ⟨grouping, valid, whole⟩ := exists_grouping t
  refine ⟨grouping, ⟨valid, whole⟩, ?_, ?_, collapse_collapse t, ?_, ?_⟩
  · intro other sound same
    exact sound.eq_of_text_eq valid (same.trans whole.symm)
  · rw [← whole, valid.collapse_text]
  · rw [← whole, valid.collapse_text, valid.depth_text]
  · intro other sound
    rw [← whole]
    exact sound.collapse_eq_iff valid

/-- A stray `)` between the groups, and a group that an open `(` hides. -/
theorem collapse_grouped_of_malformed :
    ∃ first second : Grouping, first.WellFormed ∧ second.WellFormed ∧
      first.text = "a(b(c)))d()(e(f)".toList ∧ second.text = "a())d(As(x))(e(f)".toList ∧
      collapse first.text = "a())d()(e(f)".toList ∧ collapse second.text = collapse first.text := by
  let first : Grouping :=
    ⟨"a".toList, [⟨"(b(c))".toList, ")d".toList⟩, ⟨"()".toList, []⟩], "(e(f)".toList⟩
  let second : Grouping :=
    ⟨"a".toList, [⟨"()".toList, ")d".toList⟩, ⟨"(As(x))".toList, []⟩], "(e(f)".toList⟩
  have hidden : Unclosed "(e(f)".toList := unclosed_iff.mpr ⟨rfl, by decide⟩
  have valid : first.WellFormed :=
    ⟨by decide, List.forall_mem_cons.mpr ⟨⟨by decide, by decide⟩,
      List.forall_mem_singleton.mpr ⟨by decide, nofun⟩⟩, .inr hidden⟩
  have sound : second.WellFormed :=
    ⟨by decide, List.forall_mem_cons.mpr ⟨⟨by decide, by decide⟩,
      List.forall_mem_singleton.mpr ⟨by decide, nofun⟩⟩, .inr hidden⟩
  obtain ⟨grouping, -, only, collapsed, -, -, same⟩ := collapse_grouped first.text
  have found : first = grouping := only first valid rfl
  refine ⟨first, second, valid, sound, by decide, by decide, ?_, ?_⟩
  · rw [collapsed, ← found]
    decide
  · rw [same second sound, ← found]
    decide

end BasicOutline.Parenthesis
