import BasicOutline.Proofs.BalancedGroups
import BasicOutline.Proofs.SignatureText

/-! Where a signature ends, and its text.

A signature takes up lines as long as the parentheses opened so far are not all closed. The count
goes line by line from the first `(` on, while a formatter looks for the `)` of the first group
character by character. Where the count comes to an end, there is such a `)`. -/

namespace BasicOutline.Signature

open Text

def totalDepth : List Text → Int
  | [] => 0
  | line :: rest => Parenthesis.depth (stripContinuation line) + totalDepth rest

/-- The nesting that lines leave open if a signature begins with the first of them. -/
def nestingOf : List Text → Int
  | [] => 0
  | first :: following => openDepth (stripContinuation first) + totalDepth following

def textOf (lines : List Text) : Text := List.intercalate ['\n'] (lines.map stripContinuation)

def slice (lines : List Text) (start last : Nat) : List Text :=
  (lines.drop start).take (last + 1 - start)

/-- A signature that begins with the line `start` ends with the first line that leaves nothing open,
and with the last line of all if every line leaves something open. -/
structure EndsWith (lines : List Text) (start last : Nat) : Prop where
  follows : start ≤ last
  present : last < lines.length
  opened : ∀ index, start ≤ index → index < last → 0 < nestingOf (slice lines start index)
  ends : nestingOf (slice lines start last) ≤ 0 ∨ last + 1 = lines.length

theorem EndsWith.unique {lines : List Text} {start last other : Nat}
    (first : EndsWith lines start last) (second : EndsWith lines start other) : last = other := by
  have not_before : ∀ {a b : Nat}, EndsWith lines start a → EndsWith lines start b → ¬ a < b := by
    intro a b early late before
    have opened := late.opened a early.follows before
    have present := late.present
    rcases early.ends with closed | final <;> omega
  have forward := not_before first second
  have back := not_before second first
  omega

section Extension

variable {text : Text} {nesting : Int} {lines taken : List Text} {assembled : Assembled}

theorem intercalate_cons_append (first second : Text) (rest : List Text) :
    List.intercalate ['\n'] ((first ++ '\n' :: second) :: rest) =
      List.intercalate ['\n'] (first :: second :: rest) := by
  cases rest with
  | nil => simp [List.intercalate_cons_cons, List.intercalate_singleton]
  | cons third more => simp [List.intercalate_cons_cons]

/-- Lines are taken up as long as something is open. What comes after them is not looked at, unless
something is left open. -/
theorem extend_taken {after : List Line}
    (opened : ∀ fewer < taken.length, 0 < nesting + totalDepth (taken.take fewer))
    (ends : nesting + totalDepth taken ≤ 0 ∨ after = []) :
    extend text nesting (taken.map some ++ after) =
      .ok ⟨List.intercalate ['\n'] (text :: taken.map stripContinuation), taken.length⟩ := by
  induction taken generalizing text nesting with
  | nil =>
    have stopped : extend text nesting after = .ok ⟨text, 0⟩ := by
      rcases ends with closed | absent
      · apply extend_of_closed
        simpa [totalDepth] using closed
      · rw [absent]
        rfl
    simpa [List.intercalate_singleton] using stopped
  | cons line rest ih =>
    have here : 0 < nesting := by simpa [totalDepth] using opened 0 (Nat.succ_pos _)
    have later : ∀ fewer < rest.length, 0 < nesting + Parenthesis.depth (stripContinuation line) +
        totalDepth (rest.take fewer) := by
      intro fewer bound
      have next := opened (fewer + 1) (Nat.succ_lt_succ bound)
      rwa [List.take_succ_cons, totalDepth, ← Int.add_assoc] at next
    rw [totalDepth, ← Int.add_assoc] at ends
    rw [List.map_cons, List.cons_append, extend_some here, ih later ends, intercalate_cons_append]
    rfl

theorem exists_taken (nesting : Int) (lines : List Text) :
    ∃ taken left, lines = taken ++ left ∧
      (∀ fewer < taken.length, 0 < nesting + totalDepth (taken.take fewer)) ∧
      (nesting + totalDepth taken ≤ 0 ∨ left = []) := by
  induction lines generalizing nesting with
  | nil => exact ⟨[], [], rfl, nofun, .inr rfl⟩
  | cons line rest ih =>
    by_cases closed : nesting ≤ 0
    · exact ⟨[], line :: rest, rfl, nofun, .inl (by simpa [totalDepth] using closed)⟩
    · obtain ⟨taken, left, parts, opened, ends⟩ :=
        ih (nesting + Parenthesis.depth (stripContinuation line))
      refine ⟨line :: taken, left, by rw [parts, List.cons_append], ?_, ?_⟩
      · intro fewer bound
        cases fewer with
        | zero => simpa [totalDepth] using closed
        | succ fewer =>
          rw [List.take_succ_cons, totalDepth, ← Int.add_assoc]
          exact opened fewer (Nat.lt_of_succ_lt_succ bound)
      · rwa [totalDepth, ← Int.add_assoc]

theorem extend_present (text : Text) (nesting : Int) (lines : List Text) :
    ∃ taken left, lines = taken ++ left ∧ extend text nesting (lines.map some) =
      .ok ⟨List.intercalate ['\n'] (text :: taken.map stripContinuation), taken.length⟩ := by
  obtain ⟨taken, left, parts, opened, ends⟩ := exists_taken nesting lines
  refine ⟨taken, left, parts, ?_⟩
  rw [parts, List.map_append]
  apply extend_taken opened
  exact ends.imp_right fun none_left => by rw [none_left, List.map_nil]

theorem exists_extend (text : Text) (nesting : Int) (lines : List Text) :
    ∃ assembled, extend text nesting (lines.map some) = .ok assembled := by
  obtain ⟨taken, left, -, extended⟩ := extend_present text nesting lines
  exact ⟨_, extended⟩

theorem extend_text_eq (extended : extend text nesting (lines.map some) = .ok assembled) :
    assembled.text = List.intercalate ['\n']
      (text :: (lines.take assembled.extra).map stripContinuation) := by
  obtain ⟨taken, left, parts, whole⟩ := extend_present text nesting lines
  have same := Except.ok.inj (whole.symm.trans extended)
  rw [← same, parts, List.take_left]

end Extension

section Closing

variable {text first : Text} {following lines : List Text}

theorem textOf_cons_cons (first second : Text) (rest : List Text) :
    textOf (first :: second :: rest) =
      stripContinuation first ++ '\n' :: textOf (second :: rest) := by
  rw [textOf, List.map_cons, List.map_cons, List.intercalate_cons_cons]
  simp [textOf]

theorem textOf_singleton (line : Text) : textOf [line] = stripContinuation line :=
  List.intercalate_singleton

theorem depth_textOf (lines : List Text) : Parenthesis.depth (textOf lines) = totalDepth lines := by
  induction lines with
  | nil => rfl
  | cons line rest ih =>
    rw [totalDepth, ← ih]
    cases rest with
    | nil =>
      rw [textOf_singleton, textOf, List.map_nil, List.intercalate_nil, Parenthesis.depth,
        Int.add_zero]
    | cons second more =>
      rw [textOf_cons_cons, Parenthesis.depth_append, depth_newline]

/-- The count over lines is the count from the first `(` of the text on. -/
theorem openDepth_textOf (present : '(' ∈ stripContinuation first) :
    openDepth (textOf (first :: following)) = nestingOf (first :: following) := by
  rw [nestingOf, ← depth_textOf]
  cases following with
  | nil =>
    rw [textOf_singleton, textOf, List.map_nil, List.intercalate_nil, Parenthesis.depth,
      Int.add_zero]
  | cons second more => rw [textOf_cons_cons, openDepth_append present, depth_newline]

theorem mem_textOf (present : '(' ∈ stripContinuation first) :
    '(' ∈ textOf (first :: following) := by
  cases following with
  | nil => rwa [textOf_singleton]
  | cons second more =>
    rw [textOf_cons_cons]
    exact List.mem_append_left _ present

theorem isSome_closing? (present : '(' ∈ text) (closed : openDepth text ≤ 0) :
    (Parenthesis.closing? text (text.idxOf '(')).isSome = true := by
  obtain ⟨front, back, rfl, plain⟩ := List.eq_append_cons_of_mem present
  have first : (front ++ '(' :: back).idxOf '(' = front.length := by
    rw [List.idxOf_append_of_notMem plain, List.idxOf_cons_self, Nat.add_zero]
  have whole : openDepth ('(' :: back) = Parenthesis.depth ('(' :: back) := rfl
  rw [openDepth_skip plain, whole] at closed
  rw [Parenthesis.closing?, first, List.drop_left, Option.isSome_map]
  exact Parenthesis.isSome_splitGroup_of_depth closed

end Closing

section Assembly

variable {lines following taken : List Text} {first : Text} {start : Nat}

theorem grab_taken {file after : List Line}
    (here : file.drop start = (first :: taken).map some ++ after)
    (opened : ∀ fewer < taken.length, 0 < nestingOf (first :: taken.take fewer))
    (ends : nestingOf (first :: taken) ≤ 0 ∨ after = []) :
    grab file start = .ok ⟨textOf (first :: taken), start + taken.length⟩ := by
  have assembled : assemble (some first) (taken.map some ++ after) =
      .ok ⟨textOf (first :: taken), taken.length⟩ := extend_taken opened ends
  exact grab_of_drop here assembled

theorem slice_of_drop (here : lines.drop start = first :: following) (count : Nat) :
    slice lines start (start + count) = first :: following.take count := by
  have width : start + count + 1 - start = count + 1 := by omega
  rw [slice, here, width, List.take_succ_cons]

theorem exists_endsWith (here : lines.drop start = first :: following) :
    ∃ taken left, following = taken ++ left ∧ EndsWith lines start (start + taken.length) ∧
      slice lines start (start + taken.length) = first :: taken ∧
      (∀ fewer < taken.length, 0 < nestingOf (first :: taken.take fewer)) ∧
      (nestingOf (first :: taken) ≤ 0 ∨ left = []) := by
  obtain ⟨taken, left, parts, opened, ends⟩ :=
    exists_taken (openDepth (stripContinuation first)) following
  have count : lines.length = start + (1 + taken.length + left.length) := by
    have whole := congrArg List.length here
    rw [List.length_drop, parts, List.length_cons, List.length_append] at whole
    omega
  have span : ∀ fewer ≤ taken.length,
      slice lines start (start + fewer) = first :: taken.take fewer := by
    intro fewer bound
    rw [slice_of_drop here, parts, List.take_append_of_le_length bound]
  have all : slice lines start (start + taken.length) = first :: taken := by
    rw [span _ (Nat.le_refl _), List.take_length]
  refine ⟨taken, left, parts, ⟨Nat.le_add_right _ _, by omega, ?_, ?_⟩, all, opened, ends⟩
  · intro index follows before
    obtain ⟨fewer, rfl⟩ := Nat.exists_eq_add_of_le follows
    rw [span fewer (by omega)]
    exact opened fewer (by omega)
  · rw [all]
    apply ends.imp_right
    intro none_left
    rw [count, none_left, List.length_nil]
    omega

/-- The signature that begins with a present line ends with the first line that leaves nothing open,
or else with the last line, and its text joins its lines. It does not depend on any line before or
after, and where it leaves nothing open its first `(` is closed in it. -/
theorem grab_assembles (lines : List Text) (start : Nat) :
    (lines.length ≤ start → grab (lines.map some) start = .ok ⟨[], start⟩) ∧
      (start < lines.length → ∃ last, (∀ index, EndsWith lines start index ↔ index = last) ∧
        grab (lines.map some) start = .ok ⟨textOf (slice lines start last), last⟩ ∧
        (∀ before after : List Line, before.length = start →
          nestingOf (slice lines start last) ≤ 0 ∨ after = [] →
          grab (before ++ ((slice lines start last).map some ++ after)) start =
            grab (lines.map some) start) ∧
        ∀ line, lines[start]? = some line → '(' ∈ stripContinuation line →
          nestingOf (slice lines start last) ≤ 0 →
          (Parenthesis.closing? (textOf (slice lines start last))
            ((textOf (slice lines start last)).idxOf '(')).isSome = true) := by
  constructor
  · intro past
    have none_left : (lines.map some).drop start = [] := by
      rw [← List.map_drop, List.drop_of_length_le past, List.map_nil]
    rw [grab, readFrom, if_pos (Int.natCast_nonneg start), Int.toNat_natCast, none_left]
  · intro present
    have here := List.drop_eq_getElem_cons present
    obtain ⟨taken, left, parts, endsWith, span, opened, ends⟩ := exists_endsWith here
    have taken_up : grab (lines.map some) start =
        .ok ⟨textOf (lines[start] :: taken), start + taken.length⟩ := by
      have whole : (lines.map some).drop start =
          (lines[start] :: taken).map some ++ left.map some := by
        rw [← List.map_drop, here, parts, ← List.cons_append, List.map_append]
      apply grab_taken whole opened
      exact ends.imp_right fun none_left => by rw [none_left, List.map_nil]
    refine ⟨start + taken.length, ?_, ?_, ?_, ?_⟩
    · intro index
      exact ⟨fun other => other.unique endsWith, fun same => same ▸ endsWith⟩
    · rw [taken_up, span]
      rfl
    · intro before after position stops
      rw [span] at stops
      rw [taken_up, span]
      exact grab_taken (List.drop_left' position) opened stops
    · intro line found inside closed
      rw [List.getElem?_eq_getElem present] at found
      rw [← Option.some.inj found] at inside
      rw [span] at closed ⊢
      rw [← openDepth_textOf inside] at closed
      exact isSome_closing? (mem_textOf inside) closed

/-- A signature over three lines with continuation markers, which closes more than it opens. -/
theorem grab_assembles_of_surplus :
    let lines := ["Rem (".toList, "Sub F(a As T(), _ ".toList, "  b(1)\t_".toList,
      " )) As X".toList, "y (".toList]
    let text := "Sub F(a As T(),\n  b(1)\n )) As X".toList
    EndsWith lines 1 3 ∧ grab (lines.map some) 1 = .ok ⟨text, 3⟩ ∧
      grab [none, some "Sub F(a As T(), _ ".toList, some "  b(1)\t_".toList,
        some " )) As X".toList, none] 1 = .ok ⟨text, 3⟩ ∧
      (Parenthesis.closing? text (text.idxOf '(')).isSome = true ∧
      grab (lines.map some) 9 = .ok ⟨[], 9⟩ := by
  intro lines text
  have opened : ∀ index < 3, 1 ≤ index → 0 < nestingOf (slice lines 1 index) := by decide
  have closed : nestingOf (slice lines 1 3) ≤ 0 := by decide
  have ends : EndsWith lines 1 3 :=
    ⟨by decide, by decide, fun index follows before => opened index before follows, .inl closed⟩
  obtain ⟨last, only, taken, elsewhere, closes⟩ := (grab_assembles lines 1).2 (by decide)
  obtain rfl := (only 3).mp ends
  have whole : textOf (slice lines 1 3) = text := by decide
  rw [whole] at taken closes
  refine ⟨ends, taken, ?_, ?_, (grab_assembles lines 9).1 (by decide)⟩
  · exact (elsewhere [none] [none] rfl (.inl closed)).trans taken
  · exact closes "Sub F(a As T(), _ ".toList rfl (by decide) closed

end Assembly

end BasicOutline.Signature
