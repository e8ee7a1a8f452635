import BasicOutline.Proofs.LineFolding
import BasicOutline.Proofs.ScanCompose

/-! Signatures that are split over several lines.

A signature may be broken at spaces inside its parentheses, with or without continuation markers.
The outline of the broken lines is the outline of the one line, with what follows moved down. -/

namespace BasicOutline.Signature

open Text

def IsMarker (mark : Text) : Prop :=
  ∃ before after, before ≠ [] ∧ (∀ c ∈ before, isSpaceOrTab c = true) ∧
    (∀ c ∈ after, isSpaceOrTab c = true) ∧ mark = before ++ '_' :: after

def EndsSolid (t : Text) : Prop := ∃ body c, t = body ++ [c] ∧ isBlank c = false

def StartsSolid (t : Text) : Prop := ∃ c rest, t = c :: rest ∧ isBlank c = false

structure Piece where
  gap : Text
  text : Text
  mark : Text
  deriving DecidableEq, Repr

namespace Piece

def line (piece : Piece) : Text := piece.gap ++ piece.text ++ piece.mark

structure WellFormed (piece : Piece) : Prop where
  blanks : ∀ c ∈ piece.gap, isSpaceOrTab c = true
  no_break : '\n' ∉ piece.text
  no_quote : '\x27' ∉ piece.text
  ends : EndsSolid piece.text
  marked : IsMarker piece.mark ∨ piece.mark = [] ∧ piece.text.getLast? ≠ some '_'

end Piece

def logicalLine (first : Piece) (rest : List Piece) : Text :=
  first.text ++ rest.flatMap fun piece => ' ' :: piece.text

def stacked (first : Piece) (rest : List Piece) : Text :=
  first.text ++ rest.flatMap fun piece => '\n' :: (piece.gap ++ piece.text)

/-- A signature that is broken inside its parentheses, and only there. -/
structure Split (first : Piece) (rest : List Piece) : Prop where
  wellFormed : ∀ piece ∈ first :: rest, piece.WellFormed
  starts : ∀ piece ∈ rest, StartsSolid piece.text
  flush : first.gap = []
  opened : '(' ∈ first.text
  last_mark : ∀ before last, first :: rest = before ++ [last] → last.mark = []
  open_iff : ∀ taken left, rest = taken ++ left →
    (0 < openDepth (logicalLine first taken) ↔ left ≠ [])

section Marker

theorem isSpaceOrTab_of_solid {c : Char} (solid : isBlank c = false) : isSpaceOrTab c = false := by
  cases space : isSpaceOrTab c with
  | false => rfl
  | true => rw [isBlank_of_isSpaceOrTab space] at solid; cases solid

theorem dropWhile_reverse_append {keep : Char → Bool} {t tail : Text} {c : Char}
    (dropped : ∀ d ∈ tail, keep d = true) (kept : keep c = false) :
    (t ++ c :: tail).reverse.dropWhile keep = c :: t.reverse := by
  have reversed : (t ++ c :: tail).reverse = tail.reverse ++ c :: t.reverse := by simp
  rw [reversed, List.dropWhile_append_of_pos, List.dropWhile_cons_of_neg]
  · simp [kept]
  · intro d member
    exact dropped d (List.mem_reverse.mp member)

theorem dropMarker_marker {t mark : Text} (solid : EndsSolid t) (marker : IsMarker mark) :
    dropMarker (t ++ mark) = t := by
  obtain ⟨before, after, -, beforeBlank, afterBlank, rfl⟩ := marker
  obtain ⟨body, c, rfl, plain⟩ := solid
  have outer : (body ++ [c] ++ (before ++ '_' :: after)).reverse.dropWhile isSpaceOrTab =
      '_' :: (body ++ [c] ++ before).reverse := by
    rw [← List.append_assoc]
    exact dropWhile_reverse_append afterBlank (by decide)
  have inner : (body ++ [c] ++ before).reverse.dropWhile isSpaceOrTab = c :: body.reverse := by
    rw [List.append_assoc]
    exact dropWhile_reverse_append beforeBlank (isSpaceOrTab_of_solid plain)
  rw [dropMarker, outer]
  simp only [inner]
  simp

theorem dropMarker_eq_self {t : Text} (solid : EndsSolid t) (unmarked : t.getLast? ≠ some '_') :
    dropMarker t = t := by
  obtain ⟨body, c, rfl, plain⟩ := solid
  have different : c ≠ '_' := by
    intro same
    exact unmarked (by simp [same])
  have reversed : (body ++ [c]).reverse.dropWhile isSpaceOrTab = c :: body.reverse :=
    dropWhile_reverse_append (by simp) (isSpaceOrTab_of_solid plain)
  rw [dropMarker, reversed]
  split
  · rename_i same
    exact absurd (List.cons.inj same).1 different
  · rfl

theorem IsMarker.ne_nil {mark : Text} (marker : IsMarker mark) : mark ≠ [] := by
  obtain ⟨before, after, -, -, -, rfl⟩ := marker
  simp

theorem IsMarker.no_break {mark : Text} (marker : IsMarker mark) : '\n' ∉ mark := by
  obtain ⟨before, after, -, beforeBlank, afterBlank, rfl⟩ := marker
  intro member
  rcases List.mem_append.mp member with inside | inside
  · exact absurd (beforeBlank _ inside) (by decide)
  · rcases List.mem_cons.mp inside with same | later
    · exact absurd same (by decide)
    · exact absurd (afterBlank _ later) (by decide)

theorem EndsSolid.getLast?_ne {t : Text} (solid : EndsSolid t) {c : Char}
    (blank : isBlank c = true) : t.getLast? ≠ some c := by
  obtain ⟨body, d, rfl, plain⟩ := solid
  rw [List.getLast?_concat]
  rintro same
  obtain rfl := Option.some.inj same
  rw [plain] at blank
  cases blank

theorem EndsSolid.isBlank_last {t : Text} (solid : EndsSolid t) :
    ∀ c, t.getLast? = some c → isBlank c = false := by
  intro c last
  obtain ⟨body, d, rfl, plain⟩ := solid
  rw [List.getLast?_concat] at last
  exact Option.some.inj last ▸ plain

theorem StartsSolid.head?_append_solid {t : Text} (solid : StartsSolid t) (rest : Text) :
    ∀ c, (t ++ rest).head? = some c → isBlank c = false := by
  intro c head
  obtain ⟨d, more, rfl, plain⟩ := solid
  exact Option.some.inj head ▸ plain

theorem EndsSolid.append {t : Text} (solid : EndsSolid t) (front : Text) :
    EndsSolid (front ++ t) := by
  obtain ⟨body, c, rfl, plain⟩ := solid
  exact ⟨front ++ body, c, by rw [List.append_assoc], plain⟩

theorem stripContinuation_marker {t mark : Text} (solid : EndsSolid t)
    (marker : IsMarker mark) : stripContinuation (t ++ mark) = t := by
  have last : (t ++ mark).getLast? ≠ some '\n' := by
    rw [List.getLast?_append, List.getLast?_eq_some_getLast marker.ne_nil, Option.some_or]
    intro same
    exact marker.no_break (Option.some.inj same ▸ List.getLast_mem marker.ne_nil)
  rw [stripContinuation, if_neg last, dropMarker_marker solid marker]

theorem stripContinuation_eq_self {t : Text} (solid : EndsSolid t)
    (unmarked : t.getLast? ≠ some '_') : stripContinuation t = t := by
  have last : t.getLast? ≠ some '\n' := solid.getLast?_ne (by decide)
  rw [stripContinuation, if_neg last, dropMarker_eq_self solid unmarked]

theorem Piece.WellFormed.stripContinuation_line {piece : Piece} (valid : piece.WellFormed) :
    stripContinuation piece.line = piece.gap ++ piece.text := by
  have solid := valid.ends.append piece.gap
  rcases valid.marked with marker | ⟨unmarked, last⟩
  · exact stripContinuation_marker solid marker
  · rw [Piece.line, unmarked, List.append_nil]
    apply stripContinuation_eq_self solid
    obtain ⟨body, c, same, -⟩ := valid.ends
    rw [same, List.getLast?_concat] at last
    rwa [same, ← List.append_assoc, List.getLast?_concat]

end Marker

section Assembly

variable {first : Piece} {rest : List Piece}

/-- Breaking the line does not change the nesting that a piece leaves open. -/
theorem depth_flatMap_eq (valid : ∀ piece ∈ rest, piece.WellFormed) :
    Parenthesis.depth (rest.flatMap fun piece => '\n' :: (piece.gap ++ piece.text)) =
      Parenthesis.depth (rest.flatMap fun piece => ' ' :: piece.text) := by
  induction rest with
  | nil => rfl
  | cons piece more ih =>
    have blanks := Parenthesis.depth_of_blanks fun c member =>
      isBlank_of_isSpaceOrTab ((valid piece List.mem_cons_self).blanks c member)
    have tail := ih fun other member => valid other (List.mem_cons_of_mem _ member)
    simp only [List.flatMap_cons, Parenthesis.depth_append, Parenthesis.depth, tail, blanks]
    simp [Parenthesis.change]

theorem openDepth_stacked (opened : '(' ∈ first.text)
    (valid : ∀ piece ∈ rest, piece.WellFormed) :
    openDepth (stacked first rest) = openDepth (logicalLine first rest) := by
  rw [stacked, logicalLine, openDepth_append opened, openDepth_append opened,
    depth_flatMap_eq valid]

theorem stacked_append (first piece : Piece) (taken : List Piece) :
    stacked first (taken ++ [piece]) =
      stacked first taken ++ '\n' :: (piece.gap ++ piece.text) := by
  simp [stacked]

theorem Split.nesting_pos_iff (split : Split first rest) {taken left : List Piece}
    (parts : rest = taken ++ left) : 0 < openDepth (stacked first taken) ↔ left ≠ [] := by
  have valid : ∀ piece ∈ taken, piece.WellFormed := by
    intro piece member
    exact split.wellFormed piece (List.mem_cons_of_mem _ (parts ▸ List.mem_append_left _ member))
  rw [openDepth_stacked split.opened valid]
  exact split.open_iff taken left parts

/-- The assembly takes up the pieces one by one and stops at the last. The induction is on the
pieces that are left, as the nesting is that of the pieces taken so far. -/
theorem Split.extend_eq (split : Split first rest) (back : List Line) {taken left : List Piece}
    (parts : rest = taken ++ left) :
    extend (stacked first taken) (openDepth (stacked first taken))
        (left.map (some ∘ Piece.line) ++ back) =
      .ok ⟨stacked first rest, left.length⟩ := by
  have nesting := split.nesting_pos_iff parts
  induction left generalizing taken with
  | nil =>
    have closed : openDepth (stacked first taken) ≤ 0 := by
      by_contra opened
      exact nesting.mp (by omega) rfl
    rw [extend_of_closed closed, parts, List.append_nil]
    rfl
  | cons piece remaining ih =>
    have opened : 0 < openDepth (stacked first taken) := nesting.mpr (List.cons_ne_nil _ _)
    have strip := (split.wellFormed piece (by simp [parts])).stripContinuation_line
    have next : rest = (taken ++ [piece]) ++ remaining := by simp [parts]
    rw [List.map_cons, List.cons_append, Function.comp_apply, extend_some opened, strip,
      ← openDepth_push opened, ← stacked_append, ih next (split.nesting_pos_iff next)]
    rfl

theorem Split.first_line (split : Split first rest) :
    stripContinuation first.line = first.text := by
  have strip := (split.wellFormed first List.mem_cons_self).stripContinuation_line
  rwa [split.flush, List.nil_append] at strip

theorem Split.assemble_lines (split : Split first rest) (back : List Line) :
    assemble (some first.line) (rest.map (some ∘ Piece.line) ++ back) =
      .ok ⟨stacked first rest, rest.length⟩ := by
  have whole := split.extend_eq back (List.nil_append rest).symm
  have start : stacked first [] = first.text := List.append_nil _
  rw [assemble_some, split.first_line]
  rwa [start] at whole

theorem Split.exists_last (split : Split first rest) :
    ∃ (front : Text) (last : Piece), logicalLine first rest = front ++ last.text ∧
      last.WellFormed ∧ last.mark = [] := by
  rcases List.eq_nil_or_concat rest with rfl | ⟨init, last, rfl⟩
  · exact ⟨[], first, by simp [logicalLine], split.wellFormed first List.mem_cons_self,
      split.last_mark [] first rfl⟩
  · refine ⟨first.text ++ (init.flatMap fun piece => ' ' :: piece.text) ++ [' '], last, ?_,
      split.wellFormed last (by simp), split.last_mark (first :: init) last (by simp)⟩
    simp [logicalLine]

theorem Split.assemble_logicalLine (split : Split first rest) (back : List Line) :
    assemble (some (logicalLine first rest)) back = .ok ⟨logicalLine first rest, 0⟩ := by
  obtain ⟨front, last, line_eq, valid, unmarked⟩ := split.exists_last
  have solid : EndsSolid (logicalLine first rest) := line_eq ▸ valid.ends.append front
  have plain : (logicalLine first rest).getLast? ≠ some '_' := by
    rcases valid.marked with marker | ⟨-, other⟩
    · exact absurd unmarked marker.ne_nil
    · obtain ⟨body, c, same, -⟩ := valid.ends
      rw [same, List.getLast?_concat] at other
      rwa [line_eq, same, ← List.append_assoc, List.getLast?_concat]
  have closed : openDepth (logicalLine first rest) ≤ 0 := by
    by_contra opened
    exact (split.open_iff rest [] (List.append_nil rest).symm).mp (by omega) rfl
  rw [assemble_some, stripContinuation_eq_self solid plain, extend_of_closed closed]

end Assembly

section Shown

variable {first : Piece} {rest : List Piece}

theorem isBlank_gap {piece : Piece} (valid : piece.WellFormed) :
    ∀ c ∈ piece.gap, isBlank c = true :=
  fun c member => isBlank_of_isSpaceOrTab (valid.blanks c member)

theorem not_mem_logicalLine {mark : Char} (space : mark ≠ ' ')
    (absent : ∀ piece ∈ first :: rest, mark ∉ piece.text) : mark ∉ logicalLine first rest := by
  simp only [logicalLine, List.mem_append, List.mem_flatMap, List.mem_cons, not_or, not_exists,
    not_and]
  refine ⟨absent first List.mem_cons_self, fun piece member => ⟨space, ?_⟩⟩
  exact absent piece (List.mem_cons_of_mem _ member)

theorem no_quote_stacked (valid : ∀ piece ∈ first :: rest, piece.WellFormed) :
    '\x27' ∉ stacked first rest := by
  simp only [stacked, List.mem_append, List.mem_flatMap, List.mem_cons, not_or, not_exists,
    not_and]
  refine ⟨(valid first List.mem_cons_self).no_quote, fun piece member => ⟨by decide, ?_, ?_⟩⟩
  · intro inside
    exact absurd ((valid piece (List.mem_cons_of_mem _ member)).blanks _ inside) (by decide)
  · exact (valid piece (List.mem_cons_of_mem _ member)).no_quote

theorem joinLines_stacked (valid : ∀ piece ∈ first :: rest, piece.WellFormed)
    (starts : ∀ piece ∈ rest, StartsSolid piece.text) :
    joinLines (stacked first rest) = logicalLine first rest := by
  induction rest generalizing first with
  | nil =>
    have plain := (valid first List.mem_cons_self).no_break
    simp only [stacked, logicalLine, List.flatMap_nil, List.append_nil]
    exact joinLines_eq_self plain
  | cons piece more ih =>
    have here := valid first List.mem_cons_self
    have validPiece := valid piece (by simp)
    have unindented : (piece.gap ++ stacked piece more).dropWhile isBlank = stacked piece more := by
      obtain ⟨c, body, same, solid⟩ := starts piece List.mem_cons_self
      rw [List.dropWhile_append_of_pos (isBlank_gap validPiece), stacked, same, List.cons_append,
        List.dropWhile_cons_of_neg (by simp [solid])]
    have apart : stacked first (piece :: more) =
        first.text ++ '\n' :: (piece.gap ++ stacked piece more) := by
      simp [stacked]
    rw [apart, joinLines_append_break here.no_break (here.ends.getLast?_ne (by decide)),
      unindented,
      ih (fun other member => valid other (List.mem_cons_of_mem _ member))
        fun other member => starts other (List.mem_cons_of_mem _ member)]
    simp [logicalLine]

theorem headD_lines_stacked (valid : first.WellFormed) (rest : List Piece) :
    (lines (stacked first rest)).headD [] = first.text := by
  cases rest with
  | nil => simp [stacked, lines_eq_singleton valid.no_break]
  | cons piece more =>
    have apart : stacked first (piece :: more) =
        first.text ++ '\n' :: (piece.gap ++ stacked piece more) := by
      simp [stacked]
    rw [apart, lines_append_break valid.no_break (valid.ends.getLast?_ne (by decide))]
    rfl

theorem takeWhile_isBlank_append {t : Text} (solid : EndsSolid t) (more : Text) :
    (t ++ more).takeWhile isBlank = t.takeWhile isBlank := by
  obtain ⟨body, c, rfl, plain⟩ := solid
  rw [List.takeWhile_append, if_neg]
  intro same
  have whole : (body ++ [c]).takeWhile isBlank = body ++ [c] :=
    (List.takeWhile_sublist _).eq_of_length same
  have blank := List.takeWhile_eq_self_iff.mp whole c (by simp)
  rw [plain] at blank
  cases blank

theorem Split.render_stacked (split : Split first rest) (settings : Settings) :
    Display.render settings (stacked first rest) =
      Display.render settings (logicalLine first rest) := by
  have valid := split.wellFormed first List.mem_cons_self
  have no_quote : '\x27' ∉ logicalLine first rest :=
    not_mem_logicalLine (by decide) fun piece member => (split.wellFormed piece member).no_quote
  have no_break : '\n' ∉ logicalLine first rest :=
    not_mem_logicalLine (by decide) fun piece member => (split.wellFormed piece member).no_break
  apply Display.render_congr
  · rw [Display.flatten, Display.flatten,
      Display.dropComments_eq_self (no_quote_stacked split.wellFormed),
      Display.dropComments_eq_self no_quote, joinLines_stacked split.wellFormed split.starts,
      joinLines_eq_self no_break]
  · rw [Display.indentOf, Display.indentOf, headD_lines_stacked valid, lines_eq_singleton no_break,
      List.headD_cons, logicalLine, takeWhile_isBlank_append valid.ends]

end Shown

end BasicOutline.Signature

namespace BasicOutline.Scan

open Text
open Signature (Line Piece Split logicalLine stacked)

theorem run_append_used (settings : Settings) {index : Nat} {state : State} {front : List Line}
    (used : (index : Int) + front.length ≤ state.cursor + 1) (back : List Line) :
    run settings index state (front ++ back) = run settings (index + front.length) state back := by
  induction front generalizing index with
  | nil => rfl
  | cons line more ih =>
    simp only [List.length_cons] at used
    rw [List.cons_append, run_used (by omega), ih (by omega), List.length_cons,
      Nat.add_assoc, Nat.add_comm 1]

def moveAfterFirst (offset : Nat) (record : Record) : Record :=
  if 1 < record.line then record.shift offset else record

theorem map_moveAfterFirst {records : List Record} (after : ∀ record ∈ records, 1 < record.line)
    (offset : Nat) : records.map (moveAfterFirst offset) = records.map (Record.shift offset) := by
  apply List.map_congr_left
  intro record member
  rw [moveAfterFirst, if_pos (after record member)]

theorem scan_procedure_first {line signature : Text} (following : List Line) {back : List Line}
    (role : classify line = .declaration .function)
    (assembled : Signature.assemble (some line) (following ++ back) =
      .ok ⟨signature, following.length⟩) (settings : Settings) :
    scan settings (some line :: (following ++ back)) =
      ((run settings (1 + following.length) ⟨following.length, true⟩ back).map
        Found.records).map (⟨Display.render settings signature, 1, .function⟩ :: ·) := by
  have free : ({} : State).cursor < (0 : Nat) := by decide
  have present : classify (Option.getD (some line) []) = .declaration .function := role
  rw [scan_eq_map, run_procedure free present assembled, map_push_records]
  simp only [Int.natCast_zero, Int.zero_add, Nat.zero_add]
  rw [run_append_used settings (by simp only; omega)]

/-- Breaking a signature over lines moves what follows it and changes nothing else. -/
theorem scan_split {first : Piece} {rest : List Piece} (split : Split first rest)
    (whole : classify (logicalLine first rest) = .declaration .function)
    (start : classify first.line = .declaration .function)
    (settings : Settings) (back : List Line) :
    scan settings ((first :: rest).map (some ∘ Piece.line) ++ back) =
        (scan settings (some (logicalLine first rest) :: back)).map
          (List.map (moveAfterFirst rest.length)) ∧
      ∀ records, scan settings ((first :: rest).map (some ∘ Piece.line) ++ back) = .ok records →
        ∃ later, records =
            ⟨Display.render settings (logicalLine first rest), 1, .function⟩ :: later ∧
          ∀ record ∈ later, (rest.length : Int) + 1 < record.line := by
  have count : (rest.map (some ∘ Piece.line)).length = rest.length := List.length_map _
  have broken : scan settings ((first :: rest).map (some ∘ Piece.line) ++ back) = _ :=
    scan_procedure_first _ start (count ▸ split.assemble_lines back) settings
  have single : scan settings (some (logicalLine first rest) :: ([] ++ back)) = _ :=
    scan_procedure_first [] whole (split.assemble_logicalLine back) settings
  have aligned : Aligned settings 1 ⟨0, true⟩ (1 + rest.length) ⟨rest.length, true⟩ :=
    .of_free (by decide) (by simp only; omega) fun _ => rfl
  rw [count, run_shift aligned, split.render_stacked] at broken
  rw [List.nil_append] at single
  simp only [List.length_nil, Int.natCast_zero, Nat.add_zero] at single
  rw [broken, single]
  cases ran : run settings 1 ⟨0, true⟩ back with
  | error failure => exact ⟨rfl, nofun⟩
  | ok found =>
    have after : ∀ record ∈ found.records, (1 : Int) < record.line := fun record member =>
      ((Trace.of_run ran).line_bounds record member).1
    constructor
    · simp only [Except.map, List.map_cons, map_moveAfterFirst after]
      rfl
    · intro records scanned
      refine ⟨_, (Except.ok.inj scanned).symm, ?_⟩
      intro record member
      obtain ⟨source, inside, rfl⟩ := List.mem_map.mp member
      have below := after source inside
      simp only [Record.shift]
      omega

/-- A signature on three lines, the first of them with a marker. -/
theorem scan_split_of_three_lines :
    scan {} ([⟨[], "Function Build(a,".toList, " _".toList⟩, ⟨"    ".toList, "b,".toList, []⟩,
        ⟨"\t".toList, "c) As Long".toList, []⟩].map (some ∘ Piece.line) ++
          [some "Dim x = 1".toList]) =
      .ok [⟨"Function Build()".toList, 1, .function⟩, ⟨"Dim x".toList, 4, .field⟩] := by
  have split : Split ⟨[], "Function Build(a,".toList, " _".toList⟩
      [⟨"    ".toList, "b,".toList, []⟩, ⟨"\t".toList, "c) As Long".toList, []⟩] := by
    refine ⟨?_, ?_, rfl, by decide, ?_, ?_⟩
    · intro piece member
      simp only [List.mem_cons, List.not_mem_nil, or_false] at member
      rcases member with rfl | rfl | rfl
      · refine ⟨nofun, by decide, by decide, ⟨"Function Build(a".toList, ',', by decide, by decide⟩,
          .inl ⟨[' '], [], by decide, ?_, nofun, by decide⟩⟩
        exact List.all_eq_true.mp (by decide)
      · exact ⟨List.all_eq_true.mp (by decide), by decide, by decide,
          ⟨['b'], ',', by decide, by decide⟩, .inr ⟨rfl, by decide⟩⟩
      · exact ⟨List.all_eq_true.mp (by decide), by decide, by decide,
          ⟨"c) As Lon".toList, 'g', by decide, by decide⟩, .inr ⟨rfl, by decide⟩⟩
    · intro piece member
      simp only [List.mem_cons, List.not_mem_nil, or_false] at member
      rcases member with rfl | rfl
      · exact ⟨'b', [','], by decide, by decide⟩
      · exact ⟨'c', ") As Long".toList, by decide, by decide⟩
    · intro before last same
      have ends := congrArg List.getLast? same
      rw [List.getLast?_concat] at ends
      exact Option.some.inj ends ▸ rfl
    · intro taken left parts
      match taken, parts with
      | [], parts =>
        obtain rfl := parts
        exact iff_of_true (by decide +kernel) (List.cons_ne_nil _ _)
      | [piece], parts =>
        obtain ⟨rfl, rfl⟩ := List.cons.inj parts
        exact iff_of_true (by decide +kernel) (List.cons_ne_nil _ _)
      | [piece, next], parts =>
        obtain ⟨rfl, others⟩ := List.cons.inj parts
        obtain ⟨rfl, rfl⟩ := List.cons.inj others
        exact iff_of_false (by decide +kernel) (absurd rfl)
      | piece :: next :: other :: more, parts => simp at parts
  have moved := (scan_split split (by decide +kernel) (by decide +kernel) {}
    [some "Dim x = 1".toList]).1
  exact moved.trans (by decide +kernel)

end BasicOutline.Scan
