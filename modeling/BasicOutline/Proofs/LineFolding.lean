import BasicOutline.Display
import Mathlib.Data.List.TakeWhile

/-! How physical lines are folded into the one line that is shown. -/

namespace BasicOutline.Text

theorem sublist_of_mem_splitOn {mark : Char} {t piece : Text} (member : piece ∈ t.splitOn mark) :
    piece.Sublist t := by
  induction t generalizing piece with
  | nil =>
    rw [List.splitOn_nil, List.mem_singleton] at member
    exact member ▸ List.Sublist.refl []
  | cons c rest ih =>
    rw [List.splitOn_cons_eq_if_modifyHead] at member
    split at member
    · rcases List.mem_cons.mp member with rfl | later
      · exact List.nil_sublist _
      · exact (ih later).cons c
    · cases pieces : rest.splitOn mark with
      | nil => exact absurd pieces (List.splitOn_ne_nil mark rest)
      | cons head tail =>
        rw [pieces, List.modifyHead_cons] at member
        rcases List.mem_cons.mp member with rfl | later
        · exact (ih (pieces ▸ List.mem_cons_self)).cons_cons c
        · exact (ih (pieces ▸ List.mem_cons_of_mem _ later)).cons c

theorem not_mem_of_mem_splitOn {mark : Char} {t piece : Text} (member : piece ∈ t.splitOn mark) :
    mark ∉ piece := by
  induction t generalizing piece with
  | nil =>
    rw [List.splitOn_nil, List.mem_singleton] at member
    rw [member]
    exact List.not_mem_nil
  | cons c rest ih =>
    rw [List.splitOn_cons_eq_if_modifyHead] at member
    split at member
    · rcases List.mem_cons.mp member with empty | later
      · rw [empty]
        exact List.not_mem_nil
      · exact ih later
    · rename_i other
      cases pieces : rest.splitOn mark with
      | nil => exact absurd pieces (List.splitOn_ne_nil mark rest)
      | cons head tail =>
        rw [pieces, List.modifyHead_cons] at member
        rcases List.mem_cons.mp member with here | later
        · have plain := ih (pieces ▸ List.mem_cons_self : head ∈ rest.splitOn mark)
          rw [here, List.mem_cons, not_or]
          exact ⟨fun same => other (by simp [same]), plain⟩
        · exact ih (pieces ▸ List.mem_cons_of_mem _ later)

theorem lines_cons {c : Char} {rest : Text} (plain : c ≠ '\n')
    (single : c = '\r' → rest.head? ≠ some '\n') :
    lines (c :: rest) = (lines rest).modifyHead (c :: ·) := by
  rw [lines]
  · exact plain
  · rintro more rfl rfl
    exact single rfl rfl

theorem joinLines_cons {c : Char} {rest : Text} (plain : c ≠ '\n')
    (single : c = '\r' → rest.head? ≠ some '\n') :
    joinLines (c :: rest) = c :: joinLines rest := by
  rw [joinLines]
  · exact plain
  · rintro more rfl rfl
    exact single rfl rfl

theorem joinLines_eq_self {t : Text} (plain : '\n' ∉ t) : joinLines t = t := by
  induction t with
  | nil => rw [joinLines]
  | cons c rest ih =>
    rw [List.mem_cons, not_or] at plain
    rw [joinLines_cons (Ne.symm plain.1), ih plain.2]
    intro _ head
    exact plain.2 (List.mem_of_mem_head? head)

theorem getLast?_ne_of_cons {c mark : Char} {rest : Text}
    (ends : (c :: rest).getLast? ≠ some mark) : rest.getLast? ≠ some mark := by
  intro last
  apply ends
  rw [List.getLast?_cons, last, Option.getD_some]

/-- Where no carriage return ends a line, none stands right before the line break. -/
theorem no_break_after_return {c : Char} {more : Text} (plain : '\n' ∉ more)
    (ends : (c :: more).getLast? ≠ some '\r') (rest : Text) :
    c = '\r' → (more ++ '\n' :: rest).head? ≠ some '\n' := by
  rintro rfl head
  cases more with
  | nil => exact ends rfl
  | cons d tail =>
    rw [List.cons_append, List.head?_cons] at head
    exact plain (Option.some.inj head ▸ List.mem_cons_self)

theorem joinLines_append_break {t : Text} (plain : '\n' ∉ t) (ends : t.getLast? ≠ some '\r')
    (rest : Text) :
    joinLines (t ++ '\n' :: rest) = t ++ ' ' :: joinLines (rest.dropWhile isBlank) := by
  induction t with
  | nil => rw [List.nil_append, joinLines, List.nil_append]
  | cons c more ih =>
    rw [List.mem_cons, not_or] at plain
    rw [List.cons_append, joinLines_cons (Ne.symm plain.1), ih plain.2 (getLast?_ne_of_cons ends),
      List.cons_append]
    exact no_break_after_return plain.2 ends rest

theorem lines_eq_singleton {t : Text} (plain : '\n' ∉ t) : lines t = [t] := by
  induction t with
  | nil => rfl
  | cons c rest ih =>
    rw [List.mem_cons, not_or] at plain
    rw [lines_cons (Ne.symm plain.1), ih plain.2, List.modifyHead_cons]
    intro _ head
    exact plain.2 (List.mem_of_mem_head? head)

theorem lines_append_break {t : Text} (plain : '\n' ∉ t) (ends : t.getLast? ≠ some '\r')
    (rest : Text) : lines (t ++ '\n' :: rest) = t :: lines rest := by
  induction t with
  | nil => rfl
  | cons c more ih =>
    rw [List.mem_cons, not_or] at plain
    rw [List.cons_append, lines_cons (Ne.symm plain.1), ih plain.2 (getLast?_ne_of_cons ends),
      List.modifyHead_cons]
    exact no_break_after_return plain.2 ends rest

theorem mem_intercalate {c : Char} {mark : Text} {pieces : List Text}
    (member : c ∈ List.intercalate mark pieces) : c ∈ mark ∨ ∃ piece ∈ pieces, c ∈ piece := by
  induction pieces with
  | nil => cases member
  | cons piece more ih =>
    cases more with
    | nil => exact .inr ⟨piece, List.mem_singleton_self piece, by simpa using member⟩
    | cons next rest =>
      rw [List.intercalate_cons_cons, List.mem_append, List.mem_append] at member
      rcases member with (here | between) | later
      · exact .inr ⟨piece, List.mem_cons_self, here⟩
      · exact .inl between
      · rcases ih later with between | ⟨other, found, inside⟩
        · exact .inl between
        · exact .inr ⟨other, List.mem_cons_of_mem _ found, inside⟩

theorem mem_joinLines {c : Char} {t : Text} (member : c ∈ joinLines t) :
    c ≠ '\n' ∧ (c = ' ' ∨ c ∈ t) := by
  have of_break : ∀ {rest : Text}, (c ∈ joinLines (rest.dropWhile isBlank) →
      c ≠ '\n' ∧ (c = ' ' ∨ c ∈ rest.dropWhile isBlank)) →
      c ∈ ' ' :: joinLines (rest.dropWhile isBlank) → c ≠ '\n' ∧ (c = ' ' ∨ c ∈ rest) := by
    intro rest ih folded
    rcases List.mem_cons.mp folded with rfl | later
    · exact ⟨by decide, .inl rfl⟩
    · obtain ⟨different, known⟩ := ih later
      exact ⟨different, known.imp_right fun inside => (List.dropWhile_sublist _).subset inside⟩
  fun_induction joinLines t with
  | case1 => cases member
  | case2 rest ih =>
    obtain ⟨different, known⟩ := of_break ih member
    exact ⟨different, known.imp_right fun inside => List.mem_cons_of_mem _ inside⟩
  | case3 rest ih =>
    obtain ⟨different, known⟩ := of_break ih member
    exact ⟨different, known.imp_right fun inside => by simp [inside]⟩
  | case4 d rest plain pair ih =>
    rcases List.mem_cons.mp member with rfl | later
    · exact ⟨plain, .inr List.mem_cons_self⟩
    · obtain ⟨different, known⟩ := ih later
      exact ⟨different, known.imp_right fun inside => List.mem_cons_of_mem _ inside⟩

end BasicOutline.Text

namespace BasicOutline.Display

open Text

theorem dropComment_eq_self {line : Text} (plain : '\x27' ∉ line) : dropComment line = line := by
  rw [dropComment, if_neg]
  simpa using plain

theorem dropComments_eq_self {t : Text} (plain : '\x27' ∉ t) : dropComments t = t := by
  have same : ∀ piece ∈ t.splitOn '\n', dropComment piece = id piece := by
    intro piece member
    exact dropComment_eq_self fun quote => plain ((sublist_of_mem_splitOn member).subset quote)
  rw [dropComments, List.map_congr_left same, List.map_id, List.intercalate_splitOn]

theorem mem_dropComment {c : Char} {line : Text} (member : c ∈ dropComment line) :
    c ≠ '\x27' ∧ c ∈ line := by
  unfold dropComment at member
  split at member
  · have before : c ∈ line.takeWhile (· != '\x27') := by
      have reversed := (List.dropWhile_sublist _).subset (List.mem_reverse.mp member)
      exact List.mem_reverse.mp reversed
    have different := List.mem_takeWhile_imp before
    exact ⟨by simpa using different, (List.takeWhile_sublist _).subset before⟩
  · rename_i absent
    refine ⟨?_, member⟩
    rintro rfl
    exact absent (by simpa using member)

theorem mem_folded {c : Char} {t : Text} (member : c ∈ joinLines (dropComments t)) :
    c ≠ '\n' ∧ c ≠ '\x27' ∧ (c = ' ' ∨ c ∈ t) := by
  obtain ⟨different, rfl | kept⟩ := mem_joinLines member
  · exact ⟨different, by decide, .inl rfl⟩
  · rcases mem_intercalate kept with line_break | ⟨piece, found, inside⟩
    · exact absurd (List.mem_singleton.mp line_break) different
    · obtain ⟨line, part, rfl⟩ := List.mem_map.mp found
      obtain ⟨quote, inside⟩ := mem_dropComment inside
      exact ⟨different, quote, .inr ((sublist_of_mem_splitOn part).subset inside)⟩

theorem render_congr {first second : Text} (flat : flatten first = flatten second)
    (indent : indentOf first = indentOf second) (settings : Settings) :
    render settings first = render settings second := by
  rw [render, render, flat, indent]

end BasicOutline.Display
