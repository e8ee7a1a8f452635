import BasicOutline.Proofs.DisplayAgain
import BasicOutline.Proofs.ScanHistory
import BasicOutline.Proofs.SignatureText

/-! The indentation of every record.

Each record shows spaces and then a text that begins with no blank. How many spaces there are
follows from the indentation of the source line, from the two settings for indents and, for fields,
from whether the line is inside a procedure. -/

namespace BasicOutline

def Record.indent (record : Record) : Nat := (record.display.takeWhile (· == ' ')).length

namespace Display

open Text

/-- The line shows `width` spaces and then a text without blanks in front, line breaks and comment
marks. -/
def IndentedBy (width : Nat) (display : Text) : Prop :=
  ∃ body, display = spaces width ++ body ∧ (∀ c, body.head? = some c → isBlank c = false) ∧
    '\n' ∉ body ∧ '\x27' ∉ body

theorem indentedBy_render (settings : Settings) (t : Text) :
    IndentedBy (indentOf t) (render settings t) := by
  have kept : ∀ c ∈ trimStart (hidden settings (flatten t)), c ≠ '\n' ∧ c ≠ '\x27' := by
    intro c member
    exact mem_render (List.mem_append_right (spaces (indentOf t)) member)
  refine ⟨trimStart (hidden settings (flatten t)), rfl, ?_, ?_, ?_⟩
  · intro c head
    exact head?_dropWhile_stop c head
  · intro member
    exact (kept _ member).1 rfl
  · intro member
    exact (kept _ member).2 rfl

theorem IndentedBy.append {width : Nat} {display : Text} (indented : IndentedBy width display)
    (more : Nat) : IndentedBy (more + width) (spaces more ++ display) := by
  obtain ⟨body, rfl, rest⟩ := indented
  refine ⟨body, ?_, rest⟩
  rw [← List.append_assoc, spaces, spaces, spaces, List.replicate_append_replicate]

theorem IndentedBy.width_eq {width : Nat} {display : Text} (indented : IndentedBy width display) :
    (display.takeWhile (· == ' ')).length = width := by
  obtain ⟨body, rfl, solid, -⟩ := indented
  have inside : ∀ c ∈ spaces width, (c == ' ') = true := by
    intro c member
    rw [List.eq_of_mem_replicate member]
    rfl
  have stop : ∀ c, body.head? = some c → (c == ' ') = false := by
    intro c head
    have plain := solid c head
    by_contra space
    rw [Bool.not_eq_false, beq_iff_eq] at space
    rw [space] at plain
    cases plain
  rw [takeWhile_append_stop inside stop, spaces, List.length_replicate]

end Display

namespace Scan

open Text
open Signature (Line)
open Display (indentOf IndentedBy)

/-- The indentation of a record of the given kind, whose line is indented by `indent` and may stand
inside a procedure. -/
def indentWidth (settings : Settings) (kind : Kind) (inside : Bool) (indent : Nat) : Nat :=
  if kind = .field then
    if settings.useStandardIndent then
      if inside && indent == 0 then settings.standardIndentLevel else indent
    else 2 * indent
  else indent

theorem indentedBy_field {settings : Settings} {inside : Bool} {line indent : Text}
    (indented : fieldIndent settings inside (Display.render settings line) = .ok indent) :
    IndentedBy (indentWidth settings .field inside (indentOf line))
      (indent ++ Display.render settings line) := by
  have shown := Display.indentedBy_render settings line
  simp only [fieldIndent, shown.width_eq] at indented
  unfold indentWidth
  rw [if_pos rfl]
  split at indented
  · rename_i standard
    rw [if_pos standard]
    split at indented
    · rename_i flush
      rw [if_pos flush]
      have none_before : indentOf line = 0 := by
        rw [Bool.and_eq_true, beq_iff_eq] at flush
        exact flush.2
      rw [none_before] at shown
      unfold Settings.standardIndent? at indented
      by_cases narrow : settings.standardIndentLevel < Settings.indentLimit
      · rw [if_pos narrow] at indented
        rw [← Except.ok.inj indented]
        exact shown.append settings.standardIndentLevel
      · rw [if_neg narrow] at indented
        cases indented
    · rename_i kept
      rw [if_neg kept, ← Except.ok.inj indented]
      exact shown
  · rename_i repeated
    rw [if_neg repeated, ← Except.ok.inj indented, Nat.two_mul]
    exact shown.append (indentOf line)

/-- How the record of a line is indented, where `records` are all that the scan lists. -/
def IndentedAt (settings : Settings) (file : List Line) (records : List Record) (record : Record)
    (index : Nat) (line : Line) : Prop :=
  record.line = index + 1 ∧ file[index]? = some line ∧
    ∃ inside : Bool, (inside = true ↔ InProcedure file records index) ∧
      IndentedBy (indentWidth settings record.kind inside (indentOf (line.getD []))) record.display

/-- The records of a run, each with the state of the run at its line. The records listed before the
run are kept apart, as the flag at its beginning depends on them. -/
theorem Trace.indentedAt {settings : Settings} {index : Nat} {state : State}
    {lines file : List Line} {found : Found} {listed : List Record}
    (trace : Trace settings index state lines found) (suffix : file.drop index = lines)
    (history : History file listed index state) :
    ∀ record ∈ found.records, ∃ position line,
      IndentedAt settings file (listed ++ found.records) record position line := by
  induction trace generalizing listed with
  | done => simp
  | used taken rest ih =>
    obtain ⟨here, after⟩ := drop_eq_cons suffix
    exact ih after (history.skip here (.inl taken))
  | passed free role rest ih =>
    obtain ⟨here, after⟩ := drop_eq_cons suffix
    refine ih after (history.skip here (.inr ?_))
    rcases role with role | role <;> simp [role]
  | ended free role rest ih =>
    obtain ⟨here, after⟩ := drop_eq_cons suffix
    exact ih after (history.ended here free role)
  | @cls index state line following found free role rest ih =>
    obtain ⟨here, after⟩ := drop_eq_cons suffix
    have inside := history.inside_iff (Trace.cls free role rest)
    intro record member
    rcases List.mem_cons.mp member with rfl | later
    · exact ⟨index, line, rfl, here, state.inProcedure, inside, Display.indentedBy_render _ _⟩
    · have step := history.push here ⟨Display.render settings (line.getD []), index + 1, .cls⟩
        role rfl nofun
      have pushed := ih after step record later
      rwa [List.append_assoc] at pushed
  | @procedure index state line following found signature free role assembled rest ih =>
    obtain ⟨here, after⟩ := drop_eq_cons suffix
    have inside := history.inside_iff (Trace.procedure free role assembled rest)
    intro record member
    rcases List.mem_cons.mp member with rfl | later
    · obtain ⟨text, rfl⟩ := Signature.exists_of_assemble assembled
      have shown := Display.indentedBy_render settings signature.text
      rw [indentOf_assembled role assembled] at shown
      exact ⟨index, some text, rfl, here, state.inProcedure, inside, shown⟩
    · have grabbed := Signature.grab_of_drop suffix assembled
      have step := history.procedure free ⟨Display.render settings signature.text, index + 1,
        .function⟩ rfl rfl grabbed rfl
      have pushed := ih after step record later
      rwa [List.append_assoc] at pushed
  | @field index state line following found indent free role indented rest ih =>
    obtain ⟨here, after⟩ := drop_eq_cons suffix
    have inside := history.inside_iff (Trace.field free role indented rest)
    intro record member
    rcases List.mem_cons.mp member with rfl | later
    · exact ⟨index, line, rfl, here, state.inProcedure, inside, indentedBy_field indented⟩
    · have step := history.push here
        ⟨indent ++ Display.render settings (line.getD []), index + 1, .field⟩ role rfl nofun
      have pushed := ih after step record later
      rwa [List.append_assoc] at pushed

theorem IndentedAt.indent_eq {settings : Settings} {file : List Line} {records : List Record}
    {record : Record} {index : Nat} {line : Line}
    (indented : IndentedAt settings file records record index line) :
    ∃ inside : Bool, (inside = true ↔ InProcedure file records index) ∧
      record.indent = indentWidth settings record.kind inside (indentOf (line.getD [])) := by
  obtain ⟨-, -, inside, known, shown⟩ := indented
  exact ⟨inside, known, shown.width_eq⟩

/-- Of the settings the indentation of a place depends on the two for indents only. -/
theorem indent_eq_of_place_eq {first second : Settings} {file : List Line}
    {records others : List Record} {record other : Record} {index next : Nat} {line entry : Line}
    (standard : second.useStandardIndent = first.useStandardIndent)
    (level : second.standardIndentLevel = first.standardIndentLevel)
    (places : records.map Record.place = others.map Record.place)
    (shown : IndentedAt first file records record index line)
    (reshown : IndentedAt second file others other next entry) (same : record.place = other.place) :
    record.indent = other.indent := by
  have line_eq : record.line = other.line := congrArg Prod.fst same
  have kind_eq : record.kind = other.kind := congrArg Prod.snd same
  obtain rfl : index = next := by
    have first_line := shown.1
    have second_line := reshown.1
    omega
  obtain rfl : line = entry := Option.some.inj (shown.2.1.symm.trans reshown.2.1)
  obtain ⟨inside, known, width⟩ := shown.indent_eq
  obtain ⟨within, found, other_width⟩ := reshown.indent_eq
  have flag_eq : inside = within := by
    rw [Bool.eq_iff_iff, known, found]
    exact inProcedure_congr places
  rw [width, other_width, kind_eq, flag_eq, indentWidth, indentWidth, standard, level]

/-- The indentation of every record of a file without missing lines. It does not depend on what the
settings hide. -/
theorem scan_indented {settings : Settings} {lines : List Text} {records : List Record}
    (scanned : scan settings (lines.map some) = .ok records) :
    (∀ record ∈ records, ∃ (index : Nat) (line : Text), record.line = index + 1 ∧
      lines[index]? = some line ∧
      ∃ inside : Bool, (inside = true ↔ InProcedure (lines.map some) records index) ∧
        IndentedBy (indentWidth settings record.kind inside (indentOf line)) record.display) ∧
    ∀ (other : Settings) (others : List Record),
      other.useStandardIndent = settings.useStandardIndent →
      other.standardIndentLevel = settings.standardIndentLevel →
      scan other (lines.map some) = .ok others →
      records.map Record.indent = others.map Record.indent := by
  obtain ⟨state, trace⟩ := scan_eq_ok_iff.mp scanned
  have indented := trace.indentedAt rfl (History.start _)
  constructor
  · intro record member
    obtain ⟨index, entry, line_eq, here, shown⟩ := indented record member
    rw [List.getElem?_map, Option.map_eq_some_iff] at here
    obtain ⟨line, present, rfl⟩ := here
    exact ⟨index, line, line_eq, present, shown⟩
  · intro other others standard level rescanned
    obtain ⟨final, retrace⟩ := scan_eq_ok_iff.mp rescanned
    have reindented := retrace.indentedAt rfl (History.start _)
    have places := (trace.samePlaces retrace.run_eq).places
    apply map_eq_of_map_eq places
    intro record member copy present same
    obtain ⟨index, line, shown⟩ := indented record member
    obtain ⟨next, entry, reshown⟩ := reindented copy present
    exact indent_eq_of_place_eq standard level places shown reshown same

/-- A field inside a procedure that a tab and a wide space indent, and fields at the margin before
and after the end marker. The end markers in the comment and in the signature do not count. -/
theorem scan_indented_around_end_marker :
    let lines := ["Sub F(a, _", "End Sub b)", "' End Sub", "Dim x", "\t\u3000Dim y As T", "End Sub",
      "Dim z"].map String.toList
    let records := [⟨"Sub F()".toList, 1, .function⟩, ⟨"   Dim x".toList, 4, .field⟩,
      ⟨"  Dim y".toList, 5, .field⟩, ⟨"Dim z".toList, 7, .field⟩]
    scan ⟨true, 3, false, false, false⟩ (lines.map some) = .ok records ∧
      (InProcedure (lines.map some) records 3 ∧ ¬ InProcedure (lines.map some) records 6) ∧
      ∀ others, scan ⟨true, 3, true, true, true⟩ (lines.map some) = .ok others →
        others.map Record.indent = [0, 3, 2, 0] := by
  intro lines records
  have scanned : scan ⟨true, 3, false, false, false⟩ (lines.map some) = .ok records := by
    decide +kernel
  obtain ⟨indented, same⟩ := scan_indented scanned
  refine ⟨scanned, ⟨?_, ?_⟩, ?_⟩
  · obtain ⟨index, line, here, present, inside, known, shown⟩ := indented
      ⟨"   Dim x".toList, 4, .field⟩ (by simp [records])
    obtain rfl : index = 3 := by simp only at here; omega
    obtain rfl : "Dim x".toList = line := Option.some.inj present
    cases inside with
    | true => exact known.mp rfl
    | false => exact absurd shown.width_eq (by decide +kernel)
  · intro within
    obtain ⟨index, line, here, present, inside, known, shown⟩ := indented
      ⟨"Dim z".toList, 7, .field⟩ (by simp [records])
    obtain rfl : index = 6 := by simp only at here; omega
    obtain rfl : "Dim z".toList = line := Option.some.inj present
    obtain rfl : inside = true := known.mpr within
    exact absurd shown.width_eq (by decide +kernel)
  · intro others rescanned
    have widths := same ⟨true, 3, true, true, true⟩ others rfl rfl rescanned
    rw [← widths]
    decide +kernel

end Scan

end BasicOutline
