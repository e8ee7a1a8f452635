import BasicOutline.Outline
import BasicOutline.Proofs.LineFolding
import BasicOutline.Proofs.Utf8Reading

/-! Lines as they are written and read back.

Between two lines stands a line feed, alone or after a carriage return. Whatever is chosen at each
place, reading gives back the lines that were written, and every text is written in this way. -/

namespace BasicOutline.Text

inductive LineEnding where
  | feed
  | returnFeed
  deriving DecidableEq, Repr

def LineEnding.text : LineEnding → Text
  | .feed => ['\n']
  | .returnFeed => ['\r', '\n']

/-- Writes lines with the given endings between them, one fewer than there are lines. -/
def writeLines : List LineEnding → List Text → Text
  | [], written => written.flatten
  | _ :: _, [] => []
  | ending :: endings, line :: rest => line ++ ending.text ++ writeLines endings rest

/-- Lines that can be told apart once they are written: none is broken, and none but the last ends
with the carriage return that could belong to an ending. -/
structure Separable (written : List Text) : Prop where
  single : ∀ line ∈ written, '\n' ∉ line
  clear : ∀ line ∈ written.dropLast, line.getLast? ≠ some '\r'

theorem Separable.tail {line : Text} {rest : List Text} (separable : Separable (line :: rest)) :
    Separable rest := by
  constructor
  · intro other member
    exact separable.single other (List.mem_cons_of_mem line member)
  · intro other member
    apply separable.clear other
    cases rest with
    | nil => cases member
    | cons next more => exact List.mem_cons_of_mem line member

theorem Separable.clear_head {line next : Text} {rest : List Text}
    (separable : Separable (line :: next :: rest)) : line.getLast? ≠ some '\r' := by
  apply separable.clear
  rw [List.dropLast_cons_cons]
  exact List.mem_cons_self

/-- Here a carriage return of the line itself does no harm, as the ending has its own. -/
theorem lines_append_returnFeed {t : Text} (plain : '\n' ∉ t) (rest : Text) :
    lines (t ++ '\r' :: '\n' :: rest) = t :: lines rest := by
  induction t with
  | nil => rfl
  | cons c more ih =>
    rw [List.mem_cons, not_or] at plain
    rw [List.cons_append, lines_cons (Ne.symm plain.1), ih plain.2, List.modifyHead_cons]
    intro _ head
    cases more with
    | nil => cases head
    | cons d tail => exact plain.2 (Option.some.inj head ▸ List.mem_cons_self)

theorem lines_append_ending {t : Text} (plain : '\n' ∉ t) (clear : t.getLast? ≠ some '\r')
    (ending : LineEnding) (rest : Text) :
    lines (t ++ ending.text ++ rest) = t :: lines rest := by
  rw [List.append_assoc]
  cases ending with
  | feed => exact lines_append_break plain clear rest
  | returnFeed => exact lines_append_returnFeed plain rest

theorem lines_writeLines {endings : List LineEnding} {written : List Text}
    (count : endings.length + 1 = written.length) (separable : Separable written) :
    lines (writeLines endings written) = written := by
  induction endings generalizing written with
  | nil =>
    obtain ⟨line, rfl⟩ := List.length_eq_one_iff.mp count.symm
    rw [writeLines, List.flatten_singleton]
    exact lines_eq_singleton (separable.single line List.mem_cons_self)
  | cons ending endings ih =>
    match written with
    | [] | [_] => simp at count
    | line :: next :: rest =>
      have plain := separable.single line List.mem_cons_self
      have later := ih (Nat.succ.inj count) separable.tail
      rw [writeLines, lines_append_ending plain separable.clear_head, later]

theorem writeLines_cons_cons {endings : List LineEnding} {c : Char} {line : Text}
    {rest : List Text} :
    writeLines endings ((c :: line) :: rest) = c :: writeLines endings (line :: rest) := by
  cases endings <;> rfl

theorem exists_writeLines (t : Text) :
    ∃ endings, endings.length + 1 = (lines t).length ∧ writeLines endings (lines t) = t := by
  fun_induction lines t with
  | case1 => exact ⟨[], rfl, rfl⟩
  | case2 rest ih =>
    obtain ⟨endings, count, whole⟩ := ih
    refine ⟨.feed :: endings, congrArg Nat.succ count, ?_⟩
    rw [writeLines, whole]
    rfl
  | case3 rest ih =>
    obtain ⟨endings, count, whole⟩ := ih
    refine ⟨.returnFeed :: endings, congrArg Nat.succ count, ?_⟩
    rw [writeLines, whole]
    rfl
  | case4 c rest _ _ ih =>
    obtain ⟨endings, count, whole⟩ := ih
    refine ⟨endings, ?_, ?_⟩
    · rw [List.length_modifyHead, count]
    · cases split : lines rest with
      | nil => exact absurd split (lines_ne_nil rest)
      | cons line more =>
        rw [split] at whole
        rw [List.modifyHead_cons, writeLines_cons_cons, whole]

theorem not_mem_of_mem_lines {t line : Text} (member : line ∈ lines t) : '\n' ∉ line := by
  fun_induction lines t generalizing line with
  | case1 =>
    rw [List.mem_singleton.mp member]
    exact List.not_mem_nil
  | case2 rest ih | case3 rest ih =>
    rcases List.mem_cons.mp member with empty | later
    · rw [empty]
      exact List.not_mem_nil
    · exact ih later
  | case4 c rest plain _ ih =>
    cases split : lines rest with
    | nil => exact absurd split (lines_ne_nil rest)
    | cons head more =>
      rw [split] at ih member
      rcases List.mem_cons.mp member with same | later
      · rw [same, List.mem_cons, not_or]
        exact ⟨fun feed => plain feed.symm, ih List.mem_cons_self⟩
      · exact ih (List.mem_cons_of_mem head later)

theorem length_lines (t : Text) : (lines t).length = t.count '\n' + 1 := by
  fun_induction lines t with
  | case1 => rfl
  | case2 rest ih => simp [ih]
  | case3 rest ih => simp [ih]
  | case4 c rest plain _ ih =>
    have other : c ≠ '\n' := plain
    rw [List.length_modifyHead, ih, List.count_cons_of_ne other]

end BasicOutline.Text

namespace BasicOutline

open Text

theorem FileSystem.readText_eq_ok_iff {fs : FileSystem} {path t : Text} :
    fs.readText path = .ok t ↔ fs.readBytes path = .ok (Utf8.encode t) := by
  unfold readText
  cases fs.readBytes path with
  | error failure => simp [bind, Except.bind]
  | ok content =>
    have decodes : Utf8.decode content = .ok t ↔ content = Utf8.encode t := by
      rw [Utf8.decode_eq_ok_iff, eq_comm]
    rw [Except.ok.injEq, ← decodes]
    cases decoded : Utf8.decode content with
    | error fault => simp [bind, Except.bind, decoded, Except.mapError]
    | ok text => simp [bind, Except.bind, decoded, Except.mapError]

theorem FileSystem.readLines_of_readText {fs : FileSystem} {path t : Text}
    (read : fs.readText path = .ok t) : fs.readLines path = .ok (lines t) := by
  simp only [readLines, read]
  rfl

namespace Outline

theorem ofFile_of_readLines {fs : FileSystem} {settings : Settings} {path : Text}
    {found : List Text} (read : fs.readLines path = .ok found) :
    ofFile fs settings path = (Scan.scan settings (found.map some)).mapError .scan := by
  rw [ofFile, read]

/-- Reading lines undoes writing them, for any mix of line endings, and so an outline does not
depend on the endings. Every text that is read is its lines with an ending between each two, and
there are as many of these as the text has line feeds. -/
theorem reading_inverts_writing :
    (∀ (written : List Text) (endings : List LineEnding) (fs : FileSystem) (path : Text),
      Separable written → endings.length + 1 = written.length →
      fs.readBytes path = .ok (Utf8.encode (writeLines endings written)) →
      fs.readLines path = .ok written ∧
        ∀ (others : List LineEnding) (copy : FileSystem) (place : Text) (settings : Settings),
          others.length + 1 = written.length →
          copy.readBytes place = .ok (Utf8.encode (writeLines others written)) →
          ofFile copy settings place = ofFile fs settings path) ∧
    ∀ (fs : FileSystem) (path text : Text), fs.readText path = .ok text →
      ∃ found, fs.readLines path = .ok found ∧ (∀ line ∈ found, '\n' ∉ line) ∧
        found.length = text.count '\n' + 1 ∧
        ∃ endings, endings.length + 1 = found.length ∧ writeLines endings found = text := by
  have reads : ∀ {written : List Text} {endings : List LineEnding} {fs : FileSystem} {path : Text},
      Separable written → endings.length + 1 = written.length →
      fs.readBytes path = .ok (Utf8.encode (writeLines endings written)) →
      fs.readLines path = .ok written := by
    intro written endings fs path separable count holds
    rw [FileSystem.readLines_of_readText (FileSystem.readText_eq_ok_iff.mpr holds),
      lines_writeLines count separable]
  constructor
  · intro written endings fs path separable count holds
    have here := reads separable count holds
    refine ⟨here, ?_⟩
    intro others copy place settings same there
    rw [ofFile_of_readLines here, ofFile_of_readLines (reads separable same there)]
  · intro fs path text read
    exact ⟨lines text, FileSystem.readLines_of_readText read, fun line => not_mem_of_mem_lines,
      length_lines text, exists_writeLines text⟩

/-- Three lines, of which one holds a lone carriage return and a line separator and the last ends
with a carriage return, with all the endings that can stand between them. Then a text in which a
carriage return stands before an ending that has one itself. -/
theorem reading_inverts_writing_around_returns :
    let written := ["Sub F(a, _".toList, "b\r\u2028)".toList, "Dim x\r".toList]
    let text := "Dim x\r\r\n\x0c".toList
    let holding (text : Text) : FileSystem :=
      ⟨[("w".toList, .directory [("a.vb".toList, .file (Utf8.encode text))])], "/w".toList⟩
    let fs (endings : List LineEnding) := holding (writeLines endings written)
    let path := "a.vb".toList
    Separable written ∧
      writeLines [.feed, .returnFeed] written = "Sub F(a, _\nb\r\u2028)\r\nDim x\r".toList ∧
      (fs [.feed, .returnFeed]).readLines path = .ok written ∧
      (∀ (first second : LineEnding) (settings : Settings),
        ofFile (fs [first, second]) settings path = ofFile (fs [.feed, .feed]) settings path) ∧
      (holding text).readText path = .ok text ∧
      ∃ found, (holding text).readLines path = .ok found ∧ found.length = 2 ∧
        ∃ endings, writeLines endings found = text := by
  intro written text holding fs path
  have separable : Separable written := ⟨by decide, by decide⟩
  have holds : ∀ text, (holding text).readBytes path = .ok (Utf8.encode text) := fun _ => rfl
  have read := FileSystem.readText_eq_ok_iff.mpr (holds text)
  refine ⟨separable, by decide, ?_, ?_, read, ?_⟩
  · exact (reading_inverts_writing.1 written _ _ path separable rfl (holds _)).1
  · intro first second settings
    exact (reading_inverts_writing.1 written [.feed, .feed] _ path separable rfl (holds _)).2
      [first, second] _ path settings rfl (holds _)
  · obtain ⟨found, lines, -, count, endings, -, whole⟩ := reading_inverts_writing.2 _ path text read
    exact ⟨found, lines, count.trans (by decide), endings, whole⟩

end Outline

end BasicOutline
