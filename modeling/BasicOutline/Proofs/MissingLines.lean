import BasicOutline.Proofs.OutlineFailure

/-! Missing lines.

A missing line counts as an empty one, unless the signature of a procedure takes it up. The scan of
the lines that are there and the scan of the file without gaps go through the same states up to the
first procedure whose signature reaches a missing line. -/

namespace BasicOutline

namespace Signature

def filled (lines : List Line) : List Text := lines.map fun line => line.getD []

section Filled

variable {text : Text} {nesting : Int} {following : List Line} {assembled : Assembled}

theorem filled_cons (line : Line) (following : List Line) :
    filled (line :: following) = line.getD [] :: filled following := rfl

theorem extend_missing
    (extended : extend text nesting ((filled following).map some) = .ok assembled) :
    extend text nesting following =
      if none ∈ following.take assembled.extra then .error ⟨⟩ else .ok assembled := by
  induction following generalizing text nesting assembled with
  | nil =>
    rw [if_neg (by simp)]
    exact extended
  | cons line rest ih =>
    by_cases closed : nesting ≤ 0
    · rw [extend_of_closed closed] at extended ⊢
      rw [← Except.ok.inj extended]
      rfl
    · have opened : 0 < nesting := by omega
      rw [filled_cons, List.map_cons, extend_some opened] at extended
      obtain ⟨inner, continued, rfl⟩ := Scan.map_eq_ok extended
      rw [List.take_succ_cons]
      cases line with
      | none => rw [extend_none opened, if_pos List.mem_cons_self]
      | some present =>
        have other : none ∈ some present :: rest.take inner.extra ↔
            none ∈ rest.take inner.extra := by simp
        rw [Option.getD_some] at continued
        rw [extend_some opened, ih continued]
        simp only [other]
        split <;> rfl

theorem assemble_missing {line : Text}
    (found : assemble (some line) ((filled following).map some) = .ok assembled) :
    assemble (some line) following =
      if none ∈ following.take assembled.extra then .error ⟨⟩ else .ok assembled :=
  extend_missing found

end Filled

end Signature

namespace Scan

open Text
open Signature (Line filled)

/-- A signature that is listed for the file without gaps takes up a line that is missing. -/
def TakesMissing (file : List Line) (records : List Record) : Prop :=
  ∃ index : Nat, Consumed ((filled file).map some) records index ∧ file[index]? = some none

section Records

variable {file following : List Line} {records : List Record} {record : Record} {index : Nat}

theorem takesMissing_cons_of_ne (other : record.kind ≠ .function) :
    TakesMissing file (record :: records) ↔ TakesMissing file records := by
  simp only [TakesMissing, consumed_cons_iff, other, false_and, false_or]

theorem not_takesMissing_nil : ¬ TakesMissing file [] := by
  rintro ⟨index, ⟨record, member, -⟩, -⟩
  cases member

theorem mem_take_iff {count : Nat} (suffix : file.drop (index + 1) = following) :
    none ∈ following.take count ↔
      ∃ position, index < position ∧ position ≤ index + count ∧ file[position]? = some none := by
  rw [← suffix, List.mem_iff_getElem?]
  constructor
  · rintro ⟨offset, missing⟩
    rw [List.getElem?_take] at missing
    split at missing
    · rw [List.getElem?_drop] at missing
      exact ⟨index + 1 + offset, by omega, by omega, missing⟩
    · cases missing
  · rintro ⟨position, after, within, missing⟩
    have past : index + 1 ≤ position := after
    obtain ⟨offset, rfl⟩ := Nat.exists_eq_add_of_le past
    refine ⟨offset, ?_⟩
    rw [List.getElem?_take_of_lt (by omega), List.getElem?_drop]
    exact missing

/-- Of the lines that a procedure and the procedures after it take up, some is missing. -/
theorem takesMissing_cons_procedure {signature : Signature.Located} {count : Nat}
    (function : record.kind = .function) (here : record.line = index + 1)
    (grabbed : Signature.grab ((filled file).map some) index = .ok signature)
    (last : signature.last = index + count) (suffix : file.drop (index + 1) = following) :
    TakesMissing file (record :: records) ↔
      none ∈ following.take count ∨ TakesMissing file records := by
  have reaches_iff : ∀ position : Nat, (record.kind = .function ∧ ∃ start : Nat,
      record.line = start + 1 ∧ Reaches ((filled file).map some) start position) ↔
      index < position ∧ position ≤ index + count := by
    intro position
    constructor
    · rintro ⟨-, start, same, found, other, before, reached⟩
      obtain rfl : index = start := by omega
      rw [grabbed] at other
      obtain rfl := Except.ok.inj other
      omega
    · rintro ⟨before, reached⟩
      exact ⟨function, index, here, signature, grabbed, before, by omega⟩
  constructor
  · rintro ⟨position, consumed, missing⟩
    rcases consumed_cons_iff.mp consumed with here | later
    · obtain ⟨before, reached⟩ := (reaches_iff position).mp here
      exact .inl ((mem_take_iff suffix).mpr ⟨position, before, reached, missing⟩)
    · exact .inr ⟨position, later, missing⟩
  · rintro (taken | ⟨position, later, missing⟩)
    · obtain ⟨position, before, reached, missing⟩ := (mem_take_iff suffix).mp taken
      have here := (reaches_iff position).mpr ⟨before, reached⟩
      exact ⟨position, consumed_cons_iff.mpr (.inl here), missing⟩
    · exact ⟨position, consumed_cons_iff.mpr (.inr later), missing⟩

end Records

section Runs

variable {settings : Settings} {index : Nat} {state : State} {file lines : List Line}
  {found : Found}

/-- What a run over the lines that are there does where the run over the file without gaps has the
records `found`. -/
structure Follows (file : List Line) (found : Found) (result : Except Failure Found) : Prop where
  stops : TakesMissing file found.records → result = .error .missingLine
  agrees : ¬ TakesMissing file found.records → result = .ok found

theorem Follows.push {result : Except Failure Found} (follows : Follows file found result)
    {record : Record}
    (same : TakesMissing file (record :: found.records) ↔ TakesMissing file found.records) :
    Follows file (found.push record) (result.map (Found.push record)) where
  stops takes := by
    rw [follows.stops (same.mp takes)]
    rfl
  agrees whole := by
    rw [follows.agrees fun takes => whole (same.mpr takes)]
    rfl

theorem exists_of_filled {line : Line} {following : List Line}
    (whole : line :: following = (filled lines).map some) : ∃ entry rest, lines = entry :: rest ∧
      line = some (entry.getD []) ∧ following = (filled rest).map some := by
  cases lines with
  | nil => cases whole
  | cons entry rest =>
    obtain ⟨line_eq, following_eq⟩ := List.cons.inj whole
    exact ⟨entry, rest, rfl, line_eq, following_eq⟩

theorem drop_filled (suffix : file.drop index = lines) :
    ((filled file).map some).drop index = (filled lines).map some := by
  rw [← suffix, filled, filled, ← List.map_drop, ← List.map_drop]

/-- The two runs go through the same states up to the first signature that takes up a missing line.
An empty line declares nothing, so a missing line does not either. -/
theorem Trace.follows {whole : List Line} (trace : Trace settings index state whole found)
    (whole_eq : whole = (filled lines).map some) (suffix : file.drop index = lines) :
    Follows file found (run settings index state lines) := by
  induction trace generalizing lines with
  | done =>
    cases lines with
    | nil => exact ⟨fun takes => absurd takes not_takesMissing_nil, fun _ => rfl⟩
    | cons entry rest => cases whole_eq
  | used taken _ ih =>
    obtain ⟨entry, rest, rfl, rfl, rfl⟩ := exists_of_filled whole_eq
    rw [run_used taken]
    exact ih rfl (drop_eq_cons suffix).2
  | passed free role _ ih =>
    obtain ⟨entry, rest, rfl, rfl, rfl⟩ := exists_of_filled whole_eq
    rw [Option.getD_some] at role
    rw [run_passed free role]
    exact ih rfl (drop_eq_cons suffix).2
  | ended free role _ ih =>
    obtain ⟨entry, rest, rfl, rfl, rfl⟩ := exists_of_filled whole_eq
    rw [Option.getD_some] at role
    rw [run_ended free role]
    exact ih rfl (drop_eq_cons suffix).2
  | cls free role _ ih =>
    obtain ⟨entry, rest, rfl, rfl, rfl⟩ := exists_of_filled whole_eq
    rw [Option.getD_some] at role
    rw [run_cls free role]
    exact (ih rfl (drop_eq_cons suffix).2).push (takesMissing_cons_of_ne nofun)
  | field free role indented _ ih =>
    obtain ⟨entry, rest, rfl, rfl, rfl⟩ := exists_of_filled whole_eq
    rw [Option.getD_some] at role indented
    rw [run_field free role, indented]
    exact (ih rfl (drop_eq_cons suffix).2).push (takesMissing_cons_of_ne nofun)
  | @procedure index state _ _ found signature free role assembled _ ih =>
    obtain ⟨entry, rest, rfl, rfl, rfl⟩ := exists_of_filled whole_eq
    rw [Option.getD_some] at role
    have after := (drop_eq_cons suffix).2
    have later := ih rfl after
    have takes_iff : TakesMissing file (⟨Display.render settings signature.text, index + 1,
        .function⟩ :: found.records) ↔
        none ∈ rest.take signature.extra ∨ TakesMissing file found.records :=
      takesMissing_cons_procedure rfl rfl (Signature.grab_of_drop (drop_filled suffix) assembled)
        rfl after
    cases entry with
    | none => exact absurd role (by decide)
    | some text =>
      have taken_up := Signature.assemble_missing assembled
      by_cases missing : none ∈ rest.take signature.extra
      · rw [Option.getD_some, if_pos missing] at taken_up
        rw [run_procedure_missing free role taken_up]
        exact ⟨fun _ => rfl, fun present => absurd (takes_iff.mpr (.inl missing)) present⟩
      · rw [Option.getD_some, if_neg missing] at taken_up
        rw [run_procedure free role taken_up]
        exact later.push (takes_iff.trans (or_iff_right missing))

theorem exists_scan (narrow : settings.standardIndentLevel < Settings.indentLimit)
    (lines : List Text) : ∃ records, scan settings (lines.map some) = .ok records := by
  obtain ⟨listed, scanned⟩ := exists_scan_default lines
  cases outcome : scan settings (lines.map some) with
  | ok records => exact ⟨records, rfl⟩
  | error failure =>
    obtain ⟨-, wide, -⟩ := (scan_error_iff scanned).mp outcome
    exact absurd wide.2 (Nat.not_le_of_lt narrow)

/-- A scan fails exactly when a signature that is listed for the file without gaps takes up a
missing line, and it fails at nothing else. Otherwise a missing line is an empty line. -/
theorem scan_missing (narrow : settings.standardIndentLevel < Settings.indentLimit)
    (lines : List Line) : ∃ records, scan settings ((filled lines).map some) = .ok records ∧
      ((∃ failure, scan settings lines = .error failure) ↔ TakesMissing lines records) ∧
      (∀ failure, scan settings lines = .error failure →
        (Outline.Failure.scan failure).describe =
          "TypeError: expected string or bytes-like object, got 'NoneType'".toList) ∧
      (¬ TakesMissing lines records → scan settings lines = .ok records) := by
  obtain ⟨records, scanned⟩ := exists_scan narrow (filled lines)
  obtain ⟨final, trace⟩ := scan_eq_ok_iff.mp scanned
  have follows : Follows lines ⟨records, final⟩ (run settings 0 {} lines) :=
    trace.follows rfl List.drop_zero
  have stops : TakesMissing lines records → scan settings lines = .error .missingLine := by
    intro takes
    rw [scan_eq_map, follows.stops takes]
    rfl
  have agrees : ¬ TakesMissing lines records → scan settings lines = .ok records := by
    intro present
    rw [scan_eq_map, follows.agrees present]
    rfl
  have takes_of_error : ∀ failure, scan settings lines = .error failure →
      TakesMissing lines records := by
    intro failure failed
    by_contra present
    rw [agrees present] at failed
    cases failed
  refine ⟨records, scanned, ⟨?_, fun takes => ⟨.missingLine, stops takes⟩⟩, ?_, agrees⟩
  · intro ⟨failure, failed⟩
    exact takes_of_error failure failed
  · intro failure failed
    obtain rfl := Except.error.inj ((stops (takes_of_error failure failed)).symm.trans failed)
    decide

/-- The same line is missing inside a signature and behind one that is closed. -/
theorem scan_missing_of_open_signature :
    let opened := [none, some "Sub F(a, _".toList, none, some "b)".toList]
    let closed := [none, some "Sub F(a, b)".toList, none, some "Dim c".toList]
    let settings : Settings := { useStandardIndent := true, standardIndentLevel := 1 }
    settings.standardIndentLevel < Settings.indentLimit ∧
      (∃ failure, scan settings opened = .error failure) ∧
      scan settings closed =
        .ok [⟨"Sub F()".toList, 2, .function⟩, ⟨" Dim c".toList, 4, .field⟩] := by
  intro opened closed settings
  have narrow : settings.standardIndentLevel < Settings.indentLimit := by decide
  refine ⟨narrow, ?_, ?_⟩
  · obtain ⟨records, scanned, fails_iff, -⟩ := scan_missing narrow opened
    have whole : scan settings ((filled opened).map some) =
        .ok [⟨"Sub F()".toList, 2, .function⟩] := by decide +kernel
    obtain rfl := Except.ok.inj (whole.symm.trans scanned)
    have grabbed : Signature.grab ((filled opened).map some) (1 : Nat) =
        .ok ⟨"Sub F(a,\n\nb)".toList, 3⟩ := by decide +kernel
    exact fails_iff.mpr ⟨2, ⟨_, List.mem_singleton_self _, rfl, 1, rfl, _, grabbed, by decide,
      by decide⟩, rfl⟩
  · obtain ⟨records, scanned, -, -, agrees⟩ := scan_missing narrow closed
    have whole : scan settings ((filled closed).map some) =
        .ok [⟨"Sub F()".toList, 2, .function⟩, ⟨" Dim c".toList, 4, .field⟩] := by decide +kernel
    obtain rfl := Except.ok.inj (whole.symm.trans scanned)
    apply agrees
    rintro ⟨index, ⟨record, member, function, start, here, signature, grabbed, before, reached⟩, -⟩
    have first : record.line = 2 := by
      simp only [List.mem_cons, List.not_mem_nil, or_false] at member
      rcases member with rfl | rfl
      · rfl
      · cases function
    obtain rfl : start = 1 := by omega
    have located : Signature.grab ((filled closed).map some) (1 : Nat) =
        .ok ⟨"Sub F(a, b)".toList, 1⟩ := by decide +kernel
    rw [located] at grabbed
    obtain rfl := Except.ok.inj grabbed
    simp only at reached
    omega

end Runs

end Scan

end BasicOutline
