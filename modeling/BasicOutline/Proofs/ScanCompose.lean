import BasicOutline.Proofs.ExactOutline

/-! Scans of one list of lines after another.

A run looks at the cursor only to see how many of its lines are used up, and it looks at the flag
only to indent fields. So a run can be moved to another place, and the lines after a signature that
is closed are scanned as if they began a file. -/

namespace BasicOutline

def Record.shift (offset : Nat) (record : Record) : Record :=
  { record with line := record.line + offset }

namespace Scan

open Text
open Signature (Line)

/-- Two runs are at the same point: as many lines are used up, and the fields that follow are
indented alike. -/
structure Aligned (settings : Settings) (index : Nat) (first : State) (next : Nat)
    (second : State) : Prop where
  used_iff : ∀ ahead : Nat, (index : Int) + ahead ≤ first.cursor ↔
    (next : Int) + ahead ≤ second.cursor
  indent : settings.useStandardIndent = true → first.inProcedure = second.inProcedure

section Aligned

variable {settings : Settings} {index next : Nat} {first second : State}

theorem Aligned.of_free (freeFirst : first.cursor < index) (freeSecond : second.cursor < next)
    (indent : settings.useStandardIndent = true → first.inProcedure = second.inProcedure) :
    Aligned settings index first next second :=
  ⟨fun ahead => by omega, indent⟩

theorem Aligned.step (aligned : Aligned settings index first next second) :
    Aligned settings (index + 1) first (next + 1) second := by
  refine ⟨fun ahead => ?_, aligned.indent⟩
  have later := aligned.used_iff (ahead + 1)
  omega

theorem Aligned.used (aligned : Aligned settings index first next second) :
    (index : Int) ≤ first.cursor ↔ (next : Int) ≤ second.cursor := by
  simpa using aligned.used_iff 0

theorem fieldIndent_eq (aligned : Aligned settings index first next second) (display : Text) :
    fieldIndent settings second.inProcedure display =
      fieldIndent settings first.inProcedure display := by
  cases standard : settings.useStandardIndent with
  | false => simp [fieldIndent, standard]
  | true => rw [aligned.indent standard]

end Aligned

theorem map_push_records (result : Except Failure Found) (record : Record) :
    (result.map (Found.push record)).map Found.records =
      (result.map Found.records).map (record :: ·) := by
  cases result <;> rfl

theorem map_cons_shift {result : Except Failure (List Record)} {record : Record} {offset : Nat} :
    (result.map (List.map (Record.shift offset))).map (record.shift offset :: ·) =
      (result.map (record :: ·)).map (List.map (Record.shift offset)) := by
  cases result <;> rfl

/-- Runs at the same point of the same lines list the same records, moved by as many lines as they
are apart, or fail alike. -/
theorem run_shift {settings : Settings} {index offset : Nat} {first second : State}
    (aligned : Aligned settings index first (index + offset) second) (lines : List Line) :
    (run settings (index + offset) second lines).map Found.records =
      ((run settings index first lines).map Found.records).map
        (List.map (Record.shift offset)) := by
  induction lines generalizing index first second with
  | nil => rfl
  | cons line following ih =>
    have moved : index + offset + 1 = index + 1 + offset := by omega
    have rest := ih (moved ▸ aligned.step)
    by_cases taken : (index : Int) ≤ first.cursor
    · rw [run_used taken, run_used (aligned.used.mp taken), moved, rest]
    · have free : first.cursor < index := by omega
      have freeSecond : second.cursor < (index + offset : Nat) := by
        have used := aligned.used
        omega
      have line_eq (display : Text) (kind : Kind) :
          (⟨display, ((index + offset : Nat) : Int) + 1, kind⟩ : Record) =
            Record.shift offset ⟨display, index + 1, kind⟩ := by
        simp only [Record.shift, Record.mk.injEq, true_and, and_true]
        omega
      cases role : classify (line.getD []) with
      | comment => rw [run_passed free (.inl role), run_passed freeSecond (.inl role), moved, rest]
      | other => rw [run_passed free (.inr role), run_passed freeSecond (.inr role), moved, rest]
      | procedureEnd =>
        rw [run_ended free role, run_ended freeSecond role, moved]
        exact ih (.of_free (by simp only; omega) (by simp only; omega) fun _ => rfl)
      | declaration kind =>
        cases kind with
        | cls =>
          rw [run_cls free role, run_cls freeSecond role, map_push_records, map_push_records, moved,
            rest, line_eq, map_cons_shift]
        | function =>
          cases assembled : Signature.assemble line following with
          | error missing =>
            rw [run_procedure_missing free role assembled,
              run_procedure_missing freeSecond role assembled]
            rfl
          | ok signature =>
            have after : Aligned settings (index + 1) ⟨index + signature.extra, true⟩
                (index + 1 + offset) ⟨(index + offset : Nat) + signature.extra, true⟩ :=
              ⟨fun ahead => by simp only; omega, fun _ => rfl⟩
            rw [run_procedure free role assembled, run_procedure freeSecond role assembled,
              map_push_records, map_push_records, moved, ih after, line_eq, map_cons_shift]
        | field =>
          rw [run_field free role, run_field freeSecond role, fieldIndent_eq aligned]
          cases fieldIndent settings first.inProcedure
              (Display.render settings (line.getD [])) with
          | error failure => rfl
          | ok indent =>
            simp only [Except.bind]
            rw [map_push_records, map_push_records, moved, rest, line_eq, map_cons_shift]

/-- The signature of a listed procedure is still open at the end of the lines. The first
parenthesis of a signature stands on its first line, as a line without one is a signature itself. -/
def Unclosed (lines : List Line) (record : Record) : Prop :=
  record.kind = .function ∧ ∃ (start : Nat) (signature : Signature.Located),
    record.line = start + 1 ∧ Signature.grab lines start = .ok signature ∧
      0 < Signature.openDepth signature.text

def Closed (lines : List Line) (records : List Record) : Prop :=
  ∀ record ∈ records, ¬ Unclosed lines record

def Found.prepend (records : List Record) (found : Found) : Found :=
  { found with records := records ++ found.records }

section Append

variable {settings : Settings} {index : Nat} {state : State} {lines file : List Line}
  {found : Found}

theorem map_prepend_push (result : Except Failure Found) (record : Record)
    (records : List Record) :
    (result.map (Found.prepend records)).map (Found.push record) =
      result.map (Found.prepend (record :: records)) := by
  cases result <;> rfl

theorem map_prepend_nil (result : Except Failure Found) :
    result.map (Found.prepend []) = result := by
  cases result <;> rfl

theorem Closed.tail {record : Record} {records : List Record}
    (closed : Closed file (record :: records)) : Closed file records :=
  fun other member => closed other (List.mem_cons_of_mem _ member)

theorem openDepth_le_of_closed {records : List Record} {line : Line} {following : List Line}
    {signature : Signature.Assembled} {display : Text}
    (suffix : file.drop index = line :: following)
    (assembled : Signature.assemble line following = .ok signature)
    (closed : Closed file (⟨display, index + 1, .function⟩ :: records)) :
    Signature.openDepth signature.text ≤ 0 := by
  by_contra opened
  apply closed _ List.mem_cons_self
  exact ⟨rfl, index, _, rfl, Signature.grab_of_drop suffix assembled, by simp only; omega⟩

/-- Lines whose signatures are closed are scanned alike whatever follows them, and the cursor ends
up before the lines that follow. -/
theorem Trace.append_of_closed (trace : Trace settings index state lines found)
    (suffix : file.drop index = lines) {seam : Nat} (seam_eq : seam = index + lines.length)
    (within : state.cursor < seam) (closed : Closed file found.records) (more : List Line) :
    run settings index state (lines ++ more) =
        (run settings seam found.state more).map (Found.prepend found.records) ∧
      found.state.cursor < seam := by
  induction trace with
  | done =>
    subst seam_eq
    exact ⟨(map_prepend_nil _).symm, within⟩
  | used taken rest ih =>
    rw [List.length_cons] at seam_eq
    rw [List.cons_append, run_used taken]
    exact ih (drop_eq_cons suffix).2 (by omega) within closed
  | passed free role rest ih =>
    rw [List.length_cons] at seam_eq
    rw [List.cons_append, run_passed free role]
    exact ih (drop_eq_cons suffix).2 (by omega) within closed
  | ended free role rest ih =>
    rw [List.length_cons] at seam_eq
    rw [List.cons_append, run_ended free role]
    exact ih (drop_eq_cons suffix).2 (by omega) within closed
  | cls free role rest ih =>
    rw [List.length_cons] at seam_eq
    have later := ih (drop_eq_cons suffix).2 (by omega) within closed.tail
    rw [List.cons_append, run_cls free role, later.1, map_prepend_push]
    exact ⟨rfl, later.2⟩
  | procedure free role assembled rest ih =>
    rw [List.length_cons] at seam_eq
    have bound := Signature.assemble_extra_le assembled
    have later := ih (drop_eq_cons suffix).2 (by omega) (by simp only; omega) closed.tail
    have whole := Signature.assemble_append_of_closed assembled
      (openDepth_le_of_closed suffix assembled closed) more
    rw [List.cons_append, run_procedure free role whole, later.1, map_prepend_push]
    exact ⟨rfl, later.2⟩
  | field free role indented rest ih =>
    rw [List.length_cons] at seam_eq
    have later := ih (drop_eq_cons suffix).2 (by omega) within closed.tail
    rw [List.cons_append, run_field free role, indented, Except.bind, later.1, map_prepend_push]
    exact ⟨rfl, later.2⟩

/-- After a signature that is left open nothing is listed, as it has taken up every line. -/
theorem Trace.records_eq_nil_of_open {line : Line} {following : List Line}
    {signature : Signature.Assembled}
    (assembled : Signature.assemble line following = .ok signature)
    (opened : 0 < Signature.openDepth signature.text)
    (rest : Trace settings (index + 1) ⟨index + signature.extra, true⟩ following found) :
    found.records = [] := by
  have extra_eq := Signature.assemble_extra_eq_of_open assembled opened
  rw [List.eq_nil_iff_forall_not_mem]
  intro record member
  have bounds := rest.line_bounds record member
  simp only at bounds
  omega

/-- The record ends the list, and a longer run keeps what stands before it and goes on with a
procedure on the same line. -/
def Reopens (record : Record) (records : List Record) (longer : Except Failure Found) : Prop :=
  ∃ before, records = before ++ [record] ∧
    ∀ whole, longer = .ok whole → ∃ again rest, whole.records = before ++ again :: rest ∧
      again.kind = .function ∧ again.line = record.line

theorem Reopens.push {record : Record} {records : List Record} {longer : Except Failure Found}
    (reopens : Reopens record records longer) (head : Record) :
    Reopens record (head :: records) (longer.map (Found.push head)) := by
  obtain ⟨before, rfl, continued⟩ := reopens
  refine ⟨head :: before, rfl, fun whole ran => ?_⟩
  obtain ⟨inner, ended, rfl⟩ := map_eq_ok ran
  obtain ⟨again, rest, same, function, line_eq⟩ := continued inner ended
  exact ⟨again, rest, congrArg (head :: ·) same, function, line_eq⟩

/-- A signature that is left open is the last record. Whatever follows, the records before it stay
and the declaration stays listed on its line. -/
theorem Trace.append_of_open (trace : Trace settings index state lines found)
    (suffix : file.drop index = lines) {record : Record} (member : record ∈ found.records)
    (unclosed : Unclosed file record) (more : List Line) :
    Reopens record found.records (run settings index state (lines ++ more)) := by
  induction trace with
  | done => cases member
  | used taken rest ih =>
    rw [List.cons_append, run_used taken]
    exact ih (drop_eq_cons suffix).2 member
  | passed free role rest ih =>
    rw [List.cons_append, run_passed free role]
    exact ih (drop_eq_cons suffix).2 member
  | ended free role rest ih =>
    rw [List.cons_append, run_ended free role]
    exact ih (drop_eq_cons suffix).2 member
  | cls free role rest ih =>
    rcases List.mem_cons.mp member with rfl | later
    · cases unclosed.1
    · rw [List.cons_append, run_cls free role]
      exact (ih (drop_eq_cons suffix).2 later).push _
  | field free role indented rest ih =>
    rcases List.mem_cons.mp member with rfl | later
    · cases unclosed.1
    · rw [List.cons_append, run_field free role, indented, Except.bind]
      exact (ih (drop_eq_cons suffix).2 later).push _
  | @procedure index state line following found signature free role assembled rest ih =>
    rcases List.mem_cons.mp member with rfl | later
    · obtain ⟨-, start, located, here, grabbed, opened⟩ := unclosed
      obtain rfl : index = start := by simp only at here; omega
      rw [Signature.grab_of_drop suffix assembled] at grabbed
      obtain rfl := Except.ok.inj grabbed
      refine ⟨[], ?_, fun whole ran => ?_⟩
      · rw [Found.push_records, Trace.records_eq_nil_of_open assembled opened rest]
        rfl
      · cases longer : Signature.assemble line (following ++ more) with
        | error missing =>
          rw [List.cons_append, run_procedure_missing free role longer] at ran
          cases ran
        | ok other =>
          rw [List.cons_append, run_procedure free role longer] at ran
          obtain ⟨inner, -, rfl⟩ := map_eq_ok ran
          exact ⟨_, inner.records, rfl, rfl, rfl⟩
    · -- Something is listed after this signature, so it is closed.
      have closed : Signature.openDepth signature.text ≤ 0 := by
        by_contra opened
        rw [Trace.records_eq_nil_of_open assembled (by omega) rest] at later
        cases later
      rw [List.cons_append,
        run_procedure free role (Signature.assemble_append_of_closed assembled closed more)]
      exact (ih (drop_eq_cons suffix).2 later).push _

end Append

theorem map_prepend_records (result : Except Failure Found) (records : List Record) :
    (result.map (Found.prepend records)).map Found.records =
      (result.map Found.records).map (records ++ ·) := by
  cases result <;> rfl

/-- Lines that follow others whose signatures are closed are scanned from a new state that keeps
only the flag, and it is enough to keep the flag where it indents fields. -/
theorem scan_append_of_closed {settings : Settings} {front : List Line} {found : Found}
    (trace : Trace settings 0 {} front found) (closed : Closed front found.records)
    {inProcedure : Bool}
    (indent : settings.useStandardIndent = true → inProcedure = found.state.inProcedure)
    (back : List Line) :
    scan settings (front ++ back) =
      ((run settings 0 { inProcedure } back).map Found.records).map fun rest =>
        found.records ++ rest.map (Record.shift front.length) := by
  obtain ⟨whole, within⟩ := trace.append_of_closed rfl (Nat.zero_add front.length).symm
    (by simp only; omega) closed back
  have aligned : Aligned settings 0 { inProcedure } (0 + front.length) found.state :=
    .of_free (by simp only; omega) (by omega) indent
  have moved := run_shift aligned back
  rw [Nat.zero_add] at moved
  rw [scan_eq_map, whole, map_prepend_records, moved]
  cases (run settings 0 { inProcedure } back).map Found.records <;> rfl

/-- A scan of lines that follow others. Where every signature before them is closed, the lines are
scanned as if they began a file inside the procedure that was left open, and without a standard
indent as if they were the file. A signature that is left open is the last record, and the longer
scan lists it on the same line. -/
theorem scan_append {settings : Settings} {front : List Line} {found : Found}
    (ran : run settings 0 {} front = .ok found) (back : List Line) :
    (Closed front found.records →
      scan settings (front ++ back) =
          ((run settings 0 { inProcedure := found.state.inProcedure } back).map
            Found.records).map (fun rest =>
              found.records ++ rest.map (Record.shift front.length)) ∧
        (settings.useStandardIndent = false →
          scan settings (front ++ back) = (scan settings back).map fun rest =>
            found.records ++ rest.map (Record.shift front.length))) ∧
      ∀ record ∈ found.records, Unclosed front record →
        ∃ before, found.records = before ++ [record] ∧
          ∀ whole, scan settings (front ++ back) = .ok whole →
            ∃ again rest, whole = before ++ again :: rest ∧ again.kind = .function ∧
              again.line = record.line := by
  have trace := Trace.of_run ran
  constructor
  · intro closed
    constructor
    · exact scan_append_of_closed trace closed (fun _ => rfl) back
    · intro plain
      rw [scan_eq_map settings back]
      exact scan_append_of_closed trace closed (fun standard => by simp [plain] at standard) back
  · intro record member unclosed
    obtain ⟨before, same, longer⟩ := trace.append_of_open rfl member unclosed back
    refine ⟨before, same, fun whole scanned => ?_⟩
    obtain ⟨state, continued⟩ := scan_eq_ok_iff.mp scanned
    exact longer _ continued.run_eq

/-- A field after a procedure that is left open is indented with it, and a signature that is left
open takes up the field. -/
theorem scan_append_after_signature :
    scan { useStandardIndent := true } ([some "Sub A(x, _".toList, some "y)".toList] ++
        [some "Dim z".toList]) =
      .ok [⟨"Sub A()".toList, 1, .function⟩, ⟨"  Dim z".toList, 3, .field⟩] ∧
    ∀ whole, scan {} ([some "Sub A(x".toList] ++ [some "Dim z".toList]) = .ok whole →
      ∃ again rest, whole = again :: rest ∧ again.kind = .function ∧ again.line = 1 := by
  constructor
  · have closed : Closed [some "Sub A(x, _".toList, some "y)".toList]
        [⟨"Sub A()".toList, 1, .function⟩] := by
      intro record member
      obtain rfl := List.mem_singleton.mp member
      rintro ⟨-, start, signature, here, grabbed, opened⟩
      obtain rfl : start = 0 := by simp only at here; omega
      have located : Signature.grab [some "Sub A(x, _".toList, some "y)".toList] (0 : Nat) =
          .ok ⟨"Sub A(x,\ny)".toList, 1⟩ := by decide +kernel
      rw [located] at grabbed
      obtain rfl := Except.ok.inj grabbed
      exact absurd opened (by decide +kernel)
    have ran : run { useStandardIndent := true } 0 {} [some "Sub A(x, _".toList, some "y)".toList] =
        .ok ⟨[⟨"Sub A()".toList, 1, .function⟩], ⟨1, true⟩⟩ := by decide +kernel
    exact ((scan_append ran [some "Dim z".toList]).1 closed).1.trans (by decide +kernel)
  · have ran : run {} 0 {} [some "Sub A(x".toList] =
        .ok ⟨[⟨"Sub A(x".toList, 1, .function⟩], ⟨0, true⟩⟩ := by decide +kernel
    have unclosed : Unclosed [some "Sub A(x".toList] ⟨"Sub A(x".toList, 1, .function⟩ :=
      ⟨rfl, 0, ⟨"Sub A(x".toList, 0⟩, rfl, by decide +kernel, by decide +kernel⟩
    intro whole scanned
    obtain ⟨before, same, longer⟩ := (scan_append ran [some "Dim z".toList]).2 _
      (List.mem_singleton_self _) unclosed
    obtain rfl : before = [] := by simpa using same
    exact longer whole scanned

end Scan

end BasicOutline
