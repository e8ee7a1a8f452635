import BasicOutline.Proofs.ScanTrace
import BasicOutline.Proofs.SignatureSpan
import Mathlib.Tactic.ByContra

/-! The exact outline of a file.

Which lines are listed is said without the cursor of the scan: a line is left out when the signature
of a procedure that is listed before it reaches it. -/

namespace BasicOutline.Scan

open Text
open Signature (Line)

/-- The signature that begins at `start` goes on to the later line at `index`. -/
def Reaches (lines : List Line) (start index : Nat) : Prop :=
  ∃ signature, Signature.grab lines start = .ok signature ∧
    start < index ∧ (index : Int) ≤ signature.last

/-- The signature of a listed procedure reaches the line. -/
def Consumed (lines : List Line) (records : List Record) (index : Nat) : Prop :=
  ∃ record ∈ records, record.kind = .function ∧
    ∃ start : Nat, record.line = start + 1 ∧ Reaches lines start index

/-- Where a record comes from: its line, the role of that line and the text shown for it. -/
structure Origin (settings : Settings) (file : List Line) (record : Record) (index : Nat)
    (line : Line) : Prop where
  present : file[index]? = some line
  line_eq : record.line = index + 1
  role : classify (line.getD []) = .declaration record.kind
  cls_display : record.kind = .cls → record.display = Display.render settings (line.getD [])
  function_display : record.kind = .function →
    ∃ signature, Signature.grab file index = .ok signature ∧
      record.display = Display.render settings signature.text

theorem drop_eq_cons {file : List Line} {index : Nat} {line : Line} {following : List Line}
    (suffix : file.drop index = line :: following) :
    file[index]? = some line ∧ file.drop (index + 1) = following := by
  constructor
  · have head := congrArg List.head? suffix
    simpa using head
  · rw [← List.tail_drop, suffix, List.tail_cons]

section Roles

variable {line : Text}

theorem classify_eq_declaration_iff {kind : Kind} :
    classify line = .declaration kind ↔
      isComment line = false ∧ endsProcedure line = false ∧
        (declaresClass line ∨ declaresProcedure line ∨ declaresField line) ∧
        kind = if declaresClass line then .cls else if declaresProcedure line then .function
          else .field := by
  unfold classify
  cases isComment line <;> cases endsProcedure line <;> cases declaresClass line <;>
    cases declaresProcedure line <;> cases declaresField line <;> simp [eq_comm]

end Roles

section Bounds

variable {settings : Settings} {index : Nat} {state : State} {lines : List Line} {found : Found}

theorem Trace.line_bounds (trace : Trace settings index state lines found) :
    ∀ record ∈ found.records, index < record.line ∧ state.cursor + 1 < record.line ∧
      record.line ≤ index + lines.length := by
  induction trace with
  | done => simp
  | used taken rest ih | passed free role rest ih | ended free role rest ih =>
    intro record member
    have bounds := ih record member
    simp only [List.length_cons] at *
    omega
  | cls free role rest ih | field free role indented rest ih =>
    intro record member
    simp only [Found.push_records, List.mem_cons, List.length_cons] at member ⊢
    rcases member with rfl | later
    · simp only
      omega
    · have bounds := ih record later
      omega
  | procedure free role assembled rest ih =>
    intro record member
    simp only [Found.push_records, List.mem_cons, List.length_cons] at member ⊢
    rcases member with rfl | later
    · simp only
      omega
    · have bounds := ih record later
      omega

theorem Trace.increasing (trace : Trace settings index state lines found) :
    found.records.Pairwise fun first second => first.line < second.line := by
  induction trace with
  | done => exact .nil
  | used taken rest ih | passed free role rest ih | ended free role rest ih => exact ih
  | cls free role rest ih
  | field free role indented rest ih
  | procedure free role assembled rest ih =>
    rw [Found.push_records, List.pairwise_cons]
    refine ⟨fun record later => ?_, ih⟩
    have bounds := rest.line_bounds record later
    simp only
    omega

end Bounds

section Listing

variable {settings : Settings} {index : Nat} {state : State} {lines file : List Line}
  {found : Found}

theorem Trace.origin (trace : Trace settings index state lines found)
    (suffix : file.drop index = lines) :
    ∀ record ∈ found.records, ∃ position line, Origin settings file record position line := by
  induction trace with
  | done => simp
  | used taken rest ih | passed free role rest ih | ended free role rest ih =>
    exact ih (drop_eq_cons suffix).2
  | @cls index _ line _ _ free role rest ih =>
    intro record member
    obtain ⟨here, after⟩ := drop_eq_cons suffix
    rcases List.mem_cons.mp member with rfl | later
    · exact ⟨index, line, here, rfl, role, fun _ => rfl, nofun⟩
    · exact ih after record later
  | @procedure index _ line _ _ signature free role assembled rest ih =>
    intro record member
    obtain ⟨here, after⟩ := drop_eq_cons suffix
    rcases List.mem_cons.mp member with rfl | later
    · exact ⟨index, line, here, rfl, role, nofun,
        fun _ => ⟨_, Signature.grab_of_drop suffix assembled, rfl⟩⟩
    · exact ih after record later
  | @field index _ line _ _ indent free role indented rest ih =>
    intro record member
    obtain ⟨here, after⟩ := drop_eq_cons suffix
    rcases List.mem_cons.mp member with rfl | later
    · exact ⟨index, line, here, rfl, role, nofun, nofun⟩
    · exact ih after record later

theorem Consumed.mono {first second : List Record} {position : Nat}
    (subset : ∀ record ∈ first, record ∈ second) (consumed : Consumed file first position) :
    Consumed file second position := by
  obtain ⟨record, member, reached⟩ := consumed
  exact ⟨record, subset record member, reached⟩

theorem not_consumed_of_lt {records : List Record} {position : Nat}
    (after : ∀ record ∈ records, (position : Int) < record.line) :
    ¬ Consumed file records position := by
  rintro ⟨record, member, -, start, same, signature, -, before, -⟩
  have later := after record member
  omega

theorem consumed_cons_iff {record : Record} {records : List Record} {position : Nat} :
    Consumed file (record :: records) position ↔
      (record.kind = .function ∧
        ∃ start : Nat, record.line = start + 1 ∧ Reaches file start position) ∨
      Consumed file records position := by
  simp only [Consumed, List.mem_cons, or_and_right, exists_or, exists_eq_left]

/-- No signature of the run reaches a line that the run lists. A signature reaches no line before
it, and the cursor that it leaves behind keeps the lines that it reaches from being listed. -/
theorem Trace.not_consumed (trace : Trace settings index state lines found)
    (suffix : file.drop index = lines) {record : Record} (member : record ∈ found.records)
    {position : Nat} (here : record.line = position + 1) :
    ¬ Consumed file found.records position := by
  induction trace with
  | done => cases member
  | used taken rest ih | passed free role rest ih | ended free role rest ih =>
    exact ih (drop_eq_cons suffix).2 member
  | cls free role rest ih | field free role indented rest ih =>
    rw [Found.push_records, consumed_cons_iff, not_or]
    constructor
    · rintro ⟨function, -⟩
      cases function
    · rcases List.mem_cons.mp member with rfl | later
      · apply not_consumed_of_lt
        intro record later
        have bounds := rest.line_bounds record later
        simp only at here
        omega
      · exact ih (drop_eq_cons suffix).2 later
  | @procedure index _ line following found signature free role assembled rest ih =>
    rw [Found.push_records, consumed_cons_iff, not_or]
    have grabbed := Signature.grab_of_drop suffix assembled
    rcases List.mem_cons.mp member with rfl | later
    · simp only at here
      refine ⟨?_, not_consumed_of_lt fun record later => ?_⟩
      · rintro ⟨-, start, same, signature, -, before, -⟩
        simp only at same
        omega
      · have bounds := rest.line_bounds record later
        omega
    · refine ⟨?_, ih (drop_eq_cons suffix).2 later⟩
      rintro ⟨-, start, same, reached, found, -, last⟩
      obtain rfl : index = start := by simp only at same; omega
      rw [grabbed] at found
      obtain rfl := Except.ok.inj found
      have bounds := rest.line_bounds record later
      simp only at bounds last
      omega

/-- Every declaration that is free and that no signature reaches is listed. -/
theorem Trace.listed (trace : Trace settings index state lines found)
    (suffix : file.drop index = lines) {position : Nat} {line : Line} {kind : Kind}
    (present : file[position]? = some line)
    (declared : classify (line.getD []) = .declaration kind) (reached : index ≤ position)
    (free : state.cursor < position) (kept : ¬ Consumed file found.records position) :
    ∃ record ∈ found.records, record.line = position + 1 := by
  induction trace with
  | done =>
    rw [List.drop_eq_nil_iff] at suffix
    have inside := (List.getElem?_eq_some_iff.mp present).1
    omega
  | used taken rest ih =>
    exact ih (drop_eq_cons suffix).2 (by omega) free kept
  | @passed index _ _ _ _ _ role rest ih =>
    obtain ⟨here, after⟩ := drop_eq_cons suffix
    have different : index ≠ position := by
      rintro rfl
      obtain rfl := Option.some.inj (here.symm.trans present)
      rcases role with role | role <;> rw [role] at declared <;> cases declared
    exact ih after (by omega) free kept
  | @ended index _ _ _ _ _ role rest ih =>
    obtain ⟨here, after⟩ := drop_eq_cons suffix
    have different : index ≠ position := by
      rintro rfl
      obtain rfl := Option.some.inj (here.symm.trans present)
      rw [role] at declared
      cases declared
    exact ih after (by omega) free kept
  | @cls index _ _ _ _ _ role rest ih | @field index _ _ _ _ _ _ role indented rest ih =>
    by_cases same : index = position
    · exact ⟨_, List.mem_cons_self, by simp [same]⟩
    · obtain ⟨record, member, line_eq⟩ := ih (drop_eq_cons suffix).2 (by omega) free
        fun consumed => kept (consumed.mono fun _ => List.mem_cons_of_mem _)
      exact ⟨record, List.mem_cons_of_mem _ member, line_eq⟩
  | @procedure index _ _ _ _ signature _ role assembled rest ih =>
    by_cases same : index = position
    · exact ⟨_, List.mem_cons_self, by simp [same]⟩
    · have past : (index : Int) + signature.extra < position := by
        by_contra within
        have grabbed := Signature.grab_of_drop suffix assembled
        have reaches : Reaches file index position :=
          ⟨_, grabbed, by omega, by simp only; omega⟩
        exact kept (consumed_cons_iff.mpr (.inl ⟨rfl, index, rfl, reaches⟩))
      obtain ⟨record, member, line_eq⟩ := ih (drop_eq_cons suffix).2 (by omega) past
        fun consumed => kept (consumed.mono fun _ => List.mem_cons_of_mem _)
      exact ⟨record, List.mem_cons_of_mem _ member, line_eq⟩

end Listing

/-- What the outline of a file without missing lines is. -/
structure ExactOutline (settings : Settings) (lines : List Text) (records : List Record) :
    Prop where
  increasing : records.Pairwise fun first second => first.line < second.line
  bounds : ∀ record ∈ records, 1 ≤ record.line ∧ record.line ≤ lines.length
  listed_iff : ∀ index : Nat, (∃ record ∈ records, record.line = index + 1) ↔
    ¬ Consumed (lines.map some) records index ∧ ∃ line, lines[index]? = some line ∧
      isComment line = false ∧ endsProcedure line = false ∧
      (declaresClass line ∨ declaresProcedure line ∨ declaresField line)
  kind_eq : ∀ record ∈ records, ∀ (index : Nat) (line : Text), record.line = index + 1 →
    lines[index]? = some line →
    record.kind = if declaresClass line then .cls else if declaresProcedure line then .function
      else .field
  cls_display : ∀ record ∈ records, ∀ (index : Nat) (line : Text), record.line = index + 1 →
    lines[index]? = some line → record.kind = .cls →
    record.display = Display.render settings line
  function_display : ∀ record ∈ records, ∀ index : Nat, record.line = index + 1 →
    record.kind = .function →
    ∃ signature, Signature.grab (lines.map some) index = .ok signature ∧
      record.display = Display.render settings signature.text
  /-- The lines of a signature hold no other record. -/
  alone : ∀ record ∈ records, ∀ other ∈ records, ∀ (start : Nat) (signature : Signature.Located),
    record.kind = .function → record.line = start + 1 →
    Signature.grab (lines.map some) start = .ok signature →
    record.line ≤ other.line → other.line ≤ signature.last + 1 → other = record
  /-- The lines of two signatures are disjoint. -/
  disjoint : ∀ record ∈ records, ∀ other ∈ records, ∀ (start next : Nat)
    (signature later : Signature.Located),
    record.kind = .function → record.line = start + 1 →
    Signature.grab (lines.map some) start = .ok signature →
    other.kind = .function → other.line = next + 1 →
    Signature.grab (lines.map some) next = .ok later →
    record ≠ other → signature.last < next ∨ later.last < start

theorem eq_of_line_eq {records : List Record}
    (increasing : records.Pairwise fun first second => first.line < second.line)
    {record other : Record} (member : record ∈ records) (present : other ∈ records)
    (same : record.line = other.line) : record = other := by
  induction increasing with
  | nil => cases member
  | cons before rest ih =>
    rcases List.mem_cons.mp member with rfl | inside <;>
      rcases List.mem_cons.mp present with rfl | within
    · rfl
    · have lower := before other within
      omega
    · have lower := before record inside
      omega
    · exact ih inside within

theorem Trace.listed_iff {settings : Settings} {file : List Line} {found : Found}
    (trace : Trace settings 0 {} file found) (index : Nat) :
    (∃ record ∈ found.records, record.line = index + 1) ↔
      ¬ Consumed file found.records index ∧
        ∃ line kind, file[index]? = some line ∧ classify (line.getD []) = .declaration kind := by
  constructor
  · rintro ⟨record, member, here⟩
    obtain ⟨position, line, origin⟩ := trace.origin rfl record member
    obtain rfl : position = index := by
      have same := origin.line_eq
      omega
    exact ⟨trace.not_consumed rfl member here, line, record.kind, origin.present, origin.role⟩
  · rintro ⟨kept, line, kind, present, declared⟩
    have free : (-1 : Int) < index := by omega
    exact trace.listed rfl present declared (Nat.zero_le index) free kept

theorem Trace.alone {settings : Settings} {file : List Line} {found : Found}
    (trace : Trace settings 0 {} file found) {record other : Record}
    (member : record ∈ found.records) (present : other ∈ found.records) {start : Nat}
    {signature : Signature.Located} (function : record.kind = .function)
    (here : record.line = start + 1) (grabbed : Signature.grab file start = .ok signature)
    (lower : record.line ≤ other.line) (upper : other.line ≤ signature.last + 1) :
    other = record := by
  obtain ⟨position, line, origin⟩ := trace.origin rfl other present
  have line_eq := origin.line_eq
  by_cases later : start < position
  · have consumed : Consumed file found.records position :=
      ⟨record, member, function, start, here, signature, grabbed, later, by omega⟩
    exact absurd consumed (trace.not_consumed rfl present line_eq)
  · exact eq_of_line_eq trace.increasing present member (by omega)

/-- Every scan that ends well lists exactly these records. -/
theorem scan_exact {settings : Settings} {lines : List Text} {records : List Record}
    (scanned : scan settings (lines.map some) = .ok records) :
    ExactOutline settings lines records := by
  obtain ⟨state, trace⟩ := scan_eq_ok_iff.mp scanned
  have origin := trace.origin rfl
  have alone := @trace.alone
  -- The role of a listed line, read off the line itself.
  have declared : ∀ record ∈ records, ∀ (index : Nat) (line : Text), record.line = index + 1 →
      lines[index]? = some line → Origin settings (lines.map some) record index (some line) := by
    intro record member index line here present
    obtain ⟨position, entry, source⟩ := origin record member
    obtain rfl : position = index := by
      have same := source.line_eq
      omega
    have entry_eq : some line = entry := by simpa [present] using source.present
    exact entry_eq ▸ source
  refine ⟨trace.increasing, ?_, ?_, ?_, ?_, ?_, ?_, ?_⟩
  · intro record member
    have bounds := trace.line_bounds record member
    simp only [List.length_map] at bounds
    omega
  · intro index
    rw [trace.listed_iff index]
    simp [classify_eq_declaration_iff]
  · intro record member index line here present
    have role := (declared record member index line here present).role
    exact (classify_eq_declaration_iff.mp role).2.2.2
  · intro record member index line here present
    exact (declared record member index line here present).cls_display
  · intro record member index here function
    obtain ⟨position, entry, source⟩ := origin record member
    obtain rfl : position = index := by
      have same := source.line_eq
      omega
    exact source.function_display function
  · intro record member other present start signature function here grabbed lower upper
    exact alone member present function here grabbed lower upper
  · intro record member other present start next signature later function here grabbed
      otherFunction there otherGrabbed different
    by_contra overlap
    rcases Int.lt_or_le record.line other.line with before | after
    · exact different (alone member present function here grabbed (by omega) (by omega)).symm
    · exact different (alone present member otherFunction there otherGrabbed after (by omega))

theorem scan_exact_of_two_line_signature :
    scan {} ((["Function F(a, _", "  Dim b) As T", "' Dim c", "End Function", "Dim d = 1"].map
        String.toList).map some) =
      .ok [⟨"Function F()".toList, 1, .function⟩, ⟨"Dim d".toList, 5, .field⟩] ∧
    ExactOutline {}
      (["Function F(a, _", "  Dim b) As T", "' Dim c", "End Function", "Dim d = 1"].map
        String.toList)
      [⟨"Function F()".toList, 1, .function⟩, ⟨"Dim d".toList, 5, .field⟩] :=
  ⟨by decide +kernel, scan_exact (by decide +kernel)⟩

end BasicOutline.Scan
