import BasicOutline.Proofs.ExactOutline
import BasicOutline.Proofs.ListedPlaces

/-! What the state of a scan says about the lines before it.

The cursor tells which lines the signatures listed so far reach, and the flag tells whether the
latest line that opens or ends a procedure opens one. Each step of a scan keeps both. -/

namespace BasicOutline.Scan

open Text
open Signature (Line)

def OpensAt (records : List Record) (position : Nat) : Prop :=
  ∃ record ∈ records, record.kind = .function ∧ record.line = position + 1

/-- The line ends a procedure: no signature reaches it, and it is no comment. -/
def EndsAt (file : List Line) (records : List Record) (position : Nat) : Prop :=
  ¬ Consumed file records position ∧ ∃ line, file[position]? = some line ∧
    isComment (line.getD []) = false ∧ endsProcedure (line.getD []) = true

/-- The latest line before `index` that opens or ends a procedure opens one. -/
def InProcedure (file : List Line) (records : List Record) (index : Nat) : Prop :=
  ∃ start < index, OpensAt records start ∧ ∀ position, start < position → position < index →
    ¬ OpensAt records position ∧ ¬ EndsAt file records position

section Records

variable {file : List Line} {records later : List Record} {index position : Nat}

theorem opensAt_append :
    OpensAt (records ++ later) position ↔ OpensAt records position ∨ OpensAt later position := by
  simp only [OpensAt, List.mem_append, or_and_right, exists_or]

theorem consumed_append :
    Consumed file (records ++ later) position ↔
      Consumed file records position ∨ Consumed file later position := by
  simp only [Consumed, List.mem_append, or_and_right, exists_or]

theorem opensAt_append_iff (after : ∀ record ∈ later, (position : Int) + 1 < record.line) :
    OpensAt (records ++ later) position ↔ OpensAt records position := by
  rw [opensAt_append, or_iff_left]
  intro opens
  obtain ⟨record, member, -, here⟩ := opens
  have bound := after record member
  omega

theorem consumed_append_iff (after : ∀ record ∈ later, (position : Int) < record.line) :
    Consumed file (records ++ later) position ↔ Consumed file records position := by
  rw [consumed_append, or_iff_left]
  exact not_consumed_of_lt after

theorem inProcedure_append_iff (after : ∀ record ∈ later, (index : Int) < record.line) :
    InProcedure file (records ++ later) index ↔ InProcedure file records index := by
  have opens_iff : ∀ position < index,
      (OpensAt (records ++ later) position ↔ OpensAt records position) := by
    intro position before
    apply opensAt_append_iff
    intro record member
    have bound := after record member
    omega
  have ends_iff : ∀ position < index,
      (EndsAt file (records ++ later) position ↔ EndsAt file records position) := by
    intro position before
    rw [EndsAt, EndsAt, consumed_append_iff]
    intro record member
    have bound := after record member
    omega
  unfold InProcedure
  apply exists_congr
  intro start
  apply and_congr_right
  intro before
  rw [opens_iff start before]
  apply and_congr_right
  intro _
  apply forall_congr'
  intro position
  apply imp_congr_right
  intro _
  apply imp_congr_right
  intro inside
  rw [opens_iff position inside, ends_iff position inside]

theorem inProcedure_succ :
    InProcedure file records (index + 1) ↔
      OpensAt records index ∨ ¬ EndsAt file records index ∧ InProcedure file records index := by
  constructor
  · intro inside
    obtain ⟨start, before, opens, quiet⟩ := inside
    by_cases same : start = index
    · exact .inl (same ▸ opens)
    · refine .inr ⟨(quiet index (by omega) (by omega)).2, start, by omega, opens, ?_⟩
      intro position past within
      exact quiet position past (by omega)
  · intro step
    by_cases opens : OpensAt records index
    · exact ⟨index, by omega, opens, fun position past within => by omega⟩
    · obtain ⟨continues, start, before, started, quiet⟩ := step.resolve_left opens
      refine ⟨start, by omega, started, ?_⟩
      intro position past within
      by_cases same : position = index
      · exact same ▸ ⟨opens, continues⟩
      · exact quiet position past (by omega)

end Records

section Places

variable {file : List Line} {records others : List Record} {index : Nat}

theorem opensAt_iff_place {position : Nat} :
    OpensAt records position ↔
      ((position : Int) + 1, Kind.function) ∈ records.map Record.place := by
  simp only [OpensAt, List.mem_map, Record.place, Prod.mk.injEq]
  apply exists_congr
  intro record
  rw [and_comm (a := record.kind = .function)]

theorem consumed_iff_opensAt {position : Nat} :
    Consumed file records position ↔
      ∃ start, OpensAt records start ∧ Reaches file start position := by
  constructor
  · intro consumed
    obtain ⟨record, member, function, start, here, reaches⟩ := consumed
    exact ⟨start, ⟨record, member, function, here⟩, reaches⟩
  · intro reached
    obtain ⟨start, ⟨record, member, function, here⟩, reaches⟩ := reached
    exact ⟨record, member, function, start, here, reaches⟩

/-- Whether a line is inside a procedure depends on the places of the records only. -/
theorem inProcedure_congr (places : records.map Record.place = others.map Record.place) :
    InProcedure file records index ↔ InProcedure file others index := by
  have opens : OpensAt records = OpensAt others := by
    funext position
    rw [eq_iff_iff, opensAt_iff_place, opensAt_iff_place, places]
  have ends : EndsAt file records = EndsAt file others := by
    funext position
    rw [EndsAt, EndsAt, consumed_iff_opensAt, consumed_iff_opensAt, opens]
  rw [InProcedure, InProcedure, opens, ends]

end Places

theorem classify_eq_procedureEnd_iff {line : Text} :
    classify line = .procedureEnd ↔ isComment line = false ∧ endsProcedure line = true := by
  unfold classify
  cases isComment line <;> cases endsProcedure line <;> cases declaresClass line <;>
    cases declaresProcedure line <;> cases declaresField line <;> simp

/-- The state of a run at `index`, read as facts about the records listed so far. -/
structure History (file : List Line) (listed : List Record) (index : Nat) (state : State) :
    Prop where
  before : ∀ record ∈ listed, record.line ≤ index
  consumed_iff : ∀ position : Nat, index ≤ position →
    (Consumed file listed position ↔ (position : Int) ≤ state.cursor)
  flag_iff : state.inProcedure = true ↔ InProcedure file listed index

section History

variable {file : List Line} {listed : List Record} {index : Nat} {state : State}

theorem History.start (file : List Line) : History file [] 0 {} := by
  constructor
  · simp
  · intro position _
    constructor
    · intro consumed
      obtain ⟨record, member, -⟩ := consumed
      cases member
    · intro used
      simp only at used
      omega
  · constructor
    · intro flag
      cases flag
    · intro inside
      obtain ⟨start, before, -⟩ := inside
      omega

theorem History.not_opensAt (history : History file listed index state) :
    ¬ OpensAt listed index := by
  intro opens
  obtain ⟨record, member, -, here⟩ := opens
  have bound := history.before record member
  omega

/-- The line at `index` ends a procedure exactly when it is free and has this role. -/
theorem History.endsAt_iff (history : History file listed index state) {line : Line}
    (here : file[index]? = some line) :
    EndsAt file listed index ↔
      state.cursor < index ∧ classify (line.getD []) = .procedureEnd := by
  rw [EndsAt, history.consumed_iff index (Nat.le_refl index), Int.not_le,
    classify_eq_procedureEnd_iff]
  simp [here]

theorem History.skip (history : History file listed index state) {line : Line}
    (here : file[index]? = some line)
    (quiet : (index : Int) ≤ state.cursor ∨ classify (line.getD []) ≠ .procedureEnd) :
    History file listed (index + 1) state := by
  have continues : ¬ EndsAt file listed index := by
    rw [history.endsAt_iff here]
    intro ends
    rcases quiet with taken | role
    · omega
    · exact role ends.2
  constructor
  · intro record member
    have bound := history.before record member
    omega
  · intro position reached
    exact history.consumed_iff position (by omega)
  · rw [history.flag_iff, inProcedure_succ]
    simp [history.not_opensAt, continues]

theorem History.ended (history : History file listed index state) {line : Line}
    (here : file[index]? = some line) (free : state.cursor < index)
    (role : classify (line.getD []) = .procedureEnd) :
    History file listed (index + 1) ⟨state.cursor, false⟩ := by
  have ends : EndsAt file listed index := (history.endsAt_iff here).mpr ⟨free, role⟩
  constructor
  · intro record member
    have bound := history.before record member
    omega
  · intro position reached
    exact history.consumed_iff position (by omega)
  · rw [inProcedure_succ]
    simp [history.not_opensAt, ends]

theorem History.push (history : History file listed index state) {line : Line}
    (here : file[index]? = some line) (record : Record)
    (role : classify (line.getD []) = .declaration record.kind) (line_eq : record.line = index + 1)
    (kind : record.kind ≠ .function) : History file (listed ++ [record]) (index + 1) state := by
  have skipped := history.skip here (.inr (by simp [role]))
  have plain : ∀ {position : Nat}, ¬ Consumed file [record] position := by
    intro position consumed
    obtain ⟨other, member, function, -⟩ := consumed
    exact kind (List.mem_singleton.mp member ▸ function)
  have closed : ∀ {position : Nat}, ¬ OpensAt [record] position := by
    intro position opens
    obtain ⟨other, member, function, -⟩ := opens
    exact kind (List.mem_singleton.mp member ▸ function)
  have opens_eq : OpensAt (listed ++ [record]) = OpensAt listed := by
    funext position
    rw [eq_iff_iff, opensAt_append, or_iff_left closed]
  have consumed_eq : Consumed file (listed ++ [record]) = Consumed file listed := by
    funext position
    rw [eq_iff_iff, consumed_append, or_iff_left plain]
  have ends_eq : EndsAt file (listed ++ [record]) = EndsAt file listed := by
    funext position
    rw [EndsAt, consumed_eq, EndsAt]
  refine ⟨?_, ?_, ?_⟩
  · intro other member
    rcases List.mem_append.mp member with earlier | last
    · exact skipped.before other earlier
    · rw [List.mem_singleton.mp last]
      omega
  · rw [consumed_eq]
    exact skipped.consumed_iff
  · rw [InProcedure, opens_eq, ends_eq]
    exact skipped.flag_iff

theorem History.procedure (history : History file listed index state)
    (free : state.cursor < index) (record : Record) (line_eq : record.line = index + 1)
    (function : record.kind = .function) {signature : Signature.Located} {extra : Nat}
    (grabbed : Signature.grab file index = .ok signature) (last : signature.last = index + extra) :
    History file (listed ++ [record]) (index + 1) ⟨index + extra, true⟩ := by
  have opens : OpensAt (listed ++ [record]) index :=
    ⟨record, by simp, function, line_eq⟩
  refine ⟨?_, ?_, ?_⟩
  · intro other member
    rcases List.mem_append.mp member with earlier | final
    · have bound := history.before other earlier
      omega
    · rw [List.mem_singleton.mp final]
      omega
  · intro position reached
    rw [consumed_append, history.consumed_iff position (by omega)]
    change _ ↔ (position : Int) ≤ index + extra
    constructor
    · intro known
      rcases known with used | ⟨other, member, -, start, same, found, read, -, bound⟩
      · omega
      · rw [List.mem_singleton.mp member] at same
        obtain rfl : index = start := by omega
        rw [grabbed] at read
        obtain rfl := Except.ok.inj read
        omega
    · intro used
      exact .inr ⟨record, List.mem_singleton_self record, function, index, line_eq, signature,
        grabbed, by omega, by omega⟩
  · rw [inProcedure_succ]
    simp [opens]

/-- The flag of a run tells whether its first line is inside a procedure, also when all the records
of the run are known. -/
theorem History.inside_iff (history : History file listed index state) {settings : Settings}
    {lines : List Line} {found : Found} (trace : Trace settings index state lines found) :
    state.inProcedure = true ↔ InProcedure file (listed ++ found.records) index := by
  rw [history.flag_iff, inProcedure_append_iff]
  intro record member
  exact (trace.line_bounds record member).1

theorem History.reached_iff (history : History file listed index state) {settings : Settings}
    {lines : List Line} {found : Found} (trace : Trace settings index state lines found) :
    Consumed file (listed ++ found.records) index ↔ (index : Int) ≤ state.cursor := by
  rw [consumed_append_iff, history.consumed_iff index (Nat.le_refl index)]
  intro record member
  exact (trace.line_bounds record member).1

end History

end BasicOutline.Scan
