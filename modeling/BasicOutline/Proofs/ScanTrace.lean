import BasicOutline.Scan

/-! Runs of the scan as traces.

A trace has one rule for each thing that a line can do to the scan. A run succeeds exactly when it
has a trace, so what holds of every outline is proved by induction on traces. -/

namespace BasicOutline.Scan

open Text
open Signature (Line)

instance decidableEqResult {ε α : Type} [DecidableEq ε] [DecidableEq α] :
    DecidableEq (Except ε α)
  | .error first, .error second =>
    decidable_of_iff (first = second) ⟨congrArg Except.error, Except.error.inj⟩
  | .ok first, .ok second => decidable_of_iff (first = second) ⟨congrArg Except.ok, Except.ok.inj⟩
  | .error _, .ok _ => isFalse nofun
  | .ok _, .error _ => isFalse nofun

/-- The cases of a run, one rule for each role of the next line. -/
inductive Trace (settings : Settings) : Nat → State → List Line → Found → Prop where
  | done {index : Nat} {state : State} : Trace settings index state [] ⟨[], state⟩
  | used {index : Nat} {state : State} {line : Line} {following : List Line} {found : Found}
      (taken : (index : Int) ≤ state.cursor)
      (rest : Trace settings (index + 1) state following found) :
      Trace settings index state (line :: following) found
  | passed {index : Nat} {state : State} {line : Line} {following : List Line} {found : Found}
      (free : state.cursor < index)
      (role : classify (line.getD []) = .comment ∨ classify (line.getD []) = .other)
      (rest : Trace settings (index + 1) state following found) :
      Trace settings index state (line :: following) found
  | ended {index : Nat} {state : State} {line : Line} {following : List Line} {found : Found}
      (free : state.cursor < index)
      (role : classify (line.getD []) = .procedureEnd)
      (rest : Trace settings (index + 1) ⟨state.cursor, false⟩ following found) :
      Trace settings index state (line :: following) found
  | cls {index : Nat} {state : State} {line : Line} {following : List Line} {found : Found}
      (free : state.cursor < index)
      (role : classify (line.getD []) = .declaration .cls)
      (rest : Trace settings (index + 1) state following found) :
      Trace settings index state (line :: following)
        (found.push ⟨Display.render settings (line.getD []), index + 1, .cls⟩)
  | procedure {index : Nat} {state : State} {line : Line} {following : List Line} {found : Found}
      {signature : Signature.Assembled}
      (free : state.cursor < index)
      (role : classify (line.getD []) = .declaration .function)
      (assembled : Signature.assemble line following = .ok signature)
      (rest : Trace settings (index + 1) ⟨index + signature.extra, true⟩ following found) :
      Trace settings index state (line :: following)
        (found.push ⟨Display.render settings signature.text, index + 1, .function⟩)
  | field {index : Nat} {state : State} {line : Line} {following : List Line} {found : Found}
      {indent : Text}
      (free : state.cursor < index)
      (role : classify (line.getD []) = .declaration .field)
      (indented : fieldIndent settings state.inProcedure
        (Display.render settings (line.getD [])) = .ok indent)
      (rest : Trace settings (index + 1) state following found) :
      Trace settings index state (line :: following)
        (found.push ⟨indent ++ Display.render settings (line.getD []), index + 1, .field⟩)

@[simp] theorem Found.push_records (record : Record) (found : Found) :
    (found.push record).records = record :: found.records := rfl

@[simp] theorem Found.push_state (record : Record) (found : Found) :
    (found.push record).state = found.state := rfl

section Equations

variable {settings : Settings} {index : Nat} {state : State} {line : Line} {following : List Line}

theorem consumeThrough_of_lt {last : Int} (free : state.cursor < last) :
    state.consumeThrough last = ⟨last, state.inProcedure⟩ := by
  simp [State.consumeThrough, free]

theorem run_used (taken : (index : Int) ≤ state.cursor) :
    run settings index state (line :: following) = run settings (index + 1) state following := by
  rw [run, if_pos taken]

theorem run_passed (free : state.cursor < index)
    (role : classify (line.getD []) = .comment ∨ classify (line.getD []) = .other) :
    run settings index state (line :: following) = run settings (index + 1) state following := by
  rw [run, if_neg (by omega)]
  rcases role with role | role <;> simp only [role]

theorem run_ended (free : state.cursor < index)
    (role : classify (line.getD []) = .procedureEnd) :
    run settings index state (line :: following) =
      run settings (index + 1) ⟨state.cursor, false⟩ following := by
  rw [run, if_neg (by omega)]
  simp only [role]

theorem run_cls (free : state.cursor < index)
    (role : classify (line.getD []) = .declaration .cls) :
    run settings index state (line :: following) =
      (run settings (index + 1) state following).map
        (Found.push ⟨Display.render settings (line.getD []), index + 1, .cls⟩) := by
  rw [run, if_neg (by omega)]
  simp only [role]
  cases run settings (index + 1) state following <;> rfl

theorem run_procedure {signature : Signature.Assembled} (free : state.cursor < index)
    (role : classify (line.getD []) = .declaration .function)
    (assembled : Signature.assemble line following = .ok signature) :
    run settings index state (line :: following) =
      (run settings (index + 1) ⟨index + signature.extra, true⟩ following).map
        (Found.push ⟨Display.render settings signature.text, index + 1, .function⟩) := by
  have cursor : state.cursor < index + signature.extra := by omega
  rw [run, if_neg (by omega)]
  simp only [role, assembled, consumeThrough_of_lt cursor]
  cases run settings (index + 1) ⟨index + signature.extra, true⟩ following <;> rfl

theorem run_procedure_missing {missing : Signature.MissingLine} (free : state.cursor < index)
    (role : classify (line.getD []) = .declaration .function)
    (assembled : Signature.assemble line following = .error missing) :
    run settings index state (line :: following) = .error .missingLine := by
  rw [run, if_neg (by omega)]
  simp only [role, assembled]

theorem run_field (free : state.cursor < index)
    (role : classify (line.getD []) = .declaration .field) :
    run settings index state (line :: following) =
      (fieldIndent settings state.inProcedure (Display.render settings (line.getD []))).bind
        fun indent => (run settings (index + 1) state following).map
          (Found.push ⟨indent ++ Display.render settings (line.getD []), index + 1, .field⟩) := by
  rw [run, if_neg (by omega)]
  simp only [role]
  cases fieldIndent settings state.inProcedure (Display.render settings (line.getD [])) with
  | error failure => rfl
  | ok indent => cases run settings (index + 1) state following <;> rfl

end Equations

theorem Trace.run_eq {settings : Settings} {index : Nat} {state : State} {lines : List Line}
    {found : Found} (trace : Trace settings index state lines found) :
    run settings index state lines = .ok found := by
  induction trace with
  | done => rfl
  | used taken rest ih => rw [run_used taken, ih]
  | passed free role rest ih => rw [run_passed free role, ih]
  | ended free role rest ih => rw [run_ended free role, ih]
  | cls free role rest ih => rw [run_cls free role, ih]; rfl
  | procedure free role assembled rest ih => rw [run_procedure free role assembled, ih]; rfl
  | field free role indented rest ih => rw [run_field free role, indented, ih]; rfl

theorem map_eq_ok {ε α β : Type} {f : α → β} {result : Except ε α} {value : β}
    (mapped : result.map f = .ok value) : ∃ inner, result = .ok inner ∧ f inner = value := by
  cases result with
  | error failure => cases mapped
  | ok inner => exact ⟨inner, rfl, Except.ok.inj mapped⟩

/-- Every successful run is a trace. The case split follows the order in which a line is judged. -/
theorem Trace.of_run {settings : Settings} {index : Nat} {state : State} {lines : List Line}
    {found : Found} (ran : run settings index state lines = .ok found) :
    Trace settings index state lines found := by
  induction lines generalizing index state found with
  | nil =>
    obtain rfl : ⟨[], state⟩ = found := Except.ok.inj ran
    exact .done
  | cons line following ih =>
    by_cases taken : (index : Int) ≤ state.cursor
    · exact .used taken (ih (run_used taken ▸ ran))
    · have free : state.cursor < index := by omega
      cases role : classify (line.getD []) with
      | comment => exact .passed free (.inl role) (ih (run_passed free (.inl role) ▸ ran))
      | other => exact .passed free (.inr role) (ih (run_passed free (.inr role) ▸ ran))
      | procedureEnd => exact .ended free role (ih (run_ended free role ▸ ran))
      | declaration kind =>
        cases kind with
        | cls =>
          rw [run_cls free role] at ran
          obtain ⟨inner, rest, rfl⟩ := map_eq_ok ran
          exact .cls free role (ih rest)
        | function =>
          cases assembled : Signature.assemble line following with
          | error missing => rw [run_procedure_missing free role assembled] at ran; cases ran
          | ok signature =>
            rw [run_procedure free role assembled] at ran
            obtain ⟨inner, rest, rfl⟩ := map_eq_ok ran
            exact .procedure free role assembled (ih rest)
        | field =>
          rw [run_field free role] at ran
          cases indented : fieldIndent settings state.inProcedure
              (Display.render settings (line.getD [])) with
          | error failure => rw [indented] at ran; cases ran
          | ok indent =>
            rw [indented] at ran
            obtain ⟨inner, rest, rfl⟩ := map_eq_ok ran
            exact .field free role indented (ih rest)

theorem run_eq_ok_iff {settings : Settings} {index : Nat} {state : State} {lines : List Line}
    {found : Found} :
    run settings index state lines = .ok found ↔ Trace settings index state lines found :=
  ⟨Trace.of_run, Trace.run_eq⟩

theorem scan_eq_map (settings : Settings) (lines : List Line) :
    scan settings lines = (run settings 0 {} lines).map Found.records := by
  unfold scan
  cases run settings 0 {} lines <;> rfl

theorem scan_eq_ok_iff {settings : Settings} {lines : List Line} {records : List Record} :
    scan settings lines = .ok records ↔
      ∃ state, Trace settings 0 {} lines ⟨records, state⟩ := by
  rw [scan_eq_map]
  constructor
  · intro scanned
    obtain ⟨found, ran, rfl⟩ := map_eq_ok scanned
    exact ⟨found.state, run_eq_ok_iff.mp ran⟩
  · rintro ⟨state, trace⟩
    rw [run_eq_ok_iff.mpr trace]
    rfl

end BasicOutline.Scan
