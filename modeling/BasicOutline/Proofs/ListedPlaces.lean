import BasicOutline.Proofs.ScanTrace

/-! The places that an outline lists.

The settings say how a declaration is shown. Which lines are listed and what they declare is the
same under all of them, as neither the cursor nor the flag of a scan looks at a shown text. -/

namespace BasicOutline

def Record.place (record : Record) : Int × Kind := (record.line, record.kind)

namespace Scan

open Signature (Line)

theorem map_eq_of_map_eq {α β γ : Type} {key : α → β} {f : α → γ} {first second : List α}
    (keys : first.map key = second.map key)
    (agree : ∀ item ∈ first, ∀ other ∈ second, key item = key other → f item = f other) :
    first.map f = second.map f := by
  induction first generalizing second with
  | nil =>
    rw [List.map_nil] at keys
    rw [List.map_eq_nil_iff.mp keys.symm]
  | cons item rest ih =>
    cases second with
    | nil => cases keys
    | cons other more =>
      rw [List.map_cons, List.map_cons, List.cons.injEq] at keys
      have head := agree item List.mem_cons_self other List.mem_cons_self keys.1
      have tail := ih keys.2 fun next member copy present =>
        agree next (List.mem_cons_of_mem _ member) copy (List.mem_cons_of_mem _ present)
      rw [List.map_cons, List.map_cons, head, tail]

/-- Two runs cannot be told apart but by the texts that they show. -/
structure SamePlaces (first second : Found) : Prop where
  places : first.records.map Record.place = second.records.map Record.place
  state : first.state = second.state

theorem SamePlaces.push {first second : Found} (same : SamePlaces first second)
    {record other : Record} (place : record.place = other.place) :
    SamePlaces (first.push record) (second.push other) := by
  constructor
  · simp only [Found.push_records, List.map_cons, place, same.places]
  · simp only [Found.push_state, same.state]

theorem bind_eq_ok {ε α β : Type} {f : α → Except ε β} {result : Except ε α} {value : β}
    (bound : result.bind f = .ok value) : ∃ inner, result = .ok inner ∧ f inner = .ok value := by
  cases result with
  | error failure => cases bound
  | ok inner => exact ⟨inner, rfl, bound⟩

/-- Runs under any two settings go through the same states. -/
theorem Trace.samePlaces {first second : Settings} {index : Nat} {state : State}
    {lines : List Line} {found other : Found} (trace : Trace first index state lines found)
    (ran : run second index state lines = .ok other) : SamePlaces found other := by
  induction trace generalizing other with
  | done =>
    have ended := Except.ok.inj ran
    rw [← ended]
    exact ⟨rfl, rfl⟩
  | used taken rest ih =>
    rw [run_used taken] at ran
    exact ih ran
  | passed free role rest ih =>
    rw [run_passed free role] at ran
    exact ih ran
  | ended free role rest ih =>
    rw [run_ended free role] at ran
    exact ih ran
  | cls free role rest ih =>
    rw [run_cls free role] at ran
    obtain ⟨inner, later, rfl⟩ := map_eq_ok ran
    exact (ih later).push rfl
  | procedure free role assembled rest ih =>
    rw [run_procedure free role assembled] at ran
    obtain ⟨inner, later, rfl⟩ := map_eq_ok ran
    exact (ih later).push rfl
  | field free role indented rest ih =>
    -- The second run indents the field in its own way, and goes on from the same state.
    rw [run_field free role] at ran
    obtain ⟨indent, -, continued⟩ := bind_eq_ok ran
    obtain ⟨inner, later, rfl⟩ := map_eq_ok continued
    exact (ih later).push rfl

/-- The settings never change what is outlined: scans under any two settings list declarations of
the same kinds on the same lines. -/
theorem scan_places_eq {first second : Settings} {lines : List Line}
    {records others : List Record} (scanned : scan first lines = .ok records)
    (rescanned : scan second lines = .ok others) :
    records.map (fun record => (record.line, record.kind)) =
      others.map fun record => (record.line, record.kind) := by
  obtain ⟨state, trace⟩ := scan_eq_ok_iff.mp scanned
  obtain ⟨final, other⟩ := scan_eq_ok_iff.mp rescanned
  exact (trace.samePlaces other.run_eq).places

/-- Every setting differs, and with them the texts of the procedure and of the field. -/
theorem scan_places_eq_of_opposite_settings :
    let lines := [some "Sub F(a As T, _".toList, some "Dim b)".toList, none,
      some "Dim x As T = 1".toList, some "End Sub".toList, some "  Class C".toList]
    let first := [⟨"Sub F()".toList, 1, .function⟩, ⟨"Dim x".toList, 4, .field⟩,
      ⟨"  Class C".toList, 6, .cls⟩]
    let second := [⟨"Sub F(a As T, Dim b)".toList, 1, .function⟩,
      ⟨"    Dim x As T".toList, 4, .field⟩, ⟨"  Class C".toList, 6, .cls⟩]
    scan {} lines = .ok first ∧ scan ⟨true, 4, true, true, true⟩ lines = .ok second ∧
      first.map (fun record => (record.line, record.kind)) =
        second.map fun record => (record.line, record.kind) := by
  intro lines first second
  have plain : scan {} lines = .ok first := by decide +kernel
  have full : scan ⟨true, 4, true, true, true⟩ lines = .ok second := by decide +kernel
  exact ⟨plain, full, scan_places_eq plain full⟩

end Scan

end BasicOutline
