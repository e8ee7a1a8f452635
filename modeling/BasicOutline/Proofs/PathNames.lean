import BasicOutline.FileSystem
import BasicOutline.Proofs.PathCharacters
import Mathlib.Data.List.Basic

/-! Paths that lead down from a directory by names.

However the directory is spelled, each name adds one component to its path. So the path of what lies
below a directory tells by which names it was reached. -/

namespace BasicOutline.Path

/-- What an entry of a directory can be called. -/
structure IsName (name : Text) : Prop where
  nonempty : name ≠ []
  single : '/' ∉ name
  whole : '\x00' ∉ name
  not_here : name ≠ here
  not_parent : name ≠ parent

instance (name : Text) : Decidable (IsName name) :=
  decidable_of_iff
    (name ≠ [] ∧ '/' ∉ name ∧ '\x00' ∉ name ∧ name ≠ here ∧ name ≠ parent)
    ⟨fun ⟨nonempty, single, whole, not_here, not_parent⟩ =>
        ⟨nonempty, single, whole, not_here, not_parent⟩,
      fun named =>
        ⟨named.nonempty, named.single, named.whole, named.not_here, named.not_parent⟩⟩

def joinNames (directory : Text) (names : List Text) : Text := names.foldl join directory

section Step

variable {directory name : Text}

theorem components_append (first second : Text) :
    components (first ++ '/' :: second) = components first ++ components second := by
  simp only [components, List.splitOn_append_cons_self, List.filter_append]

theorem components_name (named : IsName name) : components name = [name] := by
  simp [components, List.splitOn_eq_singleton named.single, named.nonempty]

theorem IsName.relative (named : IsName name) : isAbsolute name = false := by
  rw [isAbsolute, beq_eq_false_iff_ne]
  intro head
  exact named.single (List.mem_of_mem_head? head)

theorem join_name (nonempty : directory ≠ []) (named : IsName name) :
    join directory name =
      if directory.getLast? = some '/' then directory ++ name else directory ++ '/' :: name := by
  rw [join, named.relative]
  simp [nonempty]

theorem prefix_join (nonempty : directory ≠ []) (named : IsName name) :
    directory <+: join directory name := by
  rw [join_name nonempty named]
  split
  · exact List.prefix_append directory name
  · exact List.prefix_append directory ('/' :: name)

theorem components_join_of_relative (relative : isAbsolute name = false) :
    components (join directory name) = components directory ++ components name := by
  rw [join, relative]
  simp only [Bool.false_eq_true, if_false]
  split
  · rename_i ends
    rcases ends with empty | slash
    · rw [empty]
      rfl
    · obtain ⟨before, rfl⟩ := List.getLast?_eq_some_iff.mp slash
      have trailing : components (before ++ ['/']) = components before := by
        rw [components_append, show components [] = [] from rfl, List.append_nil]
      rw [trailing, List.append_assoc, List.singleton_append, components_append]
  · rw [components_append]

theorem components_join (named : IsName name) :
    components (join directory name) = components directory ++ [name] := by
  rw [components_join_of_relative named.relative, components_name named]

theorem getLast?_join (nonempty : directory ≠ []) (named : IsName name) :
    (join directory name).getLast? ≠ some '/' := by
  have last : name.getLast? ≠ some '/' := by
    intro slash
    exact named.single (List.mem_of_getLast? slash)
  rw [join_name nonempty named]
  split
  · rw [List.getLast?_append_of_ne_nil _ named.nonempty]
    exact last
  · rw [List.append_cons, List.getLast?_append_of_ne_nil _ named.nonempty]
    exact last

end Step

section Names

variable {directory : Text} {names : List Text}

theorem prefix_joinNames (nonempty : directory ≠ []) (named : ∀ name ∈ names, IsName name) :
    directory <+: joinNames directory names := by
  induction names generalizing directory with
  | nil => exact List.prefix_rfl
  | cons name rest ih =>
    have step := prefix_join nonempty (named name List.mem_cons_self)
    apply step.trans
    apply ih (step.ne_nil nonempty)
    intro other member
    exact named other (List.mem_cons_of_mem name member)

theorem isAbsolute_joinNames (nonempty : directory ≠ []) (named : ∀ name ∈ names, IsName name) :
    isAbsolute (joinNames directory names) = isAbsolute directory := by
  obtain ⟨rest, whole⟩ := prefix_joinNames nonempty named
  rw [← whole, isAbsolute, isAbsolute, List.head?_append_of_ne_nil directory nonempty]

theorem components_joinNames (named : ∀ name ∈ names, IsName name) :
    components (joinNames directory names) = components directory ++ names := by
  induction names generalizing directory with
  | nil => rw [joinNames, List.foldl_nil, List.append_nil]
  | cons name rest ih =>
    have others : ∀ other ∈ rest, IsName other :=
      fun other member => named other (List.mem_cons_of_mem name member)
    calc
      components (joinNames directory (name :: rest)) =
          components (join directory name) ++ rest := ih others
      _ = components directory ++ name :: rest := by
        rw [components_join (named name List.mem_cons_self), List.append_assoc,
          List.singleton_append]

theorem joinNames_injective {others : List Text} (named : ∀ name ∈ names, IsName name)
    (known : ∀ name ∈ others, IsName name)
    (same : joinNames directory names = joinNames directory others) : names = others := by
  apply List.append_cancel_left
  calc
    components directory ++ names = components (joinNames directory names) :=
      (components_joinNames named).symm
    _ = components (joinNames directory others) := by rw [same]
    _ = components directory ++ others := components_joinNames known

theorem getLast?_joinNames (nonempty : directory ≠ []) (named : ∀ name ∈ names, IsName name)
    (down : names ≠ []) : (joinNames directory names).getLast? ≠ some '/' := by
  induction names generalizing directory with
  | nil => exact absurd rfl down
  | cons name rest ih =>
    have first := named name List.mem_cons_self
    cases rest with
    | nil => exact getLast?_join nonempty first
    | cons next more =>
      apply ih ((prefix_join nonempty first).ne_nil nonempty) _ (List.cons_ne_nil next more)
      intro other member
      exact named other (List.mem_cons_of_mem name member)

theorem not_mem_joinNames (named : ∀ name ∈ names, IsName name) (whole : '\x00' ∉ directory) :
    '\x00' ∉ joinNames directory names := by
  induction names generalizing directory with
  | nil => exact whole
  | cons name rest ih =>
    apply ih
    · intro other member
      exact named other (List.mem_cons_of_mem name member)
    · intro member
      rcases mem_join member with above | own | slash
      · exact whole above
      · exact (named name List.mem_cons_self).whole own
      · exact absurd slash (by decide)

theorem steps_joinNames (nonempty : directory ≠ []) (named : ∀ name ∈ names, IsName name)
    (down : names ≠ []) :
    FileSystem.steps (joinNames directory names) = components directory ++ names := by
  rw [FileSystem.steps, if_neg (getLast?_joinNames nonempty named down), List.append_nil,
    components_joinNames named]

end Names

end BasicOutline.Path
