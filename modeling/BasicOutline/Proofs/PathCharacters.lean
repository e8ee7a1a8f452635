import BasicOutline.Path
import BasicOutline.Proofs.LineFolding

/-! Where the characters of a normal form come from. -/

namespace BasicOutline.Path

open Text

theorem mem_join {directory path : Text} {c : Char} (member : c ∈ join directory path) :
    c ∈ directory ∨ c ∈ path ∨ c = '/' := by
  unfold join at member
  split at member
  · exact .inr (.inl member)
  · split at member
    · rcases List.mem_append.mp member with before | after
      · exact .inl before
      · exact .inr (.inl after)
    · rcases List.mem_append.mp member with before | after
      · exact .inl before
      · rcases List.mem_cons.mp after with slash | inside
        · exact .inr (.inr slash)
        · exact .inr (.inl inside)

theorem mem_pass {absolute : Bool} {passed : List Text} {name other : Text}
    (member : other ∈ pass absolute passed name) :
    other ∈ passed ∨ other = name ∨ other = parent := by
  unfold pass at member
  split at member
  · exact .inl member
  · split at member
    · rcases List.mem_cons.mp member with same | before
      · exact .inr (.inl same)
      · exact .inl before
    · grind

theorem mem_foldl_pass {absolute : Bool} {names start : List Text} {name : Text}
    (member : name ∈ names.foldl (pass absolute) start) :
    name ∈ start ∨ name ∈ names ∨ name = parent := by
  induction names generalizing start with
  | nil => exact .inl member
  | cons first rest ih =>
    rcases ih member with before | after | back
    · rcases mem_pass before with known | same | back
      · exact .inl known
      · exact .inr (.inl (same ▸ List.mem_cons_self))
      · exact .inr (.inr back)
    · exact .inr (.inl (List.mem_cons_of_mem _ after))
    · exact .inr (.inr back)

theorem mem_leadingSlashes {path : Text} {c : Char} (member : c ∈ leadingSlashes path) :
    c = '/' := by
  have slashes : ∀ t ∈ [[], ['/', '/'], ['/']], ∀ c ∈ t, c = '/' := by simp
  apply slashes _ _ c member
  simp only [leadingSlashes]
  split
  · exact List.mem_cons_self
  · split <;> simp

theorem mem_normalize {path : Text} {c : Char} (member : c ∈ normalize path) :
    c ∈ path ∨ c = '/' ∨ c = '.' := by
  have point : ∀ c ∈ here, c = '.' := by simp [here]
  have points : ∀ c ∈ parent, c = '.' := by simp [parent]
  simp only [normalize] at member
  split at member
  · exact .inr (.inr (point c member))
  · rcases List.mem_append.mp member with slash | inside
    · exact .inr (.inl (mem_leadingSlashes slash))
    · rcases mem_intercalate inside with slash | ⟨name, found, own⟩
      · exact .inr (.inl (List.mem_singleton.mp slash))
      · rcases mem_foldl_pass (List.mem_reverse.mp found) with none_there | part | rfl
        · cases none_there
        · exact .inl ((sublist_of_mem_splitOn (List.mem_filter.mp part).1).subset own)
        · exact .inr (.inr (points c own))

theorem mem_absolute {directory path : Text} {c : Char} (member : c ∈ absolute directory path) :
    c ∈ directory ∨ c ∈ path ∨ c = '/' ∨ c = '.' := by
  rcases mem_normalize member with joined | own
  · rcases mem_join joined with first | second | slash
    · exact .inl first
    · exact .inr (.inl second)
    · exact .inr (.inr (.inl slash))
  · exact .inr (.inr own)

end BasicOutline.Path
