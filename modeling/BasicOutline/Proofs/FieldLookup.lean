import BasicOutline.Json.Value
import Mathlib.Data.List.Nodup

/-! Looking up fields.

Of several fields put under one key the last counts. Where the keys are distinct, the order of the
fields does not matter. -/

namespace BasicOutline

theorem lookup_cons_eq_ite {α β : Type} [BEq α] {key : α} (entry : α × β) (rest : List (α × β)) :
    List.lookup key (entry :: rest) =
      if key == entry.1 then some entry.2 else rest.lookup key := by
  rw [List.lookup_cons]
  cases key == entry.1 <;> rfl

section Distinct

variable {α β : Type} [BEq α] [LawfulBEq α] {entries others : List (α × β)} {key : α}

theorem lookup_eq_some_iff_mem (distinct : (entries.map Prod.fst).Nodup) {value : β} :
    entries.lookup key = some value ↔ (key, value) ∈ entries := by
  induction entries with
  | nil => simp
  | cons entry rest ih =>
    obtain ⟨name, first⟩ := entry
    rw [List.map_cons, List.nodup_cons] at distinct
    rw [lookup_cons_eq_ite, List.mem_cons, Prod.mk.injEq]
    by_cases here : key = name
    · subst here
      have absent : (key, value) ∉ rest := by
        intro member
        exact distinct.1 (List.mem_map.mpr ⟨_, member, rfl⟩)
      simp [absent, eq_comm]
    · simp [here, ih distinct.2]

theorem lookup_eq_of_perm (distinct : (entries.map Prod.fst).Nodup) (same : entries.Perm others) :
    entries.lookup key = others.lookup key := by
  have distinct_others : (others.map Prod.fst).Nodup := (same.map Prod.fst).nodup_iff.mp distinct
  apply Option.ext
  intro value
  rw [lookup_eq_some_iff_mem distinct, lookup_eq_some_iff_mem distinct_others, same.mem_iff]

theorem lookup_reverse (distinct : (entries.map Prod.fst).Nodup) :
    entries.reverse.lookup key = entries.lookup key :=
  (lookup_eq_of_perm distinct (List.reverse_perm entries).symm).symm

end Distinct

namespace Json.Fields

theorem get?_eq_none_iff {fields : Fields} {key : Text} :
    fields.get? key = none ↔ key ∉ fields.map Prod.fst := by
  rw [get?, List.lookup_eq_none_iff, List.mem_map]
  constructor
  · rintro absent ⟨field, member, rfl⟩
    simpa using absent field member
  · intro absent field member
    rw [bne_iff_ne]
    rintro rfl
    exact absent ⟨field, member, rfl⟩

theorem keys_put (key : Text) (value : Json) (fields : Fields) :
    (fields.put key value).map Prod.fst =
      if key ∈ fields.map Prod.fst then fields.map Prod.fst else fields.map Prod.fst ++ [key] := by
  induction fields with
  | nil => rfl
  | cons field rest ih =>
    by_cases here : field.1 = key
    · simp [put, here]
    · simp only [put, if_neg here, List.map_cons, ih, List.mem_cons, Ne.symm here, false_or]
      split <;> rfl

theorem nodup_put {fields : Fields} (distinct : (fields.map Prod.fst).Nodup) (key : Text)
    (value : Json) : ((fields.put key value).map Prod.fst).Nodup := by
  rw [keys_put]
  split
  · exact distinct
  · rename_i absent
    rw [List.nodup_append]
    refine ⟨distinct, List.nodup_singleton key, ?_⟩
    intro other member _ last
    rw [List.mem_singleton.mp last]
    exact fun same => absent (same ▸ member)

theorem nodup_putAll {fields : Fields} (distinct : (fields.map Prod.fst).Nodup) (more : Fields) :
    ((fields.putAll more).map Prod.fst).Nodup := by
  induction more generalizing fields with
  | nil => exact distinct
  | cons field rest ih => exact ih (nodup_put distinct field.1 field.2)

/-- Of the fields put in order the last with the key counts, and else the field that was there. -/
theorem get?_putAll (fields more : Fields) (key : Text) :
    (fields.putAll more).get? key = (more.reverse.lookup key).or (fields.get? key) := by
  induction more generalizing fields with
  | nil => rfl
  | cons field rest ih =>
    have first : fields.putAll (field :: rest) = (fields.put field.1 field.2).putAll rest := rfl
    rw [first, ih, get?_put, List.reverse_cons, List.lookup_append, Option.or_assoc]
    congr 1
    by_cases here : key = field.1 <;> simp [lookup_cons_eq_ite, here]

end Json.Fields

end BasicOutline
