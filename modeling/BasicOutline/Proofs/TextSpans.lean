import BasicOutline.Text.Blank
import BasicOutline.Text.Word
import Mathlib.Data.List.TakeWhile

/-! Runs of characters of one kind, and the weight of a text without its blanks. -/

namespace BasicOutline.Text

def isSolid (c : Char) : Bool := !isBlank c

def weight (t : Text) : Nat := t.countP isSolid

theorem weight_append (a b : Text) : weight (a ++ b) = weight a + weight b :=
  List.countP_append

theorem weight_le_of_sublist {a b : Text} (sublist : a.Sublist b) : weight a ≤ weight b :=
  sublist.countP_le

theorem keep_of_mem_takeWhile {keep : Char → Bool} {t : Text} :
    ∀ c ∈ t.takeWhile keep, keep c = true := fun _ member => List.mem_takeWhile_imp member

theorem head?_dropWhile_stop {keep : Char → Bool} {t : Text} (c : Char)
    (head : (t.dropWhile keep).head? = some c) : keep c = false := by
  have first := List.head?_dropWhile_not keep t
  rw [head] at first
  simpa using first

section Ends

variable {blank : Char → Bool} {t tail : Text}

theorem trimEndWhile_append (blank : Char → Bool) (t : Text) :
    ∃ gap, t = trimEndWhile blank t ++ gap ∧ ∀ c ∈ gap, blank c = true := by
  refine ⟨(t.reverse.takeWhile blank).reverse, ?_, ?_⟩
  · rw [trimEndWhile, ← List.reverse_append, List.takeWhile_append_dropWhile, List.reverse_reverse]
  · intro c member
    exact keep_of_mem_takeWhile c (List.mem_reverse.mp member)

theorem trimEndWhile_last (c : Char) (last : (trimEndWhile blank t).getLast? = some c) :
    blank c = false := by
  rw [trimEndWhile, List.getLast?_reverse] at last
  exact head?_dropWhile_stop c last

theorem trimEnd_append (t : Text) :
    ∃ blanks, t = trimEnd t ++ blanks ∧ ∀ c ∈ blanks, isBlank c = true :=
  trimEndWhile_append isBlank t

theorem trimEnd_isPrefix (t : Text) : trimEnd t <+: t := by
  obtain ⟨blanks, whole, -⟩ := trimEnd_append t
  exact ⟨blanks, whole.symm⟩

/-- What stands before the end of a text stays when the end is trimmed, unless it is trimmed too. -/
theorem trimEndWhile_append_stop (stop : ∀ c, t.getLast? = some c → blank c = false) :
    trimEndWhile blank (t ++ tail) = t ++ trimEndWhile blank tail := by
  have kept : t.reverse.dropWhile blank = t.reverse := by
    cases reversed : t.reverse with
    | nil => rfl
    | cons c rest =>
      have last : t.getLast? = some c := by rw [← List.head?_reverse, reversed, List.head?_cons]
      rw [List.dropWhile_cons_of_neg (by simp [stop c last])]
  unfold trimEndWhile
  rw [List.reverse_append, List.dropWhile_append]
  split
  · rename_i empty
    rw [List.isEmpty_iff.mp empty, kept, List.reverse_reverse, List.reverse_nil, List.append_nil]
  · rw [List.reverse_append, List.reverse_reverse]

theorem trimEndWhile_eq_nil (all : ∀ c ∈ t, blank c = true) : trimEndWhile blank t = [] := by
  have dropped : t.reverse.dropWhile blank = [] := by
    rw [List.dropWhile_eq_nil_iff]
    intro c member
    exact all c (List.mem_reverse.mp member)
  rw [trimEndWhile, dropped, List.reverse_nil]

theorem trimEndWhile_append_gap (stop : ∀ c, t.getLast? = some c → blank c = false)
    (gap : ∀ c ∈ tail, blank c = true) : trimEndWhile blank (t ++ tail) = t := by
  rw [trimEndWhile_append_stop stop, trimEndWhile_eq_nil gap, List.append_nil]

end Ends

def blankCodes : List Nat :=
  List.range' 9 5 ++ List.range' 28 5 ++ [0x85, 0xA0, 0x1680] ++ List.range' 0x2000 11 ++
    [0x2028, 0x2029, 0x202F, 0x205F, 0x3000]

theorem mem_blankCodes {c : Char} (blank : isBlank c = true) : c.toNat ∈ blankCodes := by
  simp only [isBlank, Bool.or_eq_true, Bool.and_eq_true, decide_eq_true_eq, beq_iff_eq] at blank
  simp only [blankCodes, List.mem_append, List.mem_range'_1, List.mem_cons, List.not_mem_nil,
    or_false]
  omega

theorem isWord_of_isBlank {c : Char} (blank : isBlank c = true) : isWord c = false := by
  have all : ∀ code ∈ blankCodes, isWord (Char.ofNat code) = false := by decide +kernel
  have word := all c.toNat (mem_blankCodes blank)
  rwa [Char.ofNat_toNat] at word

theorem isBlank_of_isWord {c : Char} (word : isWord c = true) : isBlank c = false := by
  cases blank : isBlank c with
  | false => rfl
  | true => rw [isWord_of_isBlank blank] at word; cases word

theorem takeWhile_append_stop {keep : Char → Bool} {t rest : Text} (kept : ∀ c ∈ t, keep c = true)
    (stop : ∀ c, rest.head? = some c → keep c = false) : (t ++ rest).takeWhile keep = t := by
  rw [List.takeWhile_append_of_pos kept]
  cases rest with
  | nil => simp
  | cons c more => simp [stop c rfl]

theorem dropWhile_append_stop {keep : Char → Bool} {t rest : Text} (kept : ∀ c ∈ t, keep c = true)
    (stop : ∀ c, rest.head? = some c → keep c = false) : (t ++ rest).dropWhile keep = rest := by
  rw [List.dropWhile_append_of_pos kept]
  cases rest with
  | nil => rfl
  | cons c more => simp [stop c rfl]

theorem head?_cons_stop {keep : Char → Bool} {c : Char} (stop : keep c = false) (rest : Text) :
    ∀ d, (c :: rest).head? = some d → keep d = false := by
  intro d head
  rw [← Option.some.inj head]
  exact stop

section Marks

variable {mark : Char} {t : Text}

theorem bne_of_not_mem (absent : mark ∉ t) : ∀ c ∈ t, (c != mark) = true := by
  intro c member
  rw [bne_iff_ne]
  rintro rfl
  exact absent member

theorem takeWhile_append_mark (absent : mark ∉ t) (rest : Text) :
    (t ++ mark :: rest).takeWhile (· != mark) = t := by
  apply takeWhile_append_stop (bne_of_not_mem absent)
  apply head?_cons_stop
  exact bne_self_eq_false mark

theorem dropWhile_append_mark (absent : mark ∉ t) (rest : Text) :
    (t ++ mark :: rest).dropWhile (· != mark) = mark :: rest := by
  apply dropWhile_append_stop (bne_of_not_mem absent)
  apply head?_cons_stop
  exact bne_self_eq_false mark

theorem not_mem_takeWhile_mark (mark : Char) (t : Text) : mark ∉ t.takeWhile (· != mark) := by
  intro member
  have different := keep_of_mem_takeWhile mark member
  simp at different

theorem eq_mark_of_dropWhile {c : Char} {rest : Text}
    (found : t.dropWhile (· != mark) = c :: rest) : c = mark := by
  have stop : (c != mark) = false :=
    head?_dropWhile_stop (t := t) c (by rw [found, List.head?_cons])
  simpa using stop

end Marks

end BasicOutline.Text
