import BasicOutline.Proofs.ProcedureLine
import BasicOutline.Proofs.SignatureText

/-! Where a return type is cut off.

A return type follows the chain of groups that the first `(` of the text begins, and reaches the end
of the text. The nesting never goes below zero inside a chain and is zero at its end. So no group is
cut, and what is left is a procedure without a return type. -/

namespace BasicOutline

namespace Declaration

open Text

/-- A declaration head stands in the text, at the beginning of a line or after a colon, and its
keyword ends there. -/
def Declares (t : Text) : Prop :=
  ∃ before head tail, t = before ++ (head ++ tail) ∧ Breaks tail ∧
    ((before = [] ∨ before.getLast? = some '\n') ∧ Opening head ∨
      ∃ inner, head = ':' :: inner ∧ Opening inner)

/-- An `As` clause that reaches the end of the text, a final line feed aside. -/
def ClauseToEnd (t : Text) : Prop :=
  ∃ gap word type feed, t = gap ++ (word ++ (type ++ feed)) ∧ gap ≠ [] ∧
    (∀ c ∈ gap, isBlank c = true) ∧ spells "as".toList word = true ∧ Breaks (type ++ feed) ∧
    '\n' ∉ type ∧ (feed = [] ∨ feed = ['\n'])

section Heads

variable {t tail : Text}

def startsLine (lineStart : Bool) (before : Text) : Bool :=
  before.getLast?.elim lineStart (· == '\n')

theorem startsLine_cons (lineStart : Bool) (c : Char) (before : Text) :
    startsLine lineStart (c :: before) = startsLine (c == '\n') before := by
  rw [startsLine, startsLine, List.getLast?_cons]
  cases before.getLast? <;> rfl

theorem mem_tailsFrom_iff {lineStart : Bool} : tail ∈ tailsFrom lineStart t ↔
    ∃ before rest, t = before ++ rest ∧ tail ∈ headTails (startsLine lineStart before) rest := by
  induction t generalizing lineStart with
  | nil =>
    refine ⟨nofun, ?_⟩
    rintro ⟨before, rest, whole, found⟩
    obtain ⟨-, rfl⟩ := List.append_eq_nil_iff.mp whole.symm
    exact absurd (properTail_of_mem_headTails found).2 (Nat.not_lt_zero _)
  | cons c rest ih =>
    rw [tailsFrom, List.mem_append, ih]
    constructor
    · rintro (here | ⟨before, later, rfl, found⟩)
      · exact ⟨[], c :: rest, rfl, here⟩
      · exact ⟨c :: before, later, rfl, (startsLine_cons lineStart c before).symm ▸ found⟩
    · rintro ⟨before, later, whole, found⟩
      cases before with
      | nil => exact .inl (whole ▸ found)
      | cons d before =>
        rw [List.cons_append, List.cons.injEq] at whole
        obtain ⟨rfl, rfl⟩ := whole
        rw [startsLine_cons] at found
        exact .inr ⟨before, later, rfl, found⟩

theorem startsLine_true_iff {before : Text} :
    startsLine true before = true ↔ before = [] ∨ before.getLast? = some '\n' := by
  rw [startsLine, ← List.getLast?_eq_none_iff]
  cases before.getLast? <;> simp

theorem occurs_iff : occurs t = true ↔ Declares t := by
  have some_tail : occurs t = true ↔ ∃ tail, tail ∈ tailsFrom true t := by
    rw [occurs, occursFrom_eq, Bool.not_eq_true', List.isEmpty_eq_false_iff_exists_mem]
  rw [some_tail]
  constructor
  · rintro ⟨tail, found⟩
    obtain ⟨before, rest, rfl, here⟩ := mem_tailsFrom_iff.mp found
    obtain ⟨breaks, head, opening, ⟨start, rfl⟩ | rfl⟩ := mem_headTails_iff.mp here
    · exact ⟨before, head, tail, rfl, breaks, .inl ⟨startsLine_true_iff.mp start, opening⟩⟩
    · exact ⟨before, ':' :: head, tail, rfl, breaks, .inr ⟨head, rfl, opening⟩⟩
  · rintro ⟨before, head, tail, rfl, breaks, ⟨start, opening⟩ | ⟨inner, rfl, opening⟩⟩
    · refine ⟨tail, mem_tailsFrom_iff.mpr ⟨before, _, rfl, mem_headTails_iff.mpr ?_⟩⟩
      exact ⟨breaks, head, opening, .inl ⟨startsLine_true_iff.mpr start, rfl⟩⟩
    · refine ⟨tail, mem_tailsFrom_iff.mpr ⟨before, _, rfl, mem_headTails_iff.mpr ?_⟩⟩
      exact ⟨breaks, inner, opening, .inr rfl⟩

theorem fromLineEnd_ends_iff : fromLineEnd tail = [] ∨ fromLineEnd tail = ['\n'] ↔
    ∃ type feed, tail = type ++ feed ∧ '\n' ∉ type ∧ (feed = [] ∨ feed = ['\n']) := by
  constructor
  · intro ends
    exact ⟨tail.takeWhile (· != '\n'), fromLineEnd tail, List.takeWhile_append_dropWhile.symm,
      not_mem_takeWhile_mark '\n' tail, ends⟩
  · rintro ⟨type, feed, rfl, plain, rfl | rfl⟩
    · rw [List.append_nil]
      exact .inl (fromLineEnd_eq_nil plain)
    · exact .inr (dropWhile_append_mark plain [])

theorem ClauseToEnd.ne_nil (clause : ClauseToEnd t) : t ≠ [] := by
  obtain ⟨gap, word, type, feed, rfl, apart, -⟩ := clause
  simp [apart]

end Heads

end Declaration

namespace Parenthesis

section Chains

variable {t first group groups rest : Text} {links : List Link}

/-- What is split off from a `(` on is a chain, and no group follows it. The induction follows the
search for the groups. -/
theorem exists_chain (opened : ∀ c, t.head? = some c → (c != '(') = false)
    (split : splitGroups t = some (groups, rest)) :
    ∃ first links, groups = chain first links ∧ IsGroup first ∧ (∀ link ∈ links, link.WellFormed) ∧
      (Text.trimStart rest).head? ≠ some '(' := by
  fun_induction splitGroups t generalizing groups rest with
  | case1 t unsplit => cases split
  | case2 t group after found more next ih =>
    obtain ⟨⟨later, behind⟩, inner, same⟩ := Option.map_eq_some_iff.mp split
    obtain ⟨rfl, rfl⟩ := Prod.mk.inj same
    obtain ⟨first, links, rfl, isGroup, valid, last⟩ := ih (Text.head?_cons_stop rfl more) inner
    have link : Link.WellFormed ⟨after.takeWhile Text.isBlank, first⟩ :=
      ⟨Text.keep_of_mem_takeWhile, isGroup⟩
    refine ⟨group, ⟨after.takeWhile Text.isBlank, first⟩ :: links, ?_,
      isGroup_of_found opened found, List.forall_mem_cons.mpr ⟨link, valid⟩, last⟩
    rw [chain_cons, List.append_assoc]
  | case3 t group after found last =>
    obtain ⟨rfl, rfl⟩ := Prod.mk.inj (Option.some.inj split)
    refine ⟨group, [], (List.append_nil group).symm, isGroup_of_found opened found,
      List.forall_mem_nil _, ?_⟩
    intro head
    obtain ⟨more, next⟩ := List.head?_eq_some_iff.mp head
    exact last more next

def NeverBelow (t : Text) : Prop := ∀ front back, t = front ++ back → 0 ≤ depth front

theorem NeverBelow.append {a b : Text} (left : NeverBelow a) (right : NeverBelow b) :
    NeverBelow (a ++ b) := by
  intro front back whole
  rcases List.append_eq_append_iff.mp whole with ⟨more, rfl, rest_eq⟩ | ⟨more, a_eq, -⟩
  · have before := left a [] (List.append_nil a).symm
    have behind := right more back rest_eq
    rw [depth_append]
    omega
  · exact left front more a_eq

theorem IsGroup.neverBelow (isGroup : IsGroup group) : NeverBelow group := by
  intro front back whole
  by_cases empty : front = []
  · rw [empty]
    exact Int.le_refl 0
  · cases back with
    | nil =>
      have closed := isGroup.closed
      rw [whole, List.append_nil] at closed
      omega
    | cons c more =>
      have positive := isGroup.positive front (c :: more) whole empty (List.cons_ne_nil c more)
      omega

theorem neverBelow_blanks {gap : Text} (blanks : ∀ c ∈ gap, Text.isBlank c = true) :
    NeverBelow gap := by
  intro front back whole
  have level : depth front = 0 :=
    depth_of_blanks fun c member => blanks c (whole ▸ List.mem_append_left back member)
  omega

theorem neverBelow_chain (isGroup : IsGroup first) (valid : ∀ link ∈ links, link.WellFormed) :
    NeverBelow (chain first links) := by
  induction links generalizing first with
  | nil =>
    rw [chain, List.flatMap_nil, List.append_nil]
    exact isGroup.neverBelow
  | cons link links ih =>
    obtain ⟨here, later⟩ := List.forall_mem_cons.mp valid
    rw [chain_cons]
    exact isGroup.neverBelow.append ((neverBelow_blanks here.blanks).append (ih here.isGroup later))

theorem depth_chain (isGroup : IsGroup first) (valid : ∀ link ∈ links, link.WellFormed) :
    depth (chain first links) = 0 := by
  induction links generalizing first with
  | nil =>
    rw [chain, List.flatMap_nil, List.append_nil]
    exact isGroup.closed
  | cons link links ih =>
    obtain ⟨here, later⟩ := List.forall_mem_cons.mp valid
    rw [chain_cons, depth_append, depth_append, isGroup.closed, depth_of_blanks here.blanks,
      ih here.isGroup later]
    rfl

end Chains

end Parenthesis

namespace Display

open Text Declaration
open Parenthesis (IsGroup Link chain)
open Signature (openDepth)

/-- A procedure with a return type: what stands before its first group, the chain of groups that
begins there, and the clause behind the last of them. -/
structure TypedProcedure where
  front : Text
  first : Text
  links : List Link
  clause : Text
  deriving DecidableEq, Repr

namespace TypedProcedure

def kept (procedure : TypedProcedure) : Text :=
  procedure.front ++ chain procedure.first procedure.links

def text (procedure : TypedProcedure) : Text := procedure.kept ++ procedure.clause

structure WellFormed (procedure : TypedProcedure) : Prop where
  undeclared : ¬ Declares procedure.text
  plain : '(' ∉ procedure.front
  first : IsGroup procedure.first
  links : ∀ link ∈ procedure.links, link.WellFormed
  /-- The chain goes on as long as groups follow one another. -/
  last : (trimStart procedure.clause).head? ≠ some '('
  clause : ClauseToEnd procedure.clause

end TypedProcedure

section Cut

variable {t : Text} {procedure : TypedProcedure}

theorem isAsClause_iff_clauseToEnd : isAsClause t = true ↔ ClauseToEnd t := by
  unfold isAsClause
  constructor
  · intro typed
    split at typed
    · rename_i tail found
      obtain ⟨gap, word, rfl, apart, blanks, keyword, breaks⟩ := afterBlankAs?_eq_some_iff.mp found
      obtain ⟨type, feed, rfl, plain, ends⟩ := fromLineEnd_ends_iff.mp (by simpa using typed)
      exact ⟨gap, word, type, feed, rfl, apart, blanks, keyword, breaks, plain, ends⟩
    · cases typed
  · rintro ⟨gap, word, type, feed, whole, apart, blanks, keyword, breaks, plain, ends⟩
    have found : afterBlankAs? t = some (type ++ feed) :=
      afterBlankAs?_eq_some_iff.mpr ⟨gap, word, whole, apart, blanks, keyword, breaks⟩
    have reaches := fromLineEnd_ends_iff.mpr ⟨type, feed, rfl, plain, ends⟩
    rw [found]
    simpa using reaches

theorem TypedProcedure.WellFormed.dropReturnType_text (valid : procedure.WellFormed) :
    dropReturnType procedure.text = procedure.kept := by
  have absent : Declaration.occurs procedure.text = false := by
    rw [← Bool.not_eq_true, occurs_iff]
    exact valid.undeclared
  have typed := isAsClause_iff_clauseToEnd.mpr valid.clause
  rw [TypedProcedure.text, TypedProcedure.kept, List.append_assoc] at absent ⊢
  rw [dropReturnType_chain valid.plain valid.first valid.links valid.last absent, if_pos typed,
    List.append_nil]

theorem exists_typedProcedure (cut : dropReturnType t ≠ t) : ∃ procedure : TypedProcedure,
    procedure.WellFormed ∧ procedure.text = t ∧ procedure.kept = dropReturnType t := by
  unfold dropReturnType at cut ⊢
  split at cut
  · exact absurd rfl cut
  · rename_i absent
    rw [if_neg absent]
    split at cut
    · rename_i groups rest split
      split at cut
      · rename_i typed
        obtain ⟨first, links, rfl, isGroup, valid, last⟩ :=
          Parenthesis.exists_chain head?_dropWhile_stop split
        have whole : t.takeWhile (· != '(') ++ chain first links ++ rest = t := by
          rw [List.append_assoc, (Parenthesis.splitGroups_append split).2,
            List.takeWhile_append_dropWhile]
        refine ⟨⟨t.takeWhile (· != '('), first, links, rest⟩, ⟨?_, not_mem_takeWhile_mark '(' t,
          isGroup, valid, last, isAsClause_iff_clauseToEnd.mp typed⟩, whole, ?_⟩
        · rw [← occurs_iff, TypedProcedure.text, TypedProcedure.kept, whole]
          exact absent
        · rw [if_pos typed]
          rfl
      · exact absurd rfl cut
    · exact absurd rfl cut

theorem TypedProcedure.WellFormed.openDepth_kept (valid : procedure.WellFormed) :
    openDepth procedure.kept = 0 := by
  obtain ⟨rest, begins⟩ := valid.first.exists_chain_cons procedure.links
  have whole : openDepth (chain procedure.first procedure.links) =
      Parenthesis.depth (chain procedure.first procedure.links) := by
    rw [begins]
    rfl
  rw [TypedProcedure.kept, Signature.openDepth_skip valid.plain, whole,
    Parenthesis.depth_chain valid.first valid.links]

/-- A group that begins before the cut ends there at the latest: what is kept of it opens no more
than it closes. -/
theorem TypedProcedure.WellFormed.not_isGroup_cut (valid : procedure.WellFormed)
    {before inner outer : Text} (kept : procedure.kept = before ++ inner) (some_in : inner ≠ [])
    (some_out : outer ≠ []) : ¬ IsGroup (inner ++ outer) := by
  intro isGroup
  have opened := isGroup.positive inner outer rfl some_in some_out
  obtain ⟨rest, begins⟩ := isGroup.exists_cons
  obtain ⟨c, more, rfl⟩ := List.exists_cons_of_ne_nil some_in
  obtain ⟨rfl, -⟩ := List.cons.inj begins
  have level := Parenthesis.depth_chain valid.first valid.links
  rw [TypedProcedure.kept] at kept
  rcases List.append_eq_append_iff.mp kept with ⟨start, -, chain_eq⟩ | ⟨start, front_eq, inner_eq⟩
  · have above := Parenthesis.neverBelow_chain valid.first valid.links start _ chain_eq
    rw [chain_eq, Parenthesis.depth_append] at level
    omega
  · -- The group would begin before the first `(`.
    cases start with
    | nil =>
      rw [List.nil_append] at inner_eq
      rw [inner_eq] at opened
      omega
    | cons d others =>
      obtain ⟨rfl, -⟩ := List.cons.inj inner_eq
      exact valid.plain (front_eq ▸ List.mem_append_right before List.mem_cons_self)

theorem group_isPrefix_of_dropReturnType {before group after : Text}
    (whole : t = before ++ (group ++ after)) (isGroup : IsGroup group)
    (begins : before.length < (dropReturnType t).length) :
    before ++ group <+: dropReturnType t := by
  have longer : before ++ group <+: t := ⟨after, by rw [whole, List.append_assoc]⟩
  by_cases cut : dropReturnType t = t
  · rwa [cut]
  · obtain ⟨procedure, valid, text_eq, kept⟩ := exists_typedProcedure cut
    have shorter : dropReturnType t <+: t := ⟨procedure.clause, by rw [← kept, ← text_eq]; rfl⟩
    by_cases within : (before ++ group).length ≤ (dropReturnType t).length
    · exact List.prefix_of_prefix_length_le longer shorter within
    · -- The cut would lie inside the group.
      obtain ⟨outer, parts⟩ := List.prefix_of_prefix_length_le shorter longer (by omega)
      obtain ⟨inner, front_eq⟩ := List.prefix_of_prefix_length_le
        ((List.prefix_append before group).trans longer) shorter begins.le
      rw [← front_eq, List.append_assoc] at parts
      have group_eq := List.append_cancel_left parts
      rw [← group_eq] at isGroup
      rw [← front_eq, List.length_append] at begins within
      rw [List.length_append, ← group_eq, List.length_append] at within
      have some_in : inner ≠ [] := List.length_pos_iff.mp (by omega)
      have some_out : outer ≠ [] := List.length_pos_iff.mp (by omega)
      exact absurd isGroup (valid.not_isGroup_cut (kept.trans front_eq.symm) some_in some_out)

/-- A text without declarations, whose first `(` begins a chain of closed groups and nothing but an
`As` clause follows the last of them, is cut behind the chain, and any other text stays as it is. So
what is left of a text closes what it opens, no group is cut, and nothing is left to be cut again.
-/
theorem dropReturnType_exact (t : Text) :
    (dropReturnType t = t ∨ ∃ clause, clause ≠ [] ∧ t = dropReturnType t ++ clause) ∧
    (∀ kept, kept ≠ t → (dropReturnType t = kept ↔ ∃ procedure : TypedProcedure,
      procedure.WellFormed ∧ procedure.text = t ∧ procedure.kept = kept)) ∧
    (dropReturnType t ≠ t → openDepth (dropReturnType t) = 0) ∧
    (∀ before group after, t = before ++ (group ++ after) → IsGroup group →
      before.length < (dropReturnType t).length → before ++ group <+: dropReturnType t) ∧
    dropReturnType (dropReturnType t) = dropReturnType t := by
  refine ⟨?_, ?_, ?_, ?_, dropReturnType_dropReturnType t⟩
  · by_cases cut : dropReturnType t = t
    · exact .inl cut
    · obtain ⟨procedure, valid, whole, kept⟩ := exists_typedProcedure cut
      exact .inr ⟨procedure.clause, valid.clause.ne_nil, by rw [← kept, ← whole]; rfl⟩
  · intro kept shorter
    constructor
    · intro dropped
      obtain ⟨procedure, valid, whole, same⟩ := exists_typedProcedure (dropped.trans_ne shorter)
      exact ⟨procedure, valid, whole, same.trans dropped⟩
    · rintro ⟨procedure, valid, rfl, rfl⟩
      exact valid.dropReturnType_text
  · intro cut
    obtain ⟨procedure, valid, -, kept⟩ := exists_typedProcedure cut
    rw [← kept]
    exact valid.openDepth_kept
  · intro before group after whole isGroup begins
    exact group_isPrefix_of_dropReturnType whole isGroup begins

example : dropReturnType "Function F(Of T) \n(a As X)\tas Y\n".toList =
    "Function F(Of T) \n(a As X)".toList := by decide +kernel

end Cut

end Display

end BasicOutline
