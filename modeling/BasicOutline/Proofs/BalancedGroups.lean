import BasicOutline.Proofs.ParenthesisCollapse
import Mathlib.Data.List.Infix

/-! Balanced groups by their nesting depth, chains of them, and texts without an open group.

A group ends where the nesting comes back to zero for the first time. What stands before an open
group is collapsed independently of what follows, group by group. -/

namespace BasicOutline.Parenthesis

/-- A balanced group: it begins with `(`, and the nesting is positive up to its last character,
which brings it to zero. -/
structure IsGroup (group : Text) : Prop where
  opened : group.head? = some '('
  positive : ∀ front back, group = front ++ back → front ≠ [] → back ≠ [] → 0 < depth front
  closed : depth group = 0

def AllClosed (t : Text) : Prop :=
  ∀ front back, t = front ++ '(' :: back →
    ∃ group after, '(' :: back = group ++ after ∧ IsGroup group

section Nesting

variable {nesting : Int} {group : Text}

theorem change_cases (c : Char) :
    c = '(' ∧ change c = 1 ∨ c = ')' ∧ change c = -1 ∨ c ≠ ')' ∧ change c = 0 := by
  unfold change
  split
  · rename_i opens
    exact .inl ⟨opens, rfl⟩
  · split
    · rename_i closes
      exact .inr (.inl ⟨closes, rfl⟩)
    · rename_i other
      exact .inr (.inr ⟨other, rfl⟩)

theorem eq_close_of_change {c : Char} (opened : 0 < nesting) (zero : nesting + change c = 0) :
    c = ')' := by
  rcases change_cases c with ⟨-, up⟩ | ⟨closes, -⟩ | ⟨-, level⟩
  · omega
  · exact closes
  · omega

theorem pos_of_not_closed {c : Char} (opened : 0 < nesting)
    (still : ¬ (c = ')' ∧ nesting + change c = 0)) : 0 < nesting + change c := by
  by_contra nonpositive
  have zero : nesting + change c = 0 := by
    have step := change_cases c
    omega
  exact still ⟨eq_close_of_change opened zero, zero⟩

theorem closes_cons_iff {c : Char} {rest : Text} :
    Closes nesting (c :: rest) ↔ (c = ')' ∧ nesting + change c = 0 ∧ rest = []) ∨
      ¬ (c = ')' ∧ nesting + change c = 0) ∧ Closes (nesting + change c) rest := by
  constructor
  · intro closes
    cases closes with
    | close closed => exact .inl ⟨rfl, closed, rfl⟩
    | step opened later => exact .inr ⟨opened, later⟩
  · rintro (⟨rfl, closed, rfl⟩ | ⟨opened, later⟩)
    · exact .close closed
    · exact .step opened later

/-- Counted from a nesting, no part of the text before its last character closes all groups. -/
def StaysOpen (nesting : Int) (t : Text) : Prop :=
  ∀ front back, t = front ++ back → back ≠ [] → 0 < nesting + depth front

theorem staysOpen_nil (nesting : Int) : StaysOpen nesting [] := by
  intro front back whole nonempty
  exact absurd (List.append_eq_nil_iff.mp whole.symm).2 nonempty

theorem staysOpen_cons_iff {c : Char} {rest : Text} :
    StaysOpen nesting (c :: rest) ↔ 0 < nesting ∧ StaysOpen (nesting + change c) rest := by
  constructor
  · intro stays
    refine ⟨?_, fun front back whole nonempty => ?_⟩
    · have start := stays [] (c :: rest) rfl (List.cons_ne_nil c rest)
      rwa [depth, Int.add_zero] at start
    · have inside := stays (c :: front) back (by rw [whole, List.cons_append]) nonempty
      rwa [depth, ← Int.add_assoc] at inside
  · rintro ⟨opened, stays⟩ front back whole nonempty
    cases front with
    | nil => rwa [depth, Int.add_zero]
    | cons d more =>
      obtain ⟨rfl, rest_eq⟩ := List.cons.inj whole
      rw [depth, ← Int.add_assoc]
      exact stays more back rest_eq nonempty

/-- Counted from a positive nesting, a text ends a group if it brings the nesting to zero and no
shorter part of it does. -/
theorem closes_iff (opened : 0 < nesting) :
    Closes nesting group ↔ nesting + depth group = 0 ∧ StaysOpen nesting group := by
  induction group generalizing nesting with
  | nil =>
    constructor
    · nofun
    · rintro ⟨zero, -⟩
      rw [depth] at zero
      omega
  | cons c rest ih =>
    rw [closes_cons_iff, staysOpen_cons_iff, depth, ← Int.add_assoc]
    constructor
    · rintro (⟨-, zero, rfl⟩ | ⟨still, later⟩)
      · exact ⟨by rw [depth, Int.add_zero, zero], opened, staysOpen_nil _⟩
      · obtain ⟨zero, stays⟩ := (ih (pos_of_not_closed opened still)).mp later
        exact ⟨zero, opened, stays⟩
    · rintro ⟨zero, -, stays⟩
      cases rest with
      | nil =>
        rw [depth, Int.add_zero] at zero
        exact .inl ⟨eq_close_of_change opened zero, zero, rfl⟩
      | cons d more =>
        have next := (staysOpen_cons_iff.mp stays).1
        exact .inr ⟨fun closed => by omega, (ih next).mpr ⟨zero, stays⟩⟩

theorem splitGroup_eq_none_iff (opened : 0 < nesting) {t : Text} :
    splitGroup nesting t = none ↔ StaysOpen nesting t ∧ 0 < nesting + depth t := by
  induction t generalizing nesting with
  | nil =>
    rw [depth, Int.add_zero]
    exact ⟨fun _ => ⟨staysOpen_nil nesting, opened⟩, fun _ => rfl⟩
  | cons c rest ih =>
    rw [splitGroup, staysOpen_cons_iff, depth, ← Int.add_assoc, and_iff_right opened]
    by_cases closed : c = ')' ∧ nesting + change c = 0
    · rw [if_pos closed, closed.2]
      constructor
      · intro impossible
        cases impossible
      · intro open_throughout
        cases rest with
        | nil => exact absurd open_throughout.2 (by decide)
        | cons d more => exact absurd (staysOpen_cons_iff.mp open_throughout.1).1 (by decide)
    · rw [if_neg closed, Option.map_eq_none_iff]
      exact ih (pos_of_not_closed opened closed)

theorem splitGroup_open (rest : Text) : splitGroup 0 ('(' :: rest) =
    (splitGroup 1 rest).map fun split => ('(' :: split.1, split.2) := by
  rw [splitGroup, if_neg (by decide)]
  rfl

theorem isSome_splitGroup_of_depth {rest : Text} (closed : depth ('(' :: rest) ≤ 0) :
    (splitGroup 0 ('(' :: rest)).isSome = true := by
  rw [splitGroup_open, Option.isSome_map]
  by_contra opened
  have never := (splitGroup_eq_none_iff (by decide)).mp (Option.not_isSome_iff_eq_none.mp opened)
  have up : depth ('(' :: rest) = 1 + depth rest := rfl
  have left := never.2
  omega

theorem isGroup_cons_iff {rest : Text} : IsGroup ('(' :: rest) ↔ Closes 1 rest := by
  have up : change '(' = 1 := rfl
  rw [closes_iff (by decide)]
  constructor
  · rintro ⟨-, positive, closed⟩
    rw [depth, up] at closed
    refine ⟨closed, fun front back whole nonempty => ?_⟩
    have inside := positive ('(' :: front) back (by rw [whole, List.cons_append]) (by simp) nonempty
    rwa [depth, up] at inside
  · rintro ⟨closed, stays⟩
    refine ⟨rfl, fun front back whole nonempty left => ?_, by rwa [depth, up]⟩
    cases front with
    | nil => exact absurd rfl nonempty
    | cons d more =>
      obtain ⟨rfl, rest_eq⟩ := List.cons.inj whole
      rw [depth, up]
      exact stays more back rest_eq left

theorem isGroup_iff : IsGroup group ↔ group.head? = some '(' ∧ Closes 0 group := by
  cases group with
  | nil =>
    refine ⟨fun isGroup => ?_, fun closes => ?_⟩
    · cases isGroup.opened
    · cases closes.1
  | cons c rest =>
    rw [List.head?_cons, Option.some.injEq]
    constructor
    · intro isGroup
      obtain rfl : c = '(' := Option.some.inj isGroup.opened
      exact ⟨rfl, closes_cons_iff.mpr (.inr ⟨by decide, isGroup_cons_iff.mp isGroup⟩)⟩
    · rintro ⟨rfl, closes⟩
      rcases closes_cons_iff.mp closes with ⟨impossible, -, -⟩ | ⟨-, later⟩
      · exact absurd impossible (by decide)
      · exact isGroup_cons_iff.mpr later

theorem IsGroup.exists_cons (isGroup : IsGroup group) : ∃ rest, group = '(' :: rest :=
  List.head?_eq_some_iff.mp isGroup.opened

theorem IsGroup.splitGroup_eq (isGroup : IsGroup group) (after : Text) :
    splitGroup 0 (group ++ after) = some (group, after) :=
  splitGroup_eq_some_iff.mpr ⟨(isGroup_iff.mp isGroup).2, rfl⟩

theorem isGroup_of_splitGroup {rest after : Text}
    (split : splitGroup 0 ('(' :: rest) = some (group, after)) :
    '(' :: rest = group ++ after ∧ IsGroup group := by
  obtain ⟨closes, whole⟩ := splitGroup_eq_some_iff.mp split
  refine ⟨whole, isGroup_iff.mpr ⟨?_, closes⟩⟩
  cases group with
  | nil => cases closes
  | cons c more => rw [List.head?_cons, (List.cons.inj whole).1]

theorem isGroup_of_found {t after : Text} (opened : ∀ c, t.head? = some c → (c != '(') = false)
    (found : splitGroup 0 t = some (group, after)) : IsGroup group := by
  cases t with
  | nil => cases found
  | cons c rest =>
    obtain rfl : c = '(' := by simpa using opened c rfl
    exact (isGroup_of_splitGroup found).2

theorem isGroup_pair : IsGroup ['(', ')'] := isGroup_iff.mpr ⟨rfl, closes_pair⟩

theorem isGroup_iff_splitGroup :
    IsGroup group ↔ group.head? = some '(' ∧ splitGroup 0 group = some (group, []) := by
  rw [isGroup_iff, splitGroup_eq_some_iff, List.append_nil, and_iff_left rfl]

theorem allClosed_iff_splitGroup {t : Text} :
    AllClosed t ↔ ∀ tail ∈ t.tails, tail.head? = some '(' → (splitGroup 0 tail).isSome = true := by
  constructor
  · intro closed tail member opened
    obtain ⟨front, rfl⟩ := (List.mem_tails _ _).mp member
    obtain ⟨back, rfl⟩ := List.head?_eq_some_iff.mp opened
    obtain ⟨group, after, whole, isGroup⟩ := closed front back rfl
    rw [whole, isGroup.splitGroup_eq, Option.isSome_some]
  · rintro splits front back rfl
    have member : '(' :: back ∈ (front ++ '(' :: back).tails :=
      (List.mem_tails _ _).mpr (List.suffix_append front _)
    obtain ⟨⟨group, after⟩, split⟩ := Option.isSome_iff_exists.mp (splits _ member rfl)
    exact ⟨group, after, isGroup_of_splitGroup split⟩

instance (group : Text) : Decidable (IsGroup group) :=
  decidable_of_iff _ isGroup_iff_splitGroup.symm

instance (t : Text) : Decidable (AllClosed t) :=
  decidable_of_iff _ allClosed_iff_splitGroup.symm

end Nesting

section Collapse

variable {t front group : Text}

theorem IsGroup.collapse_append (isGroup : IsGroup group) (after : Text) :
    collapse (group ++ after) = '(' :: ')' :: collapse after := by
  have split := isGroup.splitGroup_eq after
  obtain ⟨rest, rfl⟩ := isGroup.exists_cons
  exact collapse_of_group split

theorem AllClosed.of_append (closed : AllClosed (front ++ t)) : AllClosed t := by
  intro before back whole
  exact closed (front ++ before) back (by rw [whole, List.append_assoc])

theorem AllClosed.collapse_append (closed : AllClosed front) (t : Text) :
    collapse (front ++ t) = collapse front ++ collapse t := by
  fun_induction collapse front with
  | case1 => rfl
  | case2 rest group after split ih =>
    have whole := splitGroup_append split
    have left : AllClosed after := (whole ▸ closed : AllClosed (group ++ after)).of_append
    have longer : splitGroup 0 ('(' :: (rest ++ t)) = some (group, after ++ t) :=
      splitGroup_append_right split t
    rw [List.cons_append, collapse_of_group longer, ih left]
    rfl
  | case3 rest opened =>
    obtain ⟨group, after, whole, isGroup⟩ := closed [] rest rfl
    rw [whole, isGroup.splitGroup_eq after] at opened
    cases opened
  | case4 c rest plain ih =>
    have whole : AllClosed ([c] ++ rest) := closed
    rw [List.cons_append, collapse_cons_of_ne plain, ih whole.of_append, List.cons_append]

theorem getLast?_collapse (t : Text) : (collapse t).getLast? = t.getLast? := by
  fun_induction collapse t with
  | case1 => rfl
  | case2 rest group after split ih =>
    have whole := splitGroup_append split
    obtain ⟨body, rfl⟩ := (splitGroup_eq_some_iff.mp split).1.exists_last
    rw [← whole, List.getLast?_append, List.getLast?_cons_cons, List.getLast?_cons, ih]
    cases after.getLast? <;> simp
  | case3 rest opened => rfl
  | case4 c rest plain ih => rw [List.getLast?_cons, List.getLast?_cons, ih]

theorem collapse_eq_blanks_append (t : Text) :
    collapse t = t.takeWhile Text.isBlank ++ collapse (Text.trimStart t) ∧
      ∀ c, (collapse (Text.trimStart t)).head? = some c → Text.isBlank c = false := by
  have plain : '(' ∉ t.takeWhile Text.isBlank :=
    fun member => absurd (Text.keep_of_mem_takeWhile _ member) (by decide)
  have parts : t.takeWhile Text.isBlank ++ Text.trimStart t = t := List.takeWhile_append_dropWhile
  constructor
  · rw [← collapse_append_of_plain plain, parts]
  · intro c head
    rw [head?_collapse] at head
    exact Text.head?_dropWhile_stop c head

theorem trimStart_collapse (t : Text) :
    Text.trimStart (collapse t) = collapse (Text.trimStart t) := by
  obtain ⟨whole, stop⟩ := collapse_eq_blanks_append t
  rw [whole]
  exact Text.dropWhile_append_stop Text.keep_of_mem_takeWhile stop

theorem takeWhile_isBlank_collapse (t : Text) :
    (collapse t).takeWhile Text.isBlank = t.takeWhile Text.isBlank := by
  obtain ⟨whole, stop⟩ := collapse_eq_blanks_append t
  rw [whole]
  exact Text.takeWhile_append_stop Text.keep_of_mem_takeWhile stop

end Collapse

structure Link where
  gap : Text
  group : Text
  deriving DecidableEq, Repr

structure Link.WellFormed (link : Link) : Prop where
  blanks : ∀ c ∈ link.gap, Text.isBlank c = true
  isGroup : IsGroup link.group

def chain (first : Text) (links : List Link) : Text :=
  first ++ links.flatMap fun link => link.gap ++ link.group

def Link.emptied (link : Link) : Link := { link with group := ['(', ')'] }

section Chain

variable {first tail : Text} {links : List Link}

theorem chain_cons (first : Text) (link : Link) (links : List Link) :
    chain first (link :: links) = first ++ (link.gap ++ chain link.group links) := by
  simp [chain]

theorem IsGroup.exists_chain_cons {group : Text} (isGroup : IsGroup group) (links : List Link) :
    ∃ rest, chain group links = '(' :: rest := by
  obtain ⟨rest, rfl⟩ := isGroup.exists_cons
  exact ⟨_, rfl⟩

theorem Link.WellFormed.emptied {link : Link} (valid : link.WellFormed) :
    link.emptied.WellFormed :=
  ⟨valid.blanks, isGroup_pair⟩

theorem forall_emptied (valid : ∀ link ∈ links, link.WellFormed) :
    ∀ link ∈ links.map Link.emptied, link.WellFormed := by
  intro link member
  obtain ⟨source, inside, rfl⟩ := List.mem_map.mp member
  exact (valid source inside).emptied

theorem collapse_chain (isGroup : IsGroup first) (valid : ∀ link ∈ links, link.WellFormed)
    (tail : Text) :
    collapse (chain first links ++ tail) =
      chain ['(', ')'] (links.map Link.emptied) ++ collapse tail := by
  induction links generalizing first with
  | nil =>
    rw [chain, List.flatMap_nil, List.append_nil, isGroup.collapse_append]
    rfl
  | cons link links ih =>
    have here := valid link List.mem_cons_self
    have later := ih here.isGroup fun other member => valid other (List.mem_cons_of_mem _ member)
    have plain : '(' ∉ link.gap := fun member => absurd (here.blanks _ member) (by decide)
    rw [chain_cons, List.append_assoc, isGroup.collapse_append, List.append_assoc,
      collapse_append_of_plain plain, later, List.map_cons, chain_cons]
    simp [Link.emptied]

/-- A chain is split off whole, unless another group follows it. -/
theorem splitGroups_chain (isGroup : IsGroup first) (valid : ∀ link ∈ links, link.WellFormed)
    (last : (Text.trimStart tail).head? ≠ some '(') :
    splitGroups (chain first links ++ tail) = some (chain first links, tail) := by
  induction links generalizing first with
  | nil =>
    rw [chain, List.flatMap_nil, List.append_nil]
    apply splitGroups_of_last (isGroup.splitGroup_eq tail)
    intro more next
    apply last
    rw [Text.trimStart, next, List.head?_cons]
  | cons link links ih =>
    have here := valid link List.mem_cons_self
    have later := ih here.isGroup fun other member => valid other (List.mem_cons_of_mem _ member)
    obtain ⟨rest, next⟩ := here.isGroup.exists_chain_cons links
    have stop : ∀ c, (chain link.group links ++ tail).head? = some c → Text.isBlank c = false := by
      rw [next]
      exact Text.head?_cons_stop (by decide) _
    have behind : (link.gap ++ (chain link.group links ++ tail)).dropWhile Text.isBlank =
        '(' :: (rest ++ tail) := by
      rw [Text.dropWhile_append_stop here.blanks stop, next, List.cons_append]
    rw [next, List.cons_append] at later
    rw [chain_cons, List.append_assoc, List.append_assoc,
      splitGroups_of_next (isGroup.splitGroup_eq _) behind, later,
      Text.takeWhile_append_stop here.blanks stop, Option.map_some, next, List.append_assoc]

end Chain

end BasicOutline.Parenthesis
