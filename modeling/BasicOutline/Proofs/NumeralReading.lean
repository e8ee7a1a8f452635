import BasicOutline.Proofs.TextSpans
import BasicOutline.Text.Numeral
import Mathlib.Algebra.Group.Nat.Defs

/-! Which texts are read as integers.

The grammar of integers stands beside the reader, and the reader accepts exactly the texts of the
grammar. The canonical numeral of an integer is one of them. -/

namespace BasicOutline.Text

inductive Digits : List Nat → Text → Prop where
  | last {c : Char} {value : Nat} (digit : digitValue? c = some value) : Digits [value] [c]
  | next {c : Char} {value : Nat} {values : List Nat} {rest : Text}
      (digit : digitValue? c = some value) (more : Digits values rest) :
      Digits (value :: values) (c :: rest)
  | grouped {c : Char} {value : Nat} {values : List Nat} {rest : Text}
      (digit : digitValue? c = some value) (more : Digits values rest) :
      Digits (value :: values) (c :: '_' :: rest)

inductive Sign : Bool → Text → Prop where
  | none : Sign false []
  | plus : Sign false ['+']
  | minus : Sign true ['-']

/-- The text writes the integer: `space` characters around a sign and digits that are not too
many. -/
def Writes (space : Char → Bool) (t : Text) (n : Int) : Prop :=
  ∃ before sign digits after negative values,
    t = before ++ sign ++ digits ++ after ∧ (∀ c ∈ before, space c = true) ∧
      (∀ c ∈ after, space c = true) ∧ Sign negative sign ∧ Digits values digits ∧
      values.length ≤ digitLimit ∧ n = signed negative (ofDigits values)

section Characters

variable {c : Char}

theorem digitValue?_of_isBlank (blank : isBlank c = true) : digitValue? c = none := by
  have all : ∀ code ∈ blankCodes, digitValue? (Char.ofNat code) = none := by decide +kernel
  have value := all c.toNat (mem_blankCodes blank)
  rwa [Char.ofNat_toNat] at value

theorem isSpace_of_digit {value : Nat} (digit : digitValue? c = some value) :
    isSpace c = false := by
  cases space : isSpace c with
  | false => rfl
  | true =>
    rw [digitValue?_of_isBlank (isBlank_of_isSpace space)] at digit
    cases digit

theorem ne_of_digit {mark : Char} (other : digitValue? mark = none) {value : Nat}
    (digit : digitValue? c = some value) : c ≠ mark := by
  intro same
  rw [same, other] at digit
  cases digit

theorem digitValue?_lt {value : Nat} (digit : digitValue? c = some value) : value < 10 := by
  unfold digitValue? at digit
  obtain ⟨least, found, same⟩ := Option.map_eq_some_iff.mp digit
  have inside := List.find?_some found
  simp only [Bool.and_eq_true, decide_eq_true_eq] at inside
  omega

theorem digitValue?_digitChar {value : Nat} (small : value < 10) :
    digitValue? (digitChar value) = some value := by
  have all : ∀ v < 10, digitValue? (digitChar v) = some v := by decide +kernel
  exact all value small

end Characters

section Taking

theorem takeMoreDigits_cons {c : Char} (plain : c ≠ '_') (rest : Text) :
    takeMoreDigits digitValue? (c :: rest) = takeDigits digitValue? (c :: rest) := by
  rw [takeMoreDigits, takeDigits]
  · exact plain
  · intro same _
    exact plain same
  · intro _ _ same _
    exact plain same

theorem takeDigits_digit {c : Char} {value : Nat} (digit : digitValue? c = some value)
    (rest : Text) : takeDigits digitValue? (c :: rest) =
      (takeMoreDigits digitValue? rest).map fun taken => (value :: taken.1, taken.2) := by
  rw [takeDigits]
  · rw [digit]
  · exact ne_of_digit (by decide) digit

theorem Digits.exists_cons {values : List Nat} {t : Text} (run : Digits values t) :
    ∃ c rest value, t = c :: rest ∧ digitValue? c = some value := by
  cases run with
  | last digit => exact ⟨_, _, _, rfl, digit⟩
  | next digit more => exact ⟨_, _, _, rfl, digit⟩
  | grouped digit more => exact ⟨_, _, _, rfl, digit⟩

theorem Digits.takeDigits_eq {values : List Nat} {t rest : Text} (run : Digits values t)
    (stop : ∀ c, rest.head? = some c → digitValue? c = none ∧ c ≠ '_') :
    takeDigits digitValue? (t ++ rest) = some (values, rest) := by
  induction run with
  | last digit =>
    have ended : takeMoreDigits digitValue? rest = some ([], rest) := by
      cases rest with
      | nil => rfl
      | cons c more =>
        obtain ⟨none_here, plain⟩ := stop c rfl
        rw [takeMoreDigits_cons plain, takeDigits]
        · rw [none_here]
        · exact plain
    rw [List.singleton_append, takeDigits_digit digit, ended]
    rfl
  | next digit more ih =>
    obtain ⟨d, tail, value, whole, following⟩ := more.exists_cons
    have continued := ih
    rw [whole, List.cons_append, ← takeMoreDigits_cons (ne_of_digit (by decide) following),
      ← List.cons_append, ← whole] at continued
    rw [List.cons_append, takeDigits_digit digit, continued]
    rfl
  | grouped digit more ih =>
    obtain ⟨d, tail, value, whole, following⟩ := more.exists_cons
    have continued := ih
    rw [whole, List.cons_append, takeDigits_digit following] at continued
    rw [List.cons_append, takeDigits_digit digit, whole, List.cons_append, List.cons_append,
      takeMoreDigits, following]
    simp only [continued]
    rfl

theorem digits_of_takeMoreDigits {t rest : Text} {values : List Nat}
    (taken : takeMoreDigits digitValue? t = some (values, rest)) {c : Char} {value : Nat}
    (digit : digitValue? c = some value) :
    ∃ more, t = more ++ rest ∧ Digits (value :: values) (c :: more) := by
  fun_induction takeMoreDigits digitValue? t generalizing values c value with
  | case1 =>
    obtain ⟨rfl, rfl⟩ := Prod.mk.inj (Option.some.inj taken)
    exact ⟨[], rfl, .last digit⟩
  | case2 => cases taken
  | case3 => cases taken
  | case4 d tail inner following ih =>
    obtain ⟨⟨later, left⟩, found, same⟩ := Option.map_eq_some_iff.mp taken
    obtain ⟨rfl, rfl⟩ := Prod.mk.inj same
    obtain ⟨more, rfl, run⟩ := ih found following
    exact ⟨'_' :: d :: more, rfl, .grouped digit run⟩
  | case5 d tail _ _ none_here =>
    obtain ⟨rfl, rfl⟩ := Prod.mk.inj (Option.some.inj taken)
    exact ⟨[], rfl, .last digit⟩
  | case6 d tail _ _ inner following ih =>
    obtain ⟨⟨later, left⟩, found, same⟩ := Option.map_eq_some_iff.mp taken
    obtain ⟨rfl, rfl⟩ := Prod.mk.inj same
    obtain ⟨more, rfl, run⟩ := ih found following
    exact ⟨d :: more, rfl, .next digit run⟩

theorem digits_of_takeDigits {t rest : Text} {value : Nat} {values : List Nat}
    (taken : takeDigits digitValue? t = some (value :: values, rest)) :
    ∃ digits, t = digits ++ rest ∧ Digits (value :: values) digits := by
  unfold takeDigits at taken
  split at taken
  · cases taken
  · cases taken
  · rename_i c tail _
    split at taken
    · cases taken
    · rename_i here digit
      obtain ⟨⟨later, left⟩, found, same⟩ := Option.map_eq_some_iff.mp taken
      simp only [Prod.mk.injEq, List.cons.injEq] at same
      obtain ⟨⟨rfl, rfl⟩, rfl⟩ := same
      obtain ⟨more, rfl, run⟩ := digits_of_takeMoreDigits found digit
      exact ⟨c :: more, rfl, run⟩

end Taking

section Reading

theorem splitSign_sign {negative : Bool} {sign : Text} (written : Sign negative sign)
    {values : List Nat} {digits : Text} (run : Digits values digits) (rest : Text) :
    splitSign (sign ++ (digits ++ rest)) = (negative, digits ++ rest) := by
  cases written with
  | none =>
    obtain ⟨c, tail, value, rfl, digit⟩ := run.exists_cons
    rw [List.nil_append, List.cons_append, splitSign]
    · intro _ same
      exact ne_of_digit (by decide) digit (List.cons.inj same).1
    · intro _ same
      exact ne_of_digit (by decide) digit (List.cons.inj same).1
  | plus => rfl
  | minus => rfl

theorem exists_sign (t : Text) :
    ∃ sign, t = sign ++ (splitSign t).2 ∧ Sign (splitSign t).1 sign := by
  unfold splitSign
  split
  · exact ⟨['+'], rfl, .plus⟩
  · exact ⟨['-'], rfl, .minus⟩
  · exact ⟨[], rfl, .none⟩

theorem readInt_of_takeDigits {t rest : Text} {value : Nat} {values : List Nat}
    (taken : takeDigits digitValue? (splitSign (t.dropWhile isSpace)).2 =
      some (value :: values, rest)) :
    readInt t =
      if digitLimit < (value :: values).length then .error (.tooLong (value :: values).length)
      else if rest.dropWhile isSpace = [] then
        .ok (signed (splitSign (t.dropWhile isSpace)).1 (ofDigits (value :: values)))
      else .error .malformed := by
  unfold readInt
  simp only [taken]

theorem readInt_of_writes {t : Text} {n : Int} (written : Writes isSpace t n) :
    readInt t = .ok n := by
  obtain ⟨before, sign, digits, after, negative, values, rfl, leading, trailing, signs, run, short,
    rfl⟩ := written
  have stop : ∀ c, (sign ++ (digits ++ after)).head? = some c → isSpace c = false := by
    intro c head
    cases signs with
    | none =>
      obtain ⟨d, tail, value, rfl, digit⟩ := run.exists_cons
      obtain rfl := Option.some.inj head
      exact isSpace_of_digit digit
    | plus =>
      obtain rfl := Option.some.inj head
      decide
    | minus =>
      obtain rfl := Option.some.inj head
      decide
  have ends : ∀ c, after.head? = some c → digitValue? c = none ∧ c ≠ '_' := by
    intro c head
    have space := trailing c (List.mem_of_mem_head? head)
    refine ⟨digitValue?_of_isBlank (isBlank_of_isSpace space), ?_⟩
    intro same
    rw [same] at space
    cases space
  have trimmed : after.dropWhile isSpace = [] := List.dropWhile_eq_nil_iff.mpr trailing
  have signed_digits : splitSign ((before ++ sign ++ digits ++ after).dropWhile isSpace) =
      (negative, digits ++ after) := by
    rw [List.append_assoc, List.append_assoc, dropWhile_append_stop leading stop,
      splitSign_sign signs run]
  have taken := run.takeDigits_eq ends
  cases values with
  | nil => cases run
  | cons value values =>
    have known := readInt_of_takeDigits (t := before ++ sign ++ digits ++ after)
      (by rw [signed_digits]; exact taken)
    rw [known, signed_digits, if_neg (Nat.not_lt.mpr short), if_pos trimmed]

theorem writes_of_readInt {t : Text} {n : Int} (read : readInt t = .ok n) : Writes isSpace t n := by
  obtain ⟨sign, whole, written⟩ := exists_sign (t.dropWhile isSpace)
  cases taken : takeDigits digitValue? (splitSign (t.dropWhile isSpace)).2 with
  | none =>
    unfold readInt at read
    simp only [taken] at read
    cases read
  | some result =>
    obtain ⟨values, rest⟩ := result
    cases values with
    | nil =>
      unfold readInt at read
      simp only [taken] at read
      cases read
    | cons value values =>
      rw [readInt_of_takeDigits taken] at read
      split at read
      · cases read
      · rename_i short
        split at read
        · rename_i trimmed
          obtain ⟨digits, body, run⟩ := digits_of_takeDigits taken
          refine ⟨t.takeWhile isSpace, sign, digits, rest, _, value :: values, ?_,
            keep_of_mem_takeWhile, List.dropWhile_eq_nil_iff.mp trimmed, written, run,
            Nat.le_of_not_lt short, (Except.ok.inj read).symm⟩
          calc
            t = t.takeWhile isSpace ++ t.dropWhile isSpace := List.takeWhile_append_dropWhile.symm
            _ = t.takeWhile isSpace ++ (sign ++ (digits ++ rest)) := by rw [← body, ← whole]
            _ = t.takeWhile isSpace ++ sign ++ digits ++ rest := by simp
        · cases read

/-- The reader accepts exactly the texts that write an integer. -/
theorem readInt_eq_ok_iff {t : Text} {n : Int} : readInt t = .ok n ↔ Writes isSpace t n :=
  ⟨writes_of_readInt, readInt_of_writes⟩

end Reading

section Canonical

theorem Digits.concat {values : List Nat} {t : Text} (run : Digits values t) {c : Char}
    {value : Nat} (digit : digitValue? c = some value) : Digits (values ++ [value]) (t ++ [c]) := by
  induction run with
  | last first => exact .next first (.last digit)
  | next first more ih => exact .next first ih
  | grouped first more ih => exact .grouped first ih

theorem ofDigits_concat (values : List Nat) (value : Nat) :
    ofDigits (values ++ [value]) = 10 * ofDigits values + value := by
  rw [ofDigits, ofDigits, List.foldl_append]
  rfl

theorem exists_digits_natDigits (n : Nat) :
    ∃ values, Digits values (natDigits n) ∧ ofDigits values = n ∧
      values.length = (natDigits n).length := by
  fun_induction natDigits n with
  | case1 n small =>
    refine ⟨[n], .last (digitValue?_digitChar small), ?_, rfl⟩
    simp [ofDigits]
  | case2 n large ih =>
    obtain ⟨values, run, value_eq, length_eq⟩ := ih
    refine ⟨values ++ [n % 10], run.concat (digitValue?_digitChar (by omega)), ?_, ?_⟩
    · rw [ofDigits_concat, value_eq]
      omega
    · simp [length_eq]

theorem writes_numeral {n : Int} (short : (natDigits n.natAbs).length ≤ digitLimit) :
    Writes isSpace (numeral n) n := by
  obtain ⟨values, run, value_eq, length_eq⟩ := exists_digits_natDigits n.natAbs
  cases n with
  | ofNat n =>
    refine ⟨[], [], natDigits n, [], false, values, by simp [numeral], nofun, nofun, .none, run,
      by omega, ?_⟩
    rw [value_eq]
    rfl
  | negSucc n =>
    refine ⟨[], ['-'], natDigits (n + 1), [], true, values, by simp [numeral], nofun, nofun, .minus,
      run, by omega, ?_⟩
    rw [value_eq]
    rfl

theorem Digits.lt {values : List Nat} {t : Text} (run : Digits values t) :
    ∀ value ∈ values, value < 10 := by
  induction run with
  | last digit => simp [digitValue?_lt digit]
  | next digit more ih | grouped digit more ih =>
    intro value member
    rcases List.mem_cons.mp member with rfl | later
    · exact digitValue?_lt digit
    · exact ih value later

theorem foldl_digits_lt {values : List Nat} (small : ∀ value ∈ values, value < 10) (n : Nat) :
    values.foldl (fun n value => 10 * n + value) n < (n + 1) * 10 ^ values.length := by
  induction values generalizing n with
  | nil => simp
  | cons value rest ih =>
    have here := small value List.mem_cons_self
    have later := ih (fun other member => small other (List.mem_cons_of_mem _ member))
      (10 * n + value)
    calc
      (value :: rest).foldl (fun n value => 10 * n + value) n
          < (10 * n + value + 1) * 10 ^ rest.length := later
      _ ≤ ((n + 1) * 10) * 10 ^ rest.length := Nat.mul_le_mul_right _ (by omega)
      _ = (n + 1) * 10 ^ (value :: rest).length := by
        rw [List.length_cons, Nat.pow_succ, Nat.mul_assoc, Nat.mul_comm 10]

theorem length_natDigits_le {n width : Nat} (positive : 0 < width) (small : n < 10 ^ width) :
    (natDigits n).length ≤ width := by
  fun_induction natDigits n generalizing width with
  | case1 n single => exact positive
  | case2 n large ih =>
    cases width with
    | zero => cases positive
    | succ width =>
      have wider : 0 < width := by
        by_contra narrow
        obtain rfl : width = 0 := by omega
        omega
      rw [Nat.pow_succ] at small
      have shorter := ih wider (Nat.div_lt_of_lt_mul (by omega))
      rw [List.length_append, List.length_singleton]
      omega

theorem length_natDigits_of_writes {space : Char → Bool} {t : Text} {n : Int}
    (written : Writes space t n) : (natDigits n.natAbs).length ≤ digitLimit := by
  obtain ⟨before, sign, digits, after, negative, values, -, -, -, -, run, short, rfl⟩ := written
  have magnitude : (signed negative (ofDigits values)).natAbs = ofDigits values := by
    cases negative <;> simp [signed]
  have positive : 0 < values.length := by
    cases run <;> simp
  have small : ofDigits values < 10 ^ values.length := by
    have bound := foldl_digits_lt run.lt 0
    rw [Nat.zero_add, Nat.one_mul] at bound
    exact bound
  rw [magnitude]
  exact Nat.le_trans (length_natDigits_le positive small) short

theorem Digits.not_mem {values : List Nat} {t : Text} (run : Digits values t) {mark : Char}
    (other : digitValue? mark = none) (plain : mark ≠ '_') : mark ∉ t := by
  induction run with
  | last digit =>
    intro member
    exact ne_of_digit other digit (List.mem_singleton.mp member).symm
  | next digit more ih =>
    intro member
    rcases List.mem_cons.mp member with here | later
    · exact ne_of_digit other digit here.symm
    · exact ih later
  | grouped digit more ih =>
    intro member
    rcases List.mem_cons.mp member with here | later
    · exact ne_of_digit other digit here.symm
    · rcases List.mem_cons.mp later with group | rest
      · exact plain group
      · exact ih rest

theorem not_mem_numeral {mark : Char} (other : digitValue? mark = none) (plain : mark ≠ '_')
    (sign : mark ≠ '-') (n : Int) : mark ∉ numeral n := by
  cases n with
  | ofNat n =>
    obtain ⟨values, run, -⟩ := exists_digits_natDigits n
    exact run.not_mem other plain
  | negSucc n =>
    obtain ⟨values, run, -⟩ := exists_digits_natDigits (n + 1)
    intro member
    rcases List.mem_cons.mp member with minus | inside
    · exact sign minus
    · exact run.not_mem other plain inside

theorem forall_mem_natDigits {P : Char → Prop} (each : ∀ value < 10, P (digitChar value))
    (n : Nat) : ∀ c ∈ natDigits n, P c := by
  fun_induction natDigits n with
  | case1 n small => simpa using each n small
  | case2 n large ih =>
    intro c member
    rcases List.mem_append.mp member with before | last
    · exact ih c before
    · exact List.mem_singleton.mp last ▸ each _ (Nat.mod_lt _ (by decide))

theorem digitsOf_natDigits (n : Nat) : digitsOf (natDigits n) = n := by
  have each : ∀ value < 10, (digitChar value).toNat - 48 = value := by decide
  fun_induction natDigits n with
  | case1 n small => simp [digitsOf, ofDigits, each n small]
  | case2 n large ih =>
    rw [digitsOf, List.map_append, List.map_singleton, ofDigits_concat, ← digitsOf, ih,
      each _ (Nat.mod_lt _ (by decide))]
    omega

/-- No zero stands before other digits. -/
theorem natDigits_cases (n : Nat) :
    natDigits n = ['0'] ∨ ∃ c rest, natDigits n = c :: rest ∧ c ≠ '0' := by
  have each : ∀ value < 10, value = 0 ∨ digitChar value ≠ '0' := by decide
  fun_induction natDigits n with
  | case1 n small =>
    rcases each n small with rfl | other
    · exact .inl rfl
    · exact .inr ⟨_, _, rfl, other⟩
  | case2 n large ih =>
    right
    rcases ih with zero | ⟨c, rest, digits, other⟩
    · have value := digitsOf_natDigits (n / 10)
      rw [zero] at value
      have none_left : n / 10 = 0 := value.symm
      omega
    · rw [digits]
      exact ⟨c, rest ++ [digitChar (n % 10)], rfl, other⟩

theorem exists_natDigits_eq_cons (n : Nat) : ∃ c rest, natDigits n = c :: rest := by
  rcases natDigits_cases n with zero | ⟨c, rest, digits, -⟩
  · exact ⟨_, _, zero⟩
  · exact ⟨c, rest, digits⟩

end Canonical

end BasicOutline.Text
