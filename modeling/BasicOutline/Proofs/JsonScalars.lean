import BasicOutline.Json.Reader
import BasicOutline.Json.Writer
import BasicOutline.Proofs.NumeralReading
import BasicOutline.Proofs.Utf8Reading

/-! Strings and integers of JSON texts are read back as they were written. -/

namespace BasicOutline.Json

open Text

section Strings

def units (c : Char) : List Nat :=
  if c.toNat < 0x10000 then [c.toNat]
  else [0xD800 + (c.toNat - 0x10000) / 0x400, 0xDC00 + (c.toNat - 0x10000) % 0x400]

theorem ofCodes_cons {code : Nat} (single : isHighSurrogate code = false) (codes : List Nat) :
    ofCodes (code :: codes) = charOfCode code :: ofCodes codes := by
  cases codes with
  | nil => rfl
  | cons next rest => rw [ofCodes, single, Bool.false_and, if_neg Bool.false_ne_true]

theorem ofCodes_units (t : Text) : ofCodes (t.flatMap units) = t := by
  induction t with
  | nil => rfl
  | cons c rest ih =>
    have valid := Utf8.toNat_cases c
    rw [List.flatMap_cons, units]
    split
    · have high : isHighSurrogate c.toNat = false := by
        simp [isHighSurrogate]
        omega
      have low : isLowSurrogate c.toNat = false := by
        simp [isLowSurrogate]
        omega
      rw [List.singleton_append, ofCodes_cons high, ih, charOfCode, high, low]
      simp
    · have high : isHighSurrogate (0xD800 + (c.toNat - 0x10000) / 0x400) = true := by
        simp [isHighSurrogate]
        omega
      have low : isLowSurrogate (0xDC00 + (c.toNat - 0x10000) % 0x400) = true := by
        simp [isLowSurrogate]
        omega
      have code : 0x10000 + (0xD800 + (c.toNat - 0x10000) / 0x400 - 0xD800) * 0x400 +
          (0xDC00 + (c.toNat - 0x10000) % 0x400 - 0xDC00) = c.toNat := by
        omega
      rw [List.cons_append, List.singleton_append, ofCodes, high, low, ih, charOfPair, code,
        Char.ofNat_toNat]
      rfl

theorem hexValue?_hexDigit {n : Nat} (small : n < 16) : hexValue? (hexDigit n) = some n := by
  have all : ∀ value < 16, hexValue? (hexDigit value) = some value := by decide
  exact all n small

/-- An escaped code unit is read. Something has to stand after it. -/
theorem readCodes_escapeUnit {n : Nat} (small : n < 0x10000) (opening : Text) (next : Char)
    (rest : Text) :
    readCodes opening (escapeUnit n ++ next :: rest) =
      (readCodes opening (next :: rest)).map fun read => (n :: read.1, read.2) := by
  have digits : hexDigits 4 n = [hexDigit (n / 16 / 16 / 16 % 16), hexDigit (n / 16 / 16 % 16),
      hexDigit (n / 16 % 16), hexDigit (n % 16)] := rfl
  have code : hexCode? (hexDigit (n / 16 / 16 / 16 % 16)) (hexDigit (n / 16 / 16 % 16))
      (hexDigit (n / 16 % 16)) (hexDigit (n % 16)) = some n := by
    have known : ∀ value, hexValue? (hexDigit (value % 16)) = some (value % 16) :=
      fun value => hexValue?_hexDigit (Nat.mod_lt _ (by decide))
    simp only [hexCode?, known, Option.bind_eq_bind, Option.bind_some, Option.pure_def,
      Option.some.injEq]
    omega
  rw [escapeUnit, digits]
  simp only [List.cons_append, List.nil_append]
  rw [readCodes, code]

theorem readCodes_plain {c : Char} (quote : c ≠ '"') (escape : c ≠ '\\') (visible : 32 ≤ c.toNat)
    (opening rest : Text) :
    readCodes opening (c :: rest) =
      (readCodes opening rest).map fun read => (c.toNat :: read.1, read.2) := by
  rw [readCodes]
  · rw [if_neg (by omega)]
  · exact quote
  · exact fun same _ => escape same
  · exact fun _ _ _ _ _ _ same => absurd same escape
  · exact fun _ same => absurd same escape
  · exact fun _ _ same => absurd same escape

theorem readCodes_escaped {c plain : Char} (other : c ≠ 'u') (known : escaped? c = some plain)
    (opening rest : Text) :
    readCodes opening ('\\' :: c :: rest) =
      (readCodes opening rest).map fun read => (plain.toNat :: read.1, read.2) := by
  rw [readCodes]
  · rw [known]
  · intro _ _ _ _ _ _ same
    exact absurd same other
  · exact other

theorem readCodes_writeChar (opening : Text) (c next : Char) (rest : Text) :
    readCodes opening (writeChar c ++ next :: rest) =
      (readCodes opening (next :: rest)).map fun read => (units c ++ read.1, read.2) := by
  by_cases special : c ∈ ['"', '\\', '\n', '\r', '\t', '\x08', '\x0c']
  · simp only [List.mem_cons, List.not_mem_nil, or_false] at special
    rcases special with rfl | rfl | rfl | rfl | rfl | rfl | rfl <;>
      exact readCodes_escaped (by decide) rfl opening (next :: rest)
  · simp only [List.mem_cons, List.not_mem_nil, or_false, not_or] at special
    have written : writeChar c = if 32 ≤ c.toNat ∧ c.toNat < 127 then [c]
        else (units c).flatMap escapeUnit := by
      simp [writeChar, special, units]
      congr 1
      split <;> simp
    rw [written]
    split
    · rename_i visible
      rw [List.singleton_append, readCodes_plain special.1 special.2.1 visible.1, units,
        if_pos (by omega)]
      rfl
    · have valid := Utf8.toNat_cases c
      unfold units
      split
      · rw [List.flatMap_singleton, readCodes_escapeUnit (by omega)]
        rfl
      · rw [List.flatMap_cons, List.flatMap_singleton, List.append_assoc]
        generalize high_eq : 0xD800 + (c.toNat - 0x10000) / 0x400 = high
        generalize low_eq : 0xDC00 + (c.toNat - 0x10000) % 0x400 = low
        have second : escapeUnit low ++ next :: rest =
            '\\' :: ('u' :: hexDigits 4 low ++ next :: rest) := rfl
        rw [second, readCodes_escapeUnit (by omega), ← second, readCodes_escapeUnit (by omega)]
        cases readCodes opening (next :: rest) <;> rfl

theorem readCodes_written (opening t rest : Text) :
    readCodes opening (t.flatMap writeChar ++ '"' :: rest) = .ok (t.flatMap units, rest) := by
  induction t with
  | nil => rw [List.flatMap_nil, List.nil_append, readCodes, List.flatMap_nil]
  | cons c more ih =>
    obtain ⟨next, tail, follows⟩ := List.exists_cons_of_ne_nil
      (show more.flatMap writeChar ++ '"' :: rest ≠ [] by simp)
    rw [List.flatMap_cons, List.append_assoc, follows, readCodes_writeChar, ← follows, ih]
    rfl

theorem readString_written (t rest : Text) :
    readString (writeString t ++ rest) = .ok (t, rest) := by
  have body : (writeString t ++ rest).tail = t.flatMap writeChar ++ '"' :: rest := by
    simp [writeString]
  rw [readString, body, readCodes_written]
  simp only [Except.map, ofCodes_units]

end Strings

section Numbers

def stops : List Char := [' ', '\t', '\n', '\r', ',', ']', '\x7d']

def Ends (rest : Text) : Prop := ∀ c, rest.head? = some c → c ∈ stops

variable {rest : Text}

theorem splitFraction_of_ends (ends : Ends rest) : splitFraction rest = ([], rest) := by
  unfold splitFraction
  split
  · exact absurd (ends '.' rfl) (by decide)
  · rfl

theorem splitExponent_of_ends (ends : Ends rest) : splitExponent rest = (none, rest) := by
  cases rest with
  | nil => rfl
  | cons c more =>
    have marks : stops.all (fun stop => !(stop == 'e' || stop == 'E')) = true := by decide
    have other := List.all_eq_true.mp marks c (ends c rfl)
    rw [Bool.not_eq_true'] at other
    simp [splitExponent, other]

theorem readNumber_digits (negative : Bool) {m : Nat}
    (short : (natDigits m).length ≤ digitLimit) (ends : Ends rest) :
    readNumber ((if negative then ['-'] else []) ++ natDigits m ++ rest) =
      .ok (.int (signed negative m), rest) := by
  have digit : ∀ c ∈ natDigits m, c.isDigit = true := forall_mem_natDigits (by decide) m
  have stop : ∀ c, rest.head? = some c → c.isDigit = false := by
    have all : stops.all (fun stop => !stop.isDigit) = true := by decide
    intro c head
    simpa using List.all_eq_true.mp all c (ends c head)
  have value := digitsOf_natDigits m
  have take := takeWhile_append_stop digit stop
  have drop := dropWhile_append_stop digit stop
  rcases natDigits_cases m with zero | ⟨c, more, digits, other⟩
  · rw [zero] at value ⊢
    cases negative <;> rw [readNumber.eq_def] <;>
      simp [splitFraction_of_ends ends, splitExponent_of_ends ends, value, digitLimit]
  · rw [digits] at digit value take drop short ⊢
    have first := digit c List.mem_cons_self
    have unsigned : c ≠ '-' := by
      rintro rfl
      exact absurd first (by decide)
    simp only [List.cons_append] at take drop
    cases negative <;> rw [readNumber.eq_def] <;>
      simpa [take, drop, splitFraction_of_ends ends, splitExponent_of_ends ends, value, other,
        unsigned] using short

theorem readNumber_numeral {n : Int} (short : (natDigits n.natAbs).length ≤ digitLimit)
    (ends : Ends rest) : readNumber (numeral n ++ rest) = .ok (.int n, rest) := by
  cases n with
  | ofNat m => exact readNumber_digits false short ends
  | negSucc m => exact readNumber_digits true short ends

end Numbers

end BasicOutline.Json
