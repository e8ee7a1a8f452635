import BasicOutline.Text.Utf8

/-! Encoded texts are decoded to themselves, and no other bytes are decoded. -/

namespace BasicOutline.Utf8

theorem toNat_byte {n : Nat} (small : n < 256) : (UInt8.ofNat n).toNat = n := by
  rw [UInt8.toNat_ofNat']
  exact Nat.mod_eq_of_lt small

theorem toNat_cases (c : Char) : c.toNat < 0xD800 ∨ 0xE000 ≤ c.toNat ∧ c.toNat < 0x110000 := by
  rcases c.valid with low | ⟨high, bound⟩
  · exact .inl low
  · exact .inr ⟨high, bound⟩

section Steps

variable {position n count missing low high bits : Nat} {first : UInt8} {rest : Bytes}

theorem decodeFrom_single (ascii : n < 0x80) :
    decodeFrom position none (UInt8.ofNat n :: rest) =
      (decodeFrom (position + 1) none rest).map (Char.ofNat n :: ·) := by
  rw [decodeFrom, toNat_byte (by omega), if_pos ascii]

theorem decodeFrom_first (least : 0x80 ≤ n) (byte : n < 256) {pending : Pending}
    (begins : beginChar (UInt8.ofNat n) = some pending) :
    decodeFrom position none (UInt8.ofNat n :: rest) = decodeFrom position (some pending) rest := by
  rw [decodeFrom, toNat_byte byte, if_neg (by omega), begins]
  rfl

theorem decodeFrom_middle (above : low ≤ n) (below : n ≤ high) (byte : n < 256) :
    decodeFrom position (some ⟨first, count, missing + 2, low, high, bits⟩)
        (UInt8.ofNat n :: rest) =
      decodeFrom position
        (some ⟨first, count + 1, missing + 1, 0x80, 0xBF, bits * 64 + (n - 0x80)⟩) rest := by
  rw [decodeFrom, toNat_byte byte, if_pos ⟨above, below⟩, if_neg (by simp), Pending.push,
    toNat_byte byte]
  rfl

theorem decodeFrom_last (c : Char) (above : low ≤ n) (below : n ≤ high) (byte : n < 256)
    (whole : bits * 64 + (n - 0x80) = c.toNat) :
    decodeFrom position (some ⟨first, count, 1, low, high, bits⟩) (UInt8.ofNat n :: rest) =
      (decodeFrom (position + count + 1) none rest).map (c :: ·) := by
  rw [decodeFrom, toNat_byte byte, if_pos ⟨above, below⟩, if_pos rfl, Pending.push,
    toNat_byte byte]
  simp only [whole, Char.ofNat_toNat]

theorem beginChar_two (least : 0xC2 ≤ n) (most : n < 0xE0) :
    beginChar (UInt8.ofNat n) = some ⟨UInt8.ofNat n, 1, 1, 0x80, 0xBF, n - 0xC0⟩ := by
  simp only [beginChar, toNat_byte (show n < 256 by omega)]
  rw [if_neg (by omega), if_pos most]

theorem beginChar_three (least : 0xE0 ≤ n) (most : n < 0xF0) :
    beginChar (UInt8.ofNat n) = some ⟨UInt8.ofNat n, 1, 2, if n = 0xE0 then 0xA0 else 0x80,
      if n = 0xED then 0x9F else 0xBF, n - 0xE0⟩ := by
  simp only [beginChar, toNat_byte (show n < 256 by omega)]
  rw [if_neg (by omega), if_neg (by omega), if_pos most]

theorem beginChar_four (least : 0xF0 ≤ n) (most : n < 0xF5) :
    beginChar (UInt8.ofNat n) = some ⟨UInt8.ofNat n, 1, 3, if n = 0xF0 then 0x90 else 0x80,
      if n = 0xF4 then 0x8F else 0xBF, n - 0xF0⟩ := by
  simp only [beginChar, toNat_byte (show n < 256 by omega)]
  rw [if_neg (by omega), if_neg (by omega), if_neg (by omega), if_pos most]

end Steps

/-- The bytes of a character are read as it. The bounds of the second byte are those that characters
keep, as none is a surrogate and none is past the last one. -/
theorem decodeFrom_char (position : Nat) (c : Char) (rest : Bytes) :
    ∃ next, decodeFrom position none (String.utf8EncodeChar c ++ rest) =
      (decodeFrom next none rest).map (c :: ·) := by
  have valid := toNat_cases c
  have value : c.val.toNat = c.toNat := rfl
  simp only [String.utf8EncodeChar, value]
  by_cases one : c.toNat ≤ 0x7F
  · rw [if_pos one, List.singleton_append, decodeFrom_single (by omega), Char.ofNat_toNat]
    exact ⟨_, rfl⟩
  · by_cases two : c.toNat ≤ 0x7FF
    · rw [if_neg one, if_pos two, List.cons_append, List.singleton_append,
        decodeFrom_first (by omega) (by omega) (beginChar_two (by omega) (by omega)),
        decodeFrom_last c (by omega) (by omega) (by omega) (by omega)]
      exact ⟨_, rfl⟩
    · by_cases three : c.toNat ≤ 0xFFFF
      · rw [if_neg one, if_neg two, if_pos three, List.cons_append, List.cons_append,
          List.singleton_append,
          decodeFrom_first (by omega) (by omega) (beginChar_three (by omega) (by omega)),
          decodeFrom_middle (by split <;> omega) (by split <;> omega) (by omega),
          decodeFrom_last c (by omega) (by omega) (by omega) (by omega)]
        exact ⟨_, rfl⟩
      · rw [if_neg one, if_neg two, if_neg three, List.cons_append, List.cons_append,
          List.cons_append, List.singleton_append,
          decodeFrom_first (by omega) (by omega) (beginChar_four (by omega) (by omega)),
          decodeFrom_middle (by split <;> omega) (by split <;> omega) (by omega),
          decodeFrom_middle (by omega) (by omega) (by omega),
          decodeFrom_last c (by omega) (by omega) (by omega) (by omega)]
        exact ⟨_, rfl⟩

theorem decodeFrom_encode (position : Nat) (t : Text) :
    decodeFrom position none (encode t) = .ok t := by
  induction t generalizing position with
  | nil => rfl
  | cons c rest ih =>
    obtain ⟨next, step⟩ := decodeFrom_char position c (encode rest)
    rw [encode, List.flatMap_cons, ← encode, step, ih]
    rfl

theorem decode_encode (t : Text) : decode (encode t) = .ok t := decodeFrom_encode 0 t

theorem toNat_ofNat_of_valid {n : Nat} (valid : n < 0xD800 ∨ 0xE000 ≤ n ∧ n < 0x110000) :
    (Char.ofNat n).toNat = n := by
  have legal : n.isValidChar := by
    rcases valid with low | ⟨high, bound⟩
    · exact .inl low
    · exact .inr ⟨by omega, bound⟩
  rw [Char.ofNat, dif_pos legal]
  rfl

theorem ofNat_eq_byte {n : Nat} {byte : UInt8} (same : n = byte.toNat) : UInt8.ofNat n = byte := by
  rw [same, UInt8.ofNat_toNat]

section Inversion

variable {position count missing low high bits : Nat} {first : UInt8} {bytes : Bytes} {t : Text}

theorem exists_last_byte
    (read : decodeFrom position (some ⟨first, count, 1, low, high, bits⟩) bytes = .ok t) :
    ∃ byte rest later next, bytes = byte :: rest ∧ low ≤ byte.toNat ∧ byte.toNat ≤ high ∧
      decodeFrom next none rest = .ok later ∧
      t = Char.ofNat (bits * 64 + (byte.toNat - 0x80)) :: later := by
  cases bytes with
  | nil => cases read
  | cons byte rest =>
    rw [decodeFrom] at read
    split at read
    · rename_i bounds
      rw [if_pos rfl] at read
      cases continued : decodeFrom (position + count + 1) none rest with
      | error fault =>
        rw [continued] at read
        cases read
      | ok later =>
        rw [continued] at read
        exact ⟨byte, rest, later, _, rfl, bounds.1, bounds.2, continued, (Except.ok.inj read).symm⟩
    · cases read

theorem exists_middle_byte
    (read : decodeFrom position (some ⟨first, count, missing + 2, low, high, bits⟩) bytes = .ok t) :
    ∃ byte rest, bytes = byte :: rest ∧ low ≤ byte.toNat ∧ byte.toNat ≤ high ∧
      decodeFrom position (some ⟨first, count + 1, missing + 1, 0x80, 0xBF,
        bits * 64 + (byte.toNat - 0x80)⟩) rest = .ok t := by
  cases bytes with
  | nil => cases read
  | cons byte rest =>
    rw [decodeFrom] at read
    split at read
    · rename_i bounds
      rw [if_neg (by simp)] at read
      exact ⟨byte, rest, rfl, bounds.1, bounds.2, read⟩
    · cases read

end Inversion

theorem beginChar_cases {byte : UInt8} {pending : Pending}
    (begins : beginChar byte = some pending) :
    let n := byte.toNat
    (0xC2 ≤ n ∧ n < 0xE0 ∧ pending = ⟨byte, 1, 1, 0x80, 0xBF, n - 0xC0⟩) ∨
    (0xE0 ≤ n ∧ n < 0xF0 ∧ pending = ⟨byte, 1, 2, if n = 0xE0 then 0xA0 else 0x80,
      if n = 0xED then 0x9F else 0xBF, n - 0xE0⟩) ∨
    (0xF0 ≤ n ∧ n < 0xF5 ∧ pending = ⟨byte, 1, 3, if n = 0xF0 then 0x90 else 0x80,
      if n = 0xF4 then 0x8F else 0xBF, n - 0xF0⟩) := by
  intro n
  simp only [beginChar] at begins
  by_cases low : n < 0xC2
  · rw [if_pos low] at begins
    cases begins
  · rw [if_neg low] at begins
    by_cases two : n < 0xE0
    · rw [if_pos two] at begins
      exact .inl ⟨by omega, two, (Option.some.inj begins).symm⟩
    · rw [if_neg two] at begins
      by_cases three : n < 0xF0
      · rw [if_pos three] at begins
        exact .inr (.inl ⟨by omega, three, (Option.some.inj begins).symm⟩)
      · rw [if_neg three] at begins
        by_cases four : n < 0xF5
        · rw [if_pos four] at begins
          exact .inr (.inr ⟨by omega, four, (Option.some.inj begins).symm⟩)
        · rw [if_neg four] at begins
          cases begins

section Encoded

variable {n : Nat}

theorem utf8EncodeChar_one (most : n ≤ 0x7F) :
    String.utf8EncodeChar (Char.ofNat n) = [UInt8.ofNat n] := by
  have value : (Char.ofNat n).val.toNat = n := toNat_ofNat_of_valid (by omega)
  simp only [String.utf8EncodeChar, value]
  rw [if_pos most]

theorem utf8EncodeChar_two (least : 0x7F < n) (most : n ≤ 0x7FF) :
    String.utf8EncodeChar (Char.ofNat n) =
      [UInt8.ofNat (n / 64 + 0xC0), UInt8.ofNat (n % 64 + 0x80)] := by
  have value : (Char.ofNat n).val.toNat = n := toNat_ofNat_of_valid (by omega)
  simp only [String.utf8EncodeChar, value]
  rw [if_neg (by omega), if_pos most, Nat.mod_eq_of_lt (by omega)]

theorem utf8EncodeChar_three (least : 0x7FF < n) (most : n ≤ 0xFFFF)
    (valid : n < 0xD800 ∨ 0xE000 ≤ n) :
    String.utf8EncodeChar (Char.ofNat n) =
      [UInt8.ofNat (n / 4096 + 0xE0), UInt8.ofNat (n / 64 % 64 + 0x80),
        UInt8.ofNat (n % 64 + 0x80)] := by
  have value : (Char.ofNat n).val.toNat = n := toNat_ofNat_of_valid (by omega)
  simp only [String.utf8EncodeChar, value]
  rw [if_neg (by omega), if_neg (by omega), if_pos most,
    Nat.mod_eq_of_lt (by omega : n / 4096 < 16)]

theorem utf8EncodeChar_four (least : 0xFFFF < n) (most : n < 0x110000) :
    String.utf8EncodeChar (Char.ofNat n) =
      [UInt8.ofNat (n / 262144 + 0xF0), UInt8.ofNat (n / 4096 % 64 + 0x80),
        UInt8.ofNat (n / 64 % 64 + 0x80), UInt8.ofNat (n % 64 + 0x80)] := by
  have value : (Char.ofNat n).val.toNat = n := toNat_ofNat_of_valid (by omega)
  simp only [String.utf8EncodeChar, value]
  rw [if_neg (by omega), if_neg (by omega), if_neg (by omega),
    Nat.mod_eq_of_lt (by omega : n / 262144 < 8)]

end Encoded

/-- What the bounds of a second byte come to: those of any later byte, and one more at either end.
-/
theorem second_bounds {n m lowest highest least most : Nat} (wide : 0x80 ≤ least)
    (high : most ≤ 0xBF) (above : (if n = lowest then least else 0x80) ≤ m)
    (below : m ≤ if n = highest then most else 0xBF) :
    0x80 ≤ m ∧ m ≤ 0xBF ∧ (n = lowest → least ≤ m) ∧ (n = highest → m ≤ most) := by
  split at above <;> split at below <;> omega

/-- The bytes begin with those of a character, and the reading of the others gives the rest. -/
def BeginsWithChar (bytes : Bytes) (t : Text) : Prop :=
  ∃ c rest later next, bytes = String.utf8EncodeChar c ++ rest ∧ t = c :: later ∧
    decodeFrom next none rest = .ok later

section Widths

variable {position : Nat} {byte : UInt8} {bytes : Bytes} {t : Text}

theorem beginsWithChar_two (least : 0xC2 ≤ byte.toNat) (most : byte.toNat < 0xE0)
    (read : decodeFrom position (some ⟨byte, 1, 1, 0x80, 0xBF, byte.toNat - 0xC0⟩) bytes = .ok t) :
    BeginsWithChar (byte :: bytes) t := by
  obtain ⟨last, rest, later, next, rfl, above, below, continued, rfl⟩ := exists_last_byte read
  refine ⟨_, rest, later, next, ?_, rfl, continued⟩
  rw [utf8EncodeChar_two (by omega) (by omega), ofNat_eq_byte (show _ = byte.toNat by omega),
    ofNat_eq_byte (show _ = last.toNat by omega)]
  rfl

/-- The bounds of the second byte keep what is read apart from the surrogates and from the
characters of fewer bytes. -/
theorem beginsWithChar_three (least : 0xE0 ≤ byte.toNat) (most : byte.toNat < 0xF0)
    (read : decodeFrom position (some ⟨byte, 1, 2, if byte.toNat = 0xE0 then 0xA0 else 0x80,
      if byte.toNat = 0xED then 0x9F else 0xBF, byte.toNat - 0xE0⟩) bytes = .ok t) :
    BeginsWithChar (byte :: bytes) t := by
  obtain ⟨second, more, rfl, low, high, continued⟩ := exists_middle_byte read
  obtain ⟨last, rest, later, next, rfl, above, below, finished, rfl⟩ := exists_last_byte continued
  have bounds := second_bounds (by decide) (by decide) low high
  refine ⟨_, rest, later, next, ?_, rfl, finished⟩
  rw [utf8EncodeChar_three (by omega) (by omega) (by omega),
    ofNat_eq_byte (show _ = byte.toNat by omega), ofNat_eq_byte (show _ = second.toNat by omega),
    ofNat_eq_byte (show _ = last.toNat by omega)]
  rfl

theorem beginsWithChar_four (least : 0xF0 ≤ byte.toNat) (most : byte.toNat < 0xF5)
    (read : decodeFrom position (some ⟨byte, 1, 3, if byte.toNat = 0xF0 then 0x90 else 0x80,
      if byte.toNat = 0xF4 then 0x8F else 0xBF, byte.toNat - 0xF0⟩) bytes = .ok t) :
    BeginsWithChar (byte :: bytes) t := by
  obtain ⟨second, more, rfl, low, high, continued⟩ := exists_middle_byte read
  obtain ⟨third, tail, rfl, lowest, highest, goes⟩ := exists_middle_byte continued
  obtain ⟨last, rest, later, next, rfl, above, below, finished, rfl⟩ := exists_last_byte goes
  have bounds := second_bounds (by decide) (by decide) low high
  refine ⟨_, rest, later, next, ?_, rfl, finished⟩
  rw [utf8EncodeChar_four (by omega) (by omega), ofNat_eq_byte (show _ = byte.toNat by omega),
    ofNat_eq_byte (show _ = second.toNat by omega), ofNat_eq_byte (show _ = third.toNat by omega),
    ofNat_eq_byte (show _ = last.toNat by omega)]
  rfl

theorem beginsWithChar_of_decodeFrom (read : decodeFrom position none (byte :: bytes) = .ok t) :
    BeginsWithChar (byte :: bytes) t := by
  rw [decodeFrom] at read
  by_cases ascii : byte.toNat < 0x80
  · rw [if_pos ascii] at read
    cases continued : decodeFrom (position + 1) none bytes with
    | error fault =>
      rw [continued] at read
      cases read
    | ok later =>
      rw [continued] at read
      refine ⟨Char.ofNat byte.toNat, bytes, later, _, ?_, (Except.ok.inj read).symm, continued⟩
      rw [utf8EncodeChar_one (by omega), UInt8.ofNat_toNat]
      rfl
  · rw [if_neg ascii] at read
    cases begins : beginChar byte with
    | none =>
      rw [begins] at read
      cases read
    | some pending =>
      rw [begins, Option.isSome_some, if_pos rfl] at read
      rcases beginChar_cases begins with ⟨least, most, rfl⟩ | ⟨least, most, rfl⟩ |
        ⟨least, most, rfl⟩
      · exact beginsWithChar_two least most read
      · exact beginsWithChar_three least most read
      · exact beginsWithChar_four least most read

end Widths

theorem encode_of_decodeFrom {position : Nat} {bytes : Bytes} {t : Text}
    (read : decodeFrom position none bytes = .ok t) : encode t = bytes := by
  induction t generalizing position bytes with
  | nil =>
    cases bytes with
    | nil => rfl
    | cons byte rest =>
      obtain ⟨c, _, later, _, _, impossible, _⟩ := beginsWithChar_of_decodeFrom read
      cases impossible
  | cons c later ih =>
    cases bytes with
    | nil => cases read
    | cons byte bytes =>
      obtain ⟨first, rest, others, next, whole, same, continued⟩ :=
        beginsWithChar_of_decodeFrom read
      obtain ⟨rfl, rfl⟩ := List.cons.inj same
      rw [whole, encode, List.flatMap_cons, ← encode, ih continued]

theorem decode_eq_ok_iff {bytes : Bytes} {t : Text} : decode bytes = .ok t ↔ encode t = bytes := by
  constructor
  · exact encode_of_decodeFrom
  · intro same
    rw [← same, decode_encode]

end BasicOutline.Utf8
