import BasicOutline.Proofs.NumeralReading
import BasicOutline.Record

/-! Entries and records.

The text of a record may hold separators, but its line and its kind never do. So the last two
separators of an entry divide it, and an entry that was written is read back. Reading accepts more
numerals than writing produces. -/

namespace BasicOutline.Record

open Text

/-- The entry divided at its last two separators. -/
structure Parted (entry display line kind : Text) : Prop where
  whole : entry = display ++ separator :: line ++ separator :: kind
  line_plain : separator ∉ line
  kind_plain : separator ∉ kind

section Splitting

theorem splitLast?_append {before after : Text} (plain : separator ∉ after) :
    splitLast? (before ++ separator :: after) = some (before, after) := by
  have kept : ∀ c ∈ after.reverse, (c != separator) = true := by
    intro c member
    have different : c ≠ separator := fun same => plain (same ▸ List.mem_reverse.mp member)
    simpa using different
  have reversed : (before ++ separator :: after).reverse =
      after.reverse ++ separator :: before.reverse := by
    simp
  have stop : ∀ c, (separator :: before.reverse).head? = some c → (c != separator) = false := by
    intro c head
    rw [← Option.some.inj head]
    rfl
  rw [splitLast?, reversed, dropWhile_append_stop kept stop, takeWhile_append_stop kept stop]
  simp

theorem splitLast?_of_not_mem {t : Text} (absent : separator ∉ t) : splitLast? t = none := by
  have empty : t.reverse.dropWhile (· != separator) = [] := by
    rw [List.dropWhile_eq_nil_iff]
    intro c member
    have different : c ≠ separator := fun same => absent (same ▸ List.mem_reverse.mp member)
    simpa using different
  rw [splitLast?, empty]

theorem exists_last_separator {t : Text} (present : separator ∈ t) :
    ∃ before after, t = before ++ separator :: after ∧ separator ∉ after := by
  obtain ⟨after, before, reversed, plain⟩ :=
    List.eq_append_cons_of_mem (List.mem_reverse.mpr present)
  refine ⟨before.reverse, after.reverse, ?_, fun member => plain (List.mem_reverse.mp member)⟩
  have whole := congrArg List.reverse reversed
  rw [List.reverse_reverse, List.reverse_append, List.reverse_cons, List.append_assoc] at whole
  exact whole

theorem Parted.parts_eq {entry display line kind : Text} (parted : Parted entry display line kind) :
    parts entry = .ok (display, line, kind) := by
  rw [parts, parted.whole, splitLast?_append parted.kind_plain]
  simp only [splitLast?_append parted.line_plain]

theorem Parted.unique {entry display line kind other numeral name : Text}
    (parted : Parted entry display line kind) (again : Parted entry other numeral name) :
    display = other ∧ line = numeral ∧ kind = name := by
  have same := parted.parts_eq.symm.trans again.parts_eq
  simpa using Except.ok.inj same

theorem Parted.two_le_count {entry display line kind : Text}
    (parted : Parted entry display line kind) : 2 ≤ entry.count separator := by
  rw [parted.whole]
  simp only [List.count_append, List.count_cons_self]
  omega

theorem parted_or_missing (entry : Text) :
    (∃ display line kind, Parted entry display line kind) ∨
      entry.count separator < 2 ∧
        parts entry = .error (.missingParts (entry.count separator + 1)) := by
  by_cases present : separator ∈ entry
  · obtain ⟨before, kind, rfl, kind_plain⟩ := exists_last_separator present
    have kind_count : kind.count separator = 0 := List.count_eq_zero.mpr kind_plain
    by_cases another : separator ∈ before
    · obtain ⟨display, line, rfl, line_plain⟩ := exists_last_separator another
      exact .inl ⟨display, line, kind, rfl, line_plain, kind_plain⟩
    · have count_eq : (before ++ separator :: kind).count separator = 1 := by
        simp [List.count_eq_zero.mpr another, kind_count]
      right
      rw [count_eq, parts, splitLast?_append kind_plain]
      simp only [splitLast?_of_not_mem another]
      decide
  · right
    have none_there : entry.count separator = 0 := List.count_eq_zero.mpr present
    rw [none_there, parts, splitLast?_of_not_mem present]
    decide

end Splitting

section Reading

variable {entry display line kind : Text}

theorem Parted.ofEntry_of_error (parted : Parted entry display line kind)
    (unwritten : ¬ ∃ n, Writes isSpace line n) :
    ofEntry entry = .error (.malformedLine line) ∨
      ∃ digits, ofEntry entry = .error (.lineTooLong digits) := by
  rw [ofEntry, parted.parts_eq]
  cases read : readInt line with
  | ok n => exact absurd ⟨n, readInt_eq_ok_iff.mp read⟩ unwritten
  | error failure =>
    cases failure with
    | malformed => exact .inl (by simp only [read])
    | tooLong digits => exact .inr ⟨digits, by simp only [read]⟩

theorem Parted.ofEntry_of_name (parted : Parted entry display line kind) {n : Int}
    (written : Writes isSpace line n) {known : Kind} (name : known.name = kind) :
    ofEntry entry = .ok ⟨display, n, known⟩ := by
  rw [ofEntry, parted.parts_eq]
  simp only [readInt_eq_ok_iff.mpr written, ← name, Kind.ofName?_name]

theorem Parted.ofEntry_of_unknown (parted : Parted entry display line kind) {n : Int}
    (written : Writes isSpace line n) (unknown : ∀ known : Kind, known.name ≠ kind) :
    ofEntry entry = .error (.unknownKind kind) := by
  have nameless : Kind.ofName? kind = none := by
    rw [Kind.ofName?, List.find?_eq_none]
    intro known _
    simpa using unknown known
  rw [ofEntry, parted.parts_eq]
  simp only [readInt_eq_ok_iff.mpr written, nameless]

theorem ofEntry_of_missing {found : Nat} (missing : parts entry = .error (.missingParts found)) :
    ofEntry entry = .error (.missingParts found) := by
  rw [ofEntry, missing]

end Reading

/-- What becomes of an entry, one rule for each check in their order. -/
inductive Outcome (entry : Text) : Except EntryError Record → Prop where
  | missing (few : entry.count separator < 2) :
      Outcome entry (.error (.missingParts (entry.count separator + 1)))
  | malformed {display line kind : Text} (parted : Parted entry display line kind)
      (unwritten : ¬ ∃ n, Writes isSpace line n) : Outcome entry (.error (.malformedLine line))
  | tooLong {display line kind : Text} (parted : Parted entry display line kind)
      (unwritten : ¬ ∃ n, Writes isSpace line n) (digits : Nat) :
      Outcome entry (.error (.lineTooLong digits))
  | unknown {display line kind : Text} {n : Int} (parted : Parted entry display line kind)
      (written : Writes isSpace line n) (nameless : ∀ known : Kind, known.name ≠ kind) :
      Outcome entry (.error (.unknownKind kind))
  | read {display line : Text} {n : Int} {known : Kind}
      (parted : Parted entry display line known.name) (written : Writes isSpace line n) :
      Outcome entry (.ok ⟨display, n, known⟩)

theorem outcome_ofEntry (entry : Text) : Outcome entry (ofEntry entry) := by
  rcases parted_or_missing entry with ⟨display, line, kind, parted⟩ | ⟨few, missing⟩
  · by_cases written : ∃ n, Writes isSpace line n
    · obtain ⟨n, here⟩ := written
      by_cases named : ∃ known : Kind, known.name = kind
      · obtain ⟨known, rfl⟩ := named
        rw [parted.ofEntry_of_name here rfl]
        exact .read parted here
      · have nameless : ∀ known : Kind, known.name ≠ kind := fun known name => named ⟨known, name⟩
        rw [parted.ofEntry_of_unknown here nameless]
        exact .unknown parted here nameless
    · rcases parted.ofEntry_of_error written with malformed | ⟨digits, long⟩
      · rw [malformed]
        exact .malformed parted written
      · rw [long]
        exact .tooLong parted written digits
  · rw [ofEntry_of_missing missing]
    exact .missing few

section Writing

theorem separator_not_mem_name (kind : Kind) : separator ∉ kind.name := by
  cases kind <;> decide

theorem parted_toEntry (record : Record) :
    Parted record.toEntry record.display (numeral record.line) record.kind.name :=
  ⟨rfl, not_mem_numeral (by decide) (by decide) (by decide) _, separator_not_mem_name _⟩

theorem ofEntry_toEntry {record : Record}
    (short : (natDigits record.line.natAbs).length ≤ digitLimit) :
    ofEntry record.toEntry = .ok record :=
  (parted_toEntry record).ofEntry_of_name (writes_numeral short) rfl

end Writing

structure EntryReading (entry : Text) : Prop where
  parted_iff : (∃ display line kind, Parted entry display line kind) ↔ 2 ≤ entry.count separator
  ok_iff : ∀ record, ofEntry entry = .ok record ↔
    ∃ line, Parted entry record.display line record.kind.name ∧ Writes isSpace line record.line
  missing_iff : (∃ found, ofEntry entry = .error (.missingParts found)) ↔ entry.count separator < 2
  line_error_iff : ∀ display line kind, Parted entry display line kind →
    ((ofEntry entry = .error (.malformedLine line) ∨
      ∃ digits, ofEntry entry = .error (.lineTooLong digits)) ↔ ¬ ∃ n, Writes isSpace line n)
  kind_error_iff : ∀ display line kind, Parted entry display line kind →
    (ofEntry entry = .error (.unknownKind kind) ↔
      (∃ n, Writes isSpace line n) ∧ ∀ known : Kind, known.name ≠ kind)
  again : ∀ record, ofEntry entry = .ok record → ofEntry record.toEntry = .ok record
  canonical_iff : ∀ record display line kind, ofEntry entry = .ok record →
    Parted entry display line kind → (record.toEntry = entry ↔ line = numeral record.line)

section Laws

variable {entry : Text}

theorem ofEntry_eq_ok_iff {record : Record} : ofEntry entry = .ok record ↔
    ∃ line, Parted entry record.display line record.kind.name ∧
      Writes isSpace line record.line := by
  constructor
  · intro read
    have outcome := outcome_ofEntry entry
    rw [read] at outcome
    cases outcome with
    | read parted written => exact ⟨_, parted, written⟩
  · intro described
    obtain ⟨line, parted, written⟩ := described
    exact parted.ofEntry_of_name written rfl

theorem ofEntry_missing_iff :
    (∃ found, ofEntry entry = .error (.missingParts found)) ↔ entry.count separator < 2 := by
  constructor
  · intro reported
    obtain ⟨found, read⟩ := reported
    have outcome := outcome_ofEntry entry
    rw [read] at outcome
    cases outcome with
    | missing few => exact few
  · intro few
    rcases parted_or_missing entry with ⟨display, line, kind, parted⟩ | ⟨-, missing⟩
    · have enough := parted.two_le_count
      omega
    · exact ⟨_, ofEntry_of_missing missing⟩

theorem Parted.line_error_iff {display line kind : Text} (parted : Parted entry display line kind) :
    (ofEntry entry = .error (.malformedLine line) ∨
      ∃ digits, ofEntry entry = .error (.lineTooLong digits)) ↔ ¬ ∃ n, Writes isSpace line n := by
  constructor
  · intro reported
    have outcome := outcome_ofEntry entry
    rcases reported with read | ⟨digits, read⟩
    · rw [read] at outcome
      cases outcome with
      | malformed _ unwritten => exact unwritten
    · rw [read] at outcome
      cases outcome with
      | tooLong again unwritten _ => rwa [(parted.unique again).2.1]
  · exact parted.ofEntry_of_error

theorem Parted.kind_error_iff {display line kind : Text} (parted : Parted entry display line kind) :
    ofEntry entry = .error (.unknownKind kind) ↔
      (∃ n, Writes isSpace line n) ∧ ∀ known : Kind, known.name ≠ kind := by
  constructor
  · intro read
    have outcome := outcome_ofEntry entry
    rw [read] at outcome
    cases outcome with
    | unknown again written nameless =>
      rw [(parted.unique again).2.1]
      exact ⟨⟨_, written⟩, nameless⟩
  · intro described
    obtain ⟨⟨n, written⟩, nameless⟩ := described
    exact parted.ofEntry_of_unknown written nameless

theorem parted_iff :
    (∃ display line kind, Parted entry display line kind) ↔ 2 ≤ entry.count separator := by
  constructor
  · intro described
    obtain ⟨display, line, kind, parted⟩ := described
    exact parted.two_le_count
  · intro enough
    rcases parted_or_missing entry with parted | ⟨few, -⟩
    · exact parted
    · omega

/-- Writing a record that was read gives its entry back exactly for the canonical numeral. -/
theorem toEntry_eq_iff {record : Record} {display line kind : Text}
    (read : ofEntry entry = .ok record) (parted : Parted entry display line kind) :
    record.toEntry = entry ↔ line = numeral record.line := by
  obtain ⟨middle, described, -⟩ := ofEntry_eq_ok_iff.mp read
  obtain ⟨rfl, rfl, rfl⟩ := described.unique parted
  constructor
  · intro same
    have written := parted_toEntry record
    rw [same] at written
    exact (described.unique written).2.1
  · intro canonical
    rw [described.whole, canonical]
    rfl

end Laws

/-- Records are written and read back, and an entry is read in exactly one way. -/
theorem entry_codec :
    (∀ record : Record, (natDigits record.line.natAbs).length ≤ digitLimit →
      ofEntry record.toEntry = .ok record) ∧ ∀ entry, EntryReading entry := by
  constructor
  · intro record short
    exact ofEntry_toEntry short
  · intro entry
    refine ⟨parted_iff, fun _ => ofEntry_eq_ok_iff, ofEntry_missing_iff, ?_, ?_, ?_, ?_⟩
    · intro display line kind parted
      exact parted.line_error_iff
    · intro display line kind parted
      exact parted.kind_error_iff
    · intro record read
      obtain ⟨line, -, written⟩ := ofEntry_eq_ok_iff.mp read
      exact ofEntry_toEntry (length_natDigits_of_writes written)
    · intro record display line kind read parted
      exact toEntry_eq_iff read parted

/-- A record whose text looks like an entry is read back, and an entry with a numeral that is not
canonical is read but not written again. -/
theorem entry_codec_of_padded_numeral :
    ofEntry (toEntry ⟨"x|1|class".toList, -70, .field⟩) = .ok ⟨"x|1|class".toList, -70, .field⟩ ∧
      ofEntry "a|b|\u3000+\u06601_2 |field".toList = .ok ⟨"a|b".toList, 12, .field⟩ ∧
      toEntry ⟨"a|b".toList, 12, .field⟩ ≠ "a|b|\u3000+\u06601_2 |field".toList := by
  have parted : Parted "a|b|\u3000+\u06601_2 |field".toList "a|b".toList
      "\u3000+\u06601_2 ".toList "field".toList := ⟨by decide, by decide, by decide⟩
  have read : ofEntry "a|b|\u3000+\u06601_2 |field".toList = .ok ⟨"a|b".toList, 12, .field⟩ := by
    rw [(entry_codec.2 _).ok_iff]
    refine ⟨_, parted, ['\u3000'], ['+'], "\u06601_2".toList, [' '], false, [0, 1, 2], by decide,
      List.forall_mem_singleton.mpr (by decide), List.forall_mem_singleton.mpr (by decide), .plus,
      ?_, by decide, by decide⟩
    exact .next (by decide +kernel) (.grouped (by decide +kernel) (.last (by decide +kernel)))
  refine ⟨entry_codec.1 _ (by decide +kernel), read, ?_⟩
  intro same
  rw [(entry_codec.2 _).canonical_iff _ _ _ _ read parted] at same
  exact absurd same (by decide +kernel)

/-- The information separators are blanks, but an integer cannot stand between them. -/
theorem not_ofEntry_around_any_blank :
    ¬ ∀ entry, (∃ record, ofEntry entry = .ok record) ↔
      ∃ (display line : Text) (n : Int) (kind : Kind),
        Parted entry display line kind.name ∧ Writes isBlank line n := by
  intro accepted
  have parted : Parted "a|\x1c5|class".toList "a".toList "\x1c5".toList (Kind.name .cls) :=
    ⟨by decide, by decide, by decide⟩
  have written : Writes isBlank "\x1c5".toList 5 :=
    ⟨['\x1c'], [], ['5'], [], false, [5], by decide, List.forall_mem_singleton.mpr (by decide),
      nofun, .none, .last (by decide +kernel), by decide, by decide⟩
  obtain ⟨record, read⟩ := (accepted _).mpr ⟨_, _, _, _, parted, written⟩
  have refused : ofEntry "a|\x1c5|class".toList = .error (.malformedLine "\x1c5".toList) := by
    decide +kernel
  rw [refused] at read
  cases read

end BasicOutline.Record
