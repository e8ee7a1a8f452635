import BasicOutline.Proofs.JsonScalars

/-! JSON texts are read back.

A value is read back from its text, whatever blanks set its parts apart, if it holds no
floating-point number, no integer of more digits than are read, and no object with a key twice. -/

namespace BasicOutline.Json

open Text

mutual

def Readable : Json → Prop
  | .null => True
  | .bool _ => True
  | .int value => (natDigits value.natAbs).length ≤ digitLimit
  | .float _ => False
  | .text _ => True
  | .list items => ReadableItems items
  | .object fields => (fields.map Prod.fst).Nodup ∧ ReadableFields fields

def ReadableItems : List Json → Prop
  | [] => True
  | item :: rest => item.Readable ∧ ReadableItems rest

def ReadableFields : List (Text × Json) → Prop
  | [] => True
  | (_, value) :: rest => value.Readable ∧ ReadableFields rest

end

theorem readableItems_iff {items : List Json} :
    ReadableItems items ↔ ∀ item ∈ items, item.Readable := by
  induction items with
  | nil => simp [ReadableItems]
  | cons item rest ih => simp only [ReadableItems, List.forall_mem_cons, ih]

theorem readableFields_iff {fields : Fields} :
    ReadableFields fields ↔ ∀ field ∈ fields, field.2.Readable := by
  induction fields with
  | nil => simp [ReadableFields]
  | cons field rest ih => simp only [ReadableFields, List.forall_mem_cons, ih]

mutual

theorem isFinite_of_readable (value : Json) (readable : value.Readable) :
    value.isFinite = true := by
  cases value with
  | float value => exact readable.elim
  | list items => exact areFinite_of_readable items readable
  | object fields => exact haveFinite_of_readable fields readable.2
  | _ => rfl

theorem areFinite_of_readable (items : List Json) (readable : ReadableItems items) :
    areFinite items = true := by
  match items with
  | [] => rfl
  | item :: rest =>
    rw [areFinite, isFinite_of_readable item readable.1, areFinite_of_readable rest readable.2]
    rfl

theorem haveFinite_of_readable (fields : Fields) (readable : ReadableFields fields) :
    haveFinite fields = true := by
  match fields with
  | [] => rfl
  | (_, value) :: rest =>
    rw [haveFinite, isFinite_of_readable value readable.1, haveFinite_of_readable rest readable.2]
    rfl

end

variable {rest : Text}

structure Opens (c : Char) : Prop where
  visible : isSeparator c = false
  inside : c ≠ ']'
  ascii : c.toNat < 128

instance (c : Char) : Decidable (Opens c) :=
  decidable_of_iff (isSeparator c = false ∧ c ≠ ']' ∧ c.toNat < 128)
    ⟨fun ⟨visible, inside, ascii⟩ => ⟨visible, inside, ascii⟩,
      fun ⟨visible, inside, ascii⟩ => ⟨visible, inside, ascii⟩⟩

theorem numeral_eq_cons {P : Char → Prop} (minus : P '-')
    (each : ∀ value < 10, P (digitChar value)) (n : Int) :
    ∃ c more, numeral n = c :: more ∧ P c := by
  cases n with
  | ofNat m =>
    obtain ⟨c, more, digits⟩ := exists_natDigits_eq_cons m
    exact ⟨c, more, digits, forall_mem_natDigits each m c (digits ▸ List.mem_cons_self)⟩
  | negSucc m => exact ⟨'-', _, rfl, minus⟩

theorem bracket_eq_cons (layout : Layout) (depth : Nat) (opening closing : Char)
    (items : List Text) : ∃ more, bracket layout depth opening closing items = opening :: more := by
  cases items with
  | nil => exact ⟨_, rfl⟩
  | cons item rest => exact ⟨_, rfl⟩

theorem write_eq_cons {value : Json} (readable : value.Readable) (layout : Layout) (depth : Nat) :
    ∃ c more, write layout depth value = c :: more ∧ Opens c := by
  cases value with
  | null => exact ⟨'n', _, rfl, by decide⟩
  | bool value => cases value <;> exact ⟨_, _, rfl, by decide⟩
  | int value => exact numeral_eq_cons (by decide) (by decide) value
  | float value => exact readable.elim
  | text value => exact ⟨'"', _, rfl, by decide⟩
  | list items =>
    obtain ⟨more, text⟩ :=
      bracket_eq_cons layout depth '[' ']' (writeItems layout (depth + 1) items)
    exact ⟨'[', more, text, by decide⟩
  | object fields =>
    obtain ⟨more, text⟩ :=
      bracket_eq_cons layout depth '\x7b' '\x7d' (writeFields layout (depth + 1) fields)
    exact ⟨'\x7b', more, text, by decide⟩

structure Layout.Blank (layout : Layout) : Prop where
  lineBreak : ∀ depth, ∀ c ∈ layout.lineBreak depth, isSeparator c = true
  afterComma : ∀ c ∈ layout.afterComma, isSeparator c = true

theorem blank_compact : Layout.compact.Blank :=
  ⟨fun _ => List.forall_mem_nil _, List.all_eq_true.mp (by decide)⟩

theorem blank_indented : Layout.indented.Blank := by
  refine ⟨fun depth c member => ?_, List.forall_mem_nil _⟩
  rcases List.mem_cons.mp member with rfl | inside
  · rfl
  · rw [List.eq_of_mem_replicate inside]
    rfl

section Blanks

variable {layout : Layout} {gap t : Text}

theorem skipBlanks_of_visible {c : Char} (visible : isSeparator c = false) :
    skipBlanks (c :: t) = c :: t :=
  List.dropWhile_cons_of_neg (by simp [visible])

theorem skipBlanks_append (blank : ∀ c ∈ gap, isSeparator c = true) (t : Text) :
    skipBlanks (gap ++ t) = skipBlanks t :=
  List.dropWhile_append_of_pos blank

theorem Ends.of_stop {c : Char} (stop : c ∈ stops) (rest : Text) : Ends (c :: rest) := by
  rintro first ⟨⟩
  exact stop

theorem Ends.append (blank : ∀ c ∈ gap, isSeparator c = true) (ends : Ends t) :
    Ends (gap ++ t) := by
  cases gap with
  | nil => exact ends
  | cons c more =>
    have here := blank c List.mem_cons_self
    simp only [isSeparator, Bool.or_eq_true, beq_iff_eq] at here
    apply Ends.of_stop
    rcases here with ((rfl | rfl) | rfl) | rfl <;> decide

theorem Layout.Blank.behindComma (blank : layout.Blank) (depth : Nat) :
    ∀ c ∈ layout.afterComma ++ layout.lineBreak depth, isSeparator c = true :=
  List.forall_mem_append.mpr ⟨blank.afterComma, blank.lineBreak depth⟩

end Blanks

theorem skipBlanks_write {value : Json} (readable : value.Readable) (layout : Layout)
    (depth : Nat) :
    skipBlanks (write layout depth value ++ rest) = write layout depth value ++ rest := by
  obtain ⟨c, more, text, first⟩ := write_eq_cons readable layout depth
  rw [text, List.cons_append, skipBlanks_of_visible first.visible]

theorem readValue_scalar {fuel : Nat} {t : Text} (some_fuel : 0 < fuel)
    (first : ∀ c, t.head? = some c → c ≠ '"' ∧ c ≠ '\x7b' ∧ c ≠ '[') :
    readValue fuel t = readScalar t := by
  obtain ⟨fuel, rfl⟩ := Nat.exists_eq_add_of_lt some_fuel
  rw [Nat.zero_add]
  cases t with
  | nil => rw [readValue] <;> simp
  | cons c more =>
    obtain ⟨quote, brace, bracket⟩ := first c rfl
    rw [readValue]
    · simp [quote]
    · simp [brace]
    · simp [bracket]

/-- A number is not taken for a word. -/
theorem readScalar_numeral {n : Int} (short : (natDigits n.natAbs).length ≤ digitLimit)
    (ends : Ends rest) : readScalar (numeral n ++ rest) = .ok (.int n, rest) := by
  have no_word : (constants.find? fun constant => constant.1.isPrefixOf (numeral n ++ rest)) =
      none := by
    obtain ⟨c, more, digits⟩ := exists_natDigits_eq_cons n.natAbs
    have digit : c.isDigit = true :=
      forall_mem_natDigits (P := fun c => c.isDigit = true) (by decide) n.natAbs c
        (digits ▸ List.mem_cons_self)
    have other : ∀ letter, letter.isDigit = false → letter ≠ c := by
      rintro letter unlike rfl
      rw [digit] at unlike
      exact absurd unlike (by decide)
    cases n with
    | ofNat m =>
      have text : numeral (.ofNat m) = c :: more := digits
      rw [text]
      simp [constants, other]
    | negSucc m =>
      have text : numeral (.negSucc m) = '-' :: c :: more := congrArg ('-' :: ·) digits
      rw [text]
      simp [constants, other]
  rw [readScalar, no_word]
  exact readNumber_numeral short ends

theorem put_of_not_mem {fields : Fields} {key : Text} (fresh : key ∉ fields.map Prod.fst)
    (value : Json) : fields.put key value = fields ++ [(key, value)] := by
  induction fields with
  | nil => rfl
  | cons field rest ih =>
    rw [List.map_cons, List.mem_cons, not_or] at fresh
    rw [Fields.put, if_neg (Ne.symm fresh.1), ih fresh.2, List.cons_append]

theorem fresh_of_nodup {before fields : Fields} {key : Text} {value : Json}
    (distinct : ((before ++ (key, value) :: fields).map Prod.fst).Nodup) :
    key ∉ before.map Prod.fst := by
  rw [List.map_append, List.nodup_append] at distinct
  intro member
  exact distinct.2.2 key member key (by simp) rfl

section Parts

variable (layout : Layout) (depth : Nat)

def comma : Text := ',' :: (layout.afterComma ++ layout.lineBreak depth)

def itemsText (items : List Json) : Text :=
  (comma layout depth).intercalate (writeItems layout depth items)

def fieldsText (fields : Fields) : Text :=
  (comma layout depth).intercalate (writeFields layout depth fields)

theorem itemsText_singleton (item : Json) :
    itemsText layout depth [item] = write layout depth item := by
  simp [itemsText, writeItems]

theorem itemsText_cons_cons (item next : Json) (items : List Json) :
    itemsText layout depth (item :: next :: items) =
      write layout depth item ++
        (comma layout depth ++ itemsText layout depth (next :: items)) := by
  simp [itemsText, writeItems, List.intercalate_cons_cons]

theorem fieldsText_singleton (key : Text) (value : Json) :
    fieldsText layout depth [(key, value)] =
      writeString key ++ (':' :: ' ' :: write layout depth value) := by
  simp [fieldsText, writeFields]

theorem fieldsText_cons_cons (key : Text) (value : Json) (next : Text × Json) (fields : Fields) :
    fieldsText layout depth ((key, value) :: next :: fields) =
      writeString key ++ (':' :: ' ' :: write layout depth value ++
        (comma layout depth ++ fieldsText layout depth (next :: fields))) := by
  simp [fieldsText, writeFields, List.intercalate_cons_cons]

theorem write_list {items : List Json} (filled : items ≠ []) :
    write layout depth (.list items) =
      '[' :: (layout.lineBreak (depth + 1) ++ (itemsText layout (depth + 1) items ++
        (layout.lineBreak depth ++ [']']))) := by
  obtain ⟨item, rest, rfl⟩ := List.exists_cons_of_ne_nil filled
  rw [write, itemsText, writeItems, bracket]
  · simp [comma]
  · simp

theorem write_object {fields : Fields} (filled : fields ≠ []) :
    write layout depth (.object fields) =
      '\x7b' :: (layout.lineBreak (depth + 1) ++ (fieldsText layout (depth + 1) fields ++
        (layout.lineBreak depth ++ ['\x7d']))) := by
  obtain ⟨field, rest, rfl⟩ := List.exists_cons_of_ne_nil filled
  rw [write, fieldsText, writeFields, bracket]
  · simp [comma]
  · simp

theorem itemsText_eq_cons {items : List Json} (readable : ReadableItems items)
    (filled : items ≠ []) : ∃ c more, itemsText layout depth items = c :: more ∧ Opens c := by
  match items with
  | [item] =>
    rw [itemsText_singleton]
    exact write_eq_cons readable.1 layout depth
  | item :: next :: items =>
    obtain ⟨c, more, text, first⟩ := write_eq_cons readable.1 layout depth
    rw [itemsText_cons_cons, text]
    exact ⟨c, _, rfl, first⟩

theorem fieldsText_eq_cons {fields : Fields} (filled : fields ≠ []) :
    ∃ more, fieldsText layout depth fields = '"' :: more := by
  match fields with
  | [(key, value)] =>
    rw [fieldsText_singleton]
    exact ⟨_, rfl⟩
  | (key, value) :: next :: fields =>
    rw [fieldsText_cons_cons]
    exact ⟨_, rfl⟩

end Parts

section Steps

variable {fuel : Nat} {t next gap : Text}

theorem skipBlanks_space (visible : skipBlanks t = t) : skipBlanks (' ' :: t) = t := by
  rw [skipBlanks, List.dropWhile_cons_of_pos (by decide)]
  exact visible

theorem readValue_object (blank : ∀ c ∈ gap, isSeparator c = true) (t : Text) :
    readValue (fuel + 1) ('\x7b' :: (gap ++ '"' :: t)) =
      (readFields fuel [] ('"' :: t)).map fun read => (.object read.1, read.2) := by
  rw [readValue, skipBlanks_append blank]
  rfl

theorem readValue_list {c : Char} (blank : ∀ c ∈ gap, isSeparator c = true) (first : Opens c) :
    readValue (fuel + 1) ('[' :: (gap ++ c :: t)) =
      (readItems fuel (c :: t)).map fun read => (.list read.1, read.2) := by
  rw [readValue, skipBlanks_append blank, skipBlanks_of_visible first.visible]
  split
  · rename_i same
    exact absurd (List.cons.inj same).1 first.inside
  · rfl

theorem readItems_last {item : Json} (blank : ∀ c ∈ gap, isSeparator c = true)
    (read : readValue fuel t = .ok (item, gap ++ ']' :: rest)) :
    readItems (fuel + 1) t = .ok ([item], rest) := by
  rw [readItems, read]
  simp only [Except.bind, skipBlanks_append blank, skipBlanks_of_visible,
    show isSeparator ']' = false from rfl]

theorem readItems_comma {item : Json} (blank : ∀ c ∈ gap, isSeparator c = true)
    (read : readValue fuel t = .ok (item, ',' :: (gap ++ next)))
    (visible : skipBlanks next = next) :
    readItems (fuel + 1) t =
      (readItems fuel next).map fun read => (item :: read.1, read.2) := by
  rw [readItems, read]
  simp only [Except.bind, skipBlanks_of_visible, show isSeparator ',' = false from rfl,
    skipBlanks_append blank, visible]

def readAfterField (fuel : Nat) (fields : Fields) (t : Text) : Reading Fields :=
  match skipBlanks t with
  | '\x7d' :: after => .ok (fields, after)
  | ',' :: rest => readFields fuel fields (skipBlanks rest)
  | rest => .error (.problem .comma rest)

theorem readAfterField_brace (blank : ∀ c ∈ gap, isSeparator c = true) (fields : Fields)
    (rest : Text) : readAfterField fuel fields (gap ++ '\x7d' :: rest) = .ok (fields, rest) := by
  rw [readAfterField, skipBlanks_append blank]
  rfl

theorem readAfterField_comma (blank : ∀ c ∈ gap, isSeparator c = true) (fields : Fields)
    (visible : skipBlanks next = next) :
    readAfterField fuel fields (',' :: (gap ++ next)) = readFields fuel fields next := by
  have after : readAfterField fuel fields (',' :: (gap ++ next)) =
      readFields fuel fields (skipBlanks (gap ++ next)) := rfl
  rw [after, skipBlanks_append blank, visible]

theorem readFields_field {fields : Fields} {key text : Text} {value : Json}
    (fresh : key ∉ fields.map Prod.fst) (read : readValue fuel text = .ok (value, next))
    (visible : skipBlanks text = text) :
    readFields (fuel + 1) fields (writeString key ++ (':' :: ' ' :: text)) =
      readAfterField fuel (fields ++ [(key, value)]) next := by
  have opening : writeString key ++ (':' :: ' ' :: text) =
      '"' :: (key.flatMap writeChar ++ '"' :: ':' :: ' ' :: text) := by
    simp [writeString]
  rw [opening, readFields, ← opening, readString_written]
  simp only [Except.bind, skipBlanks_of_visible, show isSeparator ':' = false from rfl,
    skipBlanks_space visible, read, put_of_not_mem fresh]
  rfl

end Steps

section Values

variable {layout : Layout}

mutual

/-- A written value is read back, with enough fuel for the length of its text. -/
theorem readValue_write (blank : layout.Blank) (value : Json) (readable : value.Readable)
    (depth fuel : Nat) (rest : Text) (enough : 2 * (write layout depth value).length ≤ fuel)
    (ends : Ends rest) : readValue fuel (write layout depth value ++ rest) = .ok (value, rest) := by
  -- Reading a value can go through a list or an object, hence two steps for each character.
  have some_fuel : 0 < fuel := by
    obtain ⟨first, more, text, -⟩ := write_eq_cons readable layout depth
    rw [text, List.length_cons] at enough
    omega
  obtain ⟨fuel, rfl⟩ := Nat.exists_eq_add_of_lt some_fuel
  rw [Nat.zero_add] at enough some_fuel ⊢
  cases value with
  | null =>
    rw [readValue_scalar some_fuel (by simp [write])]
    rfl
  | bool value =>
    rw [readValue_scalar some_fuel (by cases value <;> simp [write])]
    cases value <;> rfl
  | int value =>
    obtain ⟨c, more, text, scalar⟩ := numeral_eq_cons
      (P := fun c => c ≠ '"' ∧ c ≠ '\x7b' ∧ c ≠ '[') (by decide) (by decide) value
    rw [readValue_scalar some_fuel]
    · exact readScalar_numeral readable ends
    · rw [write, text]
      rintro first ⟨⟩
      exact scalar
  | float value => exact readable.elim
  | text value =>
    rw [write, writeString, List.cons_append, List.cons_append, readValue, ← List.cons_append,
      ← List.cons_append, ← writeString, readString_written]
    rfl
  | list items =>
    by_cases empty : items = []
    · subst empty
      rfl
    · obtain ⟨c, more, text, first⟩ := itemsText_eq_cons layout (depth + 1) readable empty
      simp only [write_list layout depth empty, List.length_cons, List.length_append] at enough
      rw [write_list layout depth empty, List.cons_append, List.append_assoc, List.append_assoc,
        List.append_assoc, List.singleton_append, text, List.cons_append,
        readValue_list (blank.lineBreak (depth + 1)) first, ← List.cons_append, ← text,
        readItems_write blank items readable empty (depth + 1) fuel (blank.lineBreak depth) rest
          (by omega)]
      rfl
  | object fields =>
    by_cases empty : fields = []
    · subst empty
      rfl
    · obtain ⟨more, text⟩ := fieldsText_eq_cons layout (depth + 1) empty
      simp only [write_object layout depth empty, List.length_cons, List.length_append] at enough
      rw [write_object layout depth empty, List.cons_append, List.append_assoc, List.append_assoc,
        List.append_assoc, List.singleton_append, text, List.cons_append,
        readValue_object (blank.lineBreak (depth + 1)), ← List.cons_append, ← text,
        readFields_write blank fields readable.2 empty [] readable.1 (depth + 1) fuel
          (blank.lineBreak depth) rest (by omega)]
      rfl

theorem readItems_write (blank : layout.Blank) (items : List Json)
    (readable : ReadableItems items) (filled : items ≠ []) (depth fuel : Nat) {gap : Text}
    (gaps : ∀ c ∈ gap, isSeparator c = true) (rest : Text)
    (enough : 2 * (itemsText layout depth items).length < fuel) :
    readItems fuel (itemsText layout depth items ++ (gap ++ ']' :: rest)) = .ok (items, rest) := by
  obtain ⟨fuel, rfl⟩ := Nat.exists_eq_add_of_lt (Nat.zero_lt_of_lt enough)
  match items with
  | [] => exact absurd rfl filled
  | [item] =>
    rw [itemsText_singleton] at enough ⊢
    exact readItems_last gaps (readValue_write blank item readable.1 depth _ _ (by omega)
      ((Ends.of_stop (by decide) rest).append gaps))
  | item :: next :: items =>
    obtain ⟨c, more, text, first⟩ :=
      itemsText_eq_cons layout depth readable.2 (List.cons_ne_nil next items)
    simp only [itemsText_cons_cons, comma, List.append_assoc, List.cons_append, List.length_append,
      List.length_cons] at enough ⊢
    rw [← List.append_assoc layout.afterComma, readItems_comma (blank.behindComma depth)
        (readValue_write blank item readable.1 depth _ _ (by omega)
          (Ends.of_stop (by decide) _))
        (text ▸ skipBlanks_of_visible first.visible),
      readItems_write blank (next :: items) readable.2 (by simp) depth _ gaps rest (by omega)]
    rfl

theorem readFields_write (blank : layout.Blank) (fields : Fields)
    (readable : ReadableFields fields) (filled : fields ≠ []) (before : Fields)
    (distinct : ((before ++ fields).map Prod.fst).Nodup) (depth fuel : Nat) {gap : Text}
    (gaps : ∀ c ∈ gap, isSeparator c = true) (rest : Text)
    (enough : 2 * (fieldsText layout depth fields).length < fuel) :
    readFields fuel before (fieldsText layout depth fields ++ (gap ++ '\x7d' :: rest)) =
      .ok (before ++ fields, rest) := by
  obtain ⟨fuel, rfl⟩ := Nat.exists_eq_add_of_lt (Nat.zero_lt_of_lt enough)
  match fields with
  | [] => exact absurd rfl filled
  | [(key, value)] =>
    simp only [fieldsText_singleton, List.append_assoc, List.length_append, List.length_cons,
      List.cons_append] at enough ⊢
    rw [readFields_field (fresh_of_nodup distinct)
        (readValue_write blank value readable.1 depth _ _ (by omega)
          ((Ends.of_stop (by decide) rest).append gaps))
        (skipBlanks_write readable.1 layout depth), readAfterField_brace gaps]
  | (key, value) :: next :: fields =>
    obtain ⟨more, text⟩ := fieldsText_eq_cons layout depth (List.cons_ne_nil next fields)
    simp only [fieldsText_cons_cons, comma, List.append_assoc, List.length_append,
      List.length_cons, List.cons_append] at enough ⊢
    rw [← List.append_assoc layout.afterComma, readFields_field (fresh_of_nodup distinct)
        (readValue_write blank value readable.1 depth _ _ (by omega)
          (Ends.of_stop (by decide) _))
        (skipBlanks_write readable.1 layout depth),
      readAfterField_comma (blank.behindComma depth) _ (text ▸ skipBlanks_of_visible rfl),
      readFields_write blank (next :: fields) readable.2 (by simp) (before ++ [(key, value)])
        (by simpa using distinct) depth _ gaps rest (by omega),
      List.append_assoc, List.singleton_append]

end

/-- A text is read back as the value that it was written for; blanks may follow it. -/
theorem read_write (blank : layout.Blank) {value : Json} (readable : value.Readable) {after : Text}
    (trailing : ∀ c ∈ after, isSeparator c = true) :
    read (write layout 0 value ++ after) = .ok value := by
  have ends : Ends after := by
    have alone : Ends (after ++ []) := Ends.append trailing (by rintro c ⟨⟩)
    rwa [List.append_nil] at alone
  have whole := readValue_write blank value readable 0
    (2 * (write layout 0 value ++ after).length + 2) after
    (by rw [List.length_append]; omega) ends
  have nothing : skipBlanks after = [] := by
    have alone := skipBlanks_append trailing []
    rwa [List.append_nil] at alone
  have no_mark : (write layout 0 value ++ after).head? ≠ some '\uFEFF' := by
    obtain ⟨c, more, text, first⟩ := write_eq_cons readable layout 0
    rw [text]
    rintro ⟨⟩
    exact absurd first.ascii (by decide)
  rw [read, readText, if_neg no_mark, skipBlanks_write readable, whole]
  simp only [nothing, if_pos]
  rfl

theorem read_compact {value : Json} (readable : value.Readable) :
    read value.compact = .ok value := by
  have whole := read_write blank_compact readable (List.forall_mem_nil _)
  rwa [List.append_nil] at whole

end Values

end BasicOutline.Json
