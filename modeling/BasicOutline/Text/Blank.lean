/-! Texts, and the blank characters that separate words and are trimmed. -/

namespace BasicOutline

abbrev Text := List Char

namespace Text

/-- The blanks of source text: the control separators, the space and the wider Unicode spaces. -/
def isBlank (c : Char) : Bool :=
  let n := c.toNat
  (9 ≤ n && n ≤ 13) || (28 ≤ n && n ≤ 32) || n == 0x85 || n == 0xA0 || n == 0x1680 ||
    (0x2000 ≤ n && n ≤ 0x200A) || n == 0x2028 || n == 0x2029 || n == 0x202F || n == 0x205F ||
    n == 0x3000

/-- The blanks without the four information separators. -/
def isSpace (c : Char) : Bool :=
  isBlank c && !(28 ≤ c.toNat && c.toNat ≤ 31)

def isSpaceOrTab (c : Char) : Bool := c == ' ' || c == '\t'

def trimStart (t : Text) : Text := t.dropWhile isBlank

def trimEndWhile (blank : Char → Bool) (t : Text) : Text :=
  (t.reverse.dropWhile blank).reverse

def trimEnd (t : Text) : Text := trimEndWhile isBlank t

def trimWhile (blank : Char → Bool) (t : Text) : Text :=
  trimEndWhile blank (t.dropWhile blank)

def spaces (n : Nat) : Text := List.replicate n ' '

def occurs (part : Text) : Text → Bool
  | [] => part.isEmpty
  | c :: rest => part.isPrefixOf (c :: rest) || occurs part rest

theorem isBlank_of_isSpace {c : Char} (space : isSpace c = true) : isBlank c = true := by
  simp only [isSpace, Bool.and_eq_true] at space
  exact space.1

theorem isBlank_of_isSpaceOrTab {c : Char} (space : isSpaceOrTab c = true) : isBlank c = true := by
  simp only [isSpaceOrTab, Bool.or_eq_true, beq_iff_eq] at space
  rcases space with rfl | rfl <;> decide

theorem length_dropWhile_le (keep : Char → Bool) (t : Text) :
    (t.dropWhile keep).length ≤ t.length :=
  (List.dropWhile_suffix keep).length_le

end Text

end BasicOutline
