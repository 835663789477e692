import Mathlib.Data.List.Basic

/-!
# Bytes and strings

A `std::string` is a list of bytes: nothing in the server or the client gives
its characters a wider meaning, and UID lines may hold any byte but the
newline.  The character classes are those of the "C" locale, which is the one
`std::regex` and `<cctype>` use in both programs.
-/

namespace AsyncNFCServer

abbrev Byte := UInt8

/-- `std::string`. -/
abbrev Str := List Byte

/-- The bytes of a literal of the source. -/
def ascii (s : String) : Str :=
  s.toList.map fun c => c.toUInt8

/-- `'\n'`, the delimiter of every message on the wire. -/
def newline : Byte := 10

/-- The bytes that `TcpConnection::write<std::string>` sends for `data`. -/
def wireLine (data : Str) : Str := data ++ [newline]

/-! ## Character classes -/

/-- `std::isupper`. -/
def isUpper (c : Byte) : Bool := 65 ≤ c && c ≤ 90

/-- `std::islower`. -/
def isLower (c : Byte) : Bool := 97 ≤ c && c ≤ 122

/-- `std::tolower`. -/
def toLower (c : Byte) : Byte := if isUpper c then c + 32 else c

/-- `[0-9]`. -/
def isDigit (c : Byte) : Bool := 48 ≤ c && c ≤ 57

/-- `[A-Za-z_]`. -/
def isLetterOrUnderscore (c : Byte) : Bool := isUpper c || isLower c || c == 95

/-- `[A-Za-z0-9_]`. -/
def isWordByte (c : Byte) : Bool := isLetterOrUnderscore c || isDigit c

/-- `\s`: space, tab, newline, vertical tab, form feed and carriage return. -/
def isSpace (c : Byte) : Bool := c == 32 || (9 ≤ c && c ≤ 13)

section Ranges

variable {c : Byte}

theorem le_and_le_iff {low high : Byte} :
    (low ≤ c && c ≤ high) = true ↔ low.toNat ≤ c.toNat ∧ c.toNat ≤ high.toNat := by
  rw [Bool.and_eq_true, decide_eq_true_eq, decide_eq_true_eq, UInt8.le_iff_toNat_le,
    UInt8.le_iff_toNat_le]

theorem isUpper_iff : isUpper c = true ↔ 65 ≤ c.toNat ∧ c.toNat ≤ 90 := le_and_le_iff

theorem isLower_iff : isLower c = true ↔ 97 ≤ c.toNat ∧ c.toNat ≤ 122 := le_and_le_iff

theorem isDigit_iff : isDigit c = true ↔ 48 ≤ c.toNat ∧ c.toNat ≤ 57 := le_and_le_iff

theorem isLetterOrUnderscore_iff : isLetterOrUnderscore c = true ↔
    65 ≤ c.toNat ∧ c.toNat ≤ 90 ∨ 97 ≤ c.toNat ∧ c.toNat ≤ 122 ∨ c.toNat = 95 := by
  rw [isLetterOrUnderscore, Bool.or_eq_true, Bool.or_eq_true, isUpper_iff, isLower_iff,
    beq_iff_eq, ← UInt8.toNat_inj, or_assoc]
  rfl

theorem isSpace_iff : isSpace c = true ↔ c.toNat = 32 ∨ 9 ≤ c.toNat ∧ c.toNat ≤ 13 := by
  rw [isSpace, Bool.or_eq_true, beq_iff_eq, ← UInt8.toNat_inj, le_and_le_iff]
  rfl

theorem toNat_toLower (h : isUpper c = true) : (toLower c).toNat = c.toNat + 32 := by
  have hle := (isUpper_iff.mp h).2
  rw [toLower, if_pos h, UInt8.toNat_add]
  exact Nat.mod_eq_of_lt (show c.toNat + 32 < 256 by omega)

end Ranges

/-! ## UTF-8 -/

/-- What a character's first byte asks for: the number of bytes that must
follow and the range of the next one. -/
def utf8Lead (b : Byte) : Option (Nat × Byte × Byte) :=
  if b < 0x80 then some (0, 0x80, 0xBF)
  else if b < 0xC2 then none
  else if b < 0xE0 then some (1, 0x80, 0xBF)
  else if b = 0xE0 then some (2, 0xA0, 0xBF)
  else if b = 0xED then some (2, 0x80, 0x9F)
  else if b < 0xF0 then some (2, 0x80, 0xBF)
  else if b = 0xF0 then some (3, 0x90, 0xBF)
  else if b < 0xF4 then some (3, 0x80, 0xBF)
  else if b = 0xF4 then some (3, 0x80, 0x8F)
  else none

/-- The rest of a string is well formed when `owed` bytes of the current
character are still to come, the next of them between `low` and `high`. -/
def utf8From : Nat → Byte → Byte → Str → Bool
  | 0, _, _, [] => true
  | _ + 1, _, _, [] => false
  | 0, _, _, b :: bs =>
      match utf8Lead b with
      | none => false
      | some (owed, low, high) => utf8From owed low high bs
  | owed + 1, low, high, b :: bs =>
      low ≤ b && b ≤ high && utf8From owed 0x80 0xBF bs

/-- The strings `json::dump` writes; on any other it throws `type_error`. -/
def utf8 (s : Str) : Bool := utf8From 0 0x80 0xBF s

end AsyncNFCServer
