import Mathlib.Data.Nat.Notation

/-!
# Byte strings

`std::string` and `std::string_view` are sequences of bytes with no encoding attached, so text is a
list of bytes throughout. `byte` and `bytes` spell the ASCII literals of the source.
-/

/-- A byte string. -/
abbrev Bytes := List UInt8

/-- The byte of an ASCII character. -/
def byte (c : Char) : UInt8 := UInt8.ofNat c.toNat

/-- The bytes of an ASCII literal. -/
def bytes (s : String) : Bytes := s.toList.map byte

/-- A text is UTF-8. -/
def isUtf8 (s : Bytes) : Bool := ByteArray.validateUTF8 ⟨s.toArray⟩
