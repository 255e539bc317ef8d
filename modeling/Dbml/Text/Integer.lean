import Dbml.Text.Blank
import Dbml.Text.Split

/-!
# Integers in text

An integer is read from an optional sign and decimal digits of any script, between Unicode white
space. Single underscores may stand between two digits. Very long runs of digits are refused, and
integers that take as many are not written either.
-/
namespace Dbml.Text

/-- The decimal digits of Unicode 14.0. Each interval holds whole rows of ten, from zero to nine. -/
def digitRanges : List (Nat × Nat) :=
  [(0x30, 0x39), (0x660, 0x669), (0x6F0, 0x6F9), (0x7C0, 0x7C9), (0x966, 0x96F), (0x9E6, 0x9EF),
    (0xA66, 0xA6F), (0xAE6, 0xAEF), (0xB66, 0xB6F), (0xBE6, 0xBEF), (0xC66, 0xC6F),
    (0xCE6, 0xCEF), (0xD66, 0xD6F), (0xDE6, 0xDEF), (0xE50, 0xE59), (0xED0, 0xED9),
    (0xF20, 0xF29), (0x1040, 0x1049), (0x1090, 0x1099), (0x17E0, 0x17E9), (0x1810, 0x1819),
    (0x1946, 0x194F), (0x19D0, 0x19D9), (0x1A80, 0x1A89), (0x1A90, 0x1A99), (0x1B50, 0x1B59),
    (0x1BB0, 0x1BB9), (0x1C40, 0x1C49), (0x1C50, 0x1C59), (0xA620, 0xA629), (0xA8D0, 0xA8D9),
    (0xA900, 0xA909), (0xA9D0, 0xA9D9), (0xA9F0, 0xA9F9), (0xAA50, 0xAA59), (0xABF0, 0xABF9),
    (0xFF10, 0xFF19), (0x104A0, 0x104A9), (0x10D30, 0x10D39), (0x11066, 0x1106F),
    (0x110F0, 0x110F9), (0x11136, 0x1113F), (0x111D0, 0x111D9), (0x112F0, 0x112F9),
    (0x11450, 0x11459), (0x114D0, 0x114D9), (0x11650, 0x11659), (0x116C0, 0x116C9),
    (0x11730, 0x11739), (0x118E0, 0x118E9), (0x11950, 0x11959), (0x11C50, 0x11C59),
    (0x11D50, 0x11D59), (0x11DA0, 0x11DA9), (0x16A60, 0x16A69), (0x16AC0, 0x16AC9),
    (0x16B50, 0x16B59), (0x1D7CE, 0x1D7FF), (0x1E140, 0x1E149), (0x1E2F0, 0x1E2F9),
    (0x1E950, 0x1E959), (0x1FBF0, 0x1FBF9)]

/-- The value of a decimal digit. -/
def digitValue? (c : Char) : Option Nat :=
  (digitRanges.find? fun range => range.1 ≤ c.toNat && c.toNat ≤ range.2).map fun range =>
    (c.toNat - range.1) % 10

/-- The value of an ASCII digit. -/
def asciiDigitValue? (c : Char) : Option Nat := if c.isDigit then some (c.toNat - 48) else none

/-- Digits without the underscores between them; none where an underscore stands at an end or beside
another one. -/
def joinDigits? (s : List Char) : Option (List Char) :=
  if (splitAt '_' s).any List.isEmpty then none else some (splitAt '_' s).flatten

/-- The number that digits write, after the digits before them that write `n`. -/
def natOfDigits? (value? : Char → Option Nat) (n : Nat) : List Char → Option Nat
  | [] => some n
  | c :: r => (value? c).bind fun d => natOfDigits? value? (10 * n + d) r

/-- A sign at the front, as a factor, and the text after it. -/
def readSign : List Char → Int × List Char
  | '-' :: r => (-1, r)
  | '+' :: r => (1, r)
  | r => (1, r)

/-- How many digits of an integer are read or written at most. -/
def digitLimit : Nat := 4300

/-- The complaint about an integer with more digits, with what else is known of it. -/
def overLimit (detail : String) : String :=
  "Exceeds the limit (" ++ toString digitLimit ++ " digits) for integer string conversion" ++ detail
    ++ "; use sys.set_int_max_str_digits() to increase the limit"

/-- An integer that is written: it has no more digits than that, whatever its sign. -/
def Writable (n : Int) : Prop := (Nat.toDigits 10 n.natAbs).length ≤ digitLimit

instance (n : Int) : Decidable (Writable n) := Nat.decLe _ _

/-- Why a text is not read as an integer. -/
inductive IntegerFault where
  | malformed
  | tooLong (digits : Nat)
  deriving DecidableEq, Repr

/-- The integer that a text writes. Too many digits are noticed before what follows them. -/
def readInt (s : String) : Except IntegerFault Int :=
  let (sign, r) := readSign (trimOf isWhiteSpace s.toList)
  let run := r.takeWhile fun c => c == '_' || (digitValue? c).isSome
  match joinDigits? run with
  | none => .error .malformed
  | some digits =>
    if digitLimit < digits.length then .error (.tooLong digits.length)
    else match natOfDigits? digitValue? 0 digits, r.drop run.length with
      | some n, [] => .ok (sign * n)
      | _, _ => .error .malformed

end Dbml.Text
