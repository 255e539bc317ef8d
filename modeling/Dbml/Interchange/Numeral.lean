import Dbml.Interchange.Checked
import Dbml.Number
import Dbml.Text.Integer

/-!
# Numerals in interchange

Integers and numbers may come as text, in ASCII digits. Single underscores may stand between digits.

An integer may have zeros in front, among which underscores do not count, and a fraction of zeros
behind. Its minus sign stands before the zeros in front or after them. A number may have a fraction
and a power of ten; where it has underscores there must be no white space around it.
-/
namespace Dbml.Numeral

open Text

/-! ## Integers -/

/-- Drops zeros, and underscores among them; the character before is `last`, which is kept where
nothing or a point follows. Else a digit or a minus sign has to follow. -/
def dropZeros? (last : Char) : List Char → Option (List Char)
  | [] => some [last]
  | c :: r =>
    if c = '0' ∨ c = '_' then dropZeros? c r
    else if c = '.' then some (last :: c :: r)
    else if c.isDigit ∨ c = '-' then some (c :: r)
    else none

/-- An integer that starts with a digit, without the zeros in front. -/
def withoutZeros? : List Char → Option (List Char)
  | '0' :: r => dropZeros? '0' r
  | c :: r => if c.isDigit then some (c :: r) else none
  | [] => none

/-- An integer without a fraction of zeros behind it. -/
def withoutFraction (s : List Char) : List Char :=
  match cut '.' s with
  | (whole, some places) => if places.isEmpty || places.any (· != '0') then s else whole
  | (_, none) => s

/-- The integer that plain digits write, with its sign given apart. A zero in front stands alone. Too
many digits are noticed before what follows them. -/
def readPlain (negative : Bool) (s : List Char) : Except IssueKind Int :=
  let digits := s.takeWhile Char.isDigit
  if digits = [] ∨ digits.head? = some '0' ∧ digits.length ≠ 1 then .error .unreadableInt
  else if digitLimit < digits.length then .error .oversizedInt
  else match natOfDigits? asciiDigitValue? 0 s with
    | some n => .ok (if negative then -n else n)
    | none => .error .unreadableInt

/-- The integer that a text writes. -/
def readInt (s : String) : Except IssueKind Int :=
  let (sign, r) := readSign (trimOf isWhiteSpace s.toList)
  match (withoutZeros? r).map withoutFraction with
  | none => .error .unreadableInt
  | some numeral =>
    match sign, (joinDigits? numeral).getD numeral with
    | 1, '-' :: digits => readPlain true digits
    | sign, digits => readPlain (sign = -1) digits

/-! ## Numbers -/

/-- A power of ten after its mark, as an exponent; zero where there is no mark. -/
def exponent? : Option (List Char) → Option Int
  | none => some 0
  | some s =>
    let (sign, r) := readSign s
    if r.isEmpty then none else (natOfDigits? asciiDigitValue? 0 r).map (sign * ·)

/-- The number that digits write, with or without a fraction and a power of ten. -/
def readDigits? (negative : Bool) (s : List Char) : Option Number :=
  let (digits, power) := cut 'e' s
  let (whole, fraction) := cut '.' digits
  let places := fraction.getD []
  if (whole ++ places).isEmpty then none
  else (exponent? power).bind fun e => (natOfDigits? asciiDigitValue? 0 (whole ++ places)).map
    fun m => .ofScientific negative m (e - places.length)

/-- The number that characters write, in any letter case. -/
def readChars? (s : List Char) : Option Number :=
  let (sign, r) := readSign (s.map Char.toLower)
  let negative := sign = -1
  if r = "inf".toList ∨ r = "infinity".toList then some (.infinite negative)
  else if r = "nan".toList then some .undefined
  else readDigits? negative r

/-- The number that a text writes. -/
def readNumber? (s : String) : Option Number :=
  (readChars? (trimOf isWhiteSpace s.toList)).or ((joinDigits? s.toList).bind readChars?)

end Dbml.Numeral
