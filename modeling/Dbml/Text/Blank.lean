import Dbml.Text.CharRange
import Dbml.Text.Scan

/-!
# Blanks

Three notions of blank. On a line of a document only the space, the tab and the carriage return
separate tokens (`isInlineSpace`). A value written without quotes, and a whole document, are
trimmed of every Unicode white space and of the four information separators (`isBlank`). Around a
number Unicode white space alone is overlooked (`isWhiteSpace`).

Results:
* `isBlank_of_isInlineSpace`: what separates tokens is blank;
* `skipInline_suffix`, `skipLine_suffix`: what is left is a suffix of what was given.
-/
namespace Dbml.Text

/-- Space, tab and carriage return separate the tokens of one line (`INLINE_SPACE`). -/
def isInlineSpace (c : Char) : Bool := c == ' ' || c == '\t' || c == '\r'

/-- The code points of the Unicode property `White_Space`. -/
def whiteSpaceRanges : List (Nat × Nat) :=
  [(0x09, 0x0D), (0x20, 0x20), (0x85, 0x85), (0xA0, 0xA0), (0x1680, 0x1680), (0x2000, 0x200A),
    (0x2028, 0x2029), (0x202F, 0x202F), (0x205F, 0x205F), (0x3000, 0x3000)]

/-- Unicode white space. -/
def isWhiteSpace (c : Char) : Bool := inRanges whiteSpaceRanges c

/-- White space of any kind: that of Unicode, and the separators U+001C to U+001F. -/
def isBlank (c : Char) : Bool := isWhiteSpace c || inRanges [(0x1C, 0x1F)] c

theorem isBlank_of_isInlineSpace {c : Char} (h : isInlineSpace c = true) : isBlank c = true := by
  simp only [isInlineSpace, Bool.or_eq_true, beq_iff_eq] at h
  rcases h with (rfl | rfl) | rfl <;> rfl

/-- Skips the blanks between two tokens of a line (`_skip_inline_whitespace`). -/
def skipInline (s : List Char) : List Char := s.dropWhile isInlineSpace

theorem skipInline_suffix (s : List Char) : skipInline s <:+ s := List.dropWhile_suffix _

/-- Skips the rest of a line and the newline that ends it (`_skip_line`). -/
def skipLine (s : List Char) : List Char := (s.dropWhile (· != '\n')).tail

theorem skipLine_suffix (s : List Char) : skipLine s <:+ s :=
  (List.tail_suffix _).trans (List.dropWhile_suffix _)

/-- Whether nothing is left of a text, one final newline apart. -/
def isOver (s : List Char) : Bool := s == [] || s == ['\n']

/-- The text without the characters of a class at its two ends. -/
def trimOf (p : Char → Bool) (s : List Char) : List Char :=
  ((s.dropWhile p).reverse.dropWhile p).reverse

/-- The text without the white space at its two ends. -/
def trim (s : List Char) : List Char := trimOf isBlank s

end Dbml.Text
