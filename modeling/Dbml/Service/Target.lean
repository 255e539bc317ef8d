import Dbml.Text.Split

/-!
# Targets

The target of a request says what is requested. It is a reference as in hypertext: a path, which a
scheme and an authority may precede and a query and a fragment may follow. Unless it has both a
scheme and an authority, its path is taken from the root.

A path is looked up with its dot segments resolved, its escapes read twice, and without slashes
and a newline at its end.
-/
namespace Dbml.Service

open Text

/-- The parts of a target that matter. The scheme and the authority are empty if there is none. -/
structure Target where
  scheme : List Char
  authority : List Char
  path : List Char
  deriving DecidableEq, Repr

/-! ## Parts -/

/-- Whether a text is a scheme: a letter, then letters, digits, plus signs, dashes and dots. It may
be empty. -/
def isScheme : List Char → Bool
  | [] => true
  | c :: r => c.isAlpha && r.all fun d => d.isAlphanum || d == '+' || d == '.' || d == '-'

/-- The scheme at the front, empty where there is none, and the text after its colon. -/
def readScheme (s : List Char) : List Char × List Char :=
  match cut ':' s with
  | (scheme, some r) => if isScheme scheme then (scheme, r) else ([], s)
  | (_, none) => ([], s)

/-- The authority at the front, after two slashes, and the text after it. -/
def readAuthority : List Char → List Char × List Char
  | '/' :: '/' :: r => (r.takeWhile (· != '/'), r.dropWhile (· != '/'))
  | s => ([], s)

/-- The target that a text writes, its query and its fragment left out. -/
def Target.read (s : List Char) : Target :=
  let (scheme, r) := readScheme (s.takeWhile fun c => c != '?' && c != '#')
  let (authority, path) := readAuthority r
  ⟨scheme, authority, path⟩

/-! ## Dot segments -/

/-- Resolves the segments of a path that are one dot or two, after those in `before`, of which the
last comes first. The empty segment before a path's first slash stays. -/
def resolveDots (before : List (List Char)) : List (List Char) → List (List Char)
  | [] => before.reverse
  | ['.'] :: r => resolveDots before r
  | ['.', '.'] :: r => resolveDots (if before = [[]] then before else before.tail) r
  | part :: r => resolveDots (part :: before) r

/-- Segments with slashes between them. -/
def joinSegments : List (List Char) → List Char
  | [] => []
  | [part] => part
  | part :: r => part ++ '/' :: joinSegments r

/-- A path without dot segments. -/
def removeDots (path : List Char) : List Char := joinSegments (resolveDots [] (splitAt '/' path))

/-! ## Escapes -/

/-- The value of a hexadecimal digit. -/
def hexValue? (c : Char) : Option Nat :=
  if c.isDigit then some (c.toNat - 48)
  else if 'a' ≤ c.toLower ∧ c.toLower ≤ 'f' then some (c.toLower.toNat - 87)
  else none

/-- Reads escapes: a percent sign and two hexadecimal digits stand for a character of ASCII, or for
part of some other character, in whose place stands a replacement. -/
def unescape : List Char → List Char
  | '%' :: a :: b :: r =>
    match hexValue? a, hexValue? b with
    | some m, some n =>
      (if m < 8 then Char.ofNat (16 * m + n) else '\uFFFD') :: unescape r
    | _, _ => '%' :: unescape (a :: b :: r)
  | c :: r => c :: unescape r
  | [] => []

/-! ## Paths -/

/-- The path of a target, with its dot segments resolved. -/
def Target.resolvedPath (t : Target) : List Char :=
  let given := if t.scheme = [] ∧ t.authority = [] then t.path else removeDots t.path
  if t.scheme ≠ [] ∧ t.authority ≠ [] then given
  else removeDots ('/' :: given.dropWhile (· == '/'))

/-- A path without slashes at its end, and without a newline before them. -/
def withoutEnd (path : List Char) : List Char :=
  match path.reverse.dropWhile (· == '/') with
  | '\n' :: r => r.reverse
  | r => r.reverse

/-- The path under which a target is looked up. -/
def lookupPath (target : String) : String :=
  String.ofList (withoutEnd (unescape (unescape (Target.read target.toList).resolvedPath)))

end Dbml.Service
