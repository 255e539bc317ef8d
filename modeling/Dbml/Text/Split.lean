/-!
# Splitting

A text is cut where a certain character first stands, or split at every place where it stands.
-/
namespace Dbml.Text

/-- The text up to the first place where `c` stands, and the text after it, if it stands there. -/
def cut (c : Char) (s : List Char) : List Char × Option (List Char) :=
  match s.dropWhile (· != c) with
  | [] => (s, none)
  | _ :: r => (s.takeWhile (· != c), some r)

/-- The parts of a text between the places where `c` stands. -/
def splitAt (c : Char) : List Char → List (List Char)
  | [] => [[]]
  | d :: r =>
    if d == c then [] :: splitAt c r
    else match splitAt c r with
      | [] => [[d]]
      | part :: parts => (d :: part) :: parts

end Dbml.Text
