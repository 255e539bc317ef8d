import Dbml.Interchange.Numeral
import Dbml.Interchange.Value

/-!
# Codecs

A codec writes the values of a type as interchange values and reads them back. Reading is lenient
where other programs are careless: flags may come as numbers or words, numbers as text. What is
written is always in one form.

Results:
* `string_lawful`, `bool_lawful`, `int_lawful`, `number_lawful`, `list_lawful`,
  `optional_lawful`: what a codec writes it reads back.
-/
namespace Dbml

structure Codec (α : Type) where
  write : α → Value
  read : Value → Checked α

namespace Codec

variable {α : Type}

/-- What the codec writes it reads back. -/
def Lawful (c : Codec α) : Prop := ∀ a, c.read (c.write a) = .ok a

/-! ## Text, choices and flags -/

def string : Codec String where
  write := .string
  read
    | .string s => .ok s
    | _ => .issue .notString

theorem string_lawful : string.Lawful := fun _ => rfl

/-- One of several values, each written as a word; anything else is an issue of the given kind. -/
def choice [DecidableEq α] (words : List (α × String)) (kind : IssueKind) : Codec α where
  write a := .string ((words.lookup a).getD "")
  read
    | .string s =>
      match words.find? (·.2 == s) with
      | some (a, _) => .ok a
      | none => .issue kind
    | _ => .issue kind

/-- The words for yes and no. -/
def boolWords : List (String × Bool) :=
  [("0", false), ("off", false), ("f", false), ("false", false), ("n", false), ("no", false),
    ("1", true), ("on", true), ("t", true), ("true", true), ("y", true), ("yes", true)]

/-- The flag that a word means, in any case of ASCII letters. -/
def boolOfWord? (s : String) : Option Bool :=
  boolWords.lookup (String.ofList (s.toList.map Char.toLower))

/-- The flag that an integer means. -/
def boolOfInt (n : Int) : Checked Bool :=
  if n = 0 then .ok false else if n = 1 then .ok true else .issue .unreadableBool

def bool : Codec Bool where
  write := .bool
  read
    | .bool b => .ok b
    | .integer n =>
      if -Number.int64Limit ≤ n ∧ n < Number.int64Limit then boolOfInt n else .issue .notBool
    | .number x =>
      match x.toInt64? with
      | some n => boolOfInt n
      | none => .issue .notBool
    | .string s =>
      match boolOfWord? s with
      | some b => .ok b
      | none => .issue .unreadableBool
    | _ => .issue .notBool

theorem bool_lawful : bool.Lawful := fun _ => rfl

/-! ## Numbers -/

/-- The integer that a number is. It must have less than 64 binary digits. -/
def intOfNumber (x : Number) : Checked Int :=
  match x, x.toInt64? with
  | _, some n => .ok n
  | .finite d, none => if d.toInt?.isSome then .issue .oversizedInt else .issue .fractionalInt
  | _, none => .issue .infiniteInt

def int : Codec Int where
  write := .integer
  read
    | .bool b => .ok (if b then 1 else 0)
    | .integer n => .ok n
    | .number x => intOfNumber x
    | .string s =>
      match Numeral.readInt s with
      | .ok n => .ok n
      | .error kind => .issue kind
    | _ => .issue .notInt

theorem int_lawful : int.Lawful := fun _ => rfl

def number : Codec Number where
  write := .number
  read
    | .bool b => .ok (if b then 1 else 0)
    | .integer n =>
      match Number.ofInt? n with
      | some x => .ok x
      | none => .issue .notNumber
    | .number x => .ok x
    | .string s =>
      match Numeral.readNumber? s with
      | some x => .ok x
      | none => .issue .unreadableNumber
    | _ => .issue .notNumber

theorem number_lawful : number.Lawful := fun _ => rfl

/-! ## Lists, options and objects -/

/-- Reads the items of a list, the first of which has the given place. -/
def readItems (c : Codec α) (i : Nat) : List Value → Checked (List α)
  | [] => .ok []
  | v :: vs => List.cons <$> (c.read v).under (.index i) <*> readItems c (i + 1) vs

def list (c : Codec α) : Codec (List α) where
  write items := .list (items.map c.write)
  read
    | .list items => readItems c 0 items
    | _ => .issue .notList

theorem readItems_write {c : Codec α} (h : c.Lawful) (i : Nat) (items : List α) :
    readItems c i (items.map c.write) = .ok items := by
  induction items generalizing i with
  | nil => rfl
  | cons a items ih => simp [readItems, h a, ih]

theorem list_lawful {c : Codec α} (h : c.Lawful) : c.list.Lawful := readItems_write h 0

/-- A value that may be null. -/
def optional (c : Codec α) : Codec (Option α) where
  write
    | some a => c.write a
    | none => .null
  read
    | .null => .ok none
    | v => some <$> c.read v

theorem optional_lawful {c : Codec α} (h : c.Lawful) (hn : ∀ a, c.write a ≠ .null) :
    c.optional.Lawful := by
  intro a
  cases a with
  | none => rfl
  | some a =>
    have ha := h a
    have hna := hn a
    simp only [optional]
    rw [ha]; rfl

/-- A field that has to be there. -/
def required (c : Codec α) (name : String) (fields : List (String × Value)) : Checked α :=
  match fields.lookup name with
  | some v => (c.read v).under (.field name)
  | none => .invalid [⟨[.field name], .missing⟩]

/-- A field that may be left out. -/
def defaulted (c : Codec α) (name : String) (value : α) (fields : List (String × Value)) :
    Checked α :=
  match fields.lookup name with
  | some v => (c.read v).under (.field name)
  | none => .ok value

/-- Reads an object through its fields. Fields that are not asked for do no harm. -/
def readObject (f : List (String × Value) → Checked α) : Value → Checked α
  | .object fields => f fields
  | _ => .issue .notObject

end Codec

end Dbml
