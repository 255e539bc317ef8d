import Dbml.Text.Integer

/-!
# Ids

Every table, column and relation of a schema has an id. Ids are drawn from a source, one after
another, each for a stem that says what it is for. A source may refuse.

Results:
* `sequential_draw`, `sequential_draw_error`, `counting_draw`, `listed_draw_cons`, `listed_draw_nil`:
  what the sources give.
-/
namespace Dbml

open Text

/-- What an id is for (the prefixes given to `_new_id`). -/
inductive IdKind where
  | table
  | column
  | relation
  deriving DecidableEq, Repr

/-- The stem of an id. -/
def IdKind.stem : IdKind → String
  | table => "table"
  | column => "col"
  | relation => "rel"

/-- A source of ids with states `σ`: for a stem, the next id or the reason why there is none, either
with the state after it (`IdFactory`). -/
structure IdSource (σ : Type) where
  draw : String → σ → Except (String × σ) (String × σ)

/-- A source that never refuses. -/
def IdSource.Total {σ : Type} (source : IdSource σ) : Prop :=
  ∀ stem st, ∃ id st', source.draw stem st = .ok (id, st')

/-- The id with a number. -/
def numberedId (stem : String) (n : Int) : String := stem ++ "_" ++ toString n

namespace IdSource

/-- Numbers ids one after another, whatever their stems, and refuses where a number is not written
(`SequentialIds`). The state is the next number, which is one further after a refusal, too. -/
def sequential : IdSource Int where
  draw stem n :=
    if Writable n then .ok (numberedId stem n, n + 1) else .error (overLimit "", n + 1)

/-- Numbers ids one after another without an end. -/
def counting : IdSource Int where
  draw stem n := .ok (numberedId stem n, n + 1)

/-- Hands out a list of ids, whatever the stems, and refuses when it is used up. -/
def listed : IdSource (List String) where
  draw
    | _, id :: ids => .ok (id, ids)
    | stem, [] => .error ("out of ids for " ++ stem, [])

/-- Hands out the ids `ids 0`, `ids 1`, …, whatever the stems. The state counts the ids drawn. -/
def stream (ids : Nat → String) : IdSource Nat where
  draw _ n := .ok (ids n, n + 1)

/-- As long as numbers are written, the sequential source counts. -/
theorem sequential_draw {n : Int} (h : Writable n) (stem : String) :
    sequential.draw stem n = counting.draw stem n := if_pos h

theorem sequential_draw_error {n : Int} (h : ¬Writable n) (stem : String) :
    sequential.draw stem n = .error (overLimit "", n + 1) := if_neg h

theorem counting_draw (stem : String) (n : Int) :
    counting.draw stem n = .ok (numberedId stem n, n + 1) := rfl

theorem counting_total : counting.Total := fun _ _ => ⟨_, _, rfl⟩

theorem listed_draw_cons (stem id : String) (ids : List String) :
    listed.draw stem (id :: ids) = .ok (id, ids) := rfl

theorem listed_draw_nil (stem : String) :
    listed.draw stem [] = .error ("out of ids for " ++ stem, []) := rfl

theorem stream_total (ids : Nat → String) : (stream ids).Total := fun _ _ => ⟨_, _, rfl⟩

end IdSource

/-! ## Random ids -/

namespace RandomId

/-- The characters of a random id (`_ALPHABET`). -/
def alphabet : List Char := "abcdefghijklmnopqrstuvwxyz0123456789".toList

/-- How many random characters an id has. -/
def width : Nat := 9

/-- The id that picks, places in the alphabet, make for a stem (`random_id`). -/
def ofPicks (stem : String) (picks : List Nat) : String :=
  stem ++ "_" ++ String.ofList (picks.map fun i => alphabet.getD i 'a')

/-- Draws `count` places in the alphabet. -/
def picks (gen : StdGen) : Nat → List Nat × StdGen
  | 0 => ([], gen)
  | count + 1 =>
    let (i, gen) := randNat gen 0 (alphabet.length - 1)
    (picks gen count).map (i :: ·) id

/-- The part of an id before its last underscore. -/
def stemOf (id : String) : String :=
  String.ofList ((id.toList.reverse.dropWhile (· != '_')).drop 1).reverse

/-- Whether an id is a known stem, an underscore and nine characters of the alphabet. -/
def wellFormed (id : String) : Bool :=
  [IdKind.table, .column, .relation].any fun kind =>
    let head := kind.stem.toList ++ ['_']
    let suffix := id.toList.drop head.length
    head.isPrefixOf id.toList && suffix.length == width && suffix.all alphabet.contains

end RandomId

/-- Ids with a random end (`random_id`). The state is the random generator. -/
def IdSource.random : IdSource StdGen where
  draw stem gen :=
    let (picks, gen) := RandomId.picks gen RandomId.width
    .ok (RandomId.ofPicks stem picks, gen)

end Dbml
