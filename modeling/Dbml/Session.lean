import Dbml.Canonical
import Dbml.Interchange.Schema
import Dbml.Parse

/-!
# Sessions

A session works on one schema with one source of ids: it parses texts, edits the schema and writes
it back. What is added comes as an interchange value and is checked first. An edit that fails
changes nothing.
-/
namespace Dbml.Session

/-- An edit of the current schema. Tables are given by their places, which count from zero, or
backwards from minus one at the end. -/
inductive Edit where
  | addTable (value : Value)
  | addRelation (value : Value)
  | addGroup (value : Value)
  | addColumn (table : Int) (value : Value)
  | removeTable (table : Int)
  | moveTable (table place : Int)
  | renameTable (table : Int) (name : String)
  deriving Repr

/-- What a session is asked to do. -/
inductive Command where
  | parse (text : String)
  | nextId (stem : String)
  | new
  | generate
  /-- Parse the text of the current schema. -/
  | reparse
  | edit (edit : Edit)
  deriving Repr

/-- Why an edit fails. -/
inductive EditError where
  | outOfRange
  | invalid (issues : List Issue)
  deriving DecidableEq, Repr

/-- What a session answers. -/
inductive Reply where
  | parsed (parsed : Parsed)
  | id (id : String)
  | idRefused
  | done
  | noSchema
  | text (text : String)
  /-- The schema after an edit. -/
  | edited (schema : Schema)
  | failed (error : EditError)
  deriving DecidableEq, Repr

/-- The state of a session. -/
structure State (σ : Type) where
  ids : σ
  schema : Option Schema := none

/-! ## Edits -/

/-- A checked value, or the issues as the reason why an edit fails. -/
def checked {α : Type} : Checked α → Except EditError α
  | .ok a => .ok a
  | .invalid issues => .error (.invalid issues)

/-- A place among `count` items, counted from the front. -/
def fromFront (count : Nat) (i : Int) : Int := if i < 0 then i + count else i

/-- The item at a place, if there is one, and its place counted from the front. -/
def itemAt {α : Type} (items : List α) (i : Int) : Except EditError (Nat × α) :=
  match fromFront items.length i with
  | .ofNat n =>
    match items[n]? with
    | some a => .ok (n, a)
    | none => .error .outOfRange
  | .negSucc _ => .error .outOfRange

/-- The list with an item put before the one at place `i`, or at the end that is nearer. -/
def insertItem {α : Type} (items : List α) (i : Int) (a : α) : List α :=
  let n := (fromFront items.length i).toNat
  items.take n ++ a :: items.drop n

/-- The list with the item at one place, counted from the front, moved to another. -/
def moveItem {α : Type} (items : List α) (i : Nat) (j : Int) (a : α) : List α :=
  insertItem (items.eraseIdx i) j a

/-- The schema after an edit. A table's place is looked up before a value is checked. -/
def Edit.apply (s : Schema) : Edit → Except EditError Schema
  | addTable v => (checked (Codec.table.read v)).map fun t => { s with tables := s.tables ++ [t] }
  | addRelation v =>
    (checked (Codec.relation.read v)).map fun r => { s with relations := s.relations ++ [r] }
  | addGroup v =>
    (checked (Codec.tableGroup.read v)).map fun g => { s with groups := s.groups ++ [g] }
  | addColumn i v =>
    (itemAt s.tables i).bind fun (n, t) => (checked (Codec.column.read v)).map fun c =>
      { s with tables := s.tables.set n { t with columns := t.columns ++ [c] } }
  | removeTable i =>
    (itemAt s.tables i).map fun (n, _) => { s with tables := s.tables.eraseIdx n }
  | moveTable i j =>
    (itemAt s.tables i).map fun (n, t) => { s with tables := moveItem s.tables n j t }
  | renameTable i name =>
    (itemAt s.tables i).map fun (n, t) => { s with tables := s.tables.set n { t with name } }

/-! ## Commands -/

variable {σ : Type}

/-- Parses a text; what comes of it replaces the current schema. -/
def parseText (source : IdSource σ) (st : State σ) (text : String) : Reply × State σ :=
  let (p, ids) := parseWith source st.ids text
  (.parsed p, ⟨ids, p.schema⟩)

/-- Does something with the current schema, if there is one. -/
def withSchema (st : State σ) (f : Schema → Reply × State σ) : Reply × State σ :=
  match st.schema with
  | some s => f s
  | none => (.noSchema, st)

/-- The answer to a command and the state after it. -/
def step (source : IdSource σ) (st : State σ) : Command → Reply × State σ
  | .parse text => parseText source st text
  | .nextId stem =>
    match source.draw stem st.ids with
    | .ok (id, ids) => (.id id, { st with ids })
    | .error (_, ids) => (.idRefused, { st with ids })
  | .new => (.done, { st with schema := some {} })
  | .generate => withSchema st fun s => (.text (Canonical.schema s), st)
  | .reparse => withSchema st fun s => parseText source st (Canonical.schema s)
  | .edit e => withSchema st fun s =>
    match e.apply s with
    | .ok s' => (.edited s', { st with schema := some s' })
    | .error error => (.failed error, st)

/-- The answers to commands, and the state after the last. -/
def run (source : IdSource σ) (st : State σ) : List Command → List Reply × State σ
  | [] => ([], st)
  | c :: cs =>
    let (reply, st') := step source st c
    (run source st' cs).map (reply :: ·) id

end Dbml.Session
