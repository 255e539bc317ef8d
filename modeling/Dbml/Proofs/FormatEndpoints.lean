import Dbml.Proofs.Format

/-!
# Formatting relations

The canonical form writes an endpoint as the ids of its table and column, and these are not kept
anywhere else in the text. A formatted text that is parsed with other ids has other ids at its
tables and columns, but its relations still name the ids that they were written with.

Results:
* `findTable?_of_no_name`, `findColumn?_of_no_name`, `resolve_verbatim`: ids that are no names and no
  aliases are looked up as ids, and resolved to themselves;
* `mem_handOut`: handing out ids changes no names;
* `parse_format_endpoints`: formatting keeps the ids of endpoints, whatever ids are drawn next, so
  they lead to the same column exactly if its ids are drawn again;
* `format_unlinks_loop`: with ids that are never drawn again, a relation leads nowhere.
-/
namespace Dbml

open Text Outline Canonical

/-! ## Places -/

/-- The ids that lead to the column at a place: place `j` of the table at place `i`. -/
def Schema.columnAt? (s : Schema) (i j : Nat) : Option Endpoint :=
  s.tables[i]?.bind fun t => t.columns[j]?.map fun c => ⟨t.id, c.id⟩

/-- No table has the id of a table for its name or alias, and no column the id of a column for its
name. -/
structure Schema.IdsApart (s : Schema) : Prop where
  table : ∀ t ∈ s.tables, ∀ b ∈ s.tables, t.name ≠ b.id ∧ t.aliasName ≠ some b.id
  column : ∀ t ∈ s.tables, ∀ c ∈ t.columns, ∀ b ∈ s.tables, ∀ d ∈ b.columns, c.name ≠ d.id

instance (s : Schema) : Decidable s.IdsApart :=
  decidable_of_iff
    ((∀ t ∈ s.tables, ∀ b ∈ s.tables, t.name ≠ b.id ∧ t.aliasName ≠ some b.id) ∧
      ∀ t ∈ s.tables, ∀ c ∈ t.columns, ∀ b ∈ s.tables, ∀ d ∈ b.columns, c.name ≠ d.id)
    ⟨fun h => ⟨h.1, h.2⟩, fun h => ⟨h.table, h.column⟩⟩

/-- What becomes of an endpoint `e` of `s` in `s'`: if it leads to the column at some place, it
keeps the ids of this column, and in `s'` these are looked up as ids alone, never as names. So it
leads to the column at the same place exactly if that has the same ids again, and nothing is found
under its table's id if no table has that id again. -/
def Endpoint.CarriedTo (s s' : Schema) (e e' : Endpoint) : Prop :=
  ∀ i j, s.columnAt? i j = some e →
    e' = e ∧ findTable? s'.tables e'.table = s'.tables.find? (·.id == e.table) ∧
      ∀ t ∈ s'.tables, t.findColumn? e'.column = t.columns.find? (·.id == e.column)

/-- What becomes of a relation of `s` in `s'`. -/
structure Relation.CarriedTo (s s' : Schema) (r r' : Relation) : Prop where
  name : r'.name = r.name
  cardinality : r'.cardinality = r.cardinality
  source : r.source.CarriedTo s s' r'.source
  target : r.target.CarriedTo s s' r'.target

theorem exists_of_columnAt? {s : Schema} {i j : Nat} {e : Endpoint}
    (h : s.columnAt? i j = some e) :
    ∃ b ∈ s.tables, ∃ c ∈ b.columns, e = ⟨b.id, c.id⟩ := by
  obtain ⟨b, hb, hc⟩ := Option.bind_eq_some_iff.1 h
  obtain ⟨c, hc, he⟩ := Option.map_eq_some_iff.1 hc
  exact ⟨b, List.mem_of_getElem? hb, c, List.mem_of_getElem? hc, he.symm⟩

/-! ## Looking up ids among other ids -/

/-- A word that is no name and no alias is found as an id or not at all. -/
theorem findTable?_of_no_name {tables : List Table} {id : String}
    (h : ∀ t ∈ tables, t.name ≠ id ∧ t.aliasName ≠ some id) :
    findTable? tables id = tables.find? (·.id == id) := by
  have hname : tables.find? (·.name == id) = none :=
    List.find?_eq_none.2 fun t hm => by simpa using (h t hm).1
  have halias : tables.find? (·.aliasName == some id) = none :=
    List.find?_eq_none.2 fun t hm => by simpa using (h t hm).2
  rw [findTable?, hname, halias, Option.none_or, Option.none_or]

theorem findColumn?_of_no_name {t : Table} {id : String} (h : ∀ c ∈ t.columns, c.name ≠ id) :
    t.findColumn? id = t.columns.find? (·.id == id) := by
  have hname : t.columns.find? (·.name == id) = none :=
    List.find?_eq_none.2 fun c hm => by simpa using h c hm
  rw [Table.findColumn?, hname, Option.none_or]

/-- Ids that are no names and no aliases are resolved to themselves. -/
theorem resolve_verbatim {tables : List Table} {e : Endpoint}
    (ht : ∀ t ∈ tables, t.name ≠ e.table ∧ t.aliasName ≠ some e.table)
    (hc : ∀ t ∈ tables, ∀ c ∈ t.columns, c.name ≠ e.column) :
    resolve tables (columnName e) = e := by
  have hfind := findTable?_of_no_name ht
  cases hb : tables.find? (·.id == e.table) with
  | none => exact resolve_of_none (hfind.trans hb)
  | some b =>
    have hid : b.id = e.table := by simpa using List.find?_some hb
    have hcol : ((b.findColumn? e.column).map (·.id)).getD e.column = e.column := by
      rw [findColumn?_of_no_name (hc b (List.mem_of_find?_eq_some hb))]
      cases hd : b.columns.find? (·.id == e.column) with
      | none => rfl
      | some d => simpa using List.find?_some hd
    rw [resolve]
    simp only [columnName, hfind, hb, hcol, hid]

/-- Handing out ids changes no names. -/
theorem mem_handOut {ts : List Table} {ids : List String} {t' : Table} (h : t' ∈ handOut ts ids) :
    ∃ t ∈ ts, t'.name = t.name ∧ t'.aliasName = t.aliasName ∧
      ∀ c' ∈ t'.columns, ∃ c ∈ t.columns, c'.name = c.name := by
  induction ts generalizing ids with
  | nil => simp [handOut] at h
  | cons t ts ih =>
    rw [handOut] at h
    rcases List.mem_cons.1 h with rfl | h
    · refine ⟨t, List.mem_cons_self, ?_⟩
      cases ids.take t.ids.length with
      | nil => exact ⟨rfl, rfl, fun c hc => ⟨c, hc, rfl⟩⟩
      | cons id columnIds =>
        refine ⟨rfl, rfl, fun c' hc' => ?_⟩
        rw [Table.withIds, ← List.map_uncurry_zip_eq_zipWith] at hc'
        obtain ⟨⟨c, cid⟩, hm, rfl⟩ := List.mem_map.1 hc'
        exact ⟨c, (List.of_mem_zip hm).1, rfl⟩
    · obtain ⟨u, hu, hnames⟩ := ih h
      exact ⟨u, List.mem_cons_of_mem _ hu, hnames⟩

/-! ## Formatting with other ids -/

section Reread

variable {s : Schema} (hf : s.FromText) (hn : s.IdsApart) (ids : List String)
include hf hn

/-- An endpoint that led to a column keeps the ids of that column, which are no names. -/
theorem carriedTo_resolve (e : Endpoint) :
    e.CarriedTo s (s.reread ids) (resolve (s.reread ids).tables (columnName e)) := by
  intro i j hat
  obtain ⟨b, hb, c, hc, rfl⟩ := exists_of_columnAt? hat
  have htables : ∀ t ∈ (s.reread ids).tables, t.name ≠ b.id ∧ t.aliasName ≠ some b.id := by
    intro t ht
    obtain ⟨k, hk, hname, halias, -⟩ := mem_handOut ht
    obtain ⟨u, hu, rfl⟩ := List.mem_map.1 hk
    rw [hname, halias, (hf.tables u hu).kept]
    exact hn.table u hu b hb
  have hcolumns : ∀ t ∈ (s.reread ids).tables, ∀ d ∈ t.columns, d.name ≠ c.id := by
    intro t ht d hd
    obtain ⟨k, hk, -, -, hnames⟩ := mem_handOut ht
    obtain ⟨u, hu, rfl⟩ := List.mem_map.1 hk
    obtain ⟨m, hm, hname⟩ := hnames d hd
    obtain ⟨v, hv, rfl⟩ := List.mem_map.1 hm
    rw [hname]
    exact hn.column u hu v hv b hb c hc
  rw [resolve_verbatim (e := ⟨b.id, c.id⟩) htables hcolumns]
  exact ⟨rfl, findTable?_of_no_name htables, fun t ht => findColumn?_of_no_name (hcolumns t ht)⟩

theorem carriedTo_reread {r : Relation} (hr : r ∈ s.relations) (id : String) :
    r.CarriedTo s (s.reread ids) (r.reread (s.reread ids).tables id) where
  name := nonEmpty_of_oneLine (hf.relations r hr).name
  cardinality := rfl
  source := carriedTo_resolve hf hn ids r.source
  target := carriedTo_resolve hf hn ids r.target

end Reread

/-- A formatted text has no faults, whatever ids are drawn for it, and its tables agree with those of
the text before but have the ids that are drawn now. Its relations are the ones before, but an
endpoint that led to a column keeps the ids that the column had: it leads to the column at the same
place exactly if the same ids are drawn for that column again, and nowhere if its table's id is
not. -/
theorem parse_format_endpoints {σ τ : Type} {first : IdSource σ} {second : IdSource τ}
    (hfirst : first.Total) (hsecond : second.Total) (st : σ) (st' : τ) {text : String} {s : Schema}
    (h : (parse first st text).schema = some s) (hf : s.Formattable) (hn : s.IdsApart) :
    ∃ s', parse second st' (schema s) = ⟨some s', []⟩ ∧
      List.Forall₂ Table.Agrees s'.tables s.tables ∧
      s'.tables.flatMap Table.ids = second.idsFor (s'.tables.flatMap Table.idKinds) st' ∧
      List.Forall₂ (fun r' r => r.CarriedTo s s' r') s'.relations s.relations := by
  have hfrom := parse_fromText hfirst st h
  have hparse := hf.parse hsecond st' hfrom
  obtain ⟨-, -, hids, -⟩ := parse_numbered hsecond st' (congrArg Parsed.schema hparse)
  refine ⟨_, hparse, agrees_handOut hfrom.tables (length_idsFor_tables hsecond s st'), hids, ?_⟩
  refine forall₂_zipWith ?_ fun r hr id => carriedTo_reread hfrom hn _ hr id
  rw [List.length_drop, IdSource.length_idsFor hsecond, Schema.idKinds, List.length_append,
    List.length_map]
  simp only [List.length_flatMap, Table.length_ids]
  omega

/-! ## Ids that are never drawn again -/

/-- Ids of one letter, each longer than the one before. -/
def letters (c : Char) (n : Nat) : String := String.ofList (List.replicate (n + 1) c)

theorem letters_injective (c : Char) : Function.Injective (letters c) := by
  intro m n h
  have hlen := congrArg (fun s : String => s.toList.length) h
  simpa [letters] using hlen

theorem head?_letters (c : Char) (n : Nat) : (letters c n).toList.head? = some c := by
  simp [letters, List.replicate_succ]

theorem ne_letters {s : String} {c : Char} (h : s.toList.head? ≠ some c) (n : Nat) :
    s ≠ letters c n := by
  rintro rfl; exact h (head?_letters c n)

theorem isWord_letters {c : Char} (h : isWordStart c = true) (n : Nat) :
    isWord (letters c n).toList = true := by
  have hc : isWordChar c = true := isWordChar_of_isWordStart h
  simp [letters, List.replicate_succ, isWord, h, hc]

/-- A text with a relation of a column to itself. -/
def loopText : String := lines ["Table a \x7b", "  x int", "\x7d", "Ref: a.x > a.x"]

/-- What comes of that text where its table, column and relation get these ids. -/
def loop (tableId columnId relationId : String) (e : Endpoint) : Schema where
  tables := [
    { id := tableId, name := "a", columns := [{ id := columnId, name := "x", type := "int" }] }]
  relations := [{ id := relationId, source := e, target := e, cardinality := .manyToOne }]

theorem parse_loopText : parse (.stream (letters 'f')) 0 loopText =
    ⟨some (loop "f" "ff" "fff" ⟨"f", "ff"⟩), []⟩ := by
  decide +kernel

theorem parse_format_endpoints_loop :
    (IdSource.stream (letters 'f')).Total ∧ (IdSource.stream (letters 'g')).Total ∧
      (loop "f" "ff" "fff" ⟨"f", "ff"⟩).Formattable ∧
      (loop "f" "ff" "fff" ⟨"f", "ff"⟩).IdsApart ∧
      ∃ s', parse (.stream (letters 'g')) 0 (schema (loop "f" "ff" "fff" ⟨"f", "ff"⟩)) =
          ⟨some s', []⟩ ∧
        List.Forall₂ Table.Agrees s'.tables (loop "f" "ff" "fff" ⟨"f", "ff"⟩).tables ∧
        s'.tables.flatMap Table.ids =
          (IdSource.stream (letters 'g')).idsFor (s'.tables.flatMap Table.idKinds) 0 ∧
        List.Forall₂
          (fun r' r => r.CarriedTo (loop "f" "ff" "fff" ⟨"f", "ff"⟩) s' r')
          s'.relations (loop "f" "ff" "fff" ⟨"f", "ff"⟩).relations :=
  ⟨IdSource.stream_total _, IdSource.stream_total _, by decide, by decide,
    parse_format_endpoints (IdSource.stream_total _) (IdSource.stream_total _) 0 0
      (congrArg Parsed.schema parse_loopText) (by decide) (by decide)⟩

/-- A text with a relation to a table whose name is no word, and a relation of a column to itself. -/
def spacedText : String :=
  lines ["Table a \x7b", "  x int", "\x7d", "Ref: a.x > \"b c\".y", "Ref: a.x > a.x"]

/-- What comes of that text. -/
def spaced : Schema where
  tables := (loop "f" "ff" "fff" ⟨"f", "ff"⟩).tables
  relations := [
    { id := "fff", source := ⟨"f", "ff"⟩, target := ⟨"b c", "y"⟩, cardinality := .manyToOne },
    { id := "ffff", source := ⟨"f", "ff"⟩, target := ⟨"f", "ff"⟩, cardinality := .manyToOne }]

/-- Formatting a relation of a column to itself and parsing the result with ids that are words, are
distinct, are none of the first ids and none of the names: the relation led to the column and leads
to it no longer. And a relation to a name that is no word is lost, even where the same ids are
drawn, so that the one behind it comes first. -/
theorem format_unlinks_loop :
    (letters 'f').Injective ∧ (letters 'g').Injective ∧
      (∀ m n, letters 'f' m ≠ letters 'g' n) ∧
      (∀ n, isWord (letters 'f' n).toList = true ∧ isWord (letters 'g' n).toList = true) ∧
      (∀ n, ∀ name ∈ ["a", "x"], name ≠ letters 'f' n ∧ name ≠ letters 'g' n) ∧
      parse (.stream (letters 'f')) 0 loopText =
        ⟨some (loop "f" "ff" "fff" ⟨"f", "ff"⟩), []⟩ ∧
      (loop "f" "ff" "fff" ⟨"f", "ff"⟩).columnAt? 0 0 = some ⟨"f", "ff"⟩ ∧
      parse (.stream (letters 'g')) 0 (schema (loop "f" "ff" "fff" ⟨"f", "ff"⟩)) =
        ⟨some (loop "g" "gg" "ggg" ⟨"f", "ff"⟩), []⟩ ∧
      (loop "g" "gg" "ggg" ⟨"f", "ff"⟩).columnAt? 0 0 ≠ some ⟨"f", "ff"⟩ ∧
      parse (.stream (letters 'f')) 0 spacedText = ⟨some spaced, []⟩ ∧
      (parse (.stream (letters 'f')) 0 (schema spaced)).schema =
        some (loop "f" "ff" "fff" ⟨"f", "ff"⟩) := by
  refine ⟨letters_injective _, letters_injective _, fun m n => ?_, fun n => ?_, fun n name h => ?_,
    parse_loopText, rfl, by decide +kernel, by decide, by decide +kernel, by decide +kernel⟩
  · exact ne_letters (by rw [head?_letters]; decide) n
  · exact ⟨isWord_letters (by decide) n, isWord_letters (by decide) n⟩
  · simp only [List.mem_cons, List.not_mem_nil, or_false] at h
    rcases h with rfl | rfl
    · exact ⟨ne_letters (by decide) n, ne_letters (by decide) n⟩
    · exact ⟨ne_letters (by decide) n, ne_letters (by decide) n⟩

end Dbml
