import Dbml.Parser.Routine
import Dbml.Parser.Setting

/-!
# Tables

The routines that read a table: its header, the lines of its body and the brace that ends it. The
table's id is drawn behind the header, that of a column behind its type. The references of the
columns are kept with the table, and are dropped with one that is never closed.

Results:
* `parseColumn_performs`, `parseTableItem_performs`: what the line of a column and any line of a
  body go through;
* `along_adds`: what the lines of a body add to the table;
* `parseTable_performs`: what a table goes through, and what it gives with the ids drawn at it.
-/
namespace Dbml.Routine

open Text Outline Scan

variable {σ : Type} (source : IdSource σ)

/-! ## Columns -/

/-- Reads the line of a column, given the id of its table and the references of the columns before
(`_parse_column`). -/
def parseColumn (table : String) (refs : List RelationDraft) :
    Routine σ (Option Column × List RelationDraft) := do
  let name ← parseIdentifier
  if name.isEmpty then
    error .noColumnName
    discardRestOfLine
    return (none, refs)
  skipInlineWhitespace
  let type ← parseType
  if type.isEmpty then
    error (.noColumnType (String.ofList name))
    discardRestOfLine
    return (none, refs)
  let id ← newId source .column
  let (column, refs) ← parseOptionalSettings table
    { id, name := String.ofList name, type := String.ofList type } refs
  discardRestOfLine
  return (some column, refs)

/-- What the line of a column gives with the ids drawn at it. -/
inductive GivesColumn (table : String) (refs : List RelationDraft) :
    Line → List String → List RelationDraft → Option Column × List RelationDraft → Prop
  | column (d : ColumnDraft) (id : String) : GivesColumn table refs (.column d) [id] []
      (some (d.toColumn id), refs ++ (d.relation? table id).toList)
  | fault (f : Fault) : GivesColumn table refs (.fault f) [] [] (none, refs)

theorem foldl_applySetting_of_one {d : ColumnDraft} (h : d.OneReference) (table id : String)
    (refs : List RelationDraft) :
    d.settings.foldl (applySetting table) ({ id, name := d.name, type := d.type }, refs) =
      (d.toColumn id, refs ++ (d.relation? table id).toList) := by
  rw [foldl_applySetting, h, ColumnDraft.relation?, ColumnDraft.toColumn]
  cases d.reference? <;> rfl

theorem parseColumn_performs (p : Parser σ) (table : String) (refs : List RelationDraft) :
    Performs source p (columnLine p.scanner.rest).1.events (columnLine p.scanner.rest).2
      (GivesColumn table refs (columnLine p.scanner.rest).1)
      ((parseColumn source table refs).run p) := by
  cases hn : readIdentifier p.scanner.rest with
  | mk name r =>
    cases hname : name.isEmpty with
    | true =>
      have hline : columnLine p.scanner.rest = (.fault ⟨.noColumnName, r⟩, dropLine r) := by
        simp [columnLine, readColumn, scanColumn, hn, hname]
      rw [hline]
      simp only [parseColumn, run_scan_bind, reads_parseIdentifier, hn, hname, if_true]
      exact .scan <| .error (by simp [hn]) <| .scan_bind <| .pure (by simp [hn]) (.fault _)
    | false =>
      cases ht : readType (skipInline r) with
      | mk type t =>
        cases htype : type.isEmpty with
        | true =>
          have hline : columnLine p.scanner.rest =
              (.fault ⟨.noColumnType (String.ofList name), t⟩, dropLine t) := by
            simp [columnLine, readColumn, scanColumn, hn, hname, ht, htype]
          rw [hline]
          simp only [parseColumn, run_scan_bind, reads_parseIdentifier, reads_parseType,
            reads_skipInlineWhitespace, Parser.scan_scanner, rest_run, hn, hname, ht, htype,
            Bool.false_eq_true, if_false, if_true]
          exact .scan <| .scan <| .scan <| .error (by simp [hn, ht]) <| .scan_bind <|
            .pure (by simp [hn, ht]) (.fault _)
        | false =>
          cases ho : readOptionalSettings (skipInline t) with
          | mk settings u =>
            have hscan : scanColumn p.scanner.rest =
                (.ok ⟨String.ofList name, String.ofList type, t, settings⟩, u) := by
              simp [scanColumn, hn, hname, ht, htype, ho]
            have hline : columnLine p.scanner.rest =
                (.column ⟨String.ofList name, String.ofList type, t, settings⟩, dropLine u) := by
              simp [columnLine, readColumn, hscan]
            have hone := foldl_applySetting_of_one (scanColumn_oneReference _ _ _ hscan) table
            rw [hline]
            simp only [parseColumn, run_scan_bind, reads_parseIdentifier, reads_parseType,
              reads_skipInlineWhitespace, Parser.scan_scanner, rest_run, hn, hname, ht, htype,
              Bool.false_eq_true, if_false]
            refine .scan <| .scan <| .scan <| .newId (by simp [hn, ht]) fun id q hq _ => ?_
            have hrest : q.scanner.rest = t := by rw [hq]; simp [hn, ht]
            simp only [run_scan_bind, reads_parseOptionalSettings, hrest, ho, hone]
            exact .scan <| .scan <| .pure (by simp [hrest, ho]) (.column _ id)

/-! ## Bodies -/

/-- Adds the column of a line to a table (the last part of `_parse_table_item`). -/
def parseColumnItem (a : Table × List RelationDraft) : Routine σ (Table × List RelationDraft) := do
  let (column, refs) ← parseColumn source a.1.id a.2
  return ({ a.1 with columns := a.1.columns ++ column.toList }, refs)

/-- Reads a note of a table, given the length of the word that introduces it (a part of
`_parse_table_item`). -/
def parseNote (count : Nat) : Scan String := do
  advance count
  skipInlineWhitespace
  advance 1
  skipInlineWhitespace
  let value ← parseValue
  discardRestOfLine
  return String.ofList value

@[simp] theorem reads_parseNote (count : Nat) (s : Scanner) : (parseNote count).reads s =
    (Text.readValue (skipInline (skipInline (s.rest.drop count)).tail)).map String.ofList
      dropLine := by
  simp [parseNote]; rfl

/-- Reads a line of a table's body, given the table so far and the references of its columns
(`_parse_table_item`). -/
def parseTableItem (a : Table × List RelationDraft) : Routine σ (Table × List RelationDraft) := do
  let word := lower (← lookaheadWord)
  if word = "indexes" ∨ word = "note" then
    let behind ← peekPast word.length
    if behind = some '{' then
      -- Blocks of indexes and of notes are passed, but not kept.
      skipBlock
      return a
    if word = "note" ∧ behind = some ':' then
      let note ← parseNote word.length
      return ({ a.1 with note := some note }, a.2)
  parseColumnItem source a

/-- What a line adds to its table and to the references of the columns, with the ids drawn at it. -/
inductive Adds (a : Table × List RelationDraft) :
    Line → List String → List RelationDraft → Table × List RelationDraft → Prop
  | column (d : ColumnDraft) (id : String) : Adds a (.column d) [id] []
      ({ a.1 with columns := a.1.columns ++ [d.toColumn id] },
        a.2 ++ (d.relation? a.1.id id).toList)
  | note (value : String) : Adds a (.note value) [] [] ({ a.1 with note := some value }, a.2)
  | block : Adds a .block [] [] a
  | noise : Adds a .noise [] [] a
  | fault (f : Fault) : Adds a (.fault f) [] [] a

theorem parseColumnItem_performs (p : Parser σ) (a : Table × List RelationDraft) :
    Performs source p (columnLine p.scanner.rest).1.events (columnLine p.scanner.rest).2
      (fun ids kept a' => Adds a (columnLine p.scanner.rest).1 ids kept a')
      ((parseColumnItem source a).run p) := by
  refine .map (parseColumn_performs source p a.1.id a.2) fun ids kept b hb => ?_
  generalize (columnLine p.scanner.rest).1 = l at hb
  cases hb with
  | column d id => exact .column d id
  | fault f =>
    show Adds a (.fault f) [] [] ({ a.1 with columns := a.1.columns ++ [] }, a.2)
    rw [List.append_nil]
    exact .fault f

theorem wordLine?_eq (word : String) (t r : List Char) : wordLine? word t r =
    if word = "indexes" ∨ word = "note" then
      if r.head? = some '{' then some (.block, Text.skipBlock t)
      else if word = "note" ∧ r.head? = some ':' then
        some ((Text.readValue (skipInline r.tail)).map (fun v => .note (String.ofList v)) dropLine)
      else none
    else none := by
  unfold wordLine?
  split
  · split
    · simp
    · simp
    · rename_i hopen hcolon
      cases r with
      | nil => simp
      | cons c r =>
        have hc : c ≠ '{' ∧ c ≠ ':' :=
          ⟨fun e => hopen r (by rw [e]), fun e => hcolon r (by rw [e])⟩
        simp [hc]
  · rfl

theorem length_lower (w : List Char) : (lower w).length = w.length := by
  rw [lower, String.length_ofList, List.length_map]

theorem parseTableItem_performs (p : Parser σ) (a : Table × List RelationDraft) {c : Char}
    {r : List Char} (hc : c ≠ '/') (hp : p.scanner.rest = c :: r) :
    Performs source p (readLine p.scanner.rest).1.events (readLine p.scanner.rest).2
      (Adds a (readLine p.scanner.rest).1) ((parseTableItem source a).run p) := by
  have hword : p.scanner.rest.drop (lower (readWord p.scanner.rest).1).length =
      (readWord p.scanner.rest).2 := by
    rw [length_lower]; exact (congrArg Prod.snd (readWord_eq p.scanner.rest)).symm
  have hline : readLine p.scanner.rest = (wordLine? (lower (readWord p.scanner.rest).1)
      p.scanner.rest (skipInline (readWord p.scanner.rest).2)).getD (columnLine p.scanner.rest) := by
    rw [hp]; exact readLine_of_ne_slash hc r
  rw [hline, wordLine?_eq]
  simp only [parseTableItem, run_scan_bind, run_ite, reads_lookaheadWord, reads_peekPast,
    Parser.scan_scanner, rest_run, hword]
  split
  · split
    · exact .scan <| .scan <| .scan <| .pure (by simp) .block
    · split
      · simp only [reads_parseNote, rest_run, reads_peekPast, reads_lookaheadWord, hword]
        exact .scan <| .scan <| .scan <| .pure (by simp [hword]) (.note _)
      · exact .scan <| .scan <|
          parseColumnItem_performs source ((p.scan lookaheadWord).scan (peekPast _)) a
  · exact .scan (parseColumnItem_performs source (p.scan lookaheadWord) a)

/-- One turn of the loop in `_parse_table`. -/
def tableTurn (a : Table × List RelationDraft) :
    Routine σ (ForInStep (Table × List RelationDraft)) := do
  skipWhitespace
  if (← atEnd) || (← nextIs (· == '}')) then
    return .done a
  -- Stray noise.
  if ← nextIs fun c => c == '/' || c == '#' then
    skipLine
    return .yield a
  let a ← parseTableItem source a
  return .yield a

/-- Behind filler no hash sign stands. -/
theorem ne_hash_of_skipFiller {t r : List Char} {c : Char} (h : skipFiller t = c :: r) :
    c ≠ '#' := by
  rintro rfl
  have hstop := fillerPiece?_skipFiller t
  rw [h] at hstop
  cases hstop

theorem line?_of_some {t r : List Char} {l : Line} (h : line? t = some (l, r)) :
    ∃ c u, skipFiller t = c :: u ∧ c ≠ '}' ∧ readLine (c :: u) = (l, r) := by
  unfold line? at h
  split at h
  · cases h
  · cases h
  · rename_i c u hne hs
    exact ⟨c, u, hs, hne, Option.some.inj h⟩

theorem line?_of_none {t : List Char} (h : line? t = none) :
    (skipFiller t).isEmpty = true ∨ (skipFiller t).head?.any (· == '}') = true := by
  unfold line? at h
  split at h
  · rename_i hs; exact .inl (by rw [hs]; rfl)
  · rename_i hs; exact .inr (by rw [hs]; rfl)
  · cases h

theorem tableTurn_performs : Performs.Turn source (tableTurn source) line? Line.events (fun _ => [])
    skipFiller Adds where
  item p a l r h := by
    obtain ⟨c, u, hs, hne, hread⟩ := line?_of_some h
    simp only [tableTurn, run_scan_bind, run_ite, reads_atEnd, reads_nextIs, reads_skipWhitespace,
      rest_run, Parser.scan_scanner, hs, List.isEmpty_cons, List.head?_cons, Option.any_some,
      Bool.false_or, beq_iff_eq, hne, if_false]
    by_cases hc : c = '/'
    · subst hc
      have hnoise : readLine ('/' :: u) = (.noise, Text.skipLine u) := rfl
      obtain ⟨rfl, rfl⟩ := Prod.mk.inj (hnoise.symm.trans hread)
      rw [if_pos (by rfl)]
      exact .scan <| .scan <| .scan <| .scan <| .scan <| 
        .pure (by simp [hs, Text.skipLine]) ⟨a, rfl, .noise⟩
    · have hnoise : (c == '/' || c == '#') = false := by simp [hc, ne_hash_of_skipFiller hs]
      have hitem := parseTableItem_performs source
        ((((p.scan skipWhitespace).scan atEnd).scan (nextIs (· == '}'))).scan
          (nextIs fun c => c == '/' || c == '#')) a hc (r := u) (by simp [hs])
      have hrest : ((((p.scan skipWhitespace).scan atEnd).scan (nextIs (· == '}'))).scan
          (nextIs fun c => c == '/' || c == '#')).scanner.rest = c :: u := by simp [hs]
      rw [hrest, hread] at hitem
      rw [hnoise, if_neg (by simp)]
      exact .scan <| .scan <| .scan <| .scan <| .map hitem fun ids kept b hb => ⟨b, rfl, hb⟩
  stop p a h := by
    have hends : ((skipFiller p.scanner.rest).isEmpty ||
        (skipFiller p.scanner.rest).head?.any (· == '}')) = true :=
      Bool.or_eq_true_iff.2 (line?_of_none h)
    simp only [tableTurn, run_scan_bind, reads_atEnd, reads_nextIs, reads_skipWhitespace, rest_run,
      Parser.scan_scanner, hends, if_true]
    exact .scan <| .scan <| .scan <| .pure (by simp) ⟨rfl, rfl, rfl⟩

/-! ## Headers -/

/-- What the header of a table says. -/
structure TableHead where
  name : String
  aliasName : Option String
  settings : TableSettings

/-- Reads the end of a header, given what stands before it (a part of `_parse_table`). -/
def parseOpening (name : String) (aliasName : Option String) : Routine σ (Option TableHead) := do
  let settings ← parseHeaderSettings
  if ← nextIs (· == '{') then
    advance 1
    return some ⟨name, aliasName, settings⟩
  error .noTableOpening
  return none

/-- Reads the header of a table (the first part of `_parse_table`). -/
def parseHeader : Routine σ (Option TableHead) := do
  advance "Table".length
  skipWhitespace
  let name ← parseIdentifier
  if name.isEmpty then
    error .noTableName
    return none
  skipWhitespace
  if ← matchAlias then
    advance 2
    skipWhitespace
    let aliasName ← parseIdentifier
    if aliasName.isEmpty then
      error (.noTableAlias (String.ofList name))
      return none
    skipWhitespace
    parseOpening (String.ofList name) (some (String.ofList aliasName))
  else
    parseOpening (String.ofList name) none

/-- The head that a header makes. -/
def headOf (header : TableHeader) : TableHead :=
  ⟨header.name, header.aliasName, header.settings.foldl TableSettings.add {}⟩

/-- Goes through a header or its fault. -/
def PerformsHead (p : Parser σ) (x : Except Fault (TableHeader × List Char))
    (y : Except String (Option TableHead) × Parser σ) : Prop :=
  match x with
  | .ok (header, r) => Performs source p [] r
    (fun ids kept b => ids = [] ∧ kept = [] ∧ b = some (headOf header)) y
  | .error f => Performs source p [.fault f] f.rest
    (fun ids kept b => ids = [] ∧ kept = [] ∧ b = none) y

/-- The end of a header, given what stands before it. -/
def readOpening (name : String) (aliasName : Option String) (t : List Char) :
    Except Fault (TableHeader × List Char) :=
  match readTableSettings t with
  | (settings, '{' :: u) => .ok (⟨name, aliasName, settings⟩, u)
  | (_, u) => .error ⟨.noTableOpening, u⟩

theorem PerformsHead.scan {α : Type} {source : IdSource σ} {p : Parser σ} {m : Scan α}
    {x : Except Fault (TableHeader × List Char)} {y : Except String (Option TableHead) × Parser σ}
    (h : PerformsHead source (p.scan m) x y) : PerformsHead source p x y := by
  cases x with
  | ok => exact Performs.scan h
  | error => exact Performs.scan h

theorem parseOpening_performs (p : Parser σ) (name : String) (aliasName : Option String)
    {t : List Char} (ht : p.scanner.rest = t) :
    PerformsHead source p (readOpening name aliasName t) ((parseOpening name aliasName).run p) := by
  subst ht
  simp only [parseOpening, run_scan_bind, run_ite, reads_parseHeaderSettings, reads_nextIs, rest_run,
    Parser.scan_scanner]
  unfold readOpening
  split
  · rename_i settings u hs
    simp only [hs, Prod.map, id, List.head?_cons, Option.any_some, beq_self_eq_true, if_true]
    exact .scan <| .scan <| .scan <| .pure (by simp [hs]) ⟨rfl, rfl, rfl⟩
  · rename_i settings u hne hs
    simp only [hs, Prod.map, id, any_head?_eq_false hne, Bool.false_eq_true, if_false]
    exact .scan <| .scan <| .error (by simp [hs]) <| .pure (by simp [hs]) ⟨rfl, rfl, rfl⟩

theorem aliasWord?_eq_drop {t r : List Char} (h : aliasWord? t = some r) : r = t.drop 2 := by
  unfold aliasWord? at h
  split at h
  · split at h
    · exact (Option.some.inj h).symm
    · cases h
  · cases h

theorem readHeader_eq {t name r : List Char} (hn : readIdentifier (skipFiller t) = (name, r))
    (hname : name.isEmpty = false) : readHeader t =
      match aliasWord? (skipFiller r) with
      | none => readOpening (String.ofList name) none (skipFiller r)
      | some u =>
        if (readIdentifier (skipFiller u)).1.isEmpty then
          .error ⟨.noTableAlias (String.ofList name), (readIdentifier (skipFiller u)).2⟩
        else readOpening (String.ofList name)
          (some (String.ofList (readIdentifier (skipFiller u)).1))
          (skipFiller (readIdentifier (skipFiller u)).2) := by
  simp only [readHeader, hn, hname, readAlias, Bool.false_eq_true, if_false]
  cases aliasWord? (skipFiller r) with
  | none => rfl
  | some u => dsimp only; cases (readIdentifier (skipFiller u)).1.isEmpty <;> rfl

theorem parseHeader_performs (p : Parser σ) :
    PerformsHead source p (readHeader (p.scanner.rest.drop 5)) (parseHeader.run p) := by
  have hlength : "Table".length = 5 := rfl
  simp only [parseHeader, run_scan_bind, run_ite, reads_advance, reads_skipWhitespace,
    reads_parseIdentifier, reads_matchAlias, rest_run, Parser.scan_scanner, hlength]
  cases hn : readIdentifier (skipFiller (p.scanner.rest.drop 5)) with
  | mk name r =>
    cases hname : name.isEmpty with
    | true =>
      have hread : readHeader (p.scanner.rest.drop 5) = .error ⟨.noTableName, r⟩ := by
        simp [readHeader, hn, hname]
      rw [hread, if_pos rfl]
      exact .scan <| .scan <| .scan <| .error (by simp [hn]) <| .pure (by simp [hn]) ⟨rfl, rfl, rfl⟩
    | false =>
      rw [readHeader_eq hn hname, if_neg Bool.false_ne_true]
      cases ha : aliasWord? (skipFiller r) with
      | none =>
        exact .scan <| .scan <| .scan <| .scan <| .scan <|
          parseOpening_performs source _ _ _ (by simp [hn])
      | some u =>
        obtain rfl := aliasWord?_eq_drop ha
        dsimp only
        split
        · exact .scan <| .scan <| .scan <| .scan <| .scan <| .scan <| .scan <| .scan <|
            .error (by simp [hn]) <| .pure (by simp [hn]) ⟨rfl, rfl, rfl⟩
        · exact .scan <| .scan <| .scan <| .scan <| .scan <| .scan <| .scan <| .scan <| .scan <|
            parseOpening_performs source _ _ _ (by simp [hn])

/-! ## Statements -/

theorem tableTurn_advances : Advances (tableTurn source) :=
  (tableTurn_performs source).advances line?_progresses

/-- A table before its body is read, given its id. -/
def TableHead.table (head : TableHead) (id : String) : Table :=
  { id, name := head.name, aliasName := head.aliasName, color := head.settings.color,
    note := head.settings.note }

/-- Closes a table and keeps its references; those of a table that is never closed are dropped with
it (the last part of `_parse_table`). -/
def closeTable (table : Table) (refs : List RelationDraft) : Routine σ (Option Table) := do
  if ← nextIs (· == '}') then
    advance 1
    keep refs
    return some table
  error .noTableClosing
  return none

/-- Reads the body of a table (a part of `_parse_table`). -/
def parseBody (head : TableHead) : Routine σ (Option Table) := do
  let id ← newId source .table
  let (table, refs) ← loop (tableTurn source) (tableTurn_advances source) (head.table id, [])
  closeTable table refs

/-- Reads a table (`_parse_table`). -/
def parseTable : Routine σ (Option Table) := do
  match ← parseHeader with
  | none => return none
  | some head => parseBody source head

/-- Of values that are set one after another the last one stays. -/
theorem getLast?_cons_or {α : Type} (v : α) (vs : List α) (x : Option α) :
    ((v :: vs).getLast?).or x = (vs.getLast?).or (some v) := by
  rw [List.getLast?_cons]
  cases vs.getLast? <;> rfl

/-- What the lines of a body add. -/
theorem along_adds {a a' : Table × List RelationDraft} {lines : List Line} {ids : List String}
    {kept : List RelationDraft} (h : Performs.Along Adds a lines ids kept a') :
    kept = [] ∧ ids.length = (lines.filterMap Line.column?).length ∧
      a' = ({ a.1 with
          columns := a.1.columns ++
            List.zipWith ColumnDraft.toColumn (lines.filterMap Line.column?) ids
          note := ((lines.filterMap Line.note?).getLast?).or a.1.note },
        a.2 ++ (List.zipWith (ColumnDraft.relation? a.1.id) (lines.filterMap Line.column?)
          ids).filterMap id) := by
  induction h with
  | nil a => simp
  | @cons a _ _ _ lines _ _ _ _ h _ ih =>
    obtain ⟨rfl, hids, rfl⟩ := ih
    cases h with
    | column d id =>
      cases hd : d.relation? a.1.id id <;>
        simp [List.filterMap_cons, Line.column?, Line.note?, hids, hd]
    | note v =>
      simp only [List.filterMap_cons, Line.column?, Line.note?, getLast?_cons_or]
      simp [hids]
    | block | noise | fault => simp [List.filterMap_cons, Line.column?, Line.note?, hids]

theorem foldl_add (a : TableSettings) (xs : List TableSetting) :
    xs.foldl TableSettings.add a =
      ⟨((xs.filterMap fun | .color v => some v | _ => none).getLast?).or a.color,
        ((xs.filterMap fun | .note v => some v | _ => none).getLast?).or a.note⟩ := by
  induction xs generalizing a with
  | nil => simp
  | cons x xs ih =>
    rw [List.foldl_cons, ih]
    cases x with
    | color v | note v => simp only [List.filterMap_cons, TableSettings.add, getLast?_cons_or]
    | other => simp only [List.filterMap_cons, TableSettings.add]

theorem tableLoop_performs (p : Parser σ) (a : Table × List RelationDraft) :
    Performs source p ((many line? line?_progresses p.scanner.rest).1.flatMap Line.events)
      (skipFiller (many line? line?_progresses p.scanner.rest).2)
      (Performs.Along Adds a (many line? line?_progresses p.scanner.rest).1)
      ((loop (tableTurn source) (tableTurn_advances source) a).run p) := by
  have hloop := Performs.loop (tableTurn_performs source) line?_progresses
    (h := tableTurn_advances source) a p
  rwa [List.append_nil] at hloop

/-- The table of a header whose body was read. -/
theorem toTable_of_along {header : TableHeader} {lines : List Line} {id : String}
    {ids : List String} {kept : List RelationDraft} {a : Table × List RelationDraft}
    (h : Performs.Along Adds ((headOf header).table id, []) lines ids kept a) (t : List Char) :
    kept = [] ∧ a.1 = (TableDraft.mk header t lines).toTable id ids ∧
      a.2 = (TableDraft.mk header t lines).relations id ids := by
  obtain ⟨hkept, -, rfl⟩ := along_adds h
  have hsettings := foldl_add {} header.settings
  have hcolor : (headOf header).settings.color = (TableDraft.mk header t lines).color? :=
    (congrArg TableSettings.color hsettings).trans Option.or_none
  have hnote : ((lines.filterMap Line.note?).getLast?).or (headOf header).settings.note =
      (TableDraft.mk header t lines).note? := by
    rw [TableDraft.note?, List.getLast?_append]
    exact congrArg _ ((congrArg TableSettings.note hsettings).trans Option.or_none)
  refine ⟨hkept, ?_, List.nil_append _⟩
  rw [TableDraft.toTable, ← hcolor, ← hnote]
  rfl

theorem closeTable_performs_close (q : Parser σ) (table : Table) (refs : List RelationDraft)
    {u : List Char} (hq : q.scanner.rest = '}' :: u) :
    Performs source q [] u (fun ids kept b => ids = [] ∧ kept = refs ∧ b = some table)
      ((closeTable table refs).run q) := by
  simp only [closeTable, run_scan_bind, reads_nextIs, hq, List.head?_cons, Option.any_some,
    beq_self_eq_true, if_true]
  refine .scan <| .scan <| .keep fun q' hq' => .pure (by simp [hq', hq]) ?_
  simp

theorem closeTable_performs_open (q : Parser σ) (table : Table) (refs : List RelationDraft)
    {t : List Char} (hq : q.scanner.rest = t) (ht : ∀ u, t = '}' :: u → False) :
    Performs source q [.fault ⟨.noTableClosing, t⟩] t
      (fun ids kept b => ids = [] ∧ kept = [] ∧ b = none)
      ((closeTable table refs).run q) := by
  subst hq
  simp only [closeTable, run_scan_bind, reads_nextIs, any_head?_eq_false ht, Bool.false_eq_true,
    if_false]
  exact .scan <| .error (by simp) <| .pure (by simp) ⟨rfl, rfl, rfl⟩

theorem parseBody_performs (p : Parser σ) (header : TableHeader) {t : List Char}
    (ht : p.scanner.rest = t) :
    Performs source p (readBody header t).1.events (readBody header t).2
      (fun ids kept b => (b, kept) = (Item.table (readBody header t).1).build ids)
      ((parseBody source (headOf header)).run p) := by
  have hloop : ∀ (q : Parser σ) (id : String), q.scanner.rest = t → Performs source q
      ((many line? line?_progresses t).1.flatMap Line.events)
      (skipFiller (many line? line?_progresses t).2)
      (Performs.Along Adds ((headOf header).table id, []) (many line? line?_progresses t).1)
      ((loop (tableTurn source) (tableTurn_advances source)
        ((headOf header).table id, [])).run q) := by
    intro q id hq
    have := tableLoop_performs source q ((headOf header).table id, [])
    rwa [hq] at this
  unfold readBody
  dsimp only
  split
  · rename_i u hs
    refine .newId ht fun id q hq _ => ?_
    rw [← List.append_nil (List.flatMap _ _)]
    refine .bind (hloop q id (by rw [hq, ht])) fun q' a ids kept hq' _ hadds => ?_
    obtain ⟨rfl, htable, hrefs⟩ := toTable_of_along hadds t
    refine (closeTable_performs_close source q' a.1 a.2 (hq'.trans hs)).mono ?_
    rintro ids' kept' b ⟨rfl, rfl, rfl⟩
    simp [Item.build, htable, hrefs]
  · rename_i hne
    refine .newId ht fun id q hq _ => ?_
    refine .bind (hloop q id (by rw [hq, ht])) fun q' a ids kept hq' _ hadds => ?_
    obtain ⟨rfl, htable, hrefs⟩ := toTable_of_along hadds t
    refine (closeTable_performs_open source q' a.1 a.2 hq' hne).mono ?_
    rintro ids' kept' b ⟨rfl, rfl, rfl⟩
    rfl

theorem parseTable_performs (p : Parser σ) {t : List Char} (ht : p.scanner.rest.drop 5 = t) :
    Performs source p (Item.table (readTable t).1).events (readTable t).2
      (fun ids kept b => (b, kept) = (Item.table (readTable t).1).build ids)
      ((parseTable source).run p) := by
  have hheader := parseHeader_performs source p
  rw [ht] at hheader
  cases hread : readHeader t with
  | error f =>
    have htable : readTable t = (.headless f, f.rest) := by simp only [readTable, hread]
    rw [hread] at hheader
    have hfault : Performs source p [.fault f] f.rest
        (fun ids kept b => ids = [] ∧ kept = [] ∧ b = none) (parseHeader.run p) := hheader
    rw [htable]
    show Performs source p ([.fault f] ++ []) _ _ _
    refine .bind hfault fun q b ids kept hq _ hb => ?_
    obtain ⟨rfl, rfl, rfl⟩ := hb
    exact .pure hq rfl
  | ok found =>
    have htable : readTable t = readBody found.1 found.2 := by simp only [readTable, hread]
    rw [hread] at hheader
    have hhead : Performs source p [] found.2
        (fun ids kept b => ids = [] ∧ kept = [] ∧ b = some (headOf found.1)) (parseHeader.run p) :=
      hheader
    rw [htable, ← List.nil_append (Item.events _)]
    refine .bind hhead fun q b ids kept hq _ hb => ?_
    obtain ⟨rfl, rfl, rfl⟩ := hb
    exact parseBody_performs source q found.1 hq

end Dbml.Routine
