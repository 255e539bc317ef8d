import Dbml.Proofs.Reread.Column

/-!
# Tables read back

The canonical text of a table is its header, its note, its columns line by line and a closing
brace. Read back, it gives a draft that shows the table (`TableDraft.Shows`).

Results:
* `readHeader_tableHeader`: the header is read back, alias included;
* `many_line?_columns`: the lines of the columns are read back one by one;
* `readTable_table`: a table is read back from its canonical text.
-/
namespace Dbml

/-- A name that is unset, empty, or read back as it is. -/
def Canonical.PlainOption (name : Option String) : Prop :=
  ∀ a ∈ nonEmpty name, Canonical.PlainName a

instance (name : Option String) : Decidable (Canonical.PlainOption name) :=
  inferInstanceAs (Decidable (∀ a ∈ nonEmpty name, Canonical.PlainName a))

/-- What the canonical form of a table keeps of it, ids apart. -/
def Table.kept (t : Table) : Table where
  id := t.id
  name := t.name
  aliasName := nonEmpty t.aliasName
  note := nonEmpty t.note
  columns := t.columns.map Column.kept

/-- A table whose canonical text is read back as that table. -/
structure Table.Rereadable (t : Table) : Prop where
  name : Canonical.PlainName t.name
  aliasName : Canonical.PlainOption t.aliasName
  columns : ∀ c ∈ t.columns, c.Rereadable

/-- A draft says of a table what its canonical text says. -/
structure Outline.TableDraft.Shows (d : Outline.TableDraft) (t : Table) : Prop where
  header : d.header = ⟨t.name, nonEmpty t.aliasName, []⟩
  columns : List.Forall₂ Outline.ColumnDraft.Shows d.columns t.columns
  note : d.note? = nonEmpty t.note
  events : d.lines.flatMap Outline.Line.events = d.columns.map fun c => .draw .column c.rest

namespace Canonical

open Text Outline

/-! ## Text -/

theorem toList_lines_concat (ls : List String) (l : String) :
    (lines (ls ++ [l])).toList = ls.flatMap (fun l => l.toList ++ ['\n']) ++ l.toList := by
  unfold lines
  induction ls with
  | nil => rfl
  | cons k ls ih =>
    cases ls with
    | nil => simp [joined]
    | cons m ls =>
      rw [List.cons_append, List.cons_append, joined, ← List.cons_append]
      simp only [String.toList_append, ih]
      simp

/-- The lines of the columns, each with its newline. -/
def columnLines (cs : List Column) : List Char := cs.flatMap fun c => (column c).toList ++ ['\n']

/-- The body of a table between its opening brace and its closing one. -/
def tableBody (t : Table) : List Char :=
  '\n' :: ((noteLines t.note).flatMap (fun l => l.toList ++ ['\n']) ++ columnLines t.columns)

theorem toList_table (t : Table) :
    (table t).toList = (tableHeader t).toList ++ (tableBody t ++ ['}']) := by
  rw [table, toList_lines_concat]
  simp [tableBody, columnLines, List.flatMap_map]

/-! ## The header -/

theorem skipFiller_identifier {name : String} (hn : '\n' ∉ name.toList) (s : List Char) :
    skipFiller ((identifier name).toList ++ s) = (identifier name).toList ++ s := by
  obtain ⟨c, r, hc, hw⟩ := identifier_head hn
  rw [hc]
  exact skipFiller_of_stopsAt (stopsAt_cons.2 (not_startsFiller_of_isWordStart hw))

/-- The text of a header from the alias on. -/
def aliasText (aliasName : Option String) (s : List Char) : List Char :=
  (optionalName " as " aliasName).toList ++ ' ' :: '{' :: s

theorem stopsAt_aliasText (aliasName : Option String) (s : List Char) :
    StopsAt isWordChar (aliasText aliasName s) := by
  unfold aliasText optionalName
  cases aliasName with
  | none => exact stopsAt_space _
  | some a =>
    dsimp only; split
    · exact stopsAt_space _
    · rw [String.toList_append, List.append_assoc]; exact stopsAt_space _

theorem aliasText_none {aliasName : Option String} (h : nonEmpty aliasName = none)
    (s : List Char) : aliasText aliasName s = ' ' :: '{' :: s := by
  cases aliasName with
  | none => rfl
  | some a =>
    have ha : a = "" := by simpa [nonEmpty] using h
    rw [ha]; rfl

theorem aliasText_some {aliasName : Option String} {a : String} (h : nonEmpty aliasName = some a)
    (s : List Char) : aliasText aliasName s =
      ' ' :: 'a' :: 's' :: ' ' :: ((identifier a).toList ++ ' ' :: '{' :: s) := by
  cases aliasName with
  | none => cases h
  | some b =>
    have hb : b ≠ "" ∧ b = a := by simpa [nonEmpty] using h
    obtain ⟨hne, rfl⟩ := hb
    simp [aliasText, optionalName, hne]

/-- The alias behind its word, whatever filler stands between the two. -/
theorem readAlias_named {name : String} (hn : PlainName name) {s t : List Char}
    (he : wordEnds s = true) (hs : skipFiller s = (identifier name).toList ++ t)
    (ht : StopsAt isWordChar t) (table : List Char) :
    readAlias table ('a' :: 's' :: s) = .ok (some name, skipFiller t) := by
  have hword : aliasWord? ('a' :: 's' :: s) = some s := by simp [aliasWord?, he]
  have hname := readIdentifier_identifier hn.no_backtick hn.no_newline ht
  simp only [readAlias, hword, hs, hname, List.isEmpty_iff, hn.ne_nil, if_false,
    String.ofList_toList]

theorem readAlias_aliasText {aliasName : Option String} (h : PlainOption aliasName)
    (table s : List Char) :
    readAlias table (skipFiller (aliasText aliasName s)) =
      .ok (nonEmpty aliasName, '{' :: s) := by
  have hopen : skipFiller (' ' :: '{' :: s) = '{' :: s := by
    rw [skipFiller_space]
    exact skipFiller_of_stopsAt (stopsAt_cons.2 (by decide))
  cases halias : nonEmpty aliasName with
  | none =>
    rw [aliasText_none halias, hopen]
    rfl
  | some a =>
    have hp : PlainName a := h a halias
    have has : skipFiller (' ' :: 'a' :: 's' :: ' ' :: ((identifier a).toList ++ ' ' :: '{' :: s)) =
        'a' :: 's' :: ' ' :: ((identifier a).toList ++ ' ' :: '{' :: s) := by
      rw [skipFiller_space]
      exact skipFiller_of_stopsAt (stopsAt_cons.2 (by decide))
    have hname : skipFiller (' ' :: ((identifier a).toList ++ ' ' :: '{' :: s)) =
        (identifier a).toList ++ ' ' :: '{' :: s := by
      rw [skipFiller_space, skipFiller_identifier hp.no_newline]
    rw [aliasText_some halias, has, readAlias_named hp rfl hname (stopsAt_space _), hopen]

/-- A header is read back from its name, what stands for its alias and the brace behind that,
whatever filler stands between them. -/
theorem readHeader_named {name : String} {aliasName : Option String} {s r u : List Char}
    (hn : PlainName name) (hs : skipFiller s = (identifier name).toList ++ r)
    (hr : StopsAt isWordChar r)
    (ha : readAlias name.toList (skipFiller r) = .ok (aliasName, '{' :: u)) :
    readHeader s = .ok (⟨name, aliasName, []⟩, u) := by
  have hname := readIdentifier_identifier hn.no_backtick hn.no_newline hr
  have hsettings : readTableSettings ('{' :: u) = ([], '{' :: u) := rfl
  simp only [readHeader, hs, hname, ha, hsettings, List.isEmpty_iff, hn.ne_nil, if_false,
    String.ofList_toList]

/-- The header of a table is read back, given the text after the word that introduces it. -/
theorem readHeader_tableHeader {t : Table} (hn : PlainName t.name)
    (ha : PlainOption t.aliasName) (s : List Char) :
    readHeader (' ' :: ((identifier t.name).toList ++ aliasText t.aliasName s)) =
      .ok (⟨t.name, nonEmpty t.aliasName, []⟩, s) := by
  refine readHeader_named hn ?_ (stopsAt_aliasText t.aliasName s)
    (readAlias_aliasText ha t.name.toList s)
  rw [skipFiller_space, skipFiller_identifier hn.no_newline]

/-! ## The body -/

/-- Only what stands behind its filler tells one body from another. -/
theorem line?_congr {s t : List Char} (h : skipFiller s = skipFiller t) : line? s = line? t := by
  unfold line?; rw [h]

theorem many_line?_congr {s t : List Char} (h : skipFiller s = skipFiller t) :
    (many line? line?_progresses s).1 = (many line? line?_progresses t).1 ∧
      skipFiller (many line? line?_progresses s).2 =
        skipFiller (many line? line?_progresses t).2 := by
  have hline := line?_congr h
  cases ht : line? t with
  | none => rw [many_of_none ht, many_of_none (hline.trans ht)]; exact ⟨rfl, h⟩
  | some p =>
    obtain ⟨l, r⟩ := p
    rw [many_of_some ht, many_of_some (hline.trans ht)]
    exact ⟨rfl, rfl⟩

/-- A newline in front of a body changes nothing of what is read. -/
theorem many_line?_blank (s : List Char) :
    (many line? line?_progresses ('\n' :: s)).1 = (many line? line?_progresses s).1 ∧
      skipFiller (many line? line?_progresses ('\n' :: s)).2 =
        skipFiller (many line? line?_progresses s).2 :=
  many_line?_congr (skipFiller_newline s)

theorem line?_closing (s : List Char) : line? ('}' :: s) = none := by
  unfold line?
  rw [skipFiller_of_stopsAt (stopsAt_cons.2 (by decide))]; rfl

/-- A line that holds a column, which the draft of the line shows. -/
def ShowsColumn (l : Line) (c : Column) : Prop := ∃ d, l = .column d ∧ d.Shows c

theorem many_line?_columns {cs : List Column} (h : ∀ c ∈ cs, c.Rereadable) (s : List Char) :
    ∃ ls, many line? line?_progresses (columnLines cs ++ '}' :: s) = (ls, '}' :: s) ∧
      List.Forall₂ ShowsColumn ls cs := by
  induction cs with
  | nil => exact ⟨[], many_of_none (line?_closing s), .nil⟩
  | cons c cs ih =>
    obtain ⟨ls, hls, hshows⟩ := ih fun c hc => h c (List.mem_cons_of_mem _ hc)
    obtain ⟨d, hd, hdc⟩ := line?_column (h c List.mem_cons_self) (columnLines cs ++ '}' :: s)
    refine ⟨.column d :: ls, ?_, .cons ⟨d, rfl, hdc⟩ hshows⟩
    have hsplit : columnLines (c :: cs) ++ '}' :: s =
        (column c).toList ++ '\n' :: (columnLines cs ++ '}' :: s) := by
      simp [columnLines]
    rw [hsplit, many_of_some hd, hls]

/-- A note is read back, whatever the letter case of the word that introduces it. -/
theorem readLine_note {w : List Char} (hw : lower w = "note") (v : String) (s : List Char) :
    readLine (w ++ ':' :: ' ' :: ((literal v).toList ++ '\n' :: s)) = (.note v, s) := by
  have hfolded : lower w = lower "note".toList := hw.trans (by decide)
  have hword := isWord_of_folded hfolded (by decide) (by decide)
  have hread := readWord_append hword
    (stopsAt_cons.2 (by decide) : StopsAt isWordChar (':' :: ' ' :: ((literal v).toList ++ '\n' :: s)))
  have hblank : skipInline (' ' :: ((literal v).toList ++ '\n' :: s)) =
      (literal v).toList ++ '\n' :: s := by
    rw [toList_literal]; rfl
  have hvalue : readValue ((literal v).toList ++ '\n' :: s) = (v.toList, '\n' :: s) := by
    have hq := readQuoted_literal v (s := '\n' :: s) rfl
    rw [toList_literal] at hq ⊢
    exact hq
  cases w with
  | nil => cases hword
  | cons c w =>
    have hc : c ≠ '/' := by
      rintro rfl
      revert hword
      simp [isWord, isWordStart]
    rw [List.cons_append] at hread ⊢
    rw [readLine_of_ne_slash hc, hread, hw]
    show (wordLine? "note" _ (':' :: ' ' :: ((literal v).toList ++ '\n' :: s))).getD _ = _
    simp only [wordLine?, hblank, hvalue]
    simp [dropLine_newline]

theorem line?_note (v : String) (s : List Char) :
    line? ((indent ++ "note: " ++ literal v).toList ++ '\n' :: s) = some (.note v, s) := by
  have hline := readLine_note (w := "note".toList) (by decide) v s
  have hfiller : skipFiller ((indent ++ "note: " ++ literal v).toList ++ '\n' :: s) =
      "note".toList ++ ':' :: ' ' :: ((literal v).toList ++ '\n' :: s) := by
    simp only [indent, String.toList_append, List.append_assoc]
    show skipFiller (' ' :: ' ' :: ("note: ".toList ++ ((literal v).toList ++ '\n' :: s))) = _
    rw [skipFiller_space, skipFiller_space]
    exact skipFiller_of_stopsAt (stopsAt_cons.2 (by decide))
  rw [line?_of_skipFiller hfiller (by decide)]
  exact congrArg some hline

/-- The lines of a table that sets a note and has columns. -/
structure ShowsBody (ls : List Line) (t : Table) : Prop where
  notes : ls.filterMap Line.note? = (nonEmpty t.note).toList
  columns : List.Forall₂ ColumnDraft.Shows (ls.filterMap Line.column?) t.columns
  events : ls.flatMap Line.events =
    (ls.filterMap Line.column?).map fun c => .draw .column c.rest

theorem filterMap_of_showsColumn {ls : List Line} {cs : List Column}
    (h : List.Forall₂ ShowsColumn ls cs) :
    ls.filterMap Line.note? = [] ∧
      List.Forall₂ ColumnDraft.Shows (ls.filterMap Line.column?) cs ∧
      ls.flatMap Line.events = (ls.filterMap Line.column?).map fun c => .draw .column c.rest := by
  induction h with
  | nil => exact ⟨rfl, .nil, rfl⟩
  | cons hl _ ih =>
    obtain ⟨d, rfl, hd⟩ := hl
    obtain ⟨hn, hc, he⟩ := ih
    refine ⟨by simpa [Line.note?] using hn, ?_, ?_⟩
    · simpa [Line.column?] using List.Forall₂.cons hd hc
    · simp [Line.column?, Line.events, he]

theorem noteLines_of_none {note : Option String} (h : nonEmpty note = none) :
    noteLines note = [] := by
  cases note with
  | none => rfl
  | some v =>
    have hv : v = "" := by simpa [nonEmpty] using h
    rw [hv]; rfl

theorem noteLines_of_some {note : Option String} {v : String} (h : nonEmpty note = some v) :
    noteLines note = [indent ++ "note: " ++ literal v, ""] := by
  cases note with
  | none => cases h
  | some w =>
    obtain ⟨hne, rfl⟩ : w ≠ "" ∧ w = v := by simpa [nonEmpty] using h
    simp [noteLines, hne]

/-- The body of a table is read as the note that it sets, if any, and the lines of its columns. -/
theorem many_line?_body (t : Table) (s : List Char) :
    (many line? line?_progresses (tableBody t ++ s)).1 =
        (nonEmpty t.note).toList.map Line.note ++
          (many line? line?_progresses (columnLines t.columns ++ s)).1 ∧
      skipFiller (many line? line?_progresses (tableBody t ++ s)).2 =
        skipFiller (many line? line?_progresses (columnLines t.columns ++ s)).2 := by
  rw [tableBody, List.cons_append, List.append_assoc, (many_line?_blank _).1,
    (many_line?_blank _).2]
  cases hnote : nonEmpty t.note with
  | none =>
    rw [noteLines_of_none hnote]
    exact ⟨rfl, rfl⟩
  | some v =>
    have hsplit : (noteLines t.note).flatMap (fun l => l.toList ++ ['\n']) ++
          (columnLines t.columns ++ s) =
        (indent ++ "note: " ++ literal v).toList ++ '\n' :: '\n' :: (columnLines t.columns ++ s) := by
      rw [noteLines_of_some hnote]; simp
    rw [hsplit, many_of_some (line?_note v _)]
    exact ⟨congrArg (Line.note v :: ·) (many_line?_blank _).1, (many_line?_blank _).2⟩

/-- The note of a table, if any, and the lines that show its columns are the lines of its body. -/
theorem showsBody_of_columns {t : Table} {ls : List Line}
    (h : List.Forall₂ ShowsColumn ls t.columns) :
    ShowsBody ((nonEmpty t.note).toList.map Line.note ++ ls) t := by
  obtain ⟨hn, hc, he⟩ := filterMap_of_showsColumn h
  have hnotes : ((nonEmpty t.note).toList.map Line.note).filterMap Line.note? =
      (nonEmpty t.note).toList := by cases nonEmpty t.note <;> rfl
  have hcolumns : ((nonEmpty t.note).toList.map Line.note).filterMap Line.column? = [] := by
    cases nonEmpty t.note <;> rfl
  have hevents : ((nonEmpty t.note).toList.map Line.note).flatMap Line.events = [] := by
    cases nonEmpty t.note <;> rfl
  refine ⟨?_, ?_, ?_⟩
  · rw [List.filterMap_append, hnotes, hn, List.append_nil]
  · rw [List.filterMap_append, hcolumns]; exact hc
  · rw [List.flatMap_append, List.filterMap_append, hevents, hcolumns]; exact he

theorem many_line?_tableBody {t : Table} (h : ∀ c ∈ t.columns, c.Rereadable) (s : List Char) :
    ShowsBody (many line? line?_progresses (tableBody t ++ '}' :: s)).1 t ∧
      skipFiller (many line? line?_progresses (tableBody t ++ '}' :: s)).2 = '}' :: s := by
  obtain ⟨ls, hls, hshows⟩ := many_line?_columns h s
  obtain ⟨hbody, hrest⟩ := many_line?_body t ('}' :: s)
  rw [hbody, hrest, hls]
  exact ⟨showsBody_of_columns hshows, skipFiller_of_stopsAt (stopsAt_cons.2 (by decide))⟩

/-- A table is read back from its header and its body. -/
theorem readTable_of_body {t : Table} {s body r : List Char}
    (hh : readHeader s = .ok (⟨t.name, nonEmpty t.aliasName, []⟩, body))
    (hb : ShowsBody (many line? line?_progresses body).1 t)
    (hc : skipFiller (many line? line?_progresses body).2 = '}' :: r) :
    ∃ d, readTable s = (.table d, r) ∧ d.Shows t := by
  refine ⟨⟨⟨t.name, nonEmpty t.aliasName, []⟩, body, (many line? line?_progresses body).1⟩,
    ?_, rfl, hb.columns, ?_, hb.events⟩
  · rw [readTable, hh]
    simp only [readBody, hc]
  · rw [TableDraft.note?, hb.notes]
    cases nonEmpty t.note <;> rfl

/-- A table is read back from its canonical text, given the text after the word that introduces
it. -/
theorem readTable_table {t : Table} (h : t.Rereadable) (s : List Char) :
    ∃ d, readTable (' ' :: ((identifier t.name).toList ++
        aliasText t.aliasName (tableBody t ++ '}' :: s))) = (.table d, s) ∧ d.Shows t := by
  obtain ⟨hb, hclose⟩ := many_line?_tableBody h.columns s
  exact readTable_of_body (readHeader_tableHeader h.name h.aliasName _) hb hclose

end Canonical

end Dbml
