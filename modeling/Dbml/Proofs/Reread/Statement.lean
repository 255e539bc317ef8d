import Dbml.Outline.Event
import Dbml.Proofs.Reread.Table

/-!
# Statements read back

The canonical text of a schema is made of blocks: tables, relations and groups of tables. Tables and
relations are read back, groups are skipped.

Results:
* `readRefs_relation`: a relation between bare names is read back from its canonical text;
* `skipBlock_tableGroup`: a group is skipped to its closing brace;
* `item?_block`: a block is read back as one statement that shows it, whatever follows.
-/
namespace Dbml

/-- An endpoint of two bare words. -/
structure Endpoint.Bare (e : Endpoint) : Prop where
  table : Text.isWord e.table.toList = true
  column : Text.isWord e.column.toList = true

/-- A relation whose canonical text is read back as that relation. -/
structure Relation.Rereadable (r : Relation) : Prop where
  name : Canonical.PlainOption r.name
  source : r.source.Bare
  target : r.target.Bare

/-- A group whose canonical text is skipped to its end. -/
structure TableGroup.Skippable (g : TableGroup) : Prop where
  name : '\x60' ∉ g.name.toList ∧ '\n' ∉ g.name.toList
  tables : ∀ id ∈ g.tables, '\x60' ∉ id.toList ∧ '\n' ∉ id.toList

instance (e : Endpoint) : Decidable e.Bare :=
  decidable_of_iff (Text.isWord e.table.toList = true ∧ Text.isWord e.column.toList = true)
    ⟨fun h => ⟨h.1, h.2⟩, fun h => ⟨h.table, h.column⟩⟩

instance (r : Relation) : Decidable r.Rereadable :=
  decidable_of_iff (Canonical.PlainOption r.name ∧ r.source.Bare ∧ r.target.Bare)
    ⟨fun h => ⟨h.1, h.2.1, h.2.2⟩, fun h => ⟨h.name, h.source, h.target⟩⟩

instance (g : TableGroup) : Decidable g.Skippable :=
  decidable_of_iff (('\x60' ∉ g.name.toList ∧ '\n' ∉ g.name.toList) ∧
      ∀ id ∈ g.tables, '\x60' ∉ id.toList ∧ '\n' ∉ id.toList)
    ⟨fun h => ⟨h.1, h.2⟩, fun h => ⟨h.name, h.tables⟩⟩

namespace Canonical

open Text Outline

/-! ## Relations -/

/-- The names that an endpoint is written with. -/
def columnName (e : Endpoint) : ColumnName := ⟨e.table, e.column⟩

theorem namePart?_dot {w s : List Char} (hw : isWord w = true) (hs : StopsAt isWordChar s) :
    namePart? ('.' :: (w ++ s)) = some (String.ofList w, s) := by
  have hne : w ≠ [] := by rintro rfl; simp [isWord] at hw
  simp [namePart?, readIdentifier_word hw hs, hne]

theorem endpoint_head {e : Endpoint} (h : e.Bare) :
    ∃ c w, (endpoint e).toList = c :: w ∧ isWordStart c = true := by
  have hw := h.table
  cases he : e.table.toList with
  | nil => simp [he, isWord] at hw
  | cons c w =>
    rw [he, isWord, Bool.and_eq_true] at hw
    exact ⟨c, w ++ '.' :: e.column.toList, by simp [endpoint, he], hw.1⟩

theorem readEndpoint_endpoint {e : Endpoint} (h : e.Bare) {c : Char} (hc : isWordChar c = false)
    (hd : c ≠ '.') (s : List Char) :
    readEndpoint ((endpoint e).toList ++ c :: s) = (.named (columnName e), c :: s) := by
  have hne : e.table.toList ≠ [] := by
    intro he; have := h.table; simp [he, isWord] at this
  have htext : (endpoint e).toList ++ c :: s =
      e.table.toList ++ '.' :: (e.column.toList ++ c :: s) := by
    simp [endpoint]
  have htable := readIdentifier_word h.table (s := '.' :: (e.column.toList ++ c :: s))
    (stopsAt_cons.2 (by decide))
  have hcolumn := namePart?_dot h.column (s := c :: s) (stopsAt_cons.2 hc)
  have hend : namePart? (c :: s) = none := by
    unfold namePart?; split
    · rename_i he; exact absurd (List.cons.inj he).1 hd
    · rfl
  have hmany : many namePart? namePart?_progresses ('.' :: (e.column.toList ++ c :: s)) =
      ([String.ofList e.column.toList], c :: s) := by
    rw [many_of_some hcolumn, many_of_none hend]
  have hhead : ∀ t, e.table.toList ++ '.' :: (e.column.toList ++ c :: s) ≠ '(' :: t := by
    intro t he
    obtain ⟨k, w, hk, hw⟩ := endpoint_head h
    rw [← htext, hk] at he
    rw [(List.cons.inj he).1] at hw
    exact absurd hw (by decide)
  rw [htext]
  unfold readEndpoint
  split
  · rename_i t he; exact absurd he (hhead t)
  · simp only [htable, hmany, List.isEmpty_iff, hne, if_false]
    unfold endpointOfNames
    split
    · rename_i he; exact absurd (List.cons.inj he).1 hd
    · rename_i he; exact absurd (List.cons.inj he).1 hd
    · simp [columnName]

theorem readSymbol?_symbol (k : Cardinality) (s : List Char) :
    readSymbol? ((symbol k).toList ++ ' ' :: s) = some (k, ' ' :: s) := by
  cases k <;> rfl

theorem skipInline_space (s : List Char) : skipInline (' ' :: s) = skipInline s := rfl

theorem skipInline_endpoint {e : Endpoint} (h : e.Bare) (s : List Char) :
    skipInline ((endpoint e).toList ++ s) = (endpoint e).toList ++ s := by
  obtain ⟨c, w, hc, hw⟩ := endpoint_head h
  have hf := not_startsFiller_of_isWordStart (.inl hw)
  simp only [startsFiller, Bool.or_eq_false_iff] at hf
  rw [hc]
  exact skipInline_of_stopsAt (stopsAt_cons.2 hf.1.1.1)

/-- The line of a relation inside the braces. -/
def relationLine (r : Relation) : List Char :=
  (endpoint r.source).toList ++ ' ' :: ((symbol r.cardinality).toList ++
    ' ' :: (endpoint r.target).toList)

theorem readRefLine_relationLine {r : Relation} (hs : r.source.Bare) (ht : r.target.Bare)
    (s : List Char) :
    readRefLine (relationLine r ++ '\n' :: s) =
      (.link ⟨columnName r.source, r.cardinality, columnName r.target⟩, s) := by
  have hsym : skipInline ((symbol r.cardinality).toList ++
      ' ' :: ((endpoint r.target).toList ++ '\n' :: s)) =
      (symbol r.cardinality).toList ++ ' ' :: ((endpoint r.target).toList ++ '\n' :: s) := by
    cases r.cardinality <;> rfl
  have htext : relationLine r ++ '\n' :: s = (endpoint r.source).toList ++ ' ' ::
      ((symbol r.cardinality).toList ++ ' ' :: ((endpoint r.target).toList ++ '\n' :: s)) := by
    simp [relationLine]
  have hscan : scanRefLine (relationLine r ++ '\n' :: s) =
      (.link ⟨columnName r.source, r.cardinality, columnName r.target⟩, '\n' :: s) := by
    rw [htext, scanRefLine, skipInline_endpoint hs,
      readEndpoint_endpoint hs (by decide) (by decide)]
    simp only [skipInline_space, hsym, readSymbol?_symbol, skipInline_endpoint ht,
      readEndpoint_endpoint ht (show isWordChar '\n' = false by decide) (by decide)]
  rw [readRefLine, hscan]
  simp [dropLine_newline]

/-- The text of a relation after the word that introduces it. -/
def relationTail (r : Relation) (s : List Char) : List Char :=
  (optionalName " " r.name).toList ++
    ' ' :: '{' :: '\n' :: ' ' :: ' ' :: (relationLine r ++ '\n' :: '}' :: s)

theorem toList_relation (r : Relation) (s : List Char) :
    (relation r).toList ++ s = 'R' :: 'e' :: 'f' :: relationTail r s := by
  simp [relation, relationAs, lines, joined, indent, relationTail, relationLine]

theorem readRefName_optionalName {name : Option String} (h : PlainOption name) (s : List Char) :
    readRefName (skipInline ((optionalName " " name).toList ++ ' ' :: '{' :: s)) =
      (nonEmpty name, '{' :: s) := by
  cases name with
  | none => rfl
  | some n =>
    by_cases hn : n = ""
    · subst hn; rfl
    · have hp : PlainName n := h n (by simp [nonEmpty, hn])
      obtain ⟨c, w, hc, hw⟩ := identifier_head hp.no_newline
      have hcs : isInlineSpace c = false ∧ c ≠ ':' ∧ c ≠ '{' := by
        refine ⟨?_, ?_, ?_⟩
        · have := not_startsFiller_of_isWordStart hw
          simp only [startsFiller, Bool.or_eq_false_iff] at this
          exact this.1.1.1
        · rintro rfl; revert hw; decide
        · rintro rfl; revert hw; decide
      have hskip : skipInline ((optionalName " " (some n)).toList ++ ' ' :: '{' :: s) =
          (identifier n).toList ++ ' ' :: '{' :: s := by
        simp only [optionalName, hn, if_false, String.toList_append, List.append_assoc]
        show skipInline (' ' :: ((identifier n).toList ++ ' ' :: '{' :: s)) = _
        rw [skipInline_space, hc]
        exact skipInline_of_stopsAt (stopsAt_cons.2 hcs.1)
      have hread := readIdentifier_identifier hp.no_backtick hp.no_newline
        (stopsAt_space ('{' :: s))
      rw [hskip]
      rw [hc] at hread ⊢
      unfold readRefName
      split
      · contradiction
      · rename_i he; exact absurd (List.cons.inj he).1 hcs.2.1
      · rename_i he; exact absurd (List.cons.inj he).1 hcs.2.2
      · rw [hread]
        simp [nonEmpty, hn, hp.ne_nil, skipInline, isInlineSpace]

/-- A relation is read back from its canonical text, given the text after the word that introduces
it. -/
theorem readRefs_relation {r : Relation} (h : r.Rereadable) (s : List Char) :
    readRefs (relationTail r s) =
      (⟨nonEmpty r.name,
        [.link ⟨columnName r.source, r.cardinality, columnName r.target⟩], none⟩, s) := by
  have hline : blockRefLine? ('\n' :: ' ' :: ' ' :: (relationLine r ++ '\n' :: '}' :: s)) =
      some (.link ⟨columnName r.source, r.cardinality, columnName r.target⟩, '}' :: s) := by
    have hread := readRefLine_relationLine h.source h.target ('}' :: s)
    obtain ⟨c, w, hc, hw⟩ := endpoint_head h.source
    have hr : relationLine r ++ '\n' :: '}' :: s =
        c :: (w ++ (' ' :: ((symbol r.cardinality).toList ++ ' ' :: (endpoint r.target).toList) ++
          '\n' :: '}' :: s)) := by
      rw [relationLine, hc]; simp
    have hfiller : skipFiller ('\n' :: ' ' :: ' ' :: (relationLine r ++ '\n' :: '}' :: s)) =
        relationLine r ++ '\n' :: '}' :: s := by
      rw [skipFiller_newline, skipFiller_space, skipFiller_space, hr]
      exact skipFiller_of_stopsAt (stopsAt_cons.2 (not_startsFiller_of_isWordStart (.inl hw)))
    rw [hr] at hfiller hread
    rw [hr]
    unfold blockRefLine?
    rw [hfiller]
    split
    · contradiction
    · rename_i he
      rw [(List.cons.inj he).1] at hw; exact absurd hw (by decide)
    · rename_i he; rw [← he, hread]
  have hend : blockRefLine? ('}' :: s) = none := by
    unfold blockRefLine?
    rw [skipFiller_of_stopsAt (stopsAt_cons.2 (by decide))]; rfl
  have hclose : skipFiller ('}' :: s) = '}' :: s :=
    skipFiller_of_stopsAt (stopsAt_cons.2 (by decide))
  have hmany : many blockRefLine? blockRefLine?_progresses
      ('\n' :: ' ' :: ' ' :: (relationLine r ++ '\n' :: '}' :: s)) =
        ([.link ⟨columnName r.source, r.cardinality, columnName r.target⟩], '}' :: s) := by
    rw [many_of_some hline, many_of_none hend]
  simp only [readRefs, relationTail, readRefName_optionalName h.name, hmany, hclose]

/-! ## Groups -/

/-- A repetition passes over text whose characters its step skips one by one. -/
theorem skipMany_append {step : List Char → Option (List Char)} {p : Skips step} {w : List Char}
    (h : ∀ c ∈ w, ∀ r, step (c :: r) = some r) (s : List Char) :
    skipMany step p (w ++ s) = skipMany step p s := by
  induction w with
  | nil => rfl
  | cons c w ih =>
    rw [List.cons_append, skipMany_of_some (h c List.mem_cons_self _)]
    exact ih fun d hd => h d (List.mem_cons_of_mem _ hd)

/-- A repetition passes over an identifier, if its step skips the characters of words and tokens
in backticks. -/
theorem skipMany_identifier {step : List Char → Option (List Char)} {p : Skips step}
    (hword : ∀ c, isWordChar c = true → ∀ r, step (c :: r) = some r)
    (hquote : ∀ r, step ('\x60' :: r) = some (readQuoted ('\x60' :: r)).2) {name : String}
    (hq : '\x60' ∉ name.toList) (hn : '\n' ∉ name.toList) (s : List Char) :
    skipMany step p ((identifier name).toList ++ s) = skipMany step p s := by
  cases h : isWord name.toList with
  | true =>
    rw [toList_identifier_of_isWord h hn]
    refine skipMany_append (fun c hc => hword c ?_) s
    cases hw : name.toList with
    | nil => simp [hw] at hc
    | cons k w =>
      rw [hw, isWord, Bool.and_eq_true, List.all_eq_true] at h
      rw [hw] at hc
      rcases List.mem_cons.1 hc with rfl | hc
      · exact isWordChar_of_isWordStart h.1
      · exact h.2 c hc
  | false =>
    rw [toList_identifier_of_not_isWord h hn, List.cons_append, List.append_assoc]
    refine skipMany_of_some ?_
    rw [hquote]
    exact congrArg (fun t => some t.2) (readQuoted_backticks hq hn s)

theorem headerPiece?_of_isWordChar {c : Char} (h : isWordChar c = true) (r : List Char) :
    headerPiece? (c :: r) = some r := by
  have hc : (c == '{' || c == '\n') = false ∧ isQuote c = false := by
    constructor <;> rw [Bool.eq_false_iff] <;> intro hx <;>
      simp only [isQuote, Bool.or_eq_true, beq_iff_eq] at hx
    · rcases hx with rfl | rfl <;> revert h <;> decide
    · rcases hx with (rfl | rfl) | rfl <;> revert h <;> decide
  simp [headerPiece?, hc]

theorem bodyPiece?_of_isWordChar {c : Char} (h : isWordChar c = true) (r : List Char) :
    bodyPiece? (c :: r) = some r := by
  have hq : isQuote c = false := by
    rw [Bool.eq_false_iff]; intro hx
    simp only [isQuote, Bool.or_eq_true, beq_iff_eq] at hx
    rcases hx with (rfl | rfl) | rfl <;> revert h <;> decide
  have hb : (c == '{' || c == '}') = false := by
    rw [Bool.eq_false_iff]; intro hx
    simp only [Bool.or_eq_true, beq_iff_eq] at hx
    rcases hx with rfl | rfl <;> revert h <;> decide
  have hc : comment? (c :: r) = none := by
    unfold comment?; split
    · rename_i he; rw [(List.cons.inj he).1] at h; exact absurd h (by decide)
    · rename_i he; rw [(List.cons.inj he).1] at h; exact absurd h (by decide)
    · rename_i he; rw [(List.cons.inj he).1] at h; exact absurd h (by decide)
    · rfl
  simp [bodyPiece?, hq, hb, hc]

theorem skipBody_of_skipToBrace {s r : List Char} (h : skipToBrace s = '}' :: r) :
    skipBody 0 s = r := by
  rw [skipBody]
  split
  · rename_i he; rw [h] at he; simp at he
  · rename_i c t he
    obtain ⟨rfl, rfl⟩ := List.cons.inj (h.symm.trans he)
    simp

/-- The body of a group between its braces. -/
def groupBody (g : TableGroup) : List Char :=
  '\n' :: g.tables.flatMap fun id => ' ' :: ' ' :: ((identifier id).toList ++ ['\n'])

theorem toList_tableGroup (g : TableGroup) (s : List Char) :
    (tableGroup g).toList ++ s = "TableGroup ".toList ++ ((identifier g.name).toList ++
      ' ' :: '{' :: (groupBody g ++ '}' :: s)) := by
  rw [tableGroup, toList_lines_concat]
  simp [groupBody, indent, List.flatMap_map]

theorem skipToBrace_groupIds {ids : List String}
    (h : ∀ id ∈ ids, '\x60' ∉ id.toList ∧ '\n' ∉ id.toList) (s : List Char) :
    skipToBrace ((ids.flatMap fun id => ' ' :: ' ' :: ((identifier id).toList ++ ['\n'])) ++ s) =
      skipToBrace s := by
  induction ids with
  | nil => rfl
  | cons id ids ih =>
    obtain ⟨hq, hn⟩ := h id List.mem_cons_self
    have hchar : ∀ c, c = ' ' ∨ c = '\n' → ∀ r, bodyPiece? (c :: r) = some r := by
      rintro c (rfl | rfl) r <;> rfl
    have hstep : ∀ {c : Char}, c = ' ' ∨ c = '\n' → ∀ r, skipToBrace (c :: r) = skipToBrace r :=
      fun hc r => skipMany_of_some (hchar _ hc r)
    have hident : ∀ r, skipToBrace ((identifier id).toList ++ r) = skipToBrace r :=
      skipMany_identifier (fun c hc => bodyPiece?_of_isWordChar hc) (fun _ => rfl) hq hn
    simp only [List.flatMap_cons, List.cons_append, List.append_assoc, List.nil_append]
    rw [hstep (.inl rfl), hstep (.inl rfl), hident, hstep (.inr rfl)]
    exact ih fun x hx => h x (List.mem_cons_of_mem _ hx)

/-- A group is skipped to its closing brace. -/
theorem skipBlock_tableGroup {g : TableGroup} (h : g.Skippable) (s : List Char) :
    skipBlock ((tableGroup g).toList ++ s) = s := by
  have hword : skipMany headerPiece? headerPiece?_skips ((tableGroup g).toList ++ s) =
      '{' :: (groupBody g ++ '}' :: s) := by
    have hletters : ∀ c ∈ "TableGroup ".toList, ∀ r, headerPiece? (c :: r) = some r := by
      intro c hc r
      simp only [String.reduceToList, List.mem_cons, List.not_mem_nil, or_false] at hc
      rcases hc with rfl | rfl | rfl | rfl | rfl | rfl | rfl | rfl | rfl | rfl | rfl <;> rfl
    rw [toList_tableGroup, skipMany_append hletters,
      skipMany_identifier (fun c hc => headerPiece?_of_isWordChar hc) (fun _ => rfl) h.name.1
        h.name.2]
    have hspace : headerPiece? (' ' :: '{' :: (groupBody g ++ '}' :: s)) =
      some ('{' :: (groupBody g ++ '}' :: s)) := rfl
    rw [skipMany_of_some hspace]
    exact skipMany_of_none rfl
  have hbody : skipToBrace (groupBody g ++ '}' :: s) = '}' :: s := by
    have hstart : skipToBrace (groupBody g ++ '}' :: s) = _ := skipMany_of_some rfl
    rw [hstart]
    refine (skipToBrace_groupIds h.tables ('}' :: s)).trans ?_
    exact skipMany_of_none rfl
  rw [skipBlock, hword]
  exact skipBody_of_skipToBrace hbody

/-! ## Blocks -/

/-- A part of a schema that has its own text. -/
inductive Block where
  | table (table : Table)
  | relation (relation : Relation)
  | group (group : TableGroup)

/-- The canonical text of a block. -/
def Block.text : Block → String
  | .table t => Canonical.table t
  | .relation r => Canonical.relation r
  | .group g => tableGroup g

def Block.Rereadable : Block → Prop
  | .table t => t.Rereadable
  | .relation r => r.Rereadable
  | .group g => g.Skippable

/-- A statement says of a block what its canonical text says. -/
inductive Shows : Item → Block → Prop
  | table {d : TableDraft} {t : Table} (h : d.Shows t) : Shows (.table (.table d)) (.table t)
  | relation (r : Relation) :
    Shows (.refs ⟨nonEmpty r.name,
      [.link ⟨columnName r.source, r.cardinality, columnName r.target⟩], none⟩) (.relation r)
  | group (s : List Char) (g : TableGroup) : Shows (.skipped s) (.group g)

theorem item?_of_skipFiller {s r : List Char} {c : Char} (h : skipFiller s = c :: r) :
    item? s = some (readItem (c :: r)) := by
  unfold item?; rw [h]

theorem toList_table_append (t : Table) (s : List Char) :
    (table t).toList ++ s = 'T' :: 'a' :: 'b' :: 'l' :: 'e' :: ' ' ::
      ((identifier t.name).toList ++ aliasText t.aliasName (tableBody t ++ '}' :: s)) := by
  rw [toList_table, tableHeader, aliasText]
  simp

theorem item?_table {t : Table} (h : t.Rereadable) (s : List Char) :
    ∃ d, item? ((table t).toList ++ s) = some (.table (.table d), s) ∧ d.Shows t := by
  obtain ⟨d, hd, hs⟩ := readTable_table h s
  refine ⟨d, ?_, hs⟩
  have hkey : keyword? "Table" ('T' :: 'a' :: 'b' :: 'l' :: 'e' :: ' ' ::
      ((identifier t.name).toList ++ aliasText t.aliasName (tableBody t ++ '}' :: s))) =
      some (' ' :: ((identifier t.name).toList ++
        aliasText t.aliasName (tableBody t ++ '}' :: s))) := rfl
  rw [toList_table_append, item?_of_skipFiller (skipFiller_of_stopsAt (stopsAt_cons.2 (by decide)))]
  simp only [readItem, hkey, hd]
  rfl

/-- The text of a relation is one statement, read behind the word that introduces it. -/
theorem item?_relation_eq (r : Relation) (s : List Char) :
    item? ((relation r).toList ++ s) = some ((readRefs (relationTail r s)).map .refs id) := by
  have htable : keyword? "Table" ('R' :: 'e' :: 'f' :: relationTail r s) = none := rfl
  have hend : wordEnds (relationTail r s) = true := by
    unfold relationTail optionalName
    cases r.name with
    | none => rfl
    | some n =>
      dsimp only; split
      · rfl
      · rw [String.toList_append, List.append_assoc]; rfl
  have href : keyword? "Ref" ('R' :: 'e' :: 'f' :: relationTail r s) = some (relationTail r s) := by
    show (some (relationTail r s)).filter wordEnds = _
    simp [hend]
  rw [toList_relation, item?_of_skipFiller (skipFiller_of_stopsAt (stopsAt_cons.2 (by decide)))]
  simp only [readItem, htable, href]

theorem item?_relation {r : Relation} (h : r.Rereadable) (s : List Char) :
    item? ((relation r).toList ++ s) =
      some (.refs ⟨nonEmpty r.name,
        [.link ⟨columnName r.source, r.cardinality, columnName r.target⟩], none⟩, s) := by
  rw [item?_relation_eq, readRefs_relation h]; rfl

theorem item?_tableGroup {g : TableGroup} (h : g.Skippable) (s : List Char) :
    item? ((tableGroup g).toList ++ s) = some (.skipped ((tableGroup g).toList ++ s), s) := by
  have hskip := skipBlock_tableGroup h s
  rw [toList_tableGroup] at hskip ⊢
  generalize (identifier g.name).toList ++ ' ' :: '{' :: (groupBody g ++ '}' :: s) = r at hskip ⊢
  have htable : keyword? "Table" ("TableGroup ".toList ++ r) = none := rfl
  have href : keyword? "Ref" ("TableGroup ".toList ++ r) = none := rfl
  have hword : skippedWords.any fun w => (keyword? w ("TableGroup ".toList ++ r)).isSome := rfl
  have hf : skipFiller ("TableGroup ".toList ++ r) = 'T' :: ("ableGroup ".toList ++ r) :=
    skipFiller_of_stopsAt (stopsAt_cons.2 (by decide))
  rw [item?_of_skipFiller hf]
  show some (readItem ("TableGroup ".toList ++ r)) = _
  simp only [readItem, htable, href, hword, if_true, hskip]

/-- A block is read back as one statement that shows it, whatever follows. -/
theorem item?_block {b : Block} (h : b.Rereadable) (s : List Char) :
    ∃ i, item? (b.text.toList ++ s) = some (i, s) ∧ Shows i b := by
  cases b with
  | table t =>
    obtain ⟨d, hd, hs⟩ := item?_table h s
    exact ⟨_, hd, .table hs⟩
  | relation r => exact ⟨_, item?_relation h s, .relation r⟩
  | group g => exact ⟨_, item?_tableGroup h s, .group _ g⟩

end Canonical

end Dbml
