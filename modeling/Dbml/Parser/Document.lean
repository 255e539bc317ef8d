import Dbml.Parser.Relation
import Dbml.Parser.Table
import Dbml.Schema.Draws

/-!
# Documents

The routine that reads a text: statement by statement up to its end, then the references that were
kept on the way, each of which draws an id and is resolved among all tables.

Results:
* `schemaTurn_performs`: what a statement goes through;
* `along_builds`: the tables and the references that statements give one behind the other;
* `parseSchema_performs`: a text goes through the events of its statements, and the ids drawn there
  make them its schema.
-/
namespace Dbml.Routine

open Text Outline Scan

variable {σ : Type} (source : IdSource σ)

/-! ## Statements -/

/-- One turn of the loop in `_parse_schema`, with the tables read so far. -/
def schemaTurn (tables : List Table) : Routine σ (ForInStep (List Table)) := do
  skipWhitespace
  if ← atEnd then
    return .done tables
  if ← matchKeyword "Table" then
    let table ← parseTable source
    return .yield (tables ++ table.toList)
  if ← matchKeyword "Ref" then
    parseRefStatement
    return .yield tables
  if ← matchAnyKeyword skippedWords then
    skipBlock
    return .yield tables
  skipLine
  return .yield tables

/-- What a statement adds to the tables and to the references, with the ids drawn at it. -/
def Builds (tables : List Table) (i : Item) (ids : List String) (kept : List RelationDraft)
    (tables' : List Table) : Prop :=
  i.idKinds.length = ids.length ∧ tables' = tables ++ (i.build ids).1.toList ∧
    kept = (i.build ids).2

theorem dropFolded?_eq_drop {ks t r : List Char} (h : dropFolded? ks t = some r) :
    t.drop ks.length = r := by
  induction ks generalizing t with
  | nil => exact Option.some.inj h
  | cons k ks ih =>
    cases t with
    | nil => cases h
    | cons c t =>
      simp only [dropFolded?] at h
      split at h
      · exact ih h
      · cases h

theorem keyword?_eq_drop {keyword : String} {t r : List Char} (h : keyword? keyword t = some r) :
    t.drop keyword.toList.length = r :=
  dropFolded?_eq_drop (Option.filter_eq_some_iff.1 h).1

theorem item?_of_some {t r : List Char} {i : Item} (h : item? t = some (i, r)) :
    ∃ c u, skipFiller t = c :: u ∧ readItem (c :: u) = (i, r) := by
  unfold item? at h
  split at h
  · cases h
  · rename_i c u hs
    exact ⟨c, u, hs, Option.some.inj h⟩

theorem item?_of_none {t : List Char} (h : item? t = none) : skipFiller t = [] := by
  unfold item? at h
  split at h
  · assumption
  · cases h

theorem readItem_table {t r : List Char} (h : keyword? "Table" t = some r) :
    readItem t = (.table (readTable r).1, (readTable r).2) := by
  simp only [readItem, h]; rfl

theorem readItem_refs {t r : List Char} (ht : keyword? "Table" t = none)
    (h : keyword? "Ref" t = some r) : readItem t = (.refs (readRefs r).1, (readRefs r).2) := by
  simp only [readItem, ht, h]; rfl

theorem builds_table {tables : List Table} {d : TableItem} {ids : List String}
    {kept : List RelationDraft} {table : Option Table}
    (hids : (Item.table d).idKinds.length = ids.length)
    (h : (table, kept) = (Item.table d).build ids) :
    Builds tables (.table d) ids kept (tables ++ table.toList) :=
  ⟨hids, by rw [← h], by rw [← h]⟩

theorem builds_refs {tables : List Table} {d : RefItem} {kept : List RelationDraft}
    (h : kept = d.relations) : Builds tables (.refs d) [] kept tables :=
  ⟨by rw [idKinds_refs]; rfl, (List.append_nil _).symm, h⟩

theorem schemaTurn_performs : Performs.Turn source (schemaTurn source) item? Item.events
    (fun _ => []) skipFiller Builds where
  item p a i r h := by
    obtain ⟨c, u, hs, hread⟩ := item?_of_some h
    simp only [schemaTurn, run_scan_bind, run_ite, reads_skipWhitespace, reads_atEnd,
      reads_matchKeyword, reads_matchAnyKeyword, Parser.scan_scanner, rest_run, hs,
      List.isEmpty_cons, Bool.false_eq_true, if_false]
    cases ht : keyword? "Table" (c :: u) with
    | some v =>
      rw [readItem_table ht] at hread
      obtain ⟨rfl, rfl⟩ := Prod.mk.inj hread
      have hv : (c :: u).drop 5 = v := keyword?_eq_drop ht
      have htable := parseTable_performs source
        (((p.scan skipWhitespace).scan atEnd).scan (matchKeyword "Table")) (t := v)
        (by simpa [hs] using hv)
      exact .scan <| .scan <| .scan <| .map htable.length fun ids kept table hb =>
        ⟨_, rfl, builds_table hb.1 hb.2⟩
    | none =>
      cases hr : keyword? "Ref" (c :: u) with
      | some v =>
        rw [readItem_refs ht hr] at hread
        obtain ⟨rfl, rfl⟩ := Prod.mk.inj hread
        have hv : (c :: u).drop 3 = v := keyword?_eq_drop hr
        have hrefs := parseRefStatement_performs source
          ((((p.scan skipWhitespace).scan atEnd).scan (matchKeyword "Table")).scan
            (matchKeyword "Ref")) (t := v) (by simpa [hs] using hv)
        refine .scan <| .scan <| .scan <| .scan <| .map hrefs fun ids kept _ hb => ?_
        obtain ⟨rfl, hkept⟩ := hb
        exact ⟨_, rfl, builds_refs hkept⟩
      | none =>
        simp only [readItem, ht, hr] at hread
        -- A block that is skipped and a stray line give nothing.
        split at hread
        all_goals
          rename_i hskip
          obtain ⟨rfl, rfl⟩ := Prod.mk.inj hread
          simp only [Option.isSome_none, Bool.false_eq_true, if_false, hskip, if_true]
          exact .scan <| .scan <| .scan <| .scan <| .scan <| .scan <| .pure (by simp [hs])
            ⟨a, rfl, rfl, (List.append_nil a).symm, rfl⟩
  stop p a h := by
    simp only [schemaTurn, run_scan_bind, reads_skipWhitespace, reads_atEnd, Parser.scan_scanner,
      rest_run, item?_of_none h, List.isEmpty_nil, if_true]
    exact .scan <| .scan <| .pure (by simp [item?_of_none h]) ⟨rfl, rfl, rfl⟩

theorem schemaTurn_advances : Advances (schemaTurn source) :=
  (schemaTurn_performs source).advances item?_progresses

/-! ## Relations -/

/-- Draws an id for each reference and resolves it (the loop of `_resolve_relations`). -/
def resolveAll (tables : List Table) : List RelationDraft → Routine σ (List Relation)
  | [] => return []
  | d :: ds => do
    let id ← newId source .relation
    let relations ← resolveAll tables ds
    return d.toRelation tables id :: relations

/-- Resolves the references that were kept (`_resolve_relations`). -/
def resolveRelations (tables : List Table) : Routine σ (List Relation) := do
  resolveAll source tables (← pending)

theorem resolveAll_performs (tables : List Table) (ds : List RelationDraft) (p : Parser σ)
    (hp : p.scanner.rest = []) :
    Performs source p (List.replicate ds.length (.draw .relation [])) []
      (fun ids _ relations =>
        relations = List.zipWith (RelationDraft.toRelation tables) ds ids)
      ((resolveAll source tables ds).run p) := by
  induction ds generalizing p with
  | nil => exact .pure hp rfl
  | cons d ds ih =>
    refine .newId hp fun id q hq _ => .map (ih q (by rw [hq, hp])) fun ids _ relations h => ?_
    rw [h, List.zipWith_cons_cons]

/-- What the statements of a document give. -/
theorem along_builds {a tables : List Table} {o : Outline} {ids : List String}
    {kept : List RelationDraft} (h : Performs.Along Builds a o ids kept tables)
    (more : List String) :
    tables = a ++ o.tables (ids ++ more) ∧ kept = o.drafts (ids ++ more) ∧
      (o.build (ids ++ more)).2 = more ∧ kept.length = o.relationCount := by
  induction h generalizing more with
  | nil a => exact ⟨(List.append_nil a).symm, rfl, rfl, rfl⟩
  | @cons a _ _ i o ids ids' _ _ h _ ih =>
    obtain ⟨hids, rfl, rfl⟩ := h
    obtain ⟨htables, hkept, hrest, hcount⟩ := ih more
    have htake : (ids ++ ids' ++ more).take i.idKinds.length = ids := by
      rw [hids, List.append_assoc, List.take_left]
    have hdrop : (ids ++ ids' ++ more).drop i.idKinds.length = ids' ++ more := by
      rw [hids, List.append_assoc, List.drop_left]
    refine ⟨?_, ?_, ?_, ?_⟩
    · rw [tables_cons, htake, hdrop, ← List.append_assoc]; exact htables
    · rw [drafts_cons, htake, hdrop, ← hkept]
    · rw [build_cons, hdrop]; exact hrest
    · rw [List.length_append, length_build hids, hcount, relationCount_cons]

/-- Reads all statements and resolves their references (`_parse_schema`). -/
def parseSchema : Routine σ Schema := do
  let tables ← loop (schemaTurn source) (schemaTurn_advances source) []
  let relations ← resolveRelations source tables
  return { tables, relations }

theorem parseSchema_performs (p : Parser σ) (hp : p.pending = []) {t : List Char}
    (ht : p.scanner.rest = t) :
    Performs source p (Outline.read t).events []
      (fun ids _ schema => schema = (Outline.read t).toSchema ids) ((parseSchema source).run p) := by
  subst ht
  have hloop := Performs.loop (schemaTurn_performs source) item?_progresses
    (h := schemaTurn_advances source) [] p
  rw [List.append_nil, item?_of_none (many_stops p.scanner.rest)] at hloop
  rw [Outline.events]
  refine .bind hloop fun q tables ids kept hq hpending hb => ?_
  rw [hp, List.nil_append] at hpending
  have hcount : q.pending.length = (Outline.read p.scanner.rest).relationCount := by
    rw [hpending]; exact (along_builds hb []).2.2.2
  have hall := resolveAll_performs source tables q.pending q hq
  rw [hcount] at hall
  refine .map (m := resolveRelations source tables) hall fun ids' _ relations hrelations => ?_
  obtain ⟨htables, hkept, hrest, -⟩ := along_builds (o := Outline.read p.scanner.rest) hb ids'
  rw [List.nil_append] at htables
  rw [hrelations, hpending, toSchema_eq, hrest, ← htables, ← hkept]

end Dbml.Routine
