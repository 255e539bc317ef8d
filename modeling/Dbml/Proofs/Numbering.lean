import Dbml.Proofs.FromText
import Dbml.Proofs.Supply
import Mathlib

/-!
# Which ids a schema has

The tables of a text and their columns have the first ids that are drawn, without a gap: only the
last statement of a text can be a table that is never closed, and such a table is the only one that
draws ids and is dropped. The relations have the ids behind.

Results:
* `read_unclosedLast`: a table that is never closed ends the text;
* `parse_numbered`: the ids of tables and columns are drawn without a gap, those of relations behind
  them and, where a table was dropped, behind the ids that it drew;
* `counting_nodup`: numbered ids are distinct;
* `parse_sequential_schema_iff`: with sequential ids, a schema takes that all numbers are written.
-/
namespace Dbml

open Text Outline

/-- Combining two lists depends on what is done with the items of the first only. -/
theorem zipWith_congr {α β γ : Type} {f g : α → β → γ} {as : List α} {bs : List β}
    (h : ∀ a ∈ as, ∀ b, f a b = g a b) : List.zipWith f as bs = List.zipWith g as bs := by
  rw [← List.map_uncurry_zip_eq_zipWith, ← List.map_uncurry_zip_eq_zipWith]
  exact List.map_congr_left fun p hp => h p.1 (List.of_mem_zip hp).1 p.2

namespace Outline

/-! ## Tables that are never closed -/

/-- Whether a statement is a table that is never closed. -/
def Item.isUnclosed : Item → Bool
  | .table (.unclosed _ _) => true
  | _ => false

/-- Only the last statement may be a table that is never closed. -/
def UnclosedLast : Outline → Prop
  | [] => True
  | i :: o => (i.isUnclosed = true → o = []) ∧ UnclosedLast o

theorem readBody_unclosed {header : TableHeader} {s r : List Char} {d : TableDraft} {f : Fault}
    (h : readBody header s = (.unclosed d f, r)) : r = [] := by
  have hstop : line? (many line? line?_progresses s).2 = none := many_stops s
  unfold readBody at h
  dsimp only at h
  split at h
  · simp at h
  · rename_i hbrace
    obtain ⟨-, rfl⟩ := Prod.mk.inj h
    unfold line? at hstop
    split at hstop
    · assumption
    · rename_i t ht; exact absurd ht (hbrace t)
    · simp at hstop

theorem readItem_unclosed {s : List Char} (h : (readItem s).1.isUnclosed = true) :
    (readItem s).2 = [] := by
  unfold readItem at h ⊢
  split
  · rename_i r hr
    simp only [hr, Prod.map_fst, Prod.map_snd] at h ⊢
    unfold readTable at h ⊢
    split
    · rename_i header t hh
      simp only [hh] at h
      cases hb : readBody header t with
      | mk i u =>
        rw [hb] at h
        cases i with
        | table d => exact Bool.noConfusion h
        | unclosed d f => exact readBody_unclosed hb
        | headless f => exact Bool.noConfusion h
    · rename_i f hh
      simp only [hh] at h
      exact Bool.noConfusion h
  · rename_i hr
    simp only [hr] at h
    split
    · rename_i r hs; simp only [hs] at h; exact Bool.noConfusion h
    · rename_i hs
      simp only [hs] at h
      split at h <;> exact Bool.noConfusion h

/-- A table that is never closed ends the text. -/
theorem read_unclosedLast (s : List Char) : UnclosedLast (Outline.read s) := by
  unfold Outline.read
  induction hn : s.length using Nat.strongRecOn generalizing s with
  | _ n ih =>
    cases hi : item? s with
    | none => rw [many_of_none hi]; exact trivial
    | some p =>
      obtain ⟨i, r⟩ := p
      rw [many_of_some hi]
      refine ⟨fun hu => ?_, ih r.length (hn ▸ (item?_progresses hi).2) r rfl⟩
      have hr : r = [] := by
        unfold item? at hi
        split at hi
        · simp at hi
        · have he := Option.some.inj hi
          have := readItem_unclosed (s := _ :: _) (by rw [he]; exact hu)
          rw [he] at this
          exact this
      have hend : item? [] = none := by
        have : skipFiller [] = [] := skipMany_of_none rfl
        unfold item?; rw [this]
      rw [hr, many_of_none hend]

/-! ## Statements -/

/-- Combining two lists of one length keeps what can be told from the second. -/
theorem map_zipWith_right {α β γ : Type} {f : α → β → γ} {g : γ → β} (h : ∀ a b, g (f a b) = b)
    {as : List α} {bs : List β} (hl : as.length = bs.length) : (List.zipWith f as bs).map g = bs := by
  induction as generalizing bs with
  | nil => rw [List.eq_nil_of_length_eq_zero hl.symm]; rfl
  | cons a as ih =>
    cases bs with
    | nil => simp at hl
    | cons b bs =>
      rw [List.zipWith_cons_cons, List.map_cons, h, ih (Nat.succ.inj hl)]

/-- Combining two lists of one length keeps what can be told from the first. -/
theorem map_zipWith_left {α β γ δ : Type} {f : α → β → γ} {g : γ → δ} {k : α → δ}
    (h : ∀ a b, g (f a b) = k a) {as : List α} {bs : List β} (hl : as.length = bs.length) :
    (List.zipWith f as bs).map g = as.map k := by
  induction as generalizing bs with
  | nil => rfl
  | cons a as ih =>
    cases bs with
    | nil => simp at hl
    | cons b bs =>
      rw [List.zipWith_cons_cons, List.map_cons, List.map_cons, h, ih (Nat.succ.inj hl)]

theorem toTable_ids (d : TableDraft) (id : String) {columnIds : List String}
    (h : d.columns.length = columnIds.length) :
    (d.toTable id columnIds).ids = id :: columnIds := by
  have hcols : (List.zipWith ColumnDraft.toColumn d.columns columnIds).map (·.id) = columnIds :=
    map_zipWith_right toColumn_id h
  exact congrArg (id :: ·) hcols

theorem toTable_idKinds (d : TableDraft) (id : String) {columnIds : List String}
    (h : d.columns.length = columnIds.length) :
    (d.toTable id columnIds).idKinds = .table :: d.columns.map fun _ => .column := by
  have hk : (d.toTable id columnIds).columns.length = d.columns.length := by
    rw [TableDraft.toTable, List.length_zipWith]; omega
  rw [Table.idKinds, List.map_const', List.map_const', hk]

/-- What a statement gives of the ids that it drew: a table with these ids, unless it is dropped. -/
theorem build_ids {i : Item} {ids : List String} (h : i.idKinds.length = ids.length) :
    ((i.build ids).1.toList.flatMap Table.idKinds = if i.isUnclosed then [] else i.idKinds) ∧
      ((i.build ids).1.toList.flatMap Table.ids = if i.isUnclosed then [] else ids) ∧
      (i.build ids).2.length = i.relationCount := by
  have hcount := length_build h
  cases i with
  | table d =>
    cases d with
    | table d =>
      rw [idKinds_table] at h ⊢
      cases ids with
      | nil => simp at h
      | cons id columnIds =>
        have hlen : d.columns.length = columnIds.length := by simpa using h
        refine ⟨?_, ?_, hcount⟩
        · have hkinds := toTable_idKinds d id hlen
          simpa [Item.build, Item.isUnclosed] using hkinds
        · have hids := toTable_ids d id hlen
          simpa [Item.build, Item.isUnclosed] using hids
    | unclosed d f => exact ⟨rfl, rfl, hcount⟩
    | headless f =>
      have he : ids = [] := List.length_eq_zero_iff.1 h.symm
      subst he; exact ⟨rfl, rfl, hcount⟩
  | refs r =>
    rw [idKinds_refs] at h ⊢
    have he : ids = [] := List.length_eq_zero_iff.1 h.symm
    subst he
    exact ⟨rfl, rfl, hcount⟩
  | skipped s =>
    have he : ids = [] := List.length_eq_zero_iff.1 h.symm
    subst he; exact ⟨rfl, rfl, hcount⟩
  | stray =>
    have he : ids = [] := List.length_eq_zero_iff.1 h.symm
    subst he; exact ⟨rfl, rfl, hcount⟩

/-! ## Documents -/

/-- The ids that a table draws that is never closed. -/
def dropped (o : Outline) : List IdKind :=
  (o.filter Item.isUnclosed).flatMap Item.idKinds

theorem dropped_cons (i : Item) (o : Outline) :
    dropped (i :: o) = (if i.isUnclosed then i.idKinds else []) ++ dropped o := by
  unfold dropped
  cases hu : i.isUnclosed with
  | true => rw [List.filter_cons_of_pos hu, List.flatMap_cons]; rfl
  | false => rw [List.filter_cons_of_neg (by simp [hu])]; rfl

theorem filterMap_fst_cons {α β : Type} (p : Option α × β) (l : List (Option α × β)) :
    (p :: l).filterMap (·.1) = p.1.toList ++ l.filterMap (·.1) := by
  rw [List.filterMap_cons]
  cases p.1 <;> rfl

/-- What statements give of the ids that they drew, if only the last of them is a table that is
never closed. -/
theorem build_numbered {o : Outline} (h : UnclosedLast o) {ids : List String}
    (hn : (o.flatMap Item.idKinds).length ≤ ids.length) :
    (o.flatMap Item.idKinds =
        ((o.build ids).1.filterMap (·.1)).flatMap Table.idKinds ++ o.dropped) ∧
      (∃ rest, ids = ((o.build ids).1.filterMap (·.1)).flatMap Table.ids ++ rest) ∧
      ((o.build ids).1.flatMap (·.2)).length = o.relationCount ∧
      (o.build ids).2 = ids.drop (o.flatMap Item.idKinds).length := by
  induction o generalizing ids with
  | nil => exact ⟨rfl, ⟨ids, rfl⟩, rfl, rfl⟩
  | cons i o ih =>
    rw [List.flatMap_cons, List.length_append] at hn
    have htake : i.idKinds.length = (ids.take i.idKinds.length).length := by
      rw [List.length_take]; omega
    have hrest : (List.flatMap Item.idKinds o).length ≤ (ids.drop i.idKinds.length).length := by
      rw [List.length_drop]; omega
    obtain ⟨hk, hi, hr⟩ := build_ids htake
    obtain ⟨hks, ⟨rest, his⟩, hrs, hd⟩ := ih h.2 hrest
    rw [build_cons]
    simp only [filterMap_fst_cons, List.flatMap_append, hk, hi]
    refine ⟨?_, ?_, ?_, ?_⟩
    · rw [List.flatMap_cons, hks, dropped_cons]
      cases hu : i.isUnclosed with
      | true =>
        obtain rfl := h.1 hu
        rfl
      | false =>
        simp only [Bool.false_eq_true, if_false, List.nil_append, List.append_assoc]
    · cases hu : i.isUnclosed with
      | true =>
        obtain rfl := h.1 hu
        exact ⟨ids, rfl⟩
      | false =>
        refine ⟨rest, ?_⟩
        simp only [Bool.false_eq_true, if_false, List.append_assoc, ← his,
          List.take_append_drop]
    · rw [List.flatMap_cons, List.length_append, hr, hrs, relationCount_cons]
    · rw [hd, List.drop_drop, List.flatMap_cons, List.length_append]

/-- A document without faults has no table that is never closed. -/
theorem dropped_of_faults {o : Outline} (h : o.faults = []) : o.dropped = [] := by
  have hnone : o.filter Item.isUnclosed = [] := by
    rw [List.filter_eq_nil_iff]
    intro i hi hu
    rw [faults_eq, List.flatMap_eq_nil_iff] at h
    have hf := h i hi
    cases i with
    | table d =>
      cases d with
      | unclosed d f =>
        change (d.events ++ [Event.fault f]).filterMap Event.fault? = [] at hf
        rw [List.filterMap_append] at hf
        exact absurd (List.append_eq_nil_iff.1 hf).2 (by simp [Event.fault?])
      | _ => exact Bool.noConfusion hu
    | _ => exact Bool.noConfusion hu
  rw [dropped, hnone, List.flatMap_nil]

end Outline

section Parsing

variable {σ : Type} {source : IdSource σ} (hs : source.Total) (st : σ)
include hs

/-- A schema holds the tables and columns for which ids were drawn, those of a dropped table apart,
and all relations. -/
theorem toSchema_drawn {o : Outline} (h : UnclosedLast o) {s : Schema}
    (he : s = o.toSchema (source.idsFor o.idKinds st)) :
    o.flatMap Item.idKinds = s.tables.flatMap Table.idKinds ++ o.dropped ∧
      s.relations.length = o.relationCount := by
  have hlen : (source.idsFor o.idKinds st).length =
      (o.flatMap Item.idKinds).length + o.relationCount := by
    rw [IdSource.length_idsFor hs, idKinds_eq, List.length_append, List.length_replicate]
  have hn : (o.flatMap Item.idKinds).length ≤ (source.idsFor o.idKinds st).length := by omega
  obtain ⟨hk, -, hr, hd⟩ := build_numbered h hn
  subst he
  refine ⟨hk, ?_⟩
  show (List.zipWith _ _ _).length = _
  rw [List.length_zipWith, hr, hd, List.length_drop, hlen]
  omega

theorem toSchema_numbered {o : Outline} (h : UnclosedLast o) {s : Schema}
    (he : s = o.toSchema (source.idsFor o.idKinds st)) :
    s.tables.flatMap Table.ids = source.idsFor (s.tables.flatMap Table.idKinds) st ∧
      s.relations.map (·.id) = source.idsFor (s.relations.map fun _ => .relation)
        (source.after (s.tables.flatMap Table.idKinds ++ o.dropped) st) := by
  have hn : (o.flatMap Item.idKinds).length ≤ (source.idsFor o.idKinds st).length := by
    rw [IdSource.length_idsFor hs, idKinds_eq, List.length_append]; omega
  obtain ⟨hk, hcount⟩ := toSchema_drawn hs st h he
  obtain ⟨-, ⟨rest, hi⟩, hr, hd⟩ := build_numbered h hn
  have htables : s.tables = (o.build (source.idsFor o.idKinds st)).1.filterMap (·.1) := by
    rw [he]; rfl
  have hrelations : s.relations = List.zipWith (RelationDraft.toRelation s.tables)
      ((o.build (source.idsFor o.idKinds st)).1.flatMap (·.2))
      (o.build (source.idsFor o.idKinds st)).2 := by
    rw [he]; rfl
  rw [← htables] at hi
  have hids : source.idsFor o.idKinds st =
      source.idsFor (s.tables.flatMap Table.idKinds) st ++
        (source.idsFor o.dropped (source.after (s.tables.flatMap Table.idKinds) st) ++
          source.idsFor (List.replicate o.relationCount .relation)
            (source.after (s.tables.flatMap Table.idKinds ++ o.dropped) st)) := by
    rw [idKinds_eq, hk, IdSource.idsFor_append hs, IdSource.idsFor_append hs, List.append_assoc]
  refine ⟨?_, ?_⟩
  · have hlen : (s.tables.flatMap Table.ids).length =
        (source.idsFor (s.tables.flatMap Table.idKinds) st).length := by
      rw [IdSource.length_idsFor hs]
      simp only [List.length_flatMap, Table.length_ids]
    exact List.append_inj_left (hi.symm.trans hids) hlen
  · have hleft : (o.build (source.idsFor o.idKinds st)).2 =
        source.idsFor (List.replicate o.relationCount .relation)
          (source.after (s.tables.flatMap Table.idKinds ++ o.dropped) st) := by
      rw [hd, hids, hk, ← List.append_assoc, List.drop_left']
      simp only [List.length_append, IdSource.length_idsFor hs]
    rw [List.map_const', hcount, ← hleft]
    conv => lhs; rw [hrelations]
    refine map_zipWith_right (fun _ _ => rfl) ?_
    rw [hr, hleft, IdSource.length_idsFor hs, List.length_replicate]

/-- The schema of a text is that of its statements with the ids drawn. -/
theorem schema_of_parse {text : String} {s : Schema}
    (h : (parse source st text).schema = some s) :
    text.toList.all isBlank = false ∧ s = (Outline.read text.toList).toSchema
      (source.idsFor (Outline.read text.toList).idKinds st) := by
  cases hb : text.toList.all isBlank with
  | true => rw [parse_of_blank source st hb] at h; simp [Parsed.empty] at h
  | false =>
    rw [parse_of_total hs st hb] at h
    exact ⟨rfl, (Option.some.inj h).symm⟩

theorem parse_fromText {text : String} {s : Schema}
    (h : (parse source st text).schema = some s) : s.FromText := by
  rw [(schema_of_parse hs st h).2]
  exact toSchema_fromText _ _

/-- The ids of tables and columns are drawn without a gap, and those of relations behind them. -/
theorem parse_numbered {text : String} {s : Schema}
    (h : (parse source st text).schema = some s) :
    ∃ dropped, ((parse source st text).diagnostics = [] → dropped = []) ∧
      s.tables.flatMap Table.ids = source.idsFor (s.tables.flatMap Table.idKinds) st ∧
      s.relations.map (·.id) = source.idsFor (s.relations.map fun _ => .relation)
        (source.after (s.tables.flatMap Table.idKinds ++ dropped) st) := by
  obtain ⟨hb, he⟩ := schema_of_parse hs st h
  refine ⟨(Outline.read text.toList).dropped, fun hd => dropped_of_faults ?_,
    toSchema_numbered hs st (read_unclosedLast _) he⟩
  rw [parse_of_total hs st hb] at hd
  exact List.map_eq_nil_iff.1 hd

/-- A text draws at least the ids that its schema has. -/
theorem length_idKinds_le {text : String} {s : Schema}
    (h : (parse source st text).schema = some s) :
    s.idKinds.length ≤ (Outline.read text.toList).idKinds.length := by
  obtain ⟨hkinds, hcount⟩ :=
    toSchema_drawn hs st (read_unclosedLast text.toList) (schema_of_parse hs st h).2
  rw [idKinds_eq, hkinds, ← hcount, Schema.idKinds]
  simp only [List.length_append, List.length_map, List.length_replicate]
  omega

end Parsing

/-! ## Sequential ids -/

theorem numbered_injective {k l : IdKind} {m n : Int}
    (h : numberedId k.stem m = numberedId l.stem n) : m = n := by
  have hstem : k = l := by
    have hhead := congrArg (fun s : String => s.toList.head?) h
    cases k <;> cases l <;> first | rfl | simp [numberedId, IdKind.stem] at hhead
  subst hstem
  simp only [numberedId, String.append_right_inj] at h
  exact Int.repr_injective h

/-- Every id that is handed out has a number that is not used before. -/
theorem mem_idsFor_counting {ks : List IdKind} {n : Int} {id : String}
    (h : id ∈ IdSource.counting.idsFor ks n) :
    ∃ (k : IdKind) (m : Int), n ≤ m ∧ id = numberedId k.stem m := by
  induction ks generalizing n with
  | nil => simp [IdSource.idsFor] at h
  | cons k ks ih =>
    rcases List.mem_cons.1 h with rfl | h
    · exact ⟨k, n, Int.le_refl n, rfl⟩
    · obtain ⟨l, m, hm, hid⟩ := ih h
      exact ⟨l, m, by omega, hid⟩

/-- Numbered ids are distinct. -/
theorem counting_nodup (ks : List IdKind) (n : Int) : (IdSource.counting.idsFor ks n).Nodup := by
  induction ks generalizing n with
  | nil => exact List.nodup_nil
  | cons k ks ih =>
    refine List.nodup_cons.2 ⟨fun hm => ?_, ih (n + 1)⟩
    obtain ⟨l, m, hlt, hid⟩ := mem_idsFor_counting hm
    have := numbered_injective (k := k) hid
    omega

/-- So many numbers from one on are written. -/
def WritableFrom (n : Int) (count : Nat) : Prop := ∀ i : Nat, i < count → Writable (n + i)

theorem writableFrom_succ {n : Int} {count : Nat} :
    WritableFrom n (count + 1) ↔ Writable n ∧ WritableFrom (n + 1) count := by
  have hnext : ∀ i : Nat, n + 1 + (i : Int) = n + ((i + 1 : Nat) : Int) := by intro i; omega
  constructor
  · intro h
    refine ⟨by simpa using h 0 (Nat.succ_pos count), fun i hi => ?_⟩
    rw [hnext]
    exact h (i + 1) (by omega)
  · rintro ⟨hn, hrest⟩ i hi
    cases i with
    | zero => simpa using hn
    | succ i =>
      rw [← hnext]
      exact hrest i (by omega)

theorem WritableFrom.mono {n : Int} {count fewer : Nat} (h : WritableFrom n count)
    (hle : fewer ≤ count) : WritableFrom n fewer := fun i hi => h i (by omega)

namespace IdSource

/-- As long as all numbers are written, the sequential source hands out what counting gives. -/
theorem supply_sequential {events : List Event} {n : Int}
    (h : WritableFrom n (events.filterMap Event.kind?).length) :
    sequential.supply events n = counting.supply events n := by
  induction events generalizing n with
  | nil => rfl
  | cons e events ih =>
    cases e with
    | fault f => rw [supply_fault, supply_fault, ih h]
    | draw kind rest =>
      obtain ⟨hn, hrest⟩ := writableFrom_succ.1 h
      have hcount := counting_draw kind.stem n
      rw [supply_draw_ok _ _ rest events ((sequential_draw hn kind.stem).trans hcount),
        supply_draw_ok _ _ rest events hcount, ih hrest]

/-- Where the sequential source refuses nothing, all numbers are written. -/
theorem writableFrom_of_refusal {events : List Event} {n : Int}
    (h : (sequential.supply events n).refusal = none) :
    WritableFrom n (events.filterMap Event.kind?).length := by
  induction events generalizing n with
  | nil => exact fun i hi => absurd hi (Nat.not_lt_zero i)
  | cons e events ih =>
    cases e with
    | fault f => exact ih h
    | draw kind rest =>
      by_cases hn : Writable n
      · have hdraw := sequential_draw hn kind.stem
        rw [supply_draw_ok _ _ rest events hdraw] at h
        exact writableFrom_succ.2 ⟨hn, ih h⟩
      · rw [supply_draw_error _ _ rest events (sequential_draw_error hn kind.stem)] at h
        exact absurd h (by simp)

end IdSource

/-- As long as all numbers are written that a text asks for, its ids are counted. -/
theorem parse_sequential {n : Int} {text : String}
    (h : WritableFrom n (Outline.read text.toList).idKinds.length) :
    parse .sequential n text = parse .counting n text := by
  cases hb : text.toList.all isBlank with
  | true => rw [parse_of_blank _ _ hb, parse_of_blank _ _ hb]
  | false => simp only [parse_of_filled _ _ hb, IdSource.supply_sequential h]

/-- With sequential ids, a text has a schema where it is not blank and all numbers are written that
it asks for. -/
theorem parse_sequential_schema_iff {n : Int} {text : String} :
    (parse .sequential n text).schema.isSome ↔ text.toList.all isBlank = false ∧
      WritableFrom n (Outline.read text.toList).idKinds.length := by
  cases hb : text.toList.all isBlank with
  | true => simp [parse_of_blank _ _ hb, Parsed.empty]
  | false =>
    refine ⟨fun h => ⟨rfl, IdSource.writableFrom_of_refusal ?_⟩, fun h => ?_⟩
    · rw [parse_of_filled _ _ hb, Parsed.ofSupply] at h
      cases hr : (IdSource.sequential.supply (Outline.read text.toList).events n).refusal with
      | none => rfl
      | some f => simp [hr] at h
    · rw [parse_sequential h.2, parse_of_total IdSource.counting_total n hb]
      rfl

end Dbml
