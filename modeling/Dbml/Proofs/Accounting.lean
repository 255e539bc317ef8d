import Dbml.Proofs.ColumnLines
import Dbml.Proofs.References

/-!
# Every call is accounted for

The reader calls a routine where a table is introduced, for each line of a table that is no stray
slash, where a reference statement is introduced and for each of its lines. `calls` lists these
calls by the text at which they start, in the order in which they end. What a call comes to is read
off its own routine alone: what it yields and what it reports.

No call is silent without reason, and none reports twice: it yields one construct, or it reports one
fault of its kind, or it is one of the kinds that yield nothing (`Call.Settled`). The calls of a text
account for all that a parse gives.

Results:
* `readTable_settled`, `readLine_settled`, `readRefLine_settled`, `readRefs_settled`: what one call
  comes to;
* `faults_calls`, `keptTables_calls`, `links_calls`: the faults, the tables and the links of a text
  are those of its calls;
* `parse_accounted`: so are its diagnostics, its tables and its relations.
-/
namespace Dbml

open Text Outline

/-! ## Places of a repetition -/

namespace Text

section Places

variable {α : Type} {step : List Char → Option (α × List Char)}

/-- A step that yields the place where it succeeds. -/
def placed (step : List Char → Option (α × List Char)) (s : List Char) :
    Option (List Char × List Char) :=
  (step s).map fun p => (s, p.2)

theorem Progresses.placed (h : Progresses step) : Progresses (placed step) := by
  intro s a r hs
  obtain ⟨p, hp, he⟩ := Option.map_eq_some_iff.1 hs
  obtain ⟨-, rfl⟩ := Prod.mk.inj he
  exact h hp

/-- The places at which a repetition takes its steps, in order. -/
def places (step : List Char → Option (α × List Char)) (progresses : Progresses step)
    (s : List Char) : List (List Char) :=
  (many (placed step) progresses.placed s).1

/-- What is collected at the places of a repetition is collected from what it reads. -/
theorem flatMap_places {β : Type} {p : Progresses step} {f : List Char → List β} {g : α → List β}
    (h : ∀ t a r, step t = some (a, r) → f t = g a) (s : List Char) :
    (places step p s).flatMap f = (many step p s).1.flatMap g := by
  induction hn : s.length using Nat.strongRecOn generalizing s with
  | _ n ih =>
    cases hs : step s with
    | none =>
      have hp : placed step s = none := by rw [placed, hs]; rfl
      rw [places, many_of_none hp, many_of_none hs]
      rfl
    | some q =>
      obtain ⟨a, r⟩ := q
      have hp : placed step s = some (s, r) := by rw [placed, hs]; rfl
      have hr := ih r.length (hn ▸ (p hs).2) r rfl
      rw [places] at hr
      rw [places, many_of_some hp, many_of_some hs, List.flatMap_cons, List.flatMap_cons, hr,
        h s a r hs]

end Places

end Text

/-! ## Calls -/

/-- A call of a routine of the reader, by the text at which it starts. -/
inductive Call where
  /-- Behind the word that introduces a table. -/
  | table (s : List Char)
  /-- At a line of a table's body. -/
  | line (s : List Char)
  /-- Behind the word that introduces a reference statement. -/
  | refs (s : List Char)
  /-- At a line of a reference statement. -/
  | refLine (s : List Char)

namespace Outline

/-- The fault that is reported for a table itself. -/
def TableItem.fault? : TableItem → Option Fault
  | .table _ => none
  | .unclosed _ f => some f
  | .headless f => some f

def TableItem.table? : TableItem → Option TableDraft
  | .table d => some d
  | _ => none

def RefLine.fault? : RefLine → Option Fault
  | .fault f => some f
  | _ => none

end Outline

namespace Call

/-- The table that a call yields. -/
def table? : Call → Option TableDraft
  | .table s => (readTable s).1.table?
  | _ => none

/-- The column that a call yields. -/
def column? : Call → Option ColumnDraft
  | .line s => (readLine s).1.column?
  | _ => none

/-- The link that a call yields. -/
def link? : Call → Option Link
  | .refLine s => (readRefLine s).1.link?
  | _ => none

/-- The fault that a call reports itself, apart from those of the calls that it makes. -/
def fault? : Call → Option Fault
  | .table s => (readTable s).1.fault?
  | .line s => (readLine s).1.fault?
  | .refs s => (readRefs s).1.fault
  | .refLine s => (readRefLine s).1.fault?

end Call

/-- The call at a line of a table's body. A stray slash is skipped without one. -/
def lineCall (s : List Char) : List Call :=
  match s with
  | '/' :: _ => []
  | _ => [.line s]

/-- The calls at the lines of the table behind a word that introduces it. -/
def tableLines (s : List Char) : List Call :=
  match readHeader s with
  | .ok (_, r) => (places line? line?_progresses r).flatMap fun t => lineCall (skipFiller t)
  | .error _ => []

/-- The calls at the lines of the reference statement behind a word that introduces it. -/
def refLines (s : List Char) : List Call :=
  match (readRefName (skipInline s)).2 with
  | ':' :: t => [.refLine t]
  | '{' :: t =>
    (places blockRefLine? blockRefLine?_progresses t).map fun u => .refLine (skipFiller u)
  | _ => []

/-- The calls at a statement. -/
def itemCalls (s : List Char) : List Call :=
  match keyword? "Table" s with
  | some r => tableLines r ++ [.table r]
  | none =>
    match keyword? "Ref" s with
    | some r => refLines r ++ [.refs r]
    | none => []

/-- The calls at the statements of a text, in the order in which they end. -/
def calls (text : List Char) : List Call :=
  (places item? item?_progresses text).flatMap fun t => itemCalls (skipFiller t)

/-! ## What a call comes to -/

/-- What may be wrong with a table itself. -/
def Cause.IsOfTable : Cause → Prop
  | noTableName => True
  | noTableAlias _ => True
  | noTableOpening => True
  | noTableClosing => True
  | _ => False

/-- What may be wrong with the line of a column. -/
def Cause.IsOfColumn : Cause → Prop
  | noColumnName => True
  | noColumnType _ => True
  | _ => False

/-- What may be wrong with a line of a reference statement. -/
def Cause.IsOfRefLine : Cause → Prop
  | noEndpoint => True
  | noRelationSymbol => True
  | _ => False

/-- A line of a table starts a note or a block of notes or indexes. -/
def IsNoteOrIndexes (s : List Char) : Prop :=
  ((lower (readWord s).1 = "indexes" ∨ lower (readWord s).1 = "note") ∧
    (skipInline (readWord s).2).head? = some '{') ∨
  (lower (readWord s).1 = "note" ∧ (skipInline (readWord s).2).head? = some ':')

/-- An endpoint of several columns stands on a line of a reference statement: at its front, or
behind a first endpoint and a symbol. -/
inductive HasComposite (s : List Char) : Prop
  | source (h : (readEndpoint (skipInline s)).1 = .composite)
  | target {name : ColumnName} {r t : List Char} {k : Cardinality}
    (hs : readEndpoint (skipInline s) = (.named name, r))
    (hk : readSymbol? (skipInline r) = some (k, t))
    (h : (readEndpoint (skipInline t)).1 = .composite)

/-- How a reference statement goes on behind its name. -/
def refsOpening (s : List Char) : List Char := (readRefName (skipInline s)).2

/-- A reference statement opens a block that ends with the text, without a closing brace. -/
def OpensUnclosed (s : List Char) : Prop :=
  ∃ t, refsOpening s = '{' :: t ∧
    skipFiller (many blockRefLine? blockRefLine?_progresses t).2 = []

/-- What a call comes to: it yields a construct, or it reports one fault, or there is a reason for
neither. -/
def Call.Settled : Call → Prop
  | .table s =>
    (∃ d, (Call.table s).table? = some d ∧ d.columns = (tableLines s).filterMap Call.column? ∧
      (Call.table s).fault? = none) ∨
    ((Call.table s).table? = none ∧ ∃ f, (Call.table s).fault? = some f ∧ f.cause.IsOfTable)
  | .line s =>
    (IsNoteOrIndexes s ∧ (Call.line s).column? = none ∧ (Call.line s).fault? = none) ∨
    (¬IsNoteOrIndexes s ∧ (∃ c, (Call.line s).column? = some c) ∧ (Call.line s).fault? = none) ∨
    (¬IsNoteOrIndexes s ∧ (Call.line s).column? = none ∧
      ∃ f, (Call.line s).fault? = some f ∧ f.cause.IsOfColumn)
  | .refLine s =>
    (¬HasComposite s ∧ (∃ l, (Call.refLine s).link? = some l) ∧ (Call.refLine s).fault? = none) ∨
    (¬HasComposite s ∧ (Call.refLine s).link? = none ∧
      ∃ f, (Call.refLine s).fault? = some f ∧ f.cause.IsOfRefLine) ∨
    (HasComposite s ∧ (Call.refLine s).link? = none ∧ (Call.refLine s).fault? = none)
  | .refs s =>
    ((refsOpening s).head? ≠ some ':' ∧ (refsOpening s).head? ≠ some '{' ∧
      ∃ f, (Call.refs s).fault? = some f ∧ f.cause = .noRefOpening) ∨
    (OpensUnclosed s ∧ ∃ f, (Call.refs s).fault? = some f ∧ f.cause = .noRefClosing) ∨
    (((refsOpening s).head? = some ':' ∨ (refsOpening s).head? = some '{') ∧ ¬OpensUnclosed s ∧
      (Call.refs s).fault? = none)

theorem readHeader_cause {s : List Char} {f : Fault} (h : readHeader s = .error f) :
    f.cause.IsOfTable := by
  unfold readHeader at h
  dsimp only at h
  split at h
  · obtain rfl := Except.error.inj h; trivial
  · split at h
    · rename_i g ha
      obtain rfl := Except.error.inj h
      unfold readAlias at ha
      split at ha
      · cases ha
      · dsimp only at ha
        split at ha
        · obtain rfl := Except.error.inj ha; trivial
        · cases ha
    · split at h
      · cases h
      · obtain rfl := Except.error.inj h; trivial

theorem scanColumn_cause {s : List Char} {f : Fault} (h : (scanColumn s).1 = .error f) :
    f.cause.IsOfColumn := by
  unfold scanColumn at h
  dsimp only at h
  split at h
  · obtain rfl := Except.error.inj h; trivial
  · split at h
    · obtain rfl := Except.error.inj h; trivial
    · cases h

/-- The words of a line decide whether it is that of a column. -/
theorem wordLine?_isSome_iff (s : List Char) :
    (wordLine? (lower (readWord s).1) s (skipInline (readWord s).2)).isSome = true ↔
      IsNoteOrIndexes s := by
  unfold wordLine? IsNoteOrIndexes
  generalize lower (readWord s).1 = word
  generalize skipInline (readWord s).2 = r
  split
  · rename_i hword
    split
    · simp [hword]
    · split
      · rename_i hnote; simp [hnote]
      · rename_i hnote; simp [hnote]
    · rename_i hbrace hcolon
      have hb : r.head? ≠ some '{' := fun he => by
        obtain ⟨t, rfl⟩ := List.head?_eq_some_iff.1 he
        exact hbrace t rfl
      have hc : r.head? ≠ some ':' := fun he => by
        obtain ⟨t, rfl⟩ := List.head?_eq_some_iff.1 he
        exact hcolon t rfl
      simp [hb, hc]
  · rename_i hword
    obtain ⟨hindexes, hnote⟩ := not_or.1 hword
    simp [hindexes, hnote]

theorem readLine_settled {s : List Char} (h : s.head? ≠ some '/') : (Call.line s).Settled := by
  have hread : (readLine s).1 =
      ((wordLine? (lower (readWord s).1) s (skipInline (readWord s).2)).getD (columnLine s)).1 := by
    unfold readLine
    split
    · exact absurd rfl h
    · rfl
  have hnote := wordLine?_isSome_iff s
  show _ ∨ _ ∨ _
  simp only [Call.column?, Call.fault?, hread]
  cases hw : wordLine? (lower (readWord s).1) s (skipInline (readWord s).2) with
  | some p =>
    obtain ⟨l, r⟩ := p
    have hevents := wordLine?_events hw
    rw [hw] at hnote
    refine .inl ⟨hnote.1 rfl, ?_⟩
    cases l with
    | column c => cases hevents
    | fault f => cases hevents
    | note v => exact ⟨rfl, rfl⟩
    | block => exact ⟨rfl, rfl⟩
    | noise => exact ⟨rfl, rfl⟩
  | none =>
    rw [hw] at hnote
    have hcolumn : ¬IsNoteOrIndexes s := fun hi => by cases hnote.2 hi
    rw [Option.getD_none, columnLine_eq]
    cases hscan : (scanColumn s).1 with
    | ok c => exact .inr (.inl ⟨hcolumn, ⟨c, rfl⟩, rfl⟩)
    | error f => exact .inr (.inr ⟨hcolumn, rfl, f, rfl, scanColumn_cause hscan⟩)

theorem readRefLine_settled (s : List Char) : (Call.refLine s).Settled := by
  have hread : (readRefLine s).1 = (scanRefLine s).1 := rfl
  show _ ∨ _ ∨ _
  simp only [Call.link?, Call.fault?, hread]
  cases hs : readEndpoint (skipInline s) with
  | mk source r =>
    cases source with
    | composite =>
      have hscan : (scanRefLine s).1 = .composite := by simp only [scanRefLine, hs]
      rw [hscan]
      exact .inr (.inr ⟨.source (by rw [hs]), rfl, rfl⟩)
    | malformed =>
      have hscan : (scanRefLine s).1 = .fault ⟨.noEndpoint, r⟩ := by simp only [scanRefLine, hs]
      have hnone : ¬HasComposite s := by rintro (h | ⟨h, _, _⟩) <;> simp [hs] at h
      rw [hscan]
      exact .inr (.inl ⟨hnone, rfl, _, rfl, trivial⟩)
    | named name =>
      cases hk : readSymbol? (skipInline r) with
      | none =>
        have hscan : (scanRefLine s).1 = .fault ⟨.noRelationSymbol, skipInline r⟩ := by
          simp only [scanRefLine, hs, hk]
        have hnone : ¬HasComposite s := by rintro (h | ⟨h, h', _⟩) <;> simp_all
        rw [hscan]
        exact .inr (.inl ⟨hnone, rfl, _, rfl, trivial⟩)
      | some p =>
        obtain ⟨k, t⟩ := p
        have hiff : HasComposite s → (readEndpoint (skipInline t)).1 = .composite := by
          rintro (h | ⟨h, h', h''⟩)
          · simp [hs] at h
          · simp_all
        cases ht : readEndpoint (skipInline t) with
        | mk target u =>
          rw [ht] at hiff
          cases target with
          | composite =>
            have hscan : (scanRefLine s).1 = .composite := by simp only [scanRefLine, hs, hk, ht]
            rw [hscan]
            exact .inr (.inr ⟨.target hs hk (by rw [ht]), rfl, rfl⟩)
          | malformed =>
            have hscan : (scanRefLine s).1 = .fault ⟨.noEndpoint, u⟩ := by
              simp only [scanRefLine, hs, hk, ht]
            rw [hscan]
            exact .inr (.inl ⟨fun h => EndpointText.noConfusion (hiff h), rfl, _, rfl, trivial⟩)
          | named name' =>
            have hscan : (scanRefLine s).1 = .link ⟨name, k, name'⟩ := by
              simp only [scanRefLine, hs, hk, ht]
            rw [hscan]
            exact .inl ⟨fun h => EndpointText.noConfusion (hiff h), ⟨_, rfl⟩, rfl⟩

/-- The lines of a block end at a closing brace or with the text. -/
theorem blockRefLines_end (t : List Char) :
    skipFiller (many blockRefLine? blockRefLine?_progresses t).2 = [] ∨
      ∃ u, skipFiller (many blockRefLine? blockRefLine?_progresses t).2 = '}' :: u := by
  have hstop := many_stops (p := blockRefLine?_progresses) t
  unfold blockRefLine? at hstop
  split at hstop
  · rename_i h; exact .inl h
  · rename_i u h; exact .inr ⟨u, h⟩
  · cases hstop

theorem readRefs_settled (s : List Char) : (Call.refs s).Settled := by
  show _ ∨ _ ∨ _
  have hopens : ∀ t, refsOpening s = '{' :: t → (OpensUnclosed s ↔
      skipFiller (many blockRefLine? blockRefLine?_progresses t).2 = []) := by
    intro t e
    refine ⟨?_, fun h => ⟨t, e, h⟩⟩
    rintro ⟨u, hu, h⟩
    rw [e] at hu
    rwa [(List.cons.inj hu).2]
  have hcloses : (refsOpening s).head? ≠ some '{' → ¬OpensUnclosed s := by
    rintro h ⟨t, ht, -⟩
    exact h (by rw [ht]; rfl)
  unfold refsOpening at hopens hcloses ⊢
  unfold Call.fault? readRefs
  dsimp only
  split
  · rename_i t e
    exact .inr (.inr ⟨.inl (by rw [e]; rfl), hcloses (by rw [e]; simp), rfl⟩)
  · rename_i t e
    rcases blockRefLines_end t with hend | ⟨u, hend⟩
    · simp only [hend]
      exact .inr (.inl ⟨(hopens t e).2 hend, _, rfl, rfl⟩)
    · simp only [hend]
      refine .inr (.inr ⟨.inr (by rw [e]; rfl), fun h => ?_, trivial⟩)
      rw [(hopens t e).1 h] at hend
      cases hend
  · rename_i hcolon hbrace
    refine .inl ⟨fun h => ?_, fun h => ?_, _, rfl, rfl⟩
    · obtain ⟨t, ht⟩ := List.head?_eq_some_iff.1 h
      exact hcolon t ht
    · obtain ⟨t, ht⟩ := List.head?_eq_some_iff.1 h
      exact hbrace t ht

/-! ## What calls account for -/

section Collect

variable {β : Type} {g : Call → Option β}

/-- What is collected from the calls at the lines of a body is collected from its lines. -/
theorem filterMap_lineCalls {f : Line → Option β} (hline : ∀ s, g (.line s) = f (readLine s).1)
    (hnoise : f .noise = none) (s : List Char) :
    ((places line? line?_progresses s).flatMap fun t => lineCall (skipFiller t)).filterMap g =
      (many line? line?_progresses s).1.filterMap f := by
  rw [List.filterMap_flatMap, List.filterMap_eq_flatMap_toList]
  refine flatMap_places (fun t l r ht => ?_) s
  unfold line? at ht
  split at ht
  · cases ht
  · cases ht
  · rename_i c u _ hskip
    have hl : (readLine (c :: u)).1 = l := congrArg Prod.fst (Option.some.inj ht)
    by_cases hc : c = '/'
    · subst hc
      obtain rfl : Line.noise = l := hl
      rw [hskip, hnoise]
      rfl
    · have hcall : lineCall (c :: u) = [.line (c :: u)] := by
        unfold lineCall; split
        · rename_i he; exact absurd (List.cons.inj he).1 hc
        · rfl
      rw [hskip, hcall, ← hl, ← hline]
      cases h : g (.line (c :: u)) <;> simp [h]

/-- What is collected from the calls at the lines of a reference statement is collected from its
lines. -/
theorem filterMap_refLines {f : RefLine → Option β}
    (hline : ∀ s, g (.refLine s) = f (readRefLine s).1) (s : List Char) :
    (refLines s).filterMap g = (readRefs s).1.lines.filterMap f := by
  unfold readRefs
  dsimp only
  split
  · rename_i t e
    simp [refLines, e, List.filterMap_cons, hline]
  · rename_i t e
    have hmany : (refLines s).filterMap g =
        (many blockRefLine? blockRefLine?_progresses t).1.filterMap f := by
      have hcalls : refLines s = (places blockRefLine? blockRefLine?_progresses t).map
          fun u => Call.refLine (skipFiller u) := by rw [refLines, e]; rfl
      rw [hcalls, List.filterMap_map, List.filterMap_eq_flatMap_toList, List.filterMap_eq_flatMap_toList]
      refine flatMap_places (fun u l v hu => ?_) t
      unfold blockRefLine? at hu
      split at hu
      · cases hu
      · cases hu
      · rename_i c w _ hskip
        have hl : (readRefLine (c :: w)).1 = l := congrArg Prod.fst (Option.some.inj hu)
        rw [Function.comp_apply, hskip, hline, hl]
    split <;> exact hmany
  · rename_i hcolon hbrace
    have hnone : refLines s = [] := by
      unfold refLines
      split
      · rename_i t e; exact absurd e (hcolon t)
      · rename_i t e; exact absurd e (hbrace t)
      · rfl
    rw [hnone]
    rfl

/-- What is collected from the calls of a text is collected from its statements. -/
theorem filterMap_calls (f : Item → List β)
    (htable : ∀ s, (tableLines s ++ [Call.table s]).filterMap g = f (.table (readTable s).1))
    (hrefs : ∀ s, (refLines s ++ [Call.refs s]).filterMap g = f (.refs (readRefs s).1))
    (hskipped : ∀ s, f (.skipped s) = []) (hstray : f .stray = []) (text : List Char) :
    (calls text).filterMap g = (Outline.read text).flatMap f := by
  have hitem : ∀ s, (itemCalls s).filterMap g = f (readItem s).1 := by
    intro s
    unfold itemCalls readItem
    cases keyword? "Table" s with
    | some r => exact htable r
    | none =>
      cases keyword? "Ref" s with
      | some r => exact hrefs r
      | none =>
        dsimp only
        split
        · exact (hskipped s).symm
        · exact hstray.symm
  rw [calls, List.filterMap_flatMap]
  refine flatMap_places (fun t i r ht => ?_) text
  unfold item? at ht
  split at ht
  · cases ht
  · rename_i c u hskip
    have hi : (readItem (c :: u)).1 = i := congrArg Prod.fst (Option.some.inj ht)
    rw [hskip, hitem, hi]

end Collect

/-- The lines of the table behind a word that introduces it. -/
def TableItem.lines : TableItem → List Line
  | .table d => d.lines
  | .unclosed d _ => d.lines
  | .headless _ => []

theorem filterMap_tableLines {β : Type} {g : Call → Option β} {f : Line → Option β}
    (hline : ∀ s, g (.line s) = f (readLine s).1) (hnoise : f .noise = none) (s : List Char) :
    (tableLines s).filterMap g = (TableItem.lines (readTable s).1).filterMap f := by
  unfold tableLines readTable
  cases readHeader s with
  | ok p =>
    obtain ⟨header, r⟩ := p
    refine (filterMap_lineCalls hline hnoise r).trans ?_
    unfold readBody
    dsimp only
    split <;> rfl
  | error f => rfl

theorem readTable_settled (s : List Char) : (Call.table s).Settled := by
  have hcolumns := filterMap_tableLines (g := Call.column?) (f := Line.column?) (fun _ => rfl) rfl s
  show _ ∨ _
  simp only [Call.table?, Call.fault?]
  unfold readTable at hcolumns ⊢
  cases hheader : readHeader s with
  | error f => exact .inr ⟨rfl, f, rfl, readHeader_cause hheader⟩
  | ok p =>
    obtain ⟨header, r⟩ := p
    rw [hheader] at hcolumns
    simp only [readBody] at hcolumns ⊢
    split
    · rename_i t hend
      simp only [hend] at hcolumns
      exact .inl ⟨_, rfl, hcolumns.symm, rfl⟩
    · exact .inr ⟨rfl, _, rfl, trivial⟩

theorem Line.filterMap_faults (ls : List Line) :
    (ls.flatMap Line.events).filterMap Event.fault? = ls.filterMap Line.fault? := by
  rw [List.filterMap_flatMap, List.filterMap_eq_flatMap_toList]
  exact congrArg (ls.flatMap ·) (funext Line.faults_events)

theorem RefLine.filterMap_faults (ls : List RefLine) :
    (ls.flatMap RefLine.events).filterMap Event.fault? = ls.filterMap RefLine.fault? := by
  have hline : ∀ l : RefLine, l.events.filterMap Event.fault? = l.fault?.toList := by
    intro l; cases l <;> rfl
  rw [List.filterMap_flatMap, List.filterMap_eq_flatMap_toList]
  exact congrArg (ls.flatMap ·) (funext hline)

/-- The faults of a text are those that its calls report. -/
theorem faults_calls (text : List Char) :
    (calls text).filterMap Call.fault? = (Outline.read text).faults := by
  rw [faults_eq]
  refine filterMap_calls (fun i => i.events.filterMap Event.fault?) (fun s => ?_) (fun s => ?_)
    (fun _ => rfl) rfl text
  · have hown : [Call.table s].filterMap Call.fault? = (readTable s).1.fault?.toList :=
      List.filterMap_cons ..
    rw [List.filterMap_append, filterMap_tableLines (f := Line.fault?) (fun _ => rfl) rfl,
      ← Line.filterMap_faults, hown]
    cases (readTable s).1 with
    | table d => exact List.append_nil _
    | unclosed d f =>
      have hevents : (Item.table (.unclosed d f)).events =
          .draw .table d.rest :: (d.lines.flatMap Line.events ++ [.fault f]) := rfl
      rw [hevents, List.filterMap_cons_none rfl, List.filterMap_append]
      rfl
    | headless f => rfl
  · have hown : [Call.refs s].filterMap Call.fault? = (readRefs s).1.fault.toList :=
      List.filterMap_cons ..
    rw [List.filterMap_append, filterMap_refLines (f := RefLine.fault?) (fun _ => rfl),
      ← RefLine.filterMap_faults, hown]
    cases h : (readRefs s).1.fault <;> simp [Item.events, RefItem.events, h, Event.fault?]

/-- The tables of a text that are kept are those that its calls yield. -/
theorem keptTables_calls (text : List Char) :
    (calls text).filterMap Call.table? = (Outline.read text).keptTables := by
  have hline : ∀ ls : List Line, ls.filterMap (fun _ => (none : Option TableDraft)) = [] := by simp
  have href : ∀ ls : List RefLine, ls.filterMap (fun _ => (none : Option TableDraft)) = [] := by simp
  rw [keptTables, List.filterMap_eq_flatMap_toList (f := Item.kept?)]
  refine filterMap_calls (fun i => i.kept?.toList) (fun s => ?_) (fun s => ?_) (fun _ => rfl) rfl
    text
  · have hown : [Call.table s].filterMap Call.table? = (readTable s).1.table?.toList :=
      List.filterMap_cons ..
    rw [List.filterMap_append, filterMap_tableLines (f := fun _ => none) (fun _ => rfl) rfl, hline,
      hown]
    cases (readTable s).1 <;> rfl
  · rw [List.filterMap_append, filterMap_refLines (f := fun _ => none) (fun _ => rfl), href]
    rfl

/-- The links of a statement. -/
def Item.links : Item → List Link
  | .refs r => r.links
  | _ => []

/-- The links of a text's reference statements are those that its calls yield. -/
theorem links_calls (text : List Char) :
    (calls text).filterMap Call.link? = (Outline.read text).flatMap Item.links := by
  have hline : ∀ ls : List Line, ls.filterMap (fun _ => (none : Option Link)) = [] := by simp
  refine filterMap_calls Item.links (fun s => ?_) (fun s => ?_) (fun _ => rfl) rfl text
  · rw [List.filterMap_append, filterMap_tableLines (f := fun _ => none) (fun _ => rfl) rfl, hline]
    rfl
  · rw [List.filterMap_append, filterMap_refLines (f := RefLine.link?) (fun _ => rfl)]
    exact List.append_nil _

/-- Every call of a text comes to what its kind allows. -/
theorem calls_settled (text : List Char) : ∀ c ∈ calls text, c.Settled := by
  intro c hc
  obtain ⟨t, -, hc⟩ := List.mem_flatMap.1 hc
  have htableLines : ∀ s, ∀ c ∈ tableLines s, c.Settled := by
    intro s c hc
    unfold tableLines at hc
    split at hc
    · obtain ⟨u, -, hc⟩ := List.mem_flatMap.1 hc
      unfold lineCall at hc
      split at hc
      · cases hc
      · rename_i hslash
        obtain rfl := List.mem_singleton.1 hc
        refine readLine_settled fun h => ?_
        obtain ⟨v, hv⟩ := List.head?_eq_some_iff.1 h
        exact hslash v hv
    · cases hc
  have hrefLines : ∀ s, ∀ c ∈ refLines s, c.Settled := by
    intro s c hc
    unfold refLines at hc
    split at hc
    · obtain rfl := List.mem_singleton.1 hc
      exact readRefLine_settled _
    · obtain ⟨u, -, rfl⟩ := List.mem_map.1 hc
      exact readRefLine_settled _
    · cases hc
  unfold itemCalls at hc
  split at hc
  · rcases List.mem_append.1 hc with hc | hc
    · exact htableLines _ c hc
    · obtain rfl := List.mem_singleton.1 hc
      exact readTable_settled _
  · split at hc
    · rcases List.mem_append.1 hc with hc | hc
      · exact hrefLines _ c hc
      · obtain rfl := List.mem_singleton.1 hc
        exact readRefs_settled _
    · cases hc

/-! ## Parsing -/

/-- How many relations a document makes: one for each link, and one for each reference at a column
of a table that is kept. -/
theorem relationCount_eq (o : Outline) :
    o.relationCount = (o.flatMap Item.links).length +
      (o.keptTables.flatMap fun d => d.columns.filterMap ColumnDraft.reference?).length := by
  induction o with
  | nil => rfl
  | cons i o ih =>
    rw [relationCount_cons, ih, List.flatMap_cons, keptTables_cons, List.flatMap_append,
      List.length_append, List.length_append]
    cases i with
    | table d =>
      cases d with
      | table d => simp [Item.relationCount, Item.links, Item.kept?]; omega
      | unclosed d f => simp [Item.relationCount, Item.links, Item.kept?]
      | headless f => simp [Item.relationCount, Item.links, Item.kept?]
    | refs r => simp [Item.relationCount, Item.links, Item.kept?]; omega
    | skipped s => simp [Item.relationCount, Item.links, Item.kept?]
    | stray => simp [Item.relationCount, Item.links, Item.kept?]

/-- Every call of a text yields one construct or reports one fault, unless there is a reason for
neither. And where no id is refused, a text that is not blank gives nothing else: one table for each
that a call yields, with its columns, one relation for each link and each reference at a column of
such a table, and one diagnostic for each call that reports a fault. -/
theorem parse_accounted {σ : Type} {source : IdSource σ} (hs : source.Total) (st : σ)
    (text : String) :
    (∀ c ∈ calls text.toList, c.Settled) ∧
    (text.toList.all isBlank = false →
      ∃ s, (parse source st text).schema = some s ∧
        List.Forall₂ TableDraft.Describes ((calls text.toList).filterMap Call.table?) s.tables ∧
        s.relations.length = ((calls text.toList).filterMap Call.link?).length +
          (((calls text.toList).filterMap Call.table?).flatMap fun d =>
            d.columns.filterMap ColumnDraft.reference?).length ∧
        (parse source st text).diagnostics = ((calls text.toList).filterMap Call.fault?).map
          (Fault.toDiagnostic text.toList) ∧
        (parse source st text).diagnostics.length =
          (calls text.toList).countP fun c => c.fault?.isSome) := by
  refine ⟨calls_settled text.toList, fun hb => ?_⟩
  have hparse := parse_of_total hs st hb
  have hone := read_columns scanColumn_oneReference text.toList
  have hlast := read_unclosedLast text.toList
  have hn : ((Outline.read text.toList).flatMap Item.idKinds).length ≤
      (source.idsFor (Outline.read text.toList).idKinds st).length := by
    rw [IdSource.length_idsFor hs, idKinds_eq, List.length_append]
    omega
  have hcount : ∀ cs : List Call, (cs.filterMap Call.fault?).length =
      cs.countP fun c => c.fault?.isSome := fun cs => List.length_filterMap_eq_countP
  have hdiagnostics : (parse source st text).diagnostics =
      ((calls text.toList).filterMap Call.fault?).map (Fault.toDiagnostic text.toList) := by
    rw [hparse, faults_calls]
  refine ⟨_, congrArg Parsed.schema hparse, ?_, ?_, hdiagnostics, ?_⟩
  · rw [keptTables_calls]
    exact (build_drafted hone hn [] rfl).1
  · obtain ⟨-, -, hdrafts, hleft⟩ := build_numbered hlast hn
    have hlen : (source.idsFor (Outline.read text.toList).idKinds st).length =
        ((Outline.read text.toList).flatMap Item.idKinds).length +
          (Outline.read text.toList).relationCount := by
      rw [IdSource.length_idsFor hs, idKinds_eq, List.length_append, List.length_replicate]
    rw [toSchema_eq, keptTables_calls, links_calls, ← relationCount_eq, List.length_zipWith, drafts,
      hdrafts, hleft, List.length_drop, hlen]
    omega
  · rw [hdiagnostics, List.length_map, hcount]

/-- A table with a note, a column and a line that is none, a composite reference, a reference
statement without an opening and a header cut off. -/
def mixedCalls : String :=
  "Table t \x7b\n  note: 'n'\n  x int\n  :\n\x7d\nRef: t.(x) > t.x\nRef t\nRef: t.x > t.x\nTable"

theorem parse_accounted_mixedCalls :
    IdSource.counting.Total ∧ mixedCalls.toList.all isBlank = false ∧
      (∀ c ∈ calls mixedCalls.toList, c.Settled) ∧ (calls mixedCalls.toList).length = 10 ∧
      ((calls mixedCalls.toList).countP fun c => c.fault?.isSome) = 3 ∧
      ∃ s, parse .counting 1 mixedCalls = ⟨some s, [
            .errorAt ⟨4, 3⟩ "Expected column name",
            .errorAt ⟨7, 6⟩ "Expected \":\" or \"\x7b\" after Ref",
            .errorAt ⟨9, 6⟩ "Expected table name"]⟩ ∧
        s.tables.length = 1 ∧ s.relations.length = 1 := by
  have hblank : mixedCalls.toList.all isBlank = false := by decide +kernel
  have h := parse_accounted IdSource.counting_total 1 mixedCalls
  obtain ⟨s, hs, htables, hrelations, -, -⟩ := h.2 hblank
  refine ⟨IdSource.counting_total, hblank, h.1, by decide +kernel, by decide +kernel, s, ?_, ?_, ?_⟩
  · rw [← hs]
    decide +kernel
  · exact htables.length_eq.symm.trans (by decide +kernel)
  · exact hrelations.trans (by decide +kernel)

end Dbml
