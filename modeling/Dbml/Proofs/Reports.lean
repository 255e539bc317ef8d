import Dbml.Proofs.FromText
import Dbml.Proofs.Places
import Dbml.Proofs.Supply

/-!
# What reports say

A report quotes no more of the text than the name of a table or of a column, and names stand on one
line. So every report is a line, and as long as no id is refused, none says anything that the source
of ids made up.

Results:
* `events_oneLine`: the faults of a text are reported on one line each;
* `diagnostics_oneLine`: so are the diagnostics of a parse, which are all errors.
-/
namespace Dbml

open Text Outline

/-! ## Causes -/

/-- A cause is reported on one line. -/
def Cause.OneLine (c : Cause) : Prop := '\n' ∉ c.message.toList

instance (c : Cause) : Decidable c.OneLine := inferInstanceAs (Decidable ('\n' ∉ _))

/-- A message that quotes a name. -/
theorem not_mem_message {before behind : String} {name : List Char} (hb : '\n' ∉ before.toList)
    (hn : '\n' ∉ name) (ha : '\n' ∉ behind.toList) :
    '\n' ∉ (before ++ String.ofList name ++ behind).toList := by
  rw [String.toList_append, String.toList_append, String.toList_ofList, List.mem_append,
    List.mem_append]
  exact not_or.2 ⟨not_or.2 ⟨hb, hn⟩, ha⟩

theorem oneLine_noTableAlias {name : List Char} (h : '\n' ∉ name) :
    (Cause.noTableAlias (String.ofList name)).OneLine :=
  not_mem_message (by decide) h (by decide)

theorem oneLine_noColumnType {name : List Char} (h : '\n' ∉ name) :
    (Cause.noColumnType (String.ofList name)).OneLine :=
  not_mem_message (by decide) h (by decide)

/-- An event is reported on one line, if it is reported. -/
def Event.OneLine : Event → Prop
  | .fault f => f.cause.OneLine
  | .draw _ _ => True

/-- No event, none on several lines. -/
theorem oneLine_nil : ∀ e ∈ ([] : List Event), e.OneLine := fun _ he => absurd he List.not_mem_nil

theorem oneLine_fault {f : Fault} (h : f.cause.OneLine) : ∀ e ∈ [Event.fault f], e.OneLine :=
  List.forall_mem_singleton.2 h

namespace Outline

/-! ## Tables -/

theorem scanColumn_oneLine (s : List Char) :
    ∀ e ∈ (lineOf (scanColumn s).1).events, e.OneLine := by
  unfold scanColumn
  dsimp only
  split
  · exact oneLine_fault (by decide : Cause.OneLine .noColumnName)
  · split
    · exact oneLine_fault (oneLine_noColumnType (readIdentifier_no_newline s))
    · exact List.forall_mem_singleton.2 trivial

theorem line?_oneLine (s : List Char) (l : Line) (r : List Char) (h : line? s = some (l, r)) :
    ∀ e ∈ l.events, e.OneLine := by
  unfold line? at h
  split at h
  · simp at h
  · simp at h
  · rename_i c t _ _
    have hl := Option.some.inj h
    unfold readLine at hl
    split at hl
    · obtain ⟨rfl, -⟩ := Prod.mk.inj hl; exact oneLine_nil
    · dsimp only at hl
      cases hw : wordLine? (lower (readWord (c :: t)).1) (c :: t)
          (skipInline (readWord (c :: t)).2) with
      | none =>
        rw [hw, Option.getD_none, columnLine_eq] at hl
        obtain ⟨rfl, -⟩ := Prod.mk.inj hl
        exact scanColumn_oneLine _
      | some p =>
        rw [hw, Option.getD_some] at hl
        rw [hl] at hw
        rw [wordLine?_events hw]
        exact oneLine_nil

theorem readBody_oneLine (header : TableHeader) (s : List Char) :
    ∀ e ∈ (readBody header s).1.events, e.OneLine := by
  have htable : ∀ e ∈ TableDraft.events ⟨header, s, (many line? line?_progresses s).1⟩,
      e.OneLine := by
    refine List.forall_mem_cons.2 ⟨trivial, fun e he => ?_⟩
    obtain ⟨l, hl, he⟩ := List.mem_flatMap.1 he
    exact many_forall (P := fun l : Line => ∀ e ∈ l.events, e.OneLine)
      (p := line?_progresses) line?_oneLine s l hl e he
  unfold readBody
  dsimp only
  split
  · exact htable
  · exact List.forall_mem_append.2 ⟨htable, oneLine_fault (by decide : Cause.OneLine .noTableClosing)⟩

theorem readAlias_oneLine {table s : List Char} {f : Fault} (ht : '\n' ∉ table)
    (h : readAlias table s = .error f) : f.cause.OneLine := by
  unfold readAlias at h
  split at h
  · simp at h
  · dsimp only at h
    split at h
    · obtain rfl := Except.error.inj h; exact oneLine_noTableAlias ht
    · simp at h

theorem readHeader_oneLine {s : List Char} {f : Fault} (h : readHeader s = .error f) :
    f.cause.OneLine := by
  unfold readHeader at h
  dsimp only at h
  split at h
  · obtain rfl := Except.error.inj h; exact (by decide : Cause.OneLine .noTableName)
  · split at h
    · rename_i ha
      obtain rfl := Except.error.inj h
      exact readAlias_oneLine (readIdentifier_no_newline _) ha
    · split at h
      · simp at h
      · obtain rfl := Except.error.inj h; exact (by decide : Cause.OneLine .noTableOpening)

theorem readTable_oneLine (s : List Char) : ∀ e ∈ (readTable s).1.events, e.OneLine := by
  unfold readTable
  split
  · exact readBody_oneLine _ _
  · rename_i h; exact oneLine_fault (readHeader_oneLine h)

/-! ## Reference statements -/

theorem readRefLine_oneLine (s : List Char) : ∀ e ∈ (readRefLine s).1.events, e.OneLine := by
  unfold readRefLine scanRefLine
  split
  · exact oneLine_nil
  · exact oneLine_fault (by decide : Cause.OneLine .noEndpoint)
  · split
    · exact oneLine_fault (by decide : Cause.OneLine .noRelationSymbol)
    · split
      · exact oneLine_nil
      · exact oneLine_fault (by decide : Cause.OneLine .noEndpoint)
      · exact oneLine_nil

theorem blockRefLine?_oneLine (s : List Char) (l : RefLine) (r : List Char)
    (h : blockRefLine? s = some (l, r)) : ∀ e ∈ l.events, e.OneLine := by
  unfold blockRefLine? at h
  split at h
  · simp at h
  · simp at h
  · rename_i c t _ _
    have hl := readRefLine_oneLine (c :: t)
    rwa [Option.some.inj h] at hl

theorem readRefs_oneLine (s : List Char) : ∀ e ∈ (readRefs s).1.events, e.OneLine := by
  unfold readRefs
  dsimp only
  split
  · rename_i t _
    simpa [RefItem.events] using readRefLine_oneLine t
  · rename_i t _
    have hlines : ∀ e ∈ (many blockRefLine? blockRefLine?_progresses t).1.flatMap RefLine.events,
        e.OneLine := by
      intro e he
      obtain ⟨l, hl, he⟩ := List.mem_flatMap.1 he
      exact many_forall (P := fun l : RefLine => ∀ e ∈ l.events, e.OneLine)
        (p := blockRefLine?_progresses) blockRefLine?_oneLine t l hl e he
    split
    · simpa [RefItem.events] using hlines
    · exact List.forall_mem_append.2 ⟨hlines, oneLine_fault (by decide : Cause.OneLine .noRefClosing)⟩
  · exact oneLine_fault (by decide : Cause.OneLine .noRefOpening)

/-! ## Documents -/

theorem readItem_oneLine (s : List Char) : ∀ e ∈ (readItem s).1.events, e.OneLine := by
  unfold readItem
  split
  · exact readTable_oneLine _
  · split
    · exact readRefs_oneLine _
    · split
      · exact oneLine_nil
      · exact oneLine_nil

/-- The faults of a text are reported on one line each. -/
theorem events_oneLine (text : List Char) : ∀ e ∈ (Outline.read text).events, e.OneLine := by
  refine List.forall_mem_append.2 ⟨fun e he => ?_, fun e he => ?_⟩
  · obtain ⟨i, hi, he⟩ := List.mem_flatMap.1 he
    refine many_forall (P := fun i : Item => ∀ e ∈ i.events, e.OneLine) (p := item?_progresses)
      (fun s i r h => ?_) text i hi e he
    unfold item? at h
    split at h
    · simp at h
    · rename_i c t _
      have hitem := readItem_oneLine (c :: t)
      rwa [Option.some.inj h] at hitem
  · rw [(List.mem_replicate.1 he).2]; trivial

end Outline

/-! ## Diagnostics -/

/-- As long as no id is refused, the diagnostics of a parse are errors on one line each. -/
theorem diagnostics_oneLine {σ : Type} {source : IdSource σ} (h : source.Total) (st : σ)
    (text : String) :
    ∀ d ∈ (parse source st text).diagnostics, d.severity = .error ∧ '\n' ∉ d.message.toList := by
  cases hb : text.toList.all isBlank with
  | true =>
    rw [parse_of_blank source st hb]
    exact List.forall_mem_singleton.2 ⟨rfl, by decide⟩
  | false =>
    rw [parse_of_total h st hb]
    intro d hd
    obtain ⟨f, hf, rfl⟩ := List.mem_map.1 hd
    obtain ⟨e, he, hfault⟩ := List.mem_filterMap.1 hf
    have hline := events_oneLine text.toList e he
    cases e with
    | fault g => obtain rfl := Option.some.inj hfault; exact ⟨rfl, hline⟩
    | draw => cases hfault

end Dbml
