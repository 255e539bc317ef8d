import Dbml.Outline.Event

/-!
# Where events happen

Reading goes through a text once, from the front to the end. The faults and draws that it meets on
the way happen one behind the other: at each of them less text is left, or as much, than at the one
before.

Results:
* `readItem_meets`: the events of a statement happen between its two ends, in order;
* `events_meets`: so do those of a document, the draws for its relations coming last, at the end;
* `supply_pairwise`: what is reported was noticed one behind the other.
-/
namespace Dbml

open Text Outline

/-- The text that is still to be read at an event. -/
def Event.rest : Event → List Char
  | .fault f => f.rest
  | .draw _ rest => rest

/-- Events met in order on the way from one place in a text to a later one. -/
inductive Meets : List Char → List Event → List Char → Prop
  | nil {s r : List Char} (h : r <:+ s) : Meets s [] r
  | cons {s r : List Char} {e : Event} {es : List Event} (h : e.rest <:+ s)
    (hs : Meets e.rest es r) : Meets s (e :: es) r

namespace Meets

variable {s t r : List Char} {es fs : List Event}

/-- The way leads forward. -/
theorem suffix (h : Meets s es r) : r <:+ s := by
  induction h with
  | nil h => exact h
  | cons h _ ih => exact ih.trans h

theorem of_suffix (h : Meets s es r) (hs : s <:+ t) : Meets t es r := by
  cases h with
  | nil h => exact .nil (h.trans hs)
  | cons h hes => exact .cons (h.trans hs) hes

theorem append (h : Meets s es t) (h' : Meets t fs r) : Meets s (es ++ fs) r := by
  induction h with
  | nil h => exact h'.of_suffix h
  | cons h _ ih => exact .cons h (ih h')

/-- Reading may go on behind the last event. -/
theorem to_suffix (h : Meets s es t) (hr : r <:+ t) : Meets s es r :=
  List.append_nil es ▸ h.append (.nil hr)

theorem fault {f : Fault} (h : f.rest <:+ s) : Meets s [.fault f] f.rest :=
  .cons h (.nil List.suffix_rfl)

/-- Every event happens on the way. -/
theorem mem (h : Meets s es r) : ∀ e ∈ es, e.rest <:+ s ∧ r <:+ e.rest := by
  induction h with
  | nil => simp
  | @cons s r e es h hes ih =>
    intro e' he'
    rcases List.mem_cons.1 he' with rfl | he'
    · exact ⟨h, hes.suffix⟩
    · exact ⟨(ih e' he').1.trans h, (ih e' he').2⟩

/-- A later event happens at a later place. -/
theorem pairwise (h : Meets s es r) : (es.map Event.rest).Pairwise fun a b => b <:+ a := by
  induction h with
  | nil => exact .nil
  | @cons s r e es _ hes ih =>
    refine List.pairwise_cons.2 ⟨fun b hb => ?_, ih⟩
    obtain ⟨e', he', rfl⟩ := List.mem_map.1 hb
    exact (hes.mem e' he').1

end Meets

/-- What a repeated step meets, the repetition meets. -/
theorem Text.many_meets {α : Type} {step : List Char → Option (α × List Char)}
    {p : Progresses step} {events : α → List Event}
    (h : ∀ s a r, step s = some (a, r) → Meets s (events a) r) (s : List Char) :
    Meets s ((many step p s).1.flatMap events) (many step p s).2 :=
  many_induction (motive := fun s as t => Meets s (as.flatMap events) t)
    (fun _ _ => .nil List.suffix_rfl) (fun s a r _ _ ha hr => (h s a r ha).append hr) s

namespace Outline

/-! ## Tables -/

/-- A column's line, as it was read, or the fault that was found instead. -/
def lineOf : Except Fault ColumnDraft → Line
  | .ok c => .column c
  | .error f => .fault f

theorem columnLine_eq (s : List Char) :
    columnLine s = (lineOf (scanColumn s).1, dropLine (scanColumn s).2) := by
  unfold columnLine readColumn
  cases h : scanColumn s with
  | mk e r => cases e <;> rfl

theorem scanColumn_meets (s : List Char) :
    Meets s (lineOf (scanColumn s).1).events (scanColumn s).2 := by
  have hr := readIdentifier_suffix s
  have ht := (readType_suffix (skipInline (readIdentifier s).2)).trans
    ((skipInline_suffix _).trans hr)
  unfold scanColumn
  dsimp only
  split
  · exact Meets.fault hr
  · split
    · exact Meets.fault ht
    · exact .cons ht (.nil ((readOptionalSettings_suffix _).trans (skipInline_suffix _)))

theorem columnLine_meets (s : List Char) :
    Meets s (columnLine s).1.events (columnLine s).2 := by
  rw [columnLine_eq]
  exact (scanColumn_meets s).to_suffix (dropLine_suffix _)

theorem wordLine?_events {word : String} {s r t : List Char} {l : Line}
    (h : wordLine? word s r = some (l, t)) : l.events = [] := by
  unfold wordLine? at h
  split at h
  · split at h
    · obtain ⟨rfl, -⟩ := Prod.mk.inj (Option.some.inj h); rfl
    · split at h
      · obtain ⟨rfl, -⟩ := Prod.mk.inj (Option.some.inj h); rfl
      · simp at h
    · simp at h
  · simp at h

theorem line?_meets (s : List Char) (l : Line) (r : List Char) (h : line? s = some (l, r)) :
    Meets s l.events r := by
  have hsuffix := (line?_progresses h).1
  have hs := skipFiller_suffix s
  unfold line? at h
  split at h
  · simp at h
  · simp at h
  · rename_i c t _ e
    have hl := Option.some.inj h
    unfold readLine at hl
    split at hl
    · obtain ⟨rfl, rfl⟩ := Prod.mk.inj hl; exact .nil hsuffix
    · dsimp only at hl
      cases hw : wordLine? (lower (readWord (c :: t)).1) (c :: t)
          (skipInline (readWord (c :: t)).2) with
      | none =>
        rw [hw, Option.getD_none] at hl
        have hc := columnLine_meets (c :: t)
        rw [hl] at hc
        exact hc.of_suffix (e ▸ hs)
      | some p =>
        rw [hw, Option.getD_some] at hl
        rw [hl] at hw
        rw [wordLine?_events hw]
        exact .nil hsuffix

theorem readBody_meets (header : TableHeader) (s : List Char) :
    Meets s (readBody header s).1.events (readBody header s).2 := by
  have hlines := (many_meets (p := line?_progresses) line?_meets s).to_suffix
    (skipFiller_suffix _)
  have htable : Meets s (TableDraft.events ⟨header, s, (many line? line?_progresses s).1⟩)
      (skipFiller (many line? line?_progresses s).2) := .cons List.suffix_rfl hlines
  unfold readBody
  dsimp only
  split
  · rename_i t e
    exact htable.to_suffix (e ▸ List.suffix_cons _ _)
  · exact htable.append (Meets.fault List.suffix_rfl)

theorem readTable_meets (s : List Char) :
    Meets s (readTable s).1.events (readTable s).2 := by
  unfold readTable; split
  · rename_i header r h; exact (readBody_meets header r).of_suffix (readHeader_ok_suffix h)
  · rename_i f h; exact Meets.fault (readHeader_error_suffix h)

/-! ## Reference statements -/

theorem readRefLine_meets (s : List Char) :
    Meets s (readRefLine s).1.events (readRefLine s).2 := by
  have h : Meets s (scanRefLine s).1.events (scanRefLine s).2 := by
    have hs := scanRefLine_suffix s
    unfold scanRefLine at hs ⊢
    split
    · exact .nil (by simp_all)
    · exact Meets.fault (by simp_all)
    · split
      · exact Meets.fault (by simp_all)
      · split
        · exact .nil (by simp_all)
        · exact Meets.fault (by simp_all)
        · exact .nil (by simp_all)
  exact h.to_suffix (dropLine_suffix _)

theorem blockRefLine?_meets (s : List Char) (l : RefLine) (r : List Char)
    (h : blockRefLine? s = some (l, r)) : Meets s l.events r := by
  have hs := skipFiller_suffix s
  unfold blockRefLine? at h
  split at h
  · simp at h
  · simp at h
  · rename_i c t _ e
    have hl := readRefLine_meets (c :: t)
    rw [Option.some.inj h] at hl
    exact hl.of_suffix (e ▸ hs)

theorem readRefs_meets (s : List Char) : Meets s (readRefs s).1.events (readRefs s).2 := by
  have h := (readRefName_suffix (skipInline s)).trans (skipInline_suffix s)
  unfold readRefs
  dsimp only
  split
  · rename_i t e
    have ht : t <:+ s := (List.suffix_cons _ _).trans (e ▸ h)
    have hl := (readRefLine_meets t).of_suffix ht
    simpa [RefItem.events] using hl
  · rename_i t e
    have ht : t <:+ s := (List.suffix_cons _ _).trans (e ▸ h)
    have hl := ((many_meets (p := blockRefLine?_progresses) blockRefLine?_meets t).to_suffix
      (skipFiller_suffix _)).of_suffix ht
    split
    · rename_i v e'
      simpa [RefItem.events] using hl.to_suffix (e' ▸ List.suffix_cons _ _)
    · exact hl.append (Meets.fault List.suffix_rfl)
  · exact (Meets.fault h).to_suffix (skipLine_suffix _)

/-! ## Documents -/

/-- The events of a statement happen between its two ends. -/
theorem readItem_meets (s : List Char) : Meets s (readItem s).1.events (readItem s).2 := by
  have hs := readItem_suffix s
  unfold readItem at hs ⊢
  split
  · rename_i r h; exact (readTable_meets r).of_suffix (keyword?_suffix h)
  · split
    · rename_i r h; exact (readRefs_meets r).of_suffix (keyword?_suffix h)
    · split
      · exact .nil (skipBlock_suffix s)
      · exact .nil (skipLine_suffix s)

theorem item?_meets (s : List Char) (i : Item) (r : List Char) (h : item? s = some (i, r)) :
    Meets s i.events r := by
  have hs := skipFiller_suffix s
  unfold item? at h
  split at h
  · simp at h
  · rename_i c t e
    have hi := readItem_meets (c :: t)
    rw [Option.some.inj h] at hi
    exact hi.of_suffix (e ▸ hs)

/-- The events of a text happen one behind the other. -/
theorem events_meets (text : List Char) : Meets text (Outline.read text).events [] := by
  have hitems := many_meets (p := item?_progresses) item?_meets text
  have hdraws : ∀ n s, Meets s (List.replicate n (.draw .relation [])) [] := by
    intro n
    induction n with
    | zero => exact fun s => .nil List.nil_suffix
    | succ n ih => exact fun s => .cons List.nil_suffix (ih [])
  exact hitems.append (hdraws _ _)

/-- Every fault of a text is noticed at a place in it. -/
theorem fault_suffix {text : List Char} {f : Fault} (h : .fault f ∈ (Outline.read text).events) :
    f.rest <:+ text :=
  ((events_meets text).mem _ h).1

end Outline

/-! ## Reports -/

/-- The places of the faults that supplying ids comes to, the last of them perhaps a refused draw,
are places of events, in their order. -/
theorem IdSource.supply_places {σ : Type} (source : IdSource σ) (events : List Event) (st : σ) :
    (((source.supply events st).faults ++ (source.supply events st).refusal.toList).map
      Fault.rest).Sublist (events.map Event.rest) := by
  induction events generalizing st with
  | nil => exact .slnil
  | cons e events ih =>
    cases e with
    | fault f => exact (ih st).cons_cons f.rest
    | draw kind rest =>
      cases hd : source.draw kind.stem st with
      | ok p =>
        obtain ⟨id, st'⟩ := p
        rw [supply_draw_ok source st rest events hd]
        exact (ih st').cons rest
      | error reason =>
        rw [supply_draw_error source st rest events hd]
        exact (List.nil_sublist _).cons_cons rest

/-- What a parse reports, it noticed one behind the other. -/
theorem supply_pairwise {σ : Type} (source : IdSource σ) (st : σ) (text : List Char) :
    (text :: ((source.supply (Outline.read text).events st).faults ++
        (source.supply (Outline.read text).events st).refusal.toList).map Fault.rest).Pairwise
      fun a b => b <:+ a := by
  have hplaces := source.supply_places (Outline.read text).events st
  refine List.pairwise_cons.2 ⟨fun r hr => ?_, (events_meets text).pairwise.sublist hplaces⟩
  obtain ⟨e, he, rfl⟩ := List.mem_map.1 (hplaces.mem hr)
  exact ((events_meets text).mem e he).1

end Dbml
