import Dbml.Proofs.Places
import Dbml.Proofs.Renaming

/-!
# Ids that run out

A source that runs out of ids ends a parse: there is no schema then, and the last diagnostic says
what could not be drawn. Until then nothing tells such a source from one that goes on: the same
faults were met, in the same order, and the same ids were drawn.

Results:
* `supply_listed`: a list that is long enough supplies all events;
* `exists_draw`: the place of a draw among the events of a text;
* `parse_listed`: a parse with the first ids of a stream, compared with one with the stream.
-/
namespace Dbml

open Text Outline

/-! ## Streams -/

namespace IdSource

theorem idsFor_stream (ids : Nat → String) (kinds : List IdKind) (n : Nat) :
    (stream ids).idsFor kinds n = (List.range' n kinds.length).map ids := by
  induction kinds generalizing n with
  | nil => rfl
  | cons kind kinds ih =>
    rw [List.length_cons, List.range'_succ, List.map_cons, ← ih]
    rfl

theorem after_stream (ids : Nat → String) (kinds : List IdKind) (n : Nat) :
    (stream ids).after kinds n = n + kinds.length := by
  induction kinds generalizing n with
  | nil => rfl
  | cons kind kinds ih =>
    have hstep : (stream ids).after (kind :: kinds) n = (stream ids).after kinds (n + 1) := rfl
    rw [hstep, ih, List.length_cons]
    omega

/-! ## Runs -/

/-- A list of ids that is long enough supplies all events. -/
theorem supply_listed {events : List Event} {ids : List String}
    (h : (events.filterMap Event.kind?).length ≤ ids.length) :
    listed.supply events ids =
      ⟨events.filterMap Event.fault?, ids.take (events.filterMap Event.kind?).length, none,
        ids.drop (events.filterMap Event.kind?).length⟩ := by
  induction events generalizing ids with
  | nil => rfl
  | cons e events ih =>
    cases e with
    | fault f =>
      rw [supply_fault, ih h]
      rfl
    | draw kind rest =>
      have hk : (Event.draw kind rest :: events).filterMap Event.kind? =
          kind :: events.filterMap Event.kind? := rfl
      rw [hk, List.length_cons] at h
      cases ids with
      | nil => simp at h
      | cons id ids =>
        rw [supply_draw_ok listed _ rest events (listed_draw_cons kind.stem id ids),
          ih (Nat.le_of_succ_le_succ h), hk]
        rfl

end IdSource

/-- A text whose events draw more than `n` ids comes to a draw with exactly `n` draws before it. -/
theorem exists_draw {events : List Event} {n : Nat}
    (h : n < (events.filterMap Event.kind?).length) :
    ∃ before kind rest after, events = before ++ .draw kind rest :: after ∧
      (before.filterMap Event.kind?).length = n := by
  induction events generalizing n with
  | nil => simp at h
  | cons e events ih =>
    cases e with
    | fault f =>
      obtain ⟨before, kind, rest, after, he, hn⟩ := ih h
      exact ⟨.fault f :: before, kind, rest, after, by rw [he]; rfl, hn⟩
    | draw kind rest =>
      cases n with
      | zero => exact ⟨[], kind, rest, events, rfl, rfl⟩
      | succ n =>
        obtain ⟨before, k, r, after, he, hn⟩ := ih (Nat.lt_of_succ_lt_succ h)
        exact ⟨.draw kind rest :: before, k, r, after, by rw [he]; rfl, congrArg Nat.succ hn⟩

/-- A list of ids that is used up at a draw leaves what was met before it, and the refusal. -/
theorem IdSource.supply_listed_refused {before : List Event} {ids : List String}
    (h : (before.filterMap Event.kind?).length = ids.length) (kind : IdKind) (rest : List Char)
    (after : List Event) :
    listed.supply (before ++ .draw kind rest :: after) ids =
      ⟨before.filterMap Event.fault?, ids,
        some ⟨.idRefused ("out of ids for " ++ kind.stem), rest⟩, []⟩ := by
  have hbefore := supply_listed (Nat.le_of_eq h)
  rw [h, List.take_length, List.drop_length] at hbefore
  rw [supply_append listed (by rw [hbefore]) _, hbefore,
    supply_draw_error listed [] rest after (listed_draw_nil kind.stem), List.append_nil,
    List.append_nil]

/-! ## Parsing -/

theorem message_idRefused (reason : String) :
    (Cause.idRefused reason).message = "Parse error: " ++ reason := rfl

theorem message_outOfIds (stem : String) :
    (Cause.idRefused ("out of ids for " ++ stem)).message =
      "Parse error: out of ids for " ++ stem := by
  have hwords : "Parse error: " ++ ("out of ids for " ++ stem) =
      "Parse error: out of ids for " ++ stem := String.toList_inj.1 (by simp)
  rw [message_idRefused, hwords]

/-- A parse with a stream of ids gives a schema and all diagnostics, and draws one id for each draw
of the text. -/
theorem parseWith_stream (ids : Nat → String) {text : String}
    (hb : text.toList.all isBlank = false) :
    parseWith (.stream ids) 0 text =
      (⟨some ((Outline.read text.toList).toSchema
          ((List.range (Outline.read text.toList).idKinds.length).map ids)),
        (Outline.read text.toList).faults.map (Fault.toDiagnostic text.toList)⟩,
        (Outline.read text.toList).idKinds.length) := by
  have hs := IdSource.supply_of_total (IdSource.stream_total ids)
    (Outline.read text.toList).events 0
  rw [IdSource.idsFor_stream, IdSource.after_stream, Nat.zero_add,
    ← List.range_eq_range'] at hs
  simp only [parseWith_eq, parseChars, hb, Bool.false_eq_true, if_false, Parsed.ofSupply, hs]
  simp [faults, idKinds]

/-- A parse with the first `n` ids of a stream. If the parse with the stream draws no more, both
give the same. If it draws more, there is no schema: the diagnostics are those that the parse with
the stream comes to before the draw that is refused, and one that reports the refusal where it
happens. -/
theorem parse_listed (ids : Nat → String) (n : Nat) {text : String}
    (hb : text.toList.all isBlank = false) :
    ((parseWith (.stream ids) 0 text).2 ≤ n →
      parse .listed ((List.range n).map ids) text = parse (.stream ids) 0 text) ∧
    (n < (parseWith (.stream ids) 0 text).2 →
      ∃ before kind rest after,
        (Outline.read text.toList).events = before ++ .draw kind rest :: after ∧
        (before.filterMap Event.kind?).length = n ∧
        (drawn (.stream ids) 0 text)[n]? = some (kind.stem, ids n) ∧ rest <:+ text.toList ∧
        (parse (.stream ids) 0 text).diagnostics =
          (before.filterMap Event.fault? ++ after.filterMap Event.fault?).map
            (Fault.toDiagnostic text.toList) ∧
        parse .listed ((List.range n).map ids) text =
          ⟨none, (before.filterMap Event.fault?).map (Fault.toDiagnostic text.toList) ++
            [.errorAt (.locate text.toList rest)
              ("Parse error: out of ids for " ++ kind.stem)]⟩) := by
  have hstream : parse (.stream ids) 0 text = _ := congrArg Prod.fst (parseWith_stream ids hb)
  have hlisted : ∀ js : List String, parse .listed js text =
      .ofSupply text.toList (Outline.read text.toList)
        (IdSource.listed.supply (Outline.read text.toList).events js) := by
    intro js; simp [parse, parseWith_eq, parseChars, hb]
  have hplaces := (events_meets text.toList).mem
  have hdrawn := drawn_eq (IdSource.stream_total ids) 0 hb
  rw [IdSource.idsFor_stream, ← List.range_eq_range'] at hdrawn
  rw [parseWith_stream ids hb, hstream, hlisted, hdrawn]
  simp only [faults, idKinds]
  generalize (Outline.read text.toList).events = events at hplaces
  refine ⟨fun h => ?_, fun h => ?_⟩
  · have hlen : (events.filterMap Event.kind?).length ≤ ((List.range n).map ids).length := by
      rwa [List.length_map, List.length_range]
    rw [IdSource.supply_listed hlen, ← List.map_take, List.take_range, Nat.min_eq_left h]
    simp [Parsed.ofSupply]
  · obtain ⟨before, kind, rest, after, rfl, hn⟩ := exists_draw h
    have hkinds : (before ++ .draw kind rest :: after).filterMap Event.kind? =
        before.filterMap Event.kind? ++ kind :: after.filterMap Event.kind? := by
      rw [List.filterMap_append, List.filterMap_cons_some (f := Event.kind?) rfl]
    refine ⟨before, kind, rest, after, rfl, hn, ?_, ?_, ?_, ?_⟩
    · rw [hkinds, List.getElem?_zip_eq_some, List.getElem?_map, List.getElem?_map]
      subst hn
      simp
    · exact (hplaces (.draw kind rest) (by simp)).1
    · rw [List.filterMap_append, List.filterMap_cons_none (f := Event.fault?) rfl]
    · rw [IdSource.supply_listed_refused (by rw [hn, List.length_map, List.length_range])]
      simp only [Parsed.ofSupply, Option.toList_some, List.map_append, List.map_singleton,
        Fault.toDiagnostic, message_outOfIds]

/-- A text with a line that is no column before a column, and one behind it. -/
def oneColumn : String := Canonical.lines ["Table a \x7b", "  :", "  x int", "  y", "\x7d"]

theorem parse_listed_oneColumn :
    oneColumn.toList.all isBlank = false ∧ (parseWith lettered 0 oneColumn).2 = 2 ∧
      parse .listed ["i0", "i1", "i2"] oneColumn = parse lettered 0 oneColumn ∧
      ∃ before kind rest after,
        (Outline.read oneColumn.toList).events = before ++ .draw kind rest :: after ∧
        (before.filterMap Event.kind?).length = 1 ∧
        (drawn lettered 0 oneColumn)[1]? = some (kind.stem, "i1") ∧ rest <:+ oneColumn.toList ∧
        (parse lettered 0 oneColumn).diagnostics =
          (before.filterMap Event.fault? ++ after.filterMap Event.fault?).map
            (Fault.toDiagnostic oneColumn.toList) ∧
        (before.filterMap Event.fault?).map (Fault.toDiagnostic oneColumn.toList) ++
            [.errorAt (.locate oneColumn.toList rest)
              ("Parse error: out of ids for " ++ kind.stem)] =
          [.errorAt ⟨2, 3⟩ "Expected column name",
            .errorAt ⟨3, 8⟩ "Parse error: out of ids for col"] := by
  have hb : oneColumn.toList.all isBlank = false := by decide +kernel
  have hd : (parseWith lettered 0 oneColumn).2 = 2 := by decide +kernel
  have hrun : parse .listed ["i0"] oneColumn = ⟨none, [.errorAt ⟨2, 3⟩ "Expected column name",
      .errorAt ⟨3, 8⟩ "Parse error: out of ids for col"]⟩ := by decide +kernel
  have henough := (parse_listed (fun n => "i" ++ toString n) 3 hb).1 (by rw [← lettered, hd]; decide)
  obtain ⟨before, kind, rest, after, hevents, hn, hdrawn, hrest, hdiagnostics, hlisted⟩ :=
    (parse_listed (fun n => "i" ++ toString n) 1 hb).2 (by rw [← lettered, hd]; decide)
  exact ⟨hb, hd, henough, before, kind, rest, after, hevents, hn, hdrawn, hrest, hdiagnostics,
    (Parsed.mk.inj (hlisted.symm.trans hrun)).2⟩

end Dbml
