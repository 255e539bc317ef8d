import Dbml.Parser.Routine
import Dbml.Parser.Setting

/-!
# Reference statements

The routines that read a reference statement, which is one line behind a colon or a block of lines
between braces. A line that connects two columns keeps a reference; ids are drawn when all tables
are known.

Results:
* `parseRefLine_performs`: what a line goes through, and the reference that it keeps;
* `parseRefStatement_performs`: what a statement goes through, and the references that it keeps.
-/
namespace Dbml.Routine

open Text Outline Scan

variable {σ : Type} (source : IdSource σ)

/-! ## Lines -/

/-- Reads the second endpoint of a line and keeps the reference (the last part of
`_parse_ref_line`). -/
def parseRefTarget (name : Option String) (left : ColumnName) (cardinality : Cardinality) :
    Routine σ Unit := do
  skipInlineWhitespace
  match ← parseEndpoint with
  | .composite => discardRestOfLine
  | .malformed =>
    error .noEndpoint
    discardRestOfLine
  | .named right =>
    keep [⟨name, .named left, cardinality, right⟩]
    discardRestOfLine

/-- Reads a line of a reference statement, given its name (`_parse_ref_line`). -/
def parseRefLine (name : Option String) : Routine σ Unit := do
  skipInlineWhitespace
  match ← parseEndpoint with
  | .composite => discardRestOfLine
  | .malformed =>
    error .noEndpoint
    discardRestOfLine
  | .named left =>
    skipInlineWhitespace
    match ← parseRefSymbol with
    | none =>
      error .noRelationSymbol
      discardRestOfLine
    | some cardinality => parseRefTarget name left cardinality

/-- The reference of a line. -/
def lineDrafts (name : Option String) (l : RefLine) : List RelationDraft :=
  l.link?.toList.map fun l => ⟨name, .named l.source, l.cardinality, l.target⟩

/-- What the second endpoint makes of a line, and the text where reading it ended. -/
def scanRefTarget (left : ColumnName) (cardinality : Cardinality) (t : List Char) :
    RefLine × List Char :=
  match readEndpoint (skipInline t) with
  | (.composite, u) => (.composite, u)
  | (.malformed, u) => (.fault ⟨.noEndpoint, u⟩, u)
  | (.named right, u) => (.link ⟨left, cardinality, right⟩, u)

theorem parseRefTarget_performs (p : Parser σ) (name : Option String) (left : ColumnName)
    (cardinality : Cardinality) {t : List Char} (ht : p.scanner.rest = t) :
    Performs source p (scanRefTarget left cardinality t).1.events
      (dropLine (scanRefTarget left cardinality t).2)
      (fun ids kept _ => ids = [] ∧ kept = lineDrafts name (scanRefTarget left cardinality t).1)
      ((parseRefTarget name left cardinality).run p) := by
  subst ht
  cases he : readEndpoint (skipInline p.scanner.rest) with
  | mk e r =>
    simp only [scanRefTarget, parseRefTarget, run_scan_bind, reads_skipInlineWhitespace,
      reads_parseEndpoint, Parser.scan_scanner, rest_run, he]
    cases e with
    | composite => exact .scan <| .scan <| .scan_last (by simp [he]) ⟨rfl, rfl⟩
    | malformed =>
      exact .scan <| .scan <| .error (by simp [he]) <| .scan_last (by simp [he]) ⟨rfl, rfl⟩
    | named right =>
      exact .scan <| .scan <| .keep fun q hq => .scan_last (by simp [hq, he]) ⟨rfl, rfl⟩

theorem parseRefLine_performs (p : Parser σ) (name : Option String) {t : List Char}
    (ht : p.scanner.rest = t) :
    Performs source p (readRefLine t).1.events (readRefLine t).2
      (fun ids kept _ => ids = [] ∧ kept = lineDrafts name (readRefLine t).1)
      ((parseRefLine name).run p) := by
  subst ht
  cases he : readEndpoint (skipInline p.scanner.rest) with
  | mk e r =>
    simp only [readRefLine, scanRefLine, parseRefLine, run_scan_bind, reads_skipInlineWhitespace,
      reads_parseEndpoint, Parser.scan_scanner, rest_run, he]
    cases e with
    | composite => exact .scan <| .scan <| .scan_last (by simp [he]) ⟨rfl, rfl⟩
    | malformed =>
      exact .scan <| .scan <| .error (by simp [he]) <| .scan_last (by simp [he]) ⟨rfl, rfl⟩
    | named left =>
      simp only [run_scan_bind, reads_skipInlineWhitespace, reads_parseRefSymbol,
        Parser.scan_scanner, reads_parseEndpoint, rest_run, he]
      cases hk : readSymbol? (skipInline r) with
      | none =>
        exact .scan <| .scan <| .scan <| .scan <| .error (by simp [he, hk]) <|
          .scan_last (by simp [he, hk]) ⟨rfl, rfl⟩
      | some k =>
        exact .scan <| .scan <| .scan <| .scan <|
          parseRefTarget_performs source _ name left k.1 (t := k.2) (by simp [he, hk])

/-! ## Statements -/

/-- One turn of the loop in `_parse_ref_statement`. -/
def refTurn (name : Option String) (_ : Unit) : Routine σ (ForInStep Unit) := do
  skipWhitespace
  if ← atEnd then
    error .noRefClosing
    return .done ()
  if ← nextIs (· == '}') then
    advance 1
    return .done ()
  parseRefLine name
  return .yield ()

/-- The fault of a reference block that is never closed. -/
def closingFault? (t : List Char) : Option Fault :=
  match skipFiller t with
  | '}' :: _ => none
  | u => some ⟨.noRefClosing, u⟩

/-- The text behind a reference block. -/
def behindRefs (t : List Char) : List Char :=
  match skipFiller t with
  | '}' :: u => u
  | u => u

theorem blockRefLine?_of_some {t r : List Char} {l : RefLine} (h : blockRefLine? t = some (l, r)) :
    ∃ c u, skipFiller t = c :: u ∧ c ≠ '}' ∧ readRefLine (c :: u) = (l, r) := by
  unfold blockRefLine? at h
  split at h
  · cases h
  · cases h
  · rename_i c u hne hs
    exact ⟨c, u, hs, hne, Option.some.inj h⟩

theorem blockRefLine?_of_none {t : List Char} (h : blockRefLine? t = none) :
    skipFiller t = [] ∨ ∃ u, skipFiller t = '}' :: u := by
  unfold blockRefLine? at h
  split at h
  · rename_i hs; exact .inl hs
  · rename_i u hs; exact .inr ⟨u, hs⟩
  · cases h

theorem refTurn_performs (name : Option String) : Performs.Turn source (refTurn name) blockRefLine?
    RefLine.events (fun t => ((closingFault? t).map Event.fault).toList) behindRefs
    (fun _ l ids kept _ => ids = [] ∧ kept = lineDrafts name l) where
  item p a l r h := by
    obtain ⟨c, u, hs, hne, hread⟩ := blockRefLine?_of_some h
    obtain ⟨rfl, rfl⟩ := Prod.mk.inj hread
    simp only [refTurn, run_scan_bind, reads_skipWhitespace, reads_atEnd, reads_nextIs,
      Parser.scan_scanner, rest_run, hs, List.isEmpty_cons, List.head?_cons, Option.any_some,
      beq_iff_eq, hne, Bool.false_eq_true, if_false]
    exact .scan <| .scan <| .scan <| .map (parseRefLine_performs source _ name (by simp [hs]))
      fun ids kept b hb => ⟨(), rfl, hb⟩
  stop p a h := by
    simp only [refTurn, run_scan_bind, run_ite, reads_skipWhitespace, reads_atEnd, reads_nextIs,
      Parser.scan_scanner, rest_run, closingFault?, behindRefs]
    rcases blockRefLine?_of_none h with hs | ⟨u, hs⟩
    · simp only [hs, List.isEmpty_nil, if_true]
      exact .scan <| .scan <| .error (by simp [hs]) <| .pure (by simp [hs]) ⟨rfl, rfl, rfl⟩
    · simp only [hs, List.isEmpty_cons, List.head?_cons, Option.any_some, beq_self_eq_true,
        Bool.false_eq_true, if_false, if_true]
      exact .scan <| .scan <| .scan <| .scan <| .pure (by simp [hs]) ⟨rfl, rfl, rfl⟩

theorem refTurn_advances (name : Option String) :
    Advances (refTurn name : Unit → Routine σ (ForInStep Unit)) :=
  -- No turn draws an id, so any source will do.
  (refTurn_performs ⟨fun _ st => .ok ("", st)⟩ name).advances blockRefLine?_progresses

/-- Reads the name of a reference statement, if one stands there (a part of
`_parse_ref_statement`). -/
def parseRefName : Scan (Option String) := do
  if ← nextIs fun c => !(c == ':' || c == '{') then
    let name ← parseIdentifier
    skipInlineWhitespace
    return if name.isEmpty then none else some (String.ofList name)
  else
    return none

@[simp] theorem reads_parseRefName (s : Scanner) : parseRefName.reads s = readRefName s.rest := by
  unfold readRefName
  split
  · rename_i hs; simp [parseRefName, hs]
  · rename_i hs; simp [parseRefName, hs]
  · rename_i hs; simp [parseRefName, hs]
  · rename_i hnil hcolon hbrace
    cases hs : s.rest with
    | nil => exact absurd hs hnil
    | cons c r =>
      have hc : c ≠ ':' ∧ c ≠ '{' :=
        ⟨fun e => hcolon r (by rw [hs, e]), fun e => hbrace r (by rw [hs, e])⟩
      simp [parseRefName, hs, hc]
      rfl

/-- Reads what stands behind the name of a reference statement (the last part of
`_parse_ref_statement`). -/
def parseRefLines (name : Option String) : Routine σ Unit := do
  if ← nextIs (· == ':') then
    advance 1
    parseRefLine name
  else if ← nextIs (· == '{') then
    advance 1
    loop (refTurn name) (refTurn_advances name) ()
  else
    error .noRefOpening
    skipLine

/-- Reads a reference statement (`_parse_ref_statement`). -/
def parseRefStatement : Routine σ Unit := do
  advance "Ref".length
  skipInlineWhitespace
  let name ← parseRefName
  parseRefLines name

theorem along_links {name : Option String} {a b : Unit} {lines : List RefLine} {ids : List String}
    {kept : List RelationDraft} (h : Performs.Along
      (fun _ l ids kept _ => ids = [] ∧ kept = lineDrafts name l) a lines ids kept b) :
    ids = [] ∧ kept = lines.flatMap (lineDrafts name) := by
  induction h with
  | nil => exact ⟨rfl, rfl⟩
  | cons h _ ih =>
    obtain ⟨rfl, rfl⟩ := h
    obtain ⟨rfl, rfl⟩ := ih
    exact ⟨rfl, rfl⟩

theorem links_relations (name : Option String) (lines : List RefLine) (fault : Option Fault) :
    lines.flatMap (lineDrafts name) = (RefItem.mk name lines fault).relations := by
  simp only [RefItem.relations, RefItem.links]
  induction lines with
  | nil => rfl
  | cons l lines ih =>
    rw [List.flatMap_cons, ih, List.filterMap_cons, lineDrafts]
    cases l.link? <;> rfl

theorem refLoop_performs (p : Parser σ) (name : Option String) {t : List Char}
    (ht : p.scanner.rest = t) :
    Performs source p
      ((many blockRefLine? blockRefLine?_progresses t).1.flatMap RefLine.events ++
        ((closingFault? (many blockRefLine? blockRefLine?_progresses t).2).map Event.fault).toList)
      (behindRefs (many blockRefLine? blockRefLine?_progresses t).2)
      (fun ids kept _ => ids = [] ∧
        kept = (many blockRefLine? blockRefLine?_progresses t).1.flatMap (lineDrafts name))
      ((loop (refTurn name) (refTurn_advances name) ()).run p) := by
  subst ht
  exact (Performs.loop (refTurn_performs source name) blockRefLine?_progresses () p).mono
    fun ids kept b h => along_links h

/-- What stands behind the name of a reference statement. -/
def readRefLines (name : Option String) (t : List Char) : RefItem × List Char :=
  match t with
  | ':' :: r => (⟨name, [(readRefLine r).1], none⟩, (readRefLine r).2)
  | '{' :: r =>
    let (lines, u) := many blockRefLine? blockRefLine?_progresses r
    (⟨name, lines, closingFault? u⟩, behindRefs u)
  | _ => (⟨name, [], some ⟨.noRefOpening, t⟩⟩, Text.skipLine t)

theorem readRefs_eq (t : List Char) : readRefs t =
    readRefLines (readRefName (skipInline t)).1 (readRefName (skipInline t)).2 := by
  unfold readRefs
  generalize readRefName (skipInline t) = named
  obtain ⟨name, r⟩ := named
  unfold readRefLines closingFault? behindRefs
  dsimp only
  split
  · rfl
  · split <;> simp_all
  · simp_all

theorem parseRefLines_performs (p : Parser σ) (name : Option String) {t : List Char}
    (ht : p.scanner.rest = t) :
    Performs source p (readRefLines name t).1.events (readRefLines name t).2
      (fun ids kept _ => ids = [] ∧ kept = (readRefLines name t).1.relations)
      ((parseRefLines name).run p) := by
  simp only [parseRefLines, run_scan_bind, run_ite, reads_nextIs, Parser.scan_scanner, rest_run, ht]
  unfold readRefLines
  split
  · rename_i r
    have hline := parseRefLine_performs source ((p.scan (nextIs (· == ':'))).scan (advance 1)) name
      (t := r) (by simp [ht])
    simp only [List.head?_cons, Option.any_some, beq_self_eq_true, if_true, RefItem.events,
      List.flatMap_cons, List.flatMap_nil, Option.map_none, Option.toList_none, List.append_nil]
    refine .scan <| .scan <| hline.mono fun ids kept _ h => ⟨h.1, ?_⟩
    rw [← links_relations, h.2, List.flatMap_singleton]
  · rename_i r
    have hloop := refLoop_performs source
      (((p.scan (nextIs (· == ':'))).scan (nextIs (· == '{'))).scan (advance 1)) name (t := r)
      (by simp [ht])
    rw [if_neg (by simp), if_pos (by simp)]
    refine .scan <| .scan <| .scan <| hloop.mono fun ids kept _ h => ⟨h.1, ?_⟩
    rw [← links_relations, h.2]
  · rename_i hcolon hbrace
    simp only [any_head?_eq_false hcolon, any_head?_eq_false hbrace, Bool.false_eq_true, if_false]
    exact .scan <| .scan <| .error (by simp [ht]) <| .scan_last (by simp [ht]) ⟨rfl, rfl⟩

theorem parseRefStatement_performs (p : Parser σ) {t : List Char} (ht : p.scanner.rest.drop 3 = t) :
    Performs source p (Item.refs (readRefs t).1).events (readRefs t).2
      (fun ids kept _ => ids = [] ∧ kept = (readRefs t).1.relations)
      (parseRefStatement.run p) := by
  subst ht
  have hlength : "Ref".length = 3 := rfl
  simp only [parseRefStatement, run_scan_bind, reads_advance, reads_skipInlineWhitespace,
    reads_parseRefName, Parser.scan_scanner, rest_run, hlength, readRefs_eq]
  exact .scan <| .scan <| .scan <| parseRefLines_performs source _ _ (by simp)

end Dbml.Routine
