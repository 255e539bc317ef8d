import Dbml.Parser.Document

/-!
# From text to schema

A parser starts at the front of a text, reads its statements and resolves their references. What is
wrong with the text does not stop it: this is reported, and reading goes on. There is no schema for
a text of nothing but white space, and none where an id was refused.

In short, the text is read into its statements, these are supplied with ids, and the ids turn them
into a schema.

Results:
* `Parser.parseText_leads`: a parser makes nothing but steps from the front of its text;
* `Parser.parseText_rest`: where it gives a schema, it has come to the end of its text;
* `parseWith_eq`: both ways come to the same.
-/
namespace Dbml

open Text

/-- What comes of a text (`ParseResult`). -/
structure Parsed where
  schema : Option Schema
  diagnostics : List Diagnostic
  deriving DecidableEq, Repr

/-- What comes of a text without anything in it. -/
def Parsed.empty : Parsed := ⟨none, [.errorAt .start "Empty input"]⟩

namespace Parser

variable {σ : Type}

/-- A parser at the front of a text (`_reset`). -/
def start (st : σ) (text : List Char) : Parser σ := ⟨.start text.toArray, st, []⟩

/-- That there is nothing in a text is reported in front of it (the first part of `parse`). -/
def reportEmpty (p : Parser σ) : Parser σ :=
  { p with scanner := p.scanner.move (p.scanner.now.report "Empty input") }

/-- Where an id was refused, this is reported and there is no schema (the last part of `parse`). -/
def conclude : Except String Schema × Parser σ → Option Schema × Parser σ
  | (.ok schema, p) => (some schema, p)
  | (.error reason, p) => (none, p.report (.idRefused reason))

/-- Reads a whole text: the schema, if there is one, and the parser at the end (`parse`). -/
def parseText (source : IdSource σ) (st : σ) (text : List Char) : Option Schema × Parser σ :=
  if text.all isBlank then (none, (start st text).reportEmpty)
  else conclude ((Routine.parseSchema source).run (start st text))

end Parser

/-- Parses a text with ids from a source, and gives the state in which the source is left
(`parse_dbml`). -/
def parseWith {σ : Type} (source : IdSource σ) (st : σ) (text : String) : Parsed × σ :=
  let (schema, p) := Parser.parseText source st text.toList
  (⟨schema, p.scanner.now.diagnostics⟩, p.ids)

/-- Parses a text with ids from a source. -/
def parse {σ : Type} (source : IdSource σ) (st : σ) (text : String) : Parsed :=
  (parseWith source st text).1

/-! ## Through the statements -/

/-- What comes of a text whose statements were supplied with ids. -/
def Parsed.ofSupply {σ : Type} (text : List Char) (outline : Outline) (s : Supply σ) : Parsed where
  schema := match s.refusal with
    | none => some (outline.toSchema s.ids)
    | some _ => none
  diagnostics := (s.faults ++ s.refusal.toList).map (Fault.toDiagnostic text)

/-- What comes of a list of characters through its statements, and the state in which the source of
ids is left. -/
def parseChars {σ : Type} (source : IdSource σ) (st : σ) (text : List Char) : Parsed × σ :=
  if text.all isBlank then (.empty, st)
  else
    let outline := Outline.read text
    let s := source.supply outline.events st
    (.ofSupply text outline s, s.state)

section Conclude

variable {σ : Type}

namespace Parser

theorem conclude_of_ok {x : Except String Schema × Parser σ} {schema : Schema}
    (h : x.1 = .ok schema) : conclude x = (some schema, x.2) := by
  obtain ⟨_, p⟩ := x; cases h; rfl

theorem conclude_of_error {x : Except String Schema × Parser σ} {reason : String}
    (h : x.1 = .error reason) : conclude x = (none, x.2.report (.idRefused reason)) := by
  obtain ⟨_, p⟩ := x; cases h; rfl

theorem conclude_leads (x : Except String Schema × Parser σ) :
    x.2.scanner.Leads Cursor.Steps (conclude x).2.scanner := by
  obtain ⟨r, p⟩ := x
  cases r with
  | ok => exact .refl
  | error => exact .step .refl (.report _)

/-- A parser makes nothing but steps from the front of its text. -/
theorem parseText_leads (source : IdSource σ) (st : σ) (text : List Char) :
    (Scanner.start text.toArray).Leads Cursor.Steps (parseText source st text).2.scanner := by
  unfold parseText
  split
  · exact .step .refl (.report _)
  · exact ((Routine.parseSchema source).moves (start st text)).trans (conclude_leads _)

/-- Where a parser gives a schema, it has passed its text up to the end. -/
theorem parseText_rest {source : IdSource σ} {st : σ} {text : List Char} {schema : Schema}
    (h : (parseText source st text).1 = some schema) :
    (parseText source st text).2.scanner.rest = [] := by
  have hperforms := Routine.parseSchema_performs source (start st text) rfl (t := text) rfl
  rw [parseText] at h ⊢
  cases hb : text.all isBlank with
  | true => rw [hb] at h; cases h
  | false =>
    rw [hb, if_neg Bool.false_ne_true] at h
    rw [if_neg Bool.false_ne_true]
    cases hx : ((Routine.parseSchema source).run (start st text)).1 with
    | error reason => rw [conclude_of_error hx] at h; cases h
    | ok =>
      obtain ⟨_, _, hrest, -⟩ := hperforms.of_ok hx
      rw [conclude_of_ok hx]
      exact hrest

/-- A parser comes to what the statements of its text come to. -/
theorem conclude_parseSchema (source : IdSource σ) (st : σ) (text : List Char) :
    let s := source.supply (Outline.read text).events st
    let x := conclude ((Routine.parseSchema source).run (start st text))
    (⟨x.1, x.2.scanner.now.diagnostics⟩ : Parsed) = .ofSupply text (Outline.read text) s ∧
      x.2.ids = s.state := by
  have hstarted : (start st text).scanner.Started := Scanner.start_started text.toArray
  have h := Routine.parseSchema_performs source (start st text) rfl (t := text) rfl
  dsimp only
  have hdiagnostics := h.diagnostics hstarted
  rw [show (start st text).scanner.text.toList = text from rfl,
    show (start st text).scanner.now.diagnostics = [] from rfl, List.nil_append] at hdiagnostics
  cases hr : (source.supply (Outline.read text).events st).refusal with
  | none =>
    obtain ⟨schema, -, hok, -, -, rfl⟩ := h.ends hr
    rw [conclude_of_ok hok]
    simp only [Parsed.ofSupply, hr, Option.toList_none, List.append_nil]
    exact ⟨congrArg _ hdiagnostics, h.ids⟩
  | some f =>
    obtain ⟨reason, hcause, herror, hrest⟩ := h.stops f hr
    have htext :
        ((Routine.parseSchema source).run (start st text)).2.scanner.text.toList = text := by
      rw [h.leads.text_eq]; rfl
    rw [conclude_of_error herror]
    refine ⟨?_, h.ids⟩
    simp only [Parsed.ofSupply, hr, Option.toList_some]
    rw [report_diagnostics (hstarted.leads h.leads), hdiagnostics, htext, hrest, ← hcause,
      List.map_append]
    rfl

end Parser

end Conclude

/-- Parsing a text comes to what its statements come to. -/
theorem parseWith_eq {σ : Type} (source : IdSource σ) (st : σ) (text : String) :
    parseWith source st text = parseChars source st text.toList := by
  obtain ⟨hparsed, hids⟩ := Parser.conclude_parseSchema source st text.toList
  rw [parseWith, Parser.parseText, parseChars]
  cases text.toList.all isBlank with
  | true => rfl
  | false => exact Prod.ext hparsed hids

end Dbml
