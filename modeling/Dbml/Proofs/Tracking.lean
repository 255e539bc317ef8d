import Dbml.Parse
import Mathlib.Data.List.Chain
import Mathlib.Data.List.Induction

/-!
# Lines and columns on the way

A parser counts the characters that it passes, and with them lines and columns; it never looks them
up. What it counts is always what stands in front of it: at every state of a run, inside quoted
tokens, comments and skipped blocks and behind what was wrong. So a diagnostic carries the line and
the column of the place where it was reported, and of two diagnostics the later one was reported no
earlier in the text.

Results:
* `Leads.isChain`, `Leads.tracks`: the states of a run follow one another step by step, and each of
  them has counted what stands before it;
* `Leads.reported`: each diagnostic was reported at a state, and is there in the state behind it;
* `Parser.getLast?_states`: a parser that gives a schema stands at the end of its text;
* `parse_tracked`: all of this holds of every parse, and no state of it is further back than one
  before.
-/
namespace Dbml

open Text

/-- The column counts the characters behind the last newline. -/
theorem Location.after_column_eq (w : List Char) :
    (after w).column = 1 + (w.reverse.takeWhile (· != '\n')).length := by
  induction w using List.reverseRecOn with
  | nil => rfl
  | append_singleton w k ih =>
    rw [after_concat, next, List.reverse_append, List.reverse_singleton,
      List.singleton_append, List.takeWhile_cons]
    by_cases hk : k = '\n'
    · simp [hk]
    · simp [hk, ih]; omega

/-- A cursor in a text that has counted what stands before it. -/
structure Cursor.Tracks (text : List Char) (c : Cursor) : Prop where
  pos_le : c.pos ≤ text.length
  line : c.line = 1 + (text.take c.pos).count '\n'
  column : c.column = 1 + ((text.take c.pos).reverse.takeWhile (· != '\n')).length

theorem Cursor.At.tracks {text : List Char} {c : Cursor} (h : c.At text) : c.Tracks text := by
  have hloc := h.location
  refine ⟨h.pos_le, ?_, ?_⟩
  · rw [← Location.after_line, hloc]
  · rw [← Location.after_column_eq, hloc]

/-- A diagnostic was reported at a state of a run: it carries the line and the column of that state,
and the state behind it is the one in which it has just been reported. -/
structure Diagnostic.ReportedAt (states : List Cursor) (d : Diagnostic) (c : Cursor) : Prop where
  line : d.line = c.line
  column : d.column = c.column
  next : [c, c.report d.message] <:+: states

namespace Diagnostic.ReportedAt

variable {states : List Cursor}

theorem append {d : Diagnostic} {c : Cursor} (h : ReportedAt states d c) (more : List Cursor) :
    ReportedAt (states ++ more) d c :=
  ⟨h.line, h.column, h.next.trans (List.infix_append [] states more)⟩

theorem map_place {ds : List Diagnostic} {cs : List Cursor}
    (h : List.Forall₂ (ReportedAt states) ds cs) :
    cs.map (fun c => ((c.line : Int), (c.column : Int))) = ds.map fun d => (d.line, d.column) := by
  induction h with
  | nil => rfl
  | cons hd _ ih => rw [List.map_cons, List.map_cons, ih, hd.line, hd.column]

end Diagnostic.ReportedAt

/-! ## Runs -/

namespace Scanner

/-- The states of a run, in their order. -/
def states (s : Scanner) : List Cursor := s.history.reverse

theorem states_move (s : Scanner) (c : Cursor) : (s.move c).states = s.states ++ [c] := by
  rw [states, states, history, move, history, List.reverse_cons]

theorem states_eq (s : Scanner) : s.states = s.past.reverse ++ [s.now] := by
  rw [states, history, List.reverse_cons]

namespace Leads

variable {text : Array Char} {s : Scanner} (h : (start text).Leads Cursor.Steps s)
include h

theorem head?_states : s.states.head? = some .start := by
  induction h with
  | refl => rfl
  | step _ _ ih => rw [states_move, List.head?_append, ih]; rfl

/-- One state follows the other by a step. -/
theorem isChain : s.states.IsChain (Cursor.Steps text) := by
  induction h with
  | refl => exact .singleton _
  | @step t c ht hc ih =>
    have hnow : ∀ a ∈ t.states.getLast?, a = t.now := by
      simp only [states_eq, List.getLast?_concat, Option.mem_def, Option.some.injEq]
      exact fun _ h => h.symm
    rw [states_move]
    refine ih.append (.singleton c) fun a ha b hb => ?_
    rw [hnow a ha, ← Option.some.inj hb, ← show t.text = text from ht.text_eq]
    exact hc

/-- Every state has counted what stands before it. -/
theorem tracks : ∀ c ∈ s.states, c.Tracks text.toList := by
  induction h with
  | refl =>
    intro c hc
    rw [List.mem_singleton.1 hc]
    exact (Cursor.at_start _).tracks
  | @step t c ht hc ih =>
    intro d hd
    rw [states_move, List.mem_append, List.mem_singleton] at hd
    obtain hd | rfl := hd
    · exact ih d hd
    · exact (at_of_leads (.step ht hc)).tracks

/-- Every diagnostic was reported at a state of the run, one behind the other. -/
theorem reported : ∃ cs : List Cursor, cs.Sublist s.past.reverse ∧
    List.Forall₂ (Diagnostic.ReportedAt s.states) s.now.diagnostics cs := by
  induction h with
  | refl => exact ⟨[], .slnil, .nil⟩
  | @step t c ht hc ih =>
    obtain ⟨cs, hsub, hreported⟩ := ih
    have hpast : (t.move c).past.reverse = t.past.reverse ++ [t.now] := List.reverse_cons
    have hbefore : List.Forall₂ (Diagnostic.ReportedAt (t.move c).states) t.now.diagnostics cs :=
      hreported.imp fun _ _ hd => states_move t c ▸ hd.append [c]
    cases hc with
    | pass =>
      refine ⟨cs, hpast ▸ hsub.trans (List.sublist_append_left _ _), ?_⟩
      rw [show (t.move (t.now.pass _)).now.diagnostics = t.now.diagnostics from
        Cursor.pass_diagnostics _ _]
      exact hbefore
    | report message =>
      have hnext : [t.now, t.now.report message] <:+: (t.move (t.now.report message)).states := by
        rw [states_move, states_eq, List.append_assoc]
        exact (List.suffix_append _ _).isInfix
      exact ⟨cs ++ [t.now], hpast ▸ hsub.append (.refl _),
        List.rel_append hbefore (.cons ⟨rfl, rfl, hnext⟩ .nil)⟩

end Leads

end Scanner

/-! ## Parses -/

/-- The states of a parser from the front of a text to its end. -/
def Parser.states {σ : Type} (source : IdSource σ) (st : σ) (text : String) : List Cursor :=
  (parseText source st text.toList).2.scanner.states

theorem Cursor.pairwise_pos_le {text : Array Char} {cs : List Cursor}
    (h : cs.IsChain (Cursor.Steps text)) : cs.Pairwise (·.pos ≤ ·.pos) :=
  haveI : IsTrans Cursor (·.pos ≤ ·.pos) := ⟨fun _ _ _ => Nat.le_trans⟩
  List.isChain_iff_pairwise.1 (h.imp fun _ _ => Steps.pos_le)

/-- A parser that gives a schema stands at the end of its text. -/
theorem Parser.getLast?_states {σ : Type} {source : IdSource σ} {st : σ} {text : String}
    {schema : Schema} (h : (parse source st text).schema = some schema) :
    (Parser.states source st text).getLast?.map Cursor.pos = some text.toList.length := by
  have hleads := parseText_leads source st text.toList
  have hrest : (parseText source st text.toList).2.scanner.rest = [] := parseText_rest h
  rw [Scanner.rest, List.drop_eq_nil_iff, hleads.text_eq] at hrest
  rw [states, Scanner.states_eq, List.getLast?_concat, Option.map_some]
  exact congrArg some (Nat.le_antisymm (Scanner.at_of_leads hleads).pos_le hrest)

/-- The states of a parse are made of steps, which pass one character or report. They begin at the
front of the text, and where there is a schema they go on to its end. At each of them so much was
counted as stands before it, and the place never goes back. The diagnostics, that of a refused id
included, were reported at some of these states, one behind the other. -/
theorem parse_tracked {σ : Type} (source : IdSource σ) (st : σ) (text : String) :
    (Parser.states source st text).head? = some .start ∧
    (Parser.states source st text).IsChain (Cursor.Steps text.toList.toArray) ∧
    (∀ schema, (parse source st text).schema = some schema →
      (Parser.states source st text).getLast?.map Cursor.pos = some text.toList.length) ∧
    (∀ c ∈ Parser.states source st text, c.Tracks text.toList) ∧
    (Parser.states source st text).Pairwise (·.pos ≤ ·.pos) ∧
    ∃ cs : List Cursor, cs.Sublist (Parser.states source st text) ∧
      cs.Pairwise (·.pos ≤ ·.pos) ∧
      List.Forall₂ (Diagnostic.ReportedAt (Parser.states source st text))
        (parse source st text).diagnostics cs := by
  have hleads := Parser.parseText_leads source st text.toList
  have hpos := Cursor.pairwise_pos_le hleads.isChain
  obtain ⟨cs, hsub, hreported⟩ := hleads.reported
  have hcs : cs.Sublist (Parser.states source st text) := by
    rw [Parser.states, Scanner.states_eq]
    exact hsub.trans (List.sublist_append_left _ _)
  exact ⟨hleads.head?_states, hleads.isChain, fun _ => Parser.getLast?_states, hleads.tracks, hpos,
    cs, hcs, hpos.sublist hcs, hreported⟩

/-- A text with a line that is no column, behind which one id may not be enough. -/
def truncated : String := "Table a \x7b\n  /* x\n */ :\n  y int\n\x7d"

theorem parse_tracked_truncated :
    (Parser.states .counting 1 truncated).getLast?.map Cursor.pos = some 32 ∧
      ∃ cs : List Cursor, cs.Sublist (Parser.states .listed ["t"] truncated) ∧
        (∀ c ∈ cs, c.Tracks truncated.toList) ∧
        cs.map (fun c => ((c.line : Int), (c.column : Int))) = [(3, 5), (4, 8)] := by
  obtain ⟨-, -, hend, -⟩ := parse_tracked .counting 1 truncated
  obtain ⟨-, -, -, htracks, -, cs, hsub, -, hreported⟩ := parse_tracked .listed ["t"] truncated
  have hschema : (parse .counting 1 truncated).schema.isSome = true := by
    rw [parse, parseWith_eq]
    decide +kernel
  obtain ⟨schema, hschema⟩ := Option.isSome_iff_exists.1 hschema
  refine ⟨(hend schema hschema).trans (by decide), cs, hsub,
    fun c hc => htracks c (hsub.subset hc), ?_⟩
  rw [Diagnostic.ReportedAt.map_place hreported, parse, parseWith_eq]
  decide +kernel

end Dbml
