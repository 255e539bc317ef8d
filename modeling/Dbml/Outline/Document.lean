import Dbml.Outline.Table

/-!
# Documents

A document is a sequence of statements: tables, references and blocks that are recognised but not
kept. A line that starts with none of their words is skipped.

Reading a document asks for no ids. Where an id is drawn later, its draft keeps the place.

Results:
* `item?_progresses`: every statement takes at least one character;
* `readItem_suffix`: what is left is a suffix of what was given.
-/
namespace Dbml.Outline

open Text

/-! ## Reference statements -/

/-- A reference statement: a name for its relations, its lines, and what is wrong with the
statement itself. -/
structure RefItem where
  name : Option String
  lines : List RefLine
  fault : Option Fault
  deriving DecidableEq, Repr

/-- The next line of a reference block; none at the closing brace and at the end of the text (a turn
of the loop in `_parse_ref_statement`). -/
def blockRefLine? (s : List Char) : Option (RefLine × List Char) :=
  match skipFiller s with
  | [] => none
  | '}' :: _ => none
  | c :: r => some (readRefLine (c :: r))

theorem blockRefLine?_progresses : Progresses blockRefLine? := by
  intro s a t h
  have hs := skipFiller_suffix s
  unfold blockRefLine? at h
  split at h
  · simp at h
  · simp at h
  · rename_i c r hc e
    have hsh := readRefLine_shorter (s := r) hc
    rw [Option.some.inj h] at hsh
    exact hsh.suffix_trans (e ▸ hs)

/-- The name of a reference statement at the front, if one stands there, and the text after it and
the blanks behind it (a part of `_parse_ref_statement`). -/
def readRefName (s : List Char) : Option String × List Char :=
  match s with
  | [] => (none, s)
  | ':' :: _ => (none, s)
  | '{' :: _ => (none, s)
  | _ =>
    (readIdentifier s).map (fun n => if n.isEmpty then none else some (String.ofList n)) skipInline

theorem readRefName_suffix (s : List Char) : (readRefName s).2 <:+ s := by
  unfold readRefName; split
  · exact List.suffix_rfl
  · exact List.suffix_rfl
  · exact List.suffix_rfl
  · exact (skipInline_suffix _).trans (readIdentifier_suffix _)

/-- The reference statement at the front, given the text after the word that introduces it: one line
after a colon, or a block of lines between braces (`_parse_ref_statement`). -/
def readRefs (s : List Char) : RefItem × List Char :=
  let (name, r) := readRefName (skipInline s)
  match r with
  | ':' :: t =>
    let (line, u) := readRefLine t
    (⟨name, [line], none⟩, u)
  | '{' :: t =>
    let (lines, u) := many blockRefLine? blockRefLine?_progresses t
    match skipFiller u with
    | '}' :: v => (⟨name, lines, none⟩, v)
    | v => (⟨name, lines, some ⟨.noRefClosing, v⟩⟩, v)
  | _ => (⟨name, [], some ⟨.noRefOpening, r⟩⟩, skipLine r)

theorem readRefs_suffix (s : List Char) : (readRefs s).2 <:+ s := by
  have h := (readRefName_suffix (skipInline s)).trans (skipInline_suffix s)
  unfold readRefs
  dsimp only
  split
  · rename_i t e
    rw [e] at h
    exact (readRefLine_suffix t).trans ((List.suffix_cons _ _).trans h)
  · rename_i t e
    rw [e] at h
    have hu := (skipFiller_suffix (many blockRefLine? blockRefLine?_progresses t).2).trans
      ((many_suffix t).trans ((List.suffix_cons _ _).trans h))
    split
    · rename_i e'; rw [e'] at hu; exact (List.suffix_cons _ _).trans hu
    · exact hu
  · exact (skipLine_suffix _).trans h

/-! ## Statements -/

/-- One statement of a document. -/
inductive Item where
  | table (table : TableItem)
  | refs (refs : RefItem)
  /-- A block that is not kept, with the text that starts at it. -/
  | skipped (rest : List Char)
  /-- A line that starts with none of the statements' words. -/
  | stray
  deriving DecidableEq, Repr

/-- The words of the blocks that are recognised but not kept (`SKIPPED_BLOCKS`). -/
def skippedWords : List String := ["TableGroup", "Enum", "Project"]

/-- The statement at the front, given text that starts with no filler (from `_parse_schema`). -/
def readItem (s : List Char) : Item × List Char :=
  match keyword? "Table" s with
  | some r => (readTable r).map .table id
  | none =>
    match keyword? "Ref" s with
    | some r => (readRefs r).map .refs id
    | none =>
      if skippedWords.any fun word => (keyword? word s).isSome then (.skipped s, skipBlock s)
      else (.stray, skipLine s)

theorem readItem_suffix (s : List Char) : (readItem s).2 <:+ s := by
  unfold readItem; split
  · rename_i r h; exact (readTable_suffix r).trans (keyword?_suffix h)
  · split
    · rename_i r h; exact (readRefs_suffix r).trans (keyword?_suffix h)
    · split
      · exact skipBlock_suffix s
      · exact skipLine_suffix s

/-- The next statement; none at the end of the text. -/
def item? (s : List Char) : Option (Item × List Char) :=
  match skipFiller s with
  | [] => none
  | c :: r => some (readItem (c :: r))

theorem dropFolded?_head {c k : Char} {ks s r : List Char}
    (h : dropFolded? (k :: ks) (c :: s) = some r) : c.toLower = k.toLower := by
  simp only [dropFolded?] at h; split at h
  · rename_i e; simpa using e
  · simp at h

theorem skippedWord_head {c : Char} {s : List Char}
    (h : (skippedWords.any fun word => (keyword? word (c :: s)).isSome) = true) :
    c ≠ '{' ∧ c ≠ '\n' := by
  obtain ⟨word, hw, hk⟩ := List.any_eq_true.1 h
  obtain ⟨r, hr⟩ := Option.isSome_iff_exists.1 hk
  have hd := (Option.filter_eq_some_iff.1 hr).1
  simp only [skippedWords, List.mem_cons, List.not_mem_nil, or_false] at hw
  have key : c.toLower = 't' ∨ c.toLower = 'e' ∨ c.toLower = 'p' := by
    rcases hw with rfl | rfl | rfl
    · exact .inl (dropFolded?_head hd)
    · exact .inr (.inl (dropFolded?_head hd))
    · exact .inr (.inr (dropFolded?_head hd))
  constructor <;> (rintro rfl; revert key; decide)

theorem readItem_shorter (c : Char) (s : List Char) :
    Shorter (readItem (c :: s)).2 (c :: s) := by
  unfold readItem; split
  · rename_i r h
    exact Shorter.trans_suffix (readTable_suffix r) (keyword?_shorter (by decide) h)
  · split
    · rename_i r h
      exact Shorter.trans_suffix (readRefs_suffix r) (keyword?_shorter (by decide) h)
    · split
      · rename_i h
        exact skipBlock_shorter (skippedWord_head h).1 (skippedWord_head h).2
      · exact skipLine_shorter c s

theorem item?_progresses : Progresses item? := by
  intro s a t h
  have hs := skipFiller_suffix s
  unfold item? at h
  split at h
  · simp at h
  · rename_i c r e
    have hsh := readItem_shorter c r
    rw [Option.some.inj h] at hsh
    exact hsh.suffix_trans (e ▸ hs)

end Dbml.Outline

namespace Dbml

/-- A document, statement by statement. -/
abbrev Outline := List Outline.Item

/-- The statements of a text (the loop in `_parse_schema`). -/
def Outline.read (s : List Char) : Outline :=
  (Text.many Outline.item? Outline.item?_progresses s).1

end Dbml
