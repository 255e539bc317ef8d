import Dbml.Proofs.ColumnLines
import Dbml.Proofs.SkippedBlocks
import Dbml.Proofs.Spelling
import Dbml.Text.Split

/-!
# Broken table headers

The parts of a table's header may stand on lines of their own: filler of any kind goes between
them. So a header that lacks its opening brace costs no more than itself, since no brace is found
where the next table starts. But a header that lacks its name or its alias takes the next word for
it, and in front of a table that is the word that introduces this table. Then the table is lost
too, and what is left of it is read as statements.

Results:
* `readHeader_unopened`: a header fails where its opening brace should stand;
* `read_broken`: what a broken header in front of tables takes, and where reading goes on;
* `parse_broken`: in front of tables, a broken header gives one diagnostic and costs at most the
  first of them, if no line that is left of that one is a statement.
-/
namespace Dbml

open Text Outline Canonical

/-! ## Broken headers -/

/-- The header of a table that breaks off. -/
inductive BrokenHeader where
  | nameless
  | unopened (name : List Char)
  | aliasless (name : List Char)
  | aliased (name aliasName : List Char)

namespace BrokenHeader

/-- What stands behind the word that introduces a table. -/
def tail : BrokenHeader → List Char
  | nameless => []
  | unopened name => ' ' :: name
  | aliasless name => ' ' :: (name ++ [' ', 'a', 's'])
  | aliased name aliasName => ' ' :: (name ++ ' ' :: 'a' :: 's' :: ' ' :: aliasName)

/-- The line of a broken header. -/
def text (h : BrokenHeader) : List Char := "Table".toList ++ h.tail

/-- Names and aliases are bare words. -/
def Plain : BrokenHeader → Prop
  | nameless => True
  | unopened name => isWord name = true
  | aliasless name => isWord name = true
  | aliased name aliasName => isWord name = true ∧ isWord aliasName = true

/-- Whether nothing but the opening brace is missing. -/
def LacksBrace : BrokenHeader → Prop
  | nameless => False
  | unopened _ => True
  | aliasless _ => False
  | aliased _ _ => True

end BrokenHeader

namespace Outline

/-! ## Reading a header -/

theorem readAlias_of_head {s : List Char} (h : s.head? ≠ some 'a') (table : List Char) :
    readAlias table s = .ok (none, s) := by
  have hnone : aliasWord? s = none := by
    unfold aliasWord?; split
    · exact absurd rfl h
    · rfl
  rw [readAlias, hnone]

theorem plainName_of_isWord {w : List Char} (hw : isWord w = true) : PlainName (String.ofList w) := by
  have hchars := isWordChar_of_isWord hw
  refine ⟨?_, fun hq => ?_, fun hn => ?_⟩
  · rw [String.toList_ofList]; rintro rfl; cases hw
  · exact absurd (hchars _ (String.toList_ofList ▸ hq)) (by decide)
  · exact absurd (hchars _ (String.toList_ofList ▸ hn)) (by decide)

/-- A word behind that for an alias is the alias. -/
theorem readAlias_word {w s t : List Char} (hw : isWord w = true) (ht : StopsAt isWordChar t)
    (hs : skipFiller s = w ++ t) (he : wordEnds s = true) (table : List Char) :
    readAlias table ('a' :: 's' :: s) = .ok (some (String.ofList w), skipFiller t) := by
  have hn := plainName_of_isWord hw
  have hname : (identifier (String.ofList w)).toList = w := by
    rw [toList_identifier_of_isWord (String.toList_ofList.symm ▸ hw) hn.no_newline,
      String.toList_ofList]
  exact readAlias_named hn he (hname.symm ▸ hs) ht table

/-- A header fails where its opening brace should stand. -/
theorem readHeader_unopened {s w t u : List Char} {a : Option String} (hs : skipFiller s = w ++ t)
    (hw : isWord w = true) (ht : StopsAt isWordChar t)
    (ha : readAlias w (skipFiller t) = .ok (a, u)) (hu : ∀ c ∈ u.head?, c ≠ '[' ∧ c ≠ '{') :
    readHeader s = .error ⟨.noTableOpening, u⟩ := by
  have hne : w ≠ [] := by rintro rfl; simp [isWord] at hw
  have hsettings : readTableSettings u = ([], u) := by
    unfold readTableSettings; split
    · exact absurd rfl (hu _ rfl).1
    · rfl
  simp only [readHeader, hs, readIdentifier_word hw ht, List.isEmpty_iff, hne, if_false, ha,
    hsettings]
  split
  · rename_i he
    cases he
    exact absurd rfl (hu _ rfl).2
  · rename_i he
    cases he
    rfl

/-- A header fails where its alias should stand. -/
theorem readHeader_aliasless {s w t : List Char} {f : Fault} (hs : skipFiller s = w ++ t)
    (hw : isWord w = true) (ht : StopsAt isWordChar t)
    (ha : readAlias w (skipFiller t) = .error f) : readHeader s = .error f := by
  have hne : w ≠ [] := by rintro rfl; simp [isWord] at hw
  simp only [readHeader, hs, readIdentifier_word hw ht, List.isEmpty_iff, hne, if_false, ha]

/-- What is read of a table whose header fails. -/
theorem read_headless {s r : List Char} {f : Fault} (hk : wordEnds r = true)
    (hs : s = "Table".toList ++ r) (h : readHeader r = .error f) :
    Outline.read s = .table (.headless f) :: Outline.read f.rest := by
  have hkey : keyword? "Table" ("Table".toList ++ r) = some r := keyword?_folded rfl hk
  have hfront : skipFiller ("Table".toList ++ r) = 'T' :: ("able".toList ++ r) :=
    skipFiller_of_stopsAt (stopsAt_cons.2 (by decide))
  have hitem : item? s = some (.table (.headless f), f.rest) := by
    rw [hs, item?_of_skipFiller hfront]
    show some (readItem ("Table".toList ++ r)) = _
    simp only [readItem, hkey, readTable, h]
    rfl
  exact read_of_item? hitem

end Outline

/-! ## In front of tables -/

/-- The schema of tables alone. -/
def ofTables (tables : List Table) : Schema := { tables }

theorem blocks_ofTables (tables : List Table) :
    blocks (ofTables tables) = tables.map .table := by
  simp [blocks, ofTables]

/-- What stands behind the first of some tables in their canonical text. -/
def behindTable : List Table → List Char
  | [] => []
  | t :: ts => '\n' :: '\n' :: (schema (ofTables (t :: ts))).toList

theorem toList_ofTables (t : Table) (ts : List Table) :
    (schema (ofTables (t :: ts))).toList = (table t).toList ++ behindTable ts := by
  cases ts with
  | nil =>
    have h : blocks (ofTables [t]) = [] ++ [.table t] := by simp [blocks_ofTables]
    rw [toList_schema h]
    simp [blockLines, behindTable, Block.text]
  | cons u us =>
    have hne : blocks (ofTables (u :: us)) ≠ [] := by simp [blocks_ofTables]
    have hlast := (List.dropLast_append_getLast hne).symm
    have hcons : blocks (ofTables (t :: u :: us)) =
        (.table t :: (blocks (ofTables (u :: us))).dropLast) ++
          [(blocks (ofTables (u :: us))).getLast hne] := by
      rw [List.cons_append, ← hlast]
      simp [blocks_ofTables]
    rw [toList_schema hcons, behindTable, toList_schema hlast, blockLines_cons]
    simp [Block.gap, Block.text]

theorem read_behindTable {ts : List Table} (h : ∀ t ∈ ts, t.Rereadable) :
    List.Forall₂ Shows (Outline.read (behindTable ts)) (ts.map .table) := by
  cases ts with
  | nil => rw [behindTable, read_nil]; exact .nil
  | cons t ts =>
    have hshows := read_schema (s := ofTables (t :: ts)) fun b hb => by
      rw [blocks_ofTables] at hb
      obtain ⟨u, hu, rfl⟩ := List.mem_map.1 hb
      exact h u hu
    rw [blocks_ofTables] at hshows
    rw [behindTable, read_newline, read_newline]
    exact hshows

namespace BrokenHeader

/-- What a broken header takes of the first table behind it. Only the word that introduces the
table goes, unless the table has the name that introduces an alias. -/
def taken (h : BrokenHeader) (t : Table) : List Char :=
  match h with
  | unopened _ => []
  | aliased _ _ => []
  | aliasless _ => "Table ".toList
  | nameless =>
    if t.name = "as" then
      if (nonEmpty t.aliasName).isSome then "Table as as ".toList else "Table as ".toList
    else "Table ".toList

/-- What is left of the first table behind a broken header. -/
def left (h : BrokenHeader) (t : Table) : List Char := (table t).toList.drop (h.taken t).length

/-- What is wrong with a broken header in front of a table. -/
def cause (h : BrokenHeader) (t : Table) : Cause :=
  match h with
  | nameless =>
    if t.name = "as" ∧ nonEmpty t.aliasName = none then .noTableAlias "Table" else .noTableOpening
  | _ => .noTableOpening

end BrokenHeader

namespace Outline

theorem skipFiller_word {w : List Char} (hw : isWord w = true) (s : List Char) :
    skipFiller (w ++ s) = w ++ s := by
  cases w with
  | nil => simp [isWord] at hw
  | cons c w =>
    simp only [isWord, Bool.and_eq_true] at hw
    exact skipFiller_of_stopsAt (stopsAt_cons.2 (not_startsFiller_of_isWordStart (.inl hw.1)))

/-- A word goes on with any of its characters. -/
theorem wordEnds_of_isWordChar {c : Char} (h : isWordChar c = true) (s : List Char) :
    wordEnds (c :: s) = false := by
  simp only [isWordChar, Bool.or_eq_true] at h
  rcases h with h | h
  · simp [wordEnds, isAlphanumeric_of_isAlphanum h]
  · simp [wordEnds, h]

theorem aliasWord?_of_longer {w s : List Char} (hw : isWord w = true) (has : w ≠ ['a', 's'])
    (hs : StopsAt isWordChar s) : aliasWord? (w ++ s) = none := by
  unfold aliasWord?
  split
  · rename_i u he
    match w, hw, has, he with
    | [c], _, _, he =>
      obtain rfl : s = 's' :: u := (List.cons.inj he).2
      exact absurd (stopsAt_cons.1 hs) (by decide)
    | [c, d], _, has, he =>
      obtain rfl : c = 'a' := (List.cons.inj he).1
      obtain rfl : d = 's' := (List.cons.inj (List.cons.inj he).2).1
      exact absurd rfl has
    | c :: d :: e :: w, hw, _, he =>
      obtain rfl : e :: w ++ s = u := (List.cons.inj (List.cons.inj he).2).2
      have he : isWordChar e = true := by
        simp only [isWord, List.all_cons, Bool.and_eq_true] at hw
        exact hw.2.2.1
      rw [List.cons_append, wordEnds_of_isWordChar he]
      rfl
  · rfl

/-- A name that is not the word for an alias is not read as one. -/
theorem aliasWord?_identifier {name : String} (hn : '\n' ∉ name.toList) (has : name ≠ "as")
    {s : List Char} (hs : StopsAt isWordChar s) :
    aliasWord? ((identifier name).toList ++ s) = none := by
  cases hw : isWord name.toList with
  | false => rw [toList_identifier_of_not_isWord hw hn]; rfl
  | true =>
    rw [toList_identifier_of_isWord hw hn]
    exact aliasWord?_of_longer hw (fun he => has (String.toList_injective he)) hs

end Outline

namespace BrokenHeader

/-- The text of a table behind the word that introduces it. -/
def tableTail (t : Table) (s : List Char) : List Char :=
  (identifier t.name).toList ++ aliasText t.aliasName (tableBody t ++ '}' :: s)

theorem toList_table_tail (t : Table) (s : List Char) :
    (table t).toList ++ s = "Table".toList ++ ' ' :: tableTail t s :=
  toList_table_append t s

/-- What a broken header takes is the beginning of the table. -/
theorem taken_prefix (h : BrokenHeader) (t : Table) : h.taken t <+: (table t).toList := by
  have htail := toList_table_tail t []
  rw [List.append_nil] at htail
  have hword : "Table ".toList <+: (table t).toList := ⟨tableTail t [], htail.symm⟩
  cases h with
  | unopened name => exact List.nil_prefix
  | aliased name aliasName => exact List.nil_prefix
  | aliasless name => exact hword
  | nameless =>
    unfold taken
    dsimp only
    split
    · rename_i has
      rw [tableTail, has] at htail
      cases hoption : nonEmpty t.aliasName with
      | none =>
        rw [aliasText_none hoption] at htail
        exact ⟨_, htail.symm⟩
      | some a =>
        rw [aliasText_some hoption] at htail
        exact ⟨_, htail.symm⟩
    · exact hword

theorem taken_append_left (h : BrokenHeader) (t : Table) :
    h.taken t ++ h.left t = (table t).toList := by
  obtain ⟨v, hv⟩ := h.taken_prefix t
  rw [left, ← hv, List.drop_left]

theorem left_append {h : BrokenHeader} {t : Table} {s v : List Char}
    (e : (table t).toList ++ s = h.taken t ++ v) : h.left t ++ s = v := by
  rw [← taken_append_left h t, List.append_assoc] at e
  exact List.append_cancel_left e

theorem identifier_opens_nothing {name : String} (hn : '\n' ∉ name.toList) (s : List Char) :
    ∀ c ∈ ((identifier name).toList ++ s).head?, c ≠ '[' ∧ c ≠ '{' := by
  obtain ⟨d, r, hd, hw⟩ := identifier_head hn
  rw [hd]
  intro c hc
  obtain rfl := Option.some.inj hc
  constructor <;> (rintro rfl; revert hw; decide)

variable {t : Table} (hn : PlainName t.name)
include hn

/-- A header without an alias takes the word of the table behind it for one. -/
theorem readHeader_aliasless_table {name : List Char} (hw : isWord name = true) (s : List Char) :
    readHeader ((aliasless name).tail ++ '\n' :: ((table t).toList ++ s)) =
      .error ⟨.noTableOpening, tableTail t s⟩ := by
  have halias : readAlias name ('a' :: 's' :: '\n' :: ((table t).toList ++ s)) =
      .ok (some "Table", tableTail t s) := by
    have hfront : skipFiller ('\n' :: ((table t).toList ++ s)) =
        "Table".toList ++ ' ' :: tableTail t s := by
      rw [skipFiller_newline, toList_table_tail]
      exact skipFiller_word (by decide) _
    rw [readAlias_word (by decide) (stopsAt_space _) hfront rfl, skipFiller_space, tableTail,
      skipFiller_identifier hn.no_newline]
    rfl
  have hfront : skipFiller ((aliasless name).tail ++ '\n' :: ((table t).toList ++ s)) =
      name ++ ' ' :: 'a' :: 's' :: '\n' :: ((table t).toList ++ s) := by
    simp only [tail, List.cons_append, List.append_assoc, List.nil_append, skipFiller_space]
    exact skipFiller_word hw _
  refine readHeader_unopened hfront hw (stopsAt_space _) (a := some "Table") ?_
    (identifier_opens_nothing hn.no_newline _)
  rw [skipFiller_space, skipFiller_of_stopsAt (stopsAt_cons.2 (by decide)), halias]

/-- A header without a name takes the word of the table behind it for one. -/
theorem readHeader_nameless_table (has : t.name ≠ "as") (s : List Char) :
    readHeader (nameless.tail ++ '\n' :: ((table t).toList ++ s)) =
      .error ⟨.noTableOpening, tableTail t s⟩ := by
  have hfront : skipFiller (nameless.tail ++ '\n' :: ((table t).toList ++ s)) =
      "Table".toList ++ ' ' :: tableTail t s := by
    rw [tail, List.nil_append, skipFiller_newline, toList_table_tail]
    exact skipFiller_word (by decide) _
  refine readHeader_unopened hfront (by decide) (stopsAt_space _) (a := none) ?_
    (identifier_opens_nothing hn.no_newline _)
  have hnone := aliasWord?_identifier hn.no_newline has
    (stopsAt_aliasText t.aliasName (tableBody t ++ '}' :: s))
  rw [skipFiller_space, tableTail, skipFiller_identifier hn.no_newline, readAlias, hnone]

/-- Where the table behind a header without a name has the name that introduces an alias, what
stands behind that name is taken for the alias. -/
theorem readHeader_nameless_as (hname : t.name = "as") (ha : PlainOption t.aliasName)
    (s : List Char) :
    readHeader (nameless.tail ++ '\n' :: ((table t).toList ++ s)) =
      match nonEmpty t.aliasName with
      | none => .error ⟨.noTableAlias "Table", '{' :: (tableBody t ++ '}' :: s)⟩
      | some a => .error ⟨.noTableOpening,
          (identifier a).toList ++ ' ' :: '{' :: (tableBody t ++ '}' :: s)⟩ := by
  have htail : tableTail t s = 'a' :: 's' :: aliasText t.aliasName (tableBody t ++ '}' :: s) := by
    rw [tableTail, hname]; rfl
  have hfront : skipFiller (nameless.tail ++ '\n' :: ((table t).toList ++ s)) =
      "Table".toList ++ ' ' :: tableTail t s := by
    rw [tail, List.nil_append, skipFiller_newline, toList_table_tail]
    exact skipFiller_word (by decide) _
  have hskip : skipFiller (' ' :: tableTail t s) = tableTail t s := by
    rw [skipFiller_space, tableTail, skipFiller_identifier hn.no_newline]
  cases hoption : nonEmpty t.aliasName with
  | none =>
    refine readHeader_aliasless hfront (by decide) (stopsAt_space _) ?_
    have hopen : skipFiller (' ' :: '{' :: (tableBody t ++ '}' :: s)) =
        '{' :: (tableBody t ++ '}' :: s) := by
      rw [skipFiller_space]
      exact skipFiller_of_stopsAt (stopsAt_cons.2 (by decide))
    have hword : aliasWord? ('a' :: 's' :: ' ' :: '{' :: (tableBody t ++ '}' :: s)) =
        some (' ' :: '{' :: (tableBody t ++ '}' :: s)) := rfl
    rw [hskip, htail, aliasText_none hoption, readAlias, hword]
    simp only [hopen]
    rfl
  | some a =>
    have hplain : PlainName a := ha a hoption
    refine readHeader_unopened hfront (by decide) (stopsAt_space _) (a := some "as") ?_
      (identifier_opens_nothing hplain.no_newline _)
    have hword : isWord ['a', 's'] = true := by decide
    have has : skipFiller (' ' :: 'a' :: 's' :: ' ' ::
          ((identifier a).toList ++ ' ' :: '{' :: (tableBody t ++ '}' :: s))) =
        ['a', 's'] ++ ' ' :: ((identifier a).toList ++ ' ' :: '{' :: (tableBody t ++ '}' :: s)) := by
      rw [skipFiller_space]
      exact skipFiller_word hword _
    rw [hskip, htail, aliasText_some hoption, readAlias_word hword (stopsAt_space _) has rfl,
      skipFiller_space, skipFiller_identifier hplain.no_newline]

omit hn in
/-- A header that lacks nothing but its brace takes nothing of the table behind it. -/
theorem readHeader_lacksBrace {h : BrokenHeader} (hh : h.Plain) (hl : h.LacksBrace)
    (s : List Char) :
    readHeader (h.tail ++ '\n' :: ((table t).toList ++ s)) =
      .error ⟨.noTableOpening, (table t).toList ++ s⟩ := by
  have hhead : ∀ c ∈ ((table t).toList ++ s).head?, c = 'T' := by
    rw [toList_table_tail]
    exact fun c hc => (Option.some.inj hc).symm
  have hopens : ∀ c ∈ ((table t).toList ++ s).head?, c ≠ '[' ∧ c ≠ '{' := fun c hc => by
    rw [hhead c hc]; decide
  have hskip : skipFiller ('\n' :: ((table t).toList ++ s)) = (table t).toList ++ s := by
    rw [skipFiller_newline, toList_table_tail]
    exact skipFiller_of_stopsAt (stopsAt_cons.2 (by decide))
  have hnewline : StopsAt isWordChar ('\n' :: ((table t).toList ++ s)) :=
    stopsAt_cons.2 (by decide)
  cases h with
  | nameless => exact absurd hl id
  | aliasless name => exact absurd hl id
  | unopened name =>
    have hfront : skipFiller ((unopened name).tail ++ '\n' :: ((table t).toList ++ s)) =
        name ++ '\n' :: ((table t).toList ++ s) := by
      rw [tail, List.cons_append, skipFiller_space]
      exact skipFiller_word hh _
    refine readHeader_unopened hfront hh hnewline (a := none) ?_ hopens
    rw [hskip]
    exact readAlias_of_head (fun ha => absurd (hhead _ ha) (by decide)) name
  | aliased name aliasName =>
    have hfront : skipFiller ((aliased name aliasName).tail ++
          '\n' :: ((table t).toList ++ s)) =
        name ++ ' ' :: 'a' :: 's' :: ' ' :: (aliasName ++ '\n' :: ((table t).toList ++ s)) := by
      simp only [tail, List.cons_append, List.append_assoc, skipFiller_space]
      exact skipFiller_word hh.1 _
    refine readHeader_unopened hfront hh.1 (stopsAt_space _)
      (a := some (String.ofList aliasName)) ?_ hopens
    have hword : skipFiller (' ' :: (aliasName ++ '\n' :: ((table t).toList ++ s))) =
        aliasName ++ '\n' :: ((table t).toList ++ s) := by
      rw [skipFiller_space]
      exact skipFiller_word hh.2 _
    rw [skipFiller_space, skipFiller_of_stopsAt (stopsAt_cons.2 (by decide)),
      readAlias_word hh.2 hnewline hword rfl, hskip]

/-- Where and why a broken header in front of a table fails. -/
theorem readHeader_broken {h : BrokenHeader} (hh : h.Plain) (ha : PlainOption t.aliasName)
    (s : List Char) :
    readHeader (h.tail ++ '\n' :: ((table t).toList ++ s)) =
      .error ⟨h.cause t, h.left t ++ s⟩ := by
  have htail : h.taken t = "Table ".toList → h.left t ++ s = tableTail t s := fun ht =>
    left_append (by rw [ht, toList_table_tail]; rfl)
  cases h with
  | unopened name => exact readHeader_lacksBrace hh trivial s
  | aliased name aliasName => exact readHeader_lacksBrace hh trivial s
  | aliasless name =>
    rw [readHeader_aliasless_table hn hh, htail rfl]
    rfl
  | nameless =>
    by_cases has : t.name = "as"
    · have htext : (table t).toList ++ s =
          "Table as".toList ++ aliasText t.aliasName (tableBody t ++ '}' :: s) := by
        rw [toList_table_tail, tableTail, has]
        rfl
      rw [readHeader_nameless_as hn has ha]
      cases hoption : nonEmpty t.aliasName with
      | none =>
        have hleft : nameless.left t ++ s = '{' :: (tableBody t ++ '}' :: s) :=
          left_append (by rw [htext, aliasText_none hoption]; simp [taken, has, hoption])
        rw [hleft]
        simp [cause, has, hoption]
      | some a =>
        have hleft : nameless.left t ++ s =
            (identifier a).toList ++ ' ' :: '{' :: (tableBody t ++ '}' :: s) :=
          left_append (by rw [htext, aliasText_some hoption]; simp [taken, has, hoption])
        rw [hleft]
        simp [cause, hoption]
    · rw [readHeader_nameless_table hn has, htail (by simp [taken, has])]
      simp [cause, has]

/-- A broken header in front of a table is one statement, and reading goes on with what is left of
the table. -/
theorem read_broken {h : BrokenHeader} (hh : h.Plain) (ha : PlainOption t.aliasName)
    (s : List Char) :
    Outline.read (h.text ++ '\n' :: ((table t).toList ++ s)) =
      .table (.headless ⟨h.cause t, h.left t ++ s⟩) :: Outline.read (h.left t ++ s) := by
  have hends : wordEnds (h.tail ++ '\n' :: ((table t).toList ++ s)) = true := by
    cases h <;> rfl
  exact read_headless hends (by rw [text, List.append_assoc]) (readHeader_broken hn hh ha s)

end BrokenHeader

/-! ## What is left of a table -/

namespace Text

theorem splitAt_of_not_mem {c : Char} {s : List Char} (h : c ∉ s) : splitAt c s = [s] := by
  induction s with
  | nil => rfl
  | cons d s ih =>
    simp only [List.mem_cons, not_or] at h
    have hd : (d == c) = false := beq_false_of_ne (Ne.symm h.1)
    simp [splitAt, hd, ih h.2]

theorem splitAt_append {c : Char} {s : List Char} (h : c ∉ s) (t : List Char) :
    splitAt c (s ++ c :: t) = s :: splitAt c t := by
  induction s with
  | nil => simp [splitAt]
  | cons d s ih =>
    simp only [List.mem_cons, not_or] at h
    have hd : (d == c) = false := beq_false_of_ne (Ne.symm h.1)
    simp [splitAt, hd, ih h.2]

end Text

theorem skipLine_of_not_mem {w : List Char} (h : '\n' ∉ w) : skipLine w = [] := by
  have hw : ∀ c ∈ w, (c != '\n') = true := fun c hc => by
    simpa using fun he : c = '\n' => h (he ▸ hc)
  rw [skipLine, List.dropWhile_eq_nil_iff.2 hw, List.tail_nil]

/-- A stray line at the end of a text is overlooked, or it is read as a stray statement. -/
theorem read_strayEnd {line : List Char} (h : StrayLine line) :
    ∀ i ∈ Outline.read line, i = .stray := by
  have hn : '\n' ∉ skipInline line := fun hm => h.no_newline ((skipInline_suffix line).mem hm)
  obtain ⟨o, ho, hstray⟩ := read_strayFront (stopsAt_dropWhile _ line) h.no_comment h.no_word
  rw [← read_congr (skipFiller_skipInline line)]
  intro i hi
  change Outline.read (skipInline line) = _ at ho
  rw [ho, ← skipInline, skipLine_of_not_mem hn, read_nil, List.append_nil] at hi
  exact hstray i hi

/-- Stray lines in front of a text, or at its end, give no more than stray statements. -/
theorem read_strayLines {w : List Char} (h : ∀ line ∈ splitAt '\n' w, StrayLine line)
    {s : List Char} (hs : s = [] ∨ ∃ t, s = '\n' :: t) :
    ∃ o, Outline.read (w ++ s) = o ++ Outline.read s ∧ ∀ i ∈ o, i = .stray := by
  induction hn : w.length using Nat.strongRecOn generalizing w with
  | _ n ih =>
    by_cases hw : '\n' ∈ w
    · obtain ⟨line, v, rfl, hline⟩ := List.eq_append_cons_of_mem hw
      rw [splitAt_append hline, List.forall_mem_cons] at h
      obtain ⟨o, ho, hstray⟩ := read_stray h.1 (v ++ s)
      obtain ⟨p, hp, hrest⟩ := ih v.length (by simp at hn; omega) h.2 rfl
      refine ⟨o ++ p, ?_, ?_⟩
      · rw [List.append_assoc, List.cons_append, ho, hp, List.append_assoc]
      · simpa [List.forall_mem_append] using fun i hi => hi.elim (hstray i) (hrest i)
    · have hline : StrayLine w := h w (by rw [splitAt_of_not_mem hw]; exact List.mem_singleton_self w)
      rcases hs with rfl | ⟨t, rfl⟩
      · exact ⟨Outline.read w, by rw [List.append_nil, read_nil, List.append_nil],
          read_strayEnd hline⟩
      · rw [read_newline]
        exact read_stray hline t

/-! ## Parsing -/

section Parsing

variable {σ : Type} {source : IdSource σ} (hs : source.Total) (st : σ)
include hs

/-- A text that shows tables, stray lines apart, gives these tables and no diagnostics. -/
theorem parse_tables_of_shows {text : String} (hb : text.toList.all isBlank = false)
    {ts : List Table}
    (h : List.Forall₂ Shows (Outline.read text.toList).withoutStray (ts.map .table)) :
    parse source st text =
      ⟨some (ofTables (handOut (ts.map Table.kept)
        (source.idsFor (ts.flatMap Table.idKinds) st))), []⟩ := by
  have hblocks : (ts.map fun t => Chunk.block (.table t)).filterMap Chunk.block? =
      ts.map .table := by
    simp [List.filterMap_map, Function.comp_def, Chunk.block?]
  have htables : chunkTables (ts.map fun t => Chunk.block (.table t)) = ts := by
    simp [chunkTables, hblocks, List.filterMap_map, Function.comp_def, Block.table?]
  have hrelations : chunkRelations (ts.map fun t => Chunk.block (.table t)) = [] := by
    simp [chunkRelations, hblocks, List.filterMap_map, Function.comp_def, Block.relation?]
  rw [← hblocks] at h
  obtain ⟨hfaults, hkinds, hcount, hbuild⟩ := chunks_of_shows h
  rw [htables] at hkinds hbuild
  rw [hrelations] at hcount hbuild
  have hids : (Outline.read text.toList).idKinds = ts.flatMap Table.idKinds := by
    rw [idKinds_eq, hkinds, hcount]
    simp
  obtain ⟨ht, hd⟩ := hbuild (source.idsFor (ts.flatMap Table.idKinds) st)
    (IdSource.length_idsFor hs _ st).ge
  rw [parse_of_total hs st hb, hfaults, hids, toSchema_eq, ht, hd]
  simp [ofTables]

/-- Behind a header that fails, a text gives what it gives alone, beside the fault of the header. -/
theorem parse_headless {text rest : String} {f : Fault} (hb : text.toList.all isBlank = false)
    (hr : rest.toList.all isBlank = false)
    (h : Outline.read text.toList = .table (.headless f) :: Outline.read rest.toList) :
    (parse source st text).schema = (parse source st rest).schema ∧
      (parse source st text).diagnostics = f.toDiagnostic text.toList ::
        (Outline.read rest.toList).faults.map (Fault.toDiagnostic text.toList) := by
  have hkinds : (Outline.read text.toList).idKinds = (Outline.read rest.toList).idKinds := by
    rw [h, idKinds_eq, idKinds_eq, relationCount_cons, List.flatMap_cons]
    simp [Item.idKinds, Item.events, TableItem.events, Event.kind?, Item.relationCount]
  have hfaults : (Outline.read text.toList).faults = f :: (Outline.read rest.toList).faults := by
    rw [h, faults_eq, faults_eq, List.flatMap_cons]
    rfl
  rw [parse_of_total hs st hb, parse_of_total hs st hr, hkinds, hfaults, h]
  exact ⟨congrArg some (toSchema_cons_of_none rfl rfl _ _), rfl⟩

/-- If only tables stand behind a header that fails, stray lines apart, these are kept and nothing
else is reported. -/
theorem parse_headless_tables {text rest : String} {f : Fault}
    (hb : text.toList.all isBlank = false) (hr : rest.toList.all isBlank = false)
    (h : Outline.read text.toList = .table (.headless f) :: Outline.read rest.toList)
    {ts : List Table}
    (hts : List.Forall₂ Shows (Outline.read rest.toList).withoutStray (ts.map .table)) :
    parse source st text =
      ⟨some (ofTables (handOut (ts.map Table.kept)
        (source.idsFor (ts.flatMap Table.idKinds) st))), [f.toDiagnostic text.toList]⟩ := by
  obtain ⟨hschema, hdiagnostics⟩ := parse_headless hs st hb hr h
  have halone := parse_tables_of_shows hs st hr hts
  have hfaults : (Outline.read rest.toList).faults = [] := by
    rw [parse_of_total hs st hr] at halone
    exact List.map_eq_nil_iff.1 (congrArg Parsed.diagnostics halone)
  rw [halone] at hschema
  rw [hfaults] at hdiagnostics
  exact (Parsed.mk.injEq ..).mpr ⟨hschema, hdiagnostics⟩

end Parsing

/-- The place in a text where a broken header fails is on its second line. -/
theorem locate_broken {h : BrokenHeader} (hh : h.Plain) (t : Table) (s : List Char) :
    Location.locate (h.text ++ '\n' :: ((table t).toList ++ s)) (h.left t ++ s) =
      ⟨2, 1 + (h.taken t).length⟩ := by
  have hword : ∀ w : List Char, isWord w = true → '\n' ∉ w := fun w hw hn => by
    have := isWordChar_of_isWord hw _ hn
    revert this; decide
  have hline : '\n' ∉ h.text := by
    have htable : '\n' ∉ "Table".toList := by decide
    rw [BrokenHeader.text, List.mem_append]
    rintro (hn | hn)
    · exact htable hn
    · cases h with
      | nameless => cases hn
      | unopened name => simp [BrokenHeader.tail, hword name hh] at hn
      | aliasless name => simp [BrokenHeader.tail, hword name hh] at hn
      | aliased name aliasName =>
        simp [BrokenHeader.tail, hword name hh.1, hword aliasName hh.2] at hn
  have htaken : '\n' ∉ h.taken t := by
    unfold BrokenHeader.taken
    split
    · simp
    · simp
    · decide
    · split <;> (try split) <;> decide
  have hsplit : h.text ++ '\n' :: ((table t).toList ++ s) =
      (h.text ++ '\n' :: h.taken t) ++ (h.left t ++ s) := by
    rw [← BrokenHeader.taken_append_left h t]
    simp
  rw [hsplit, Location.locate_append]
  have hl := Location.after_line (h.text ++ '\n' :: h.taken t)
  have hc := Location.after_column (s := h.text) htaken
  rw [List.count_append, List.count_cons_self, List.count_eq_zero.2 hline,
    List.count_eq_zero.2 htaken] at hl
  cases hafter : Location.after (h.text ++ '\n' :: h.taken t)
  rw [hafter] at hl hc
  exact congr (congrArg Location.mk hl) hc

/-- Statements that show blocks are no stray lines. -/
theorem withoutStray_of_shows {o : Outline} {bs : List Block} (h : List.Forall₂ Shows o bs) :
    o.withoutStray = o := by
  induction h with
  | nil => rfl
  | cons hi _ ih => rw [withoutStray_cons hi.ne_stray, ih]

theorem withoutStray_append_of_stray {o : Outline} (h : ∀ i ∈ o, i = .stray) (p : Outline) :
    Outline.withoutStray (o ++ p) = p.withoutStray := by
  have hnone : o.withoutStray = [] := by
    simpa [Outline.withoutStray, List.filter_eq_nil_iff] using h
  exact (List.filter_append ..).trans (congrArg (· ++ p.withoutStray) hnone)

/-- What is left of a table holds at least its closing brace. -/
theorem left_not_blank (h : BrokenHeader) (t : Table) (s : List Char) :
    (h.left t ++ s).all isBlank = false := by
  have hclosing : '}' ∈ h.taken t ++ h.left t := by
    rw [BrokenHeader.taken_append_left, toList_table]
    simp
  have htaken : '}' ∉ h.taken t := by
    unfold BrokenHeader.taken
    split
    · simp
    · simp
    · decide
    · split <;> (try split) <;> decide
  have hleft := (List.mem_append.1 hclosing).resolve_left htaken
  exact List.all_eq_false.2 ⟨'}', List.mem_append_left s hleft, by decide⟩

/-- A broken header in front of tables gives one diagnostic. If it lacks nothing but its opening
brace, it costs nothing else. If it lacks its name or its alias, the word that introduces the first
table is taken for that, and what is left of this table is parsed as it would be alone, together
with the tables behind it. So if no line that is left is a statement, exactly the other tables are
kept and nothing else is reported. -/
theorem parse_broken {σ : Type} {source : IdSource σ} (hs : source.Total) (st : σ)
    {h : BrokenHeader} (hh : h.Plain) {t : Table} {ts : List Table}
    (ht : ∀ u ∈ t :: ts, u.EmitSafe) :
    (h.LacksBrace →
      parse source st (String.ofList (h.text ++ ['\n']) ++ schema (ofTables (t :: ts))) =
        ⟨some (ofTables (handOut ((t :: ts).map Table.kept)
            (source.idsFor ((t :: ts).flatMap Table.idKinds) st))),
          [.errorAt ⟨2, 1⟩ "Expected \"\x7b\" after table name"]⟩) ∧
    (¬h.LacksBrace →
      let parsed := parse source st
        (String.ofList (h.text ++ ['\n']) ++ schema (ofTables (t :: ts)))
      let alone := parse source st (String.ofList (h.left t ++ behindTable ts))
      parsed.schema = alone.schema ∧
      parsed.diagnostics.map (·.message) =
        (h.cause t).message :: alone.diagnostics.map (·.message) ∧
      ((∀ line ∈ splitAt '\n' (h.left t), StrayLine line) →
        parsed = ⟨some (ofTables (handOut (ts.map Table.kept)
            (source.idsFor (ts.flatMap Table.idKinds) st))),
          [.errorAt ⟨2, 1 + (h.taken t).length⟩ (h.cause t).message]⟩)) := by
  have hn := (ht t List.mem_cons_self).name
  have ha := (ht t List.mem_cons_self).aliasName
  have hlist : (String.ofList (h.text ++ ['\n']) ++ schema (ofTables (t :: ts))).toList =
      h.text ++ '\n' :: ((table t).toList ++ behindTable ts) := by
    simp [toList_ofTables]
  have hrest : (String.ofList (h.left t ++ behindTable ts)).toList = h.left t ++ behindTable ts :=
    String.toList_ofList
  have hread := h.read_broken hn hh ha (behindTable ts)
  rw [← hlist, ← hrest] at hread
  have hr := left_not_blank h t (behindTable ts)
  rw [← hrest] at hr
  have hb : (String.ofList (h.text ++ ['\n']) ++ schema (ofTables (t :: ts))).toList.all isBlank =
      false := by
    have hne : blocks (ofTables (t :: ts)) ≠ [] := by simp [blocks_ofTables]
    rw [String.toList_append, List.all_append, schema_not_blank hne, Bool.and_false]
  have hfault : Fault.toDiagnostic
      (String.ofList (h.text ++ ['\n']) ++ schema (ofTables (t :: ts))).toList
      ⟨h.cause t, (String.ofList (h.left t ++ behindTable ts)).toList⟩ =
        .errorAt ⟨2, 1 + (h.taken t).length⟩ (h.cause t).message := by
    rw [Fault.toDiagnostic, hlist, hrest, locate_broken hh]
  constructor
  · intro hl
    have hnone : h.taken t = [] ∧ h.cause t = .noTableOpening := by
      cases h <;> first | exact ⟨rfl, rfl⟩ | exact absurd hl id
    have hleft : h.left t ++ behindTable ts = (schema (ofTables (t :: ts))).toList := by
      rw [toList_ofTables, BrokenHeader.left, hnone.1]
      rfl
    have hshows := read_schema (s := ofTables (t :: ts)) fun b hmem => by
      rw [blocks_ofTables] at hmem
      obtain ⟨u, hu, rfl⟩ := List.mem_map.1 hmem
      exact (ht u hu).rereadable
    rw [blocks_ofTables, ← hleft, ← hrest] at hshows
    have hparse := parse_headless_tables hs st hb hr hread
      ((withoutStray_of_shows hshows).symm ▸ hshows)
    rw [hfault, hnone.1, hnone.2] at hparse
    exact hparse
  · intro hl
    obtain ⟨hschema, hdiagnostics⟩ := parse_headless hs st hb hr hread
    refine ⟨hschema, ?_, fun hstray => ?_⟩
    · rw [hdiagnostics, parse_of_total hs st hr, List.map_cons, List.map_map, List.map_map]
      rfl
    · obtain ⟨o, ho, hall⟩ := read_strayLines hstray (s := behindTable ts) (by
        cases ts with
        | nil => exact .inl rfl
        | cons u us => exact .inr ⟨_, rfl⟩)
      have hbehind := read_behindTable fun u hu =>
        (ht u (List.mem_cons_of_mem t hu)).rereadable
      have hparse := @parse_headless_tables _ _ hs st _ _ _ hb hr hread ts (by
        rw [hrest, ho, withoutStray_append_of_stray hall, withoutStray_of_shows hbehind]
        exact hbehind)
      rw [hfault] at hparse
      exact hparse

/-- A table with one column. -/
def accounts : Table where
  id := "t"
  name := "users"
  columns := [{ id := "c", name := "id", type := "int" }]

/-- Another table, whose alias is not kept because it is empty. -/
def orders : Table where
  id := "u"
  name := "orders"
  aliasName := some ""

theorem parse_broken_accounts :
    IdSource.counting.Total ∧ (BrokenHeader.unopened ['n']).Plain ∧
      BrokenHeader.nameless.Plain ∧ (∀ u ∈ [accounts, orders], u.EmitSafe) ∧
      (∀ line ∈ splitAt '\n' (BrokenHeader.nameless.left accounts), StrayLine line) ∧
      parse .counting 1 (String.ofList ((BrokenHeader.unopened ['n']).text ++ ['\n']) ++
          schema (ofTables [accounts, orders])) =
        ⟨some { tables := [
            { id := "table_1", name := "users"
              columns := [{ id := "col_2", name := "id", type := "int" }] },
            { id := "table_3", name := "orders" }] },
          [.errorAt ⟨2, 1⟩ "Expected \"\x7b\" after table name"]⟩ ∧
      parse .counting 1 (String.ofList (BrokenHeader.nameless.text ++ ['\n']) ++
          schema (ofTables [accounts, orders])) =
        ⟨some { tables := [{ id := "table_1", name := "orders" }] },
          [.errorAt ⟨2, 7⟩ "Expected \"\x7b\" after table name"]⟩ := by
  have hunopened : (BrokenHeader.unopened ['n']).Plain := (rfl : isWord ['n'] = true)
  have hsafe : ∀ u ∈ [accounts, orders], u.EmitSafe := by decide +kernel
  have hstray : ∀ line ∈ splitAt '\n' (BrokenHeader.nameless.left accounts), StrayLine line := by
    decide +kernel
  have hkept := (parse_broken IdSource.counting_total 1 hunopened hsafe).1 trivial
  obtain ⟨-, -, hlost⟩ := (parse_broken (h := .nameless) IdSource.counting_total 1 trivial
    hsafe).2 id
  exact ⟨IdSource.counting_total, hunopened, trivial, hsafe, hstray,
    hkept.trans (by decide +kernel), (hlost hstray).trans (by decide +kernel)⟩

/-- The table behind a header that lacks its name is lost, whatever ids are drawn. -/
theorem not_parse_nameless :
    accounts.EmitSafe ∧
      ¬∃ ids d, parse .counting 1
          (String.ofList (BrokenHeader.nameless.text ++ ['\n']) ++ schema (ofTables [accounts])) =
        ⟨some (ofTables (handOut [accounts.kept] ids)), [d]⟩ := by
  have hlost : parse .counting 1
      (String.ofList (BrokenHeader.nameless.text ++ ['\n']) ++ schema (ofTables [accounts])) =
        ⟨some (ofTables []), [.errorAt ⟨2, 7⟩ "Expected \"\x7b\" after table name"]⟩ := by
    decide +kernel
  refine ⟨by decide +kernel, ?_⟩
  rintro ⟨ids, d, h⟩
  rw [hlost, handOut] at h
  simp [ofTables] at h

end Dbml
