import Dbml.Proofs.Reread.Statement

/-!
# Documents read back

The canonical text of a schema is its blocks one below the other, without white space at its ends.
Read back, every block gives one statement that shows it, in order, and nothing else is found.

Results:
* `toList_schema`: trimming takes away nothing but the empty line behind the last block;
* `read_schema`: the statements of a canonical text show the blocks of its schema.
-/
namespace Dbml.Canonical

open Text Outline

/-! ## Text -/

/-- The blocks of a schema, in the order of its canonical text. -/
def blocks (s : Schema) : List Block :=
  s.tables.map .table ++ s.relations.map .relation ++ s.groups.map .group

/-- The empty line behind a block, if one stands there. -/
def Block.gap : Block → List String
  | .table _ => [""]
  | .relation _ => []
  | .group _ => [""]

theorem parts_eq (s : Schema) : parts s = (blocks s).flatMap fun b => b.text :: b.gap := by
  simp only [parts, blocks, List.flatMap_append, List.flatMap_map, Block.text, Block.gap,
    List.append_assoc]
  congr 2
  induction s.relations with
  | nil => rfl
  | cons r rs ih => rw [List.map_cons, List.flatMap_cons, ih]; rfl

/-- The lines of blocks, each line with its newline. -/
def blockLines (bs : List Block) : List Char :=
  bs.flatMap fun b => (b.text :: b.gap).flatMap fun l => l.toList ++ ['\n']

theorem blockLines_cons (b : Block) (bs : List Block) :
    blockLines (b :: bs) =
      b.text.toList ++ '\n' :: (b.gap.flatMap (fun l => l.toList ++ ['\n']) ++ blockLines bs) := by
  simp [blockLines]

theorem toList_lines_blocks (bs : List Block) (b : Block) :
    ∃ t, (lines ((bs ++ [b]).flatMap fun b => b.text :: b.gap)).toList =
        blockLines bs ++ b.text.toList ++ t ∧ ∀ c ∈ t, isBlank c = true := by
  have hbs : (bs.flatMap fun b => b.text :: b.gap).flatMap (fun l => l.toList ++ ['\n']) =
      blockLines bs := by
    rw [blockLines, List.flatMap_assoc]
  rw [List.flatMap_append, List.flatMap_singleton]
  have hone : ∀ l : String, (lines ((bs.flatMap fun b => b.text :: b.gap) ++ [l])).toList =
      blockLines bs ++ l.toList := by
    intro l; rw [toList_lines_concat, hbs]
  have htwo : ∀ l : String, (lines ((bs.flatMap fun b => b.text :: b.gap) ++ [l, ""])).toList =
      blockLines bs ++ l.toList ++ ['\n'] := by
    intro l
    have := toList_lines_concat ((bs.flatMap fun b => b.text :: b.gap) ++ [l]) ""
    rw [List.append_assoc] at this
    rw [show [l, ""] = [l] ++ [""] from rfl, this, List.flatMap_append, hbs]
    simp
  have hnewline : ∀ c ∈ ['\n'], isBlank c = true := by
    intro c hc; rw [List.mem_singleton.1 hc]; decide
  cases b with
  | table t => exact ⟨['\n'], htwo _, hnewline⟩
  | relation r => exact ⟨[], by rw [List.append_nil]; exact hone _, by simp⟩
  | group g => exact ⟨['\n'], htwo _, hnewline⟩

theorem toList_relation_text (r : Relation) :
    (relation r).toList = 'R' :: 'e' :: 'f' :: ((optionalName " " r.name).toList ++
      ' ' :: '{' :: '\n' :: ' ' :: ' ' :: (relationLine r ++ ['\n'])) ++ ['}'] := by
  have := toList_relation r []
  rw [List.append_nil] at this
  rw [this, relationTail]
  simp

/-- A block's text starts with a letter and ends with its closing brace. -/
theorem Block.text_ends (b : Block) :
    (∃ c w, b.text.toList = c :: w ∧ isBlank c = false) ∧ ∃ w, b.text.toList = w ++ ['}'] := by
  cases b with
  | table t =>
    have hhead := toList_table_append t []
    have hend := toList_table t
    rw [List.append_nil] at hhead
    rw [← List.append_assoc] at hend
    exact ⟨⟨'T', _, hhead, by decide⟩, _, hend⟩
  | relation r =>
    exact ⟨⟨'R', _, toList_relation_text r, by decide⟩, _, toList_relation_text r⟩
  | group g =>
    have hhead := toList_tableGroup g []
    have hend := toList_lines_concat (["TableGroup " ++ identifier g.name ++ " \x7b"]
      ++ g.tables.map (fun id => indent ++ identifier id)) "\x7d"
    rw [List.append_nil] at hhead
    exact ⟨⟨'T', _, hhead, by decide⟩, _, hend⟩

theorem blockLines_head (bs : List Block) (b : Block) :
    ∃ c w, blockLines bs ++ b.text.toList = c :: w ∧ isBlank c = false := by
  cases bs with
  | nil => exact b.text_ends.1
  | cons k bs =>
    obtain ⟨c, w, hw, hc⟩ := k.text_ends.1
    exact ⟨c, _, by rw [blockLines_cons, hw]; rfl, hc⟩

/-- Trimming takes away what is blank behind a text whose ends are not. -/
theorem trim_append {s t : List Char} {c d : Char} {v w : List Char} (hs : s = c :: v)
    (hc : isBlank c = false) (hw : s = w ++ [d]) (hd : isBlank d = false)
    (ht : ∀ k ∈ t, isBlank k = true) : trim (s ++ t) = s := by
  have hfront : (s ++ t).dropWhile isBlank = s ++ t := by
    rw [hs, List.cons_append, List.dropWhile_cons, hc]; rfl
  have hback : (s ++ t).reverse.dropWhile isBlank = s.reverse := by
    rw [List.reverse_append, List.dropWhile_append_of_pos (by simpa using ht), hw,
      List.reverse_append, List.reverse_singleton, List.singleton_append, List.dropWhile_cons, hd]
    rfl
  rw [trim, trimOf, hfront, hback, List.reverse_reverse]

/-- Trimming takes away nothing but the empty line behind the last block. -/
theorem toList_schema {s : Schema} {bs : List Block} {b : Block} (h : blocks s = bs ++ [b]) :
    (schema s).toList = blockLines bs ++ b.text.toList := by
  obtain ⟨t, hlines, ht⟩ := toList_lines_blocks bs b
  obtain ⟨c, v, hv, hc⟩ := blockLines_head bs b
  obtain ⟨w, hw⟩ := b.text_ends.2
  rw [schema, String.toList_ofList, parts_eq, h, hlines]
  refine trim_append hv hc (w := blockLines bs ++ w) (d := '}') ?_ (by decide) ht
  rw [hw, List.append_assoc]

/-- A text of at least one block is not blank. -/
theorem schema_not_blank {s : Schema} (h : blocks s ≠ []) :
    (schema s).toList.all isBlank = false := by
  have hlast := List.dropLast_append_getLast h
  obtain ⟨c, w, hw, hc⟩ := blockLines_head (blocks s).dropLast ((blocks s).getLast h)
  rw [toList_schema hlast.symm, hw, List.all_cons, hc, Bool.false_and]

/-! ## Statements -/

/-- Only what stands behind its filler tells one text from another. -/
theorem read_congr {s t : List Char} (h : skipFiller s = skipFiller t) :
    Outline.read s = Outline.read t := by
  have hi : item? s = item? t := by unfold item?; rw [h]
  unfold Outline.read
  cases ht : item? t with
  | none => rw [many_of_none (hi.trans ht), many_of_none ht]
  | some p =>
    obtain ⟨i, r⟩ := p
    rw [many_of_some (hi.trans ht), many_of_some ht]

theorem read_newline (s : List Char) : Outline.read ('\n' :: s) = Outline.read s :=
  read_congr (skipFiller_newline s)

theorem read_of_item? {s r : List Char} {i : Item} (h : item? s = some (i, r)) :
    Outline.read s = i :: Outline.read r := by
  unfold Outline.read; rw [many_of_some h]

theorem read_nil : Outline.read [] = [] := by
  have h : item? [] = none := by
    unfold item?; rw [skipFiller_of_stopsAt (stopsAt_nil _)]
  unfold Outline.read; rw [many_of_none h]

/-- The empty line behind a block is overlooked. -/
theorem read_gap (b : Block) (s : List Char) :
    Outline.read ('\n' :: (b.gap.flatMap (fun l => l.toList ++ ['\n']) ++ s)) =
      Outline.read s := by
  rw [read_newline]
  cases b with
  | table t => exact read_newline s
  | relation r => rfl
  | group g => exact read_newline s

theorem read_blockLines {bs : List Block} {b : Block} (h : ∀ k ∈ bs, k.Rereadable)
    (hb : b.Rereadable) :
    List.Forall₂ Shows (Outline.read (blockLines bs ++ b.text.toList)) (bs ++ [b]) := by
  induction bs with
  | nil =>
    obtain ⟨i, hi, hs⟩ := item?_block hb []
    rw [List.append_nil] at hi
    rw [blockLines, List.flatMap_nil, List.nil_append, read_of_item? hi, read_nil]
    exact .cons hs .nil
  | cons k bs ih =>
    have hrest := ih fun m hm => h m (List.mem_cons_of_mem _ hm)
    obtain ⟨i, hi, hs⟩ := item?_block (h k List.mem_cons_self)
      ('\n' :: (k.gap.flatMap (fun l => l.toList ++ ['\n']) ++ (blockLines bs ++ b.text.toList)))
    have hsplit : blockLines (k :: bs) ++ b.text.toList = k.text.toList ++
        '\n' :: (k.gap.flatMap (fun l => l.toList ++ ['\n']) ++
          (blockLines bs ++ b.text.toList)) := by
      rw [blockLines_cons]; simp
    rw [hsplit, read_of_item? hi, read_gap]
    exact .cons hs hrest

/-- The statements of a canonical text show the blocks of its schema, one by one. -/
theorem read_schema {s : Schema} (h : ∀ b ∈ blocks s, b.Rereadable) :
    List.Forall₂ Shows (Outline.read (schema s).toList) (blocks s) := by
  by_cases he : blocks s = []
  · have ht : (schema s).toList = [] := by
      rw [schema, String.toList_ofList, parts_eq, he]; rfl
    rw [ht, he, read_nil]
    exact .nil
  · have hlast := List.dropLast_append_getLast he
    have hmem : ∀ k ∈ (blocks s).dropLast, k.Rereadable := fun k hk =>
      h k (List.dropLast_subset _ hk)
    rw [toList_schema hlast.symm]
    conv => rhs; rw [← hlast]
    exact read_blockLines hmem (h _ (List.getLast_mem he))

end Dbml.Canonical
