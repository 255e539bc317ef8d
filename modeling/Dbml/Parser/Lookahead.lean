import Dbml.Parser.Scan
import Dbml.Text.Word

/-!
# Looking ahead

Some decisions of the parser rest on text that is not passed yet: a mark that stands somewhere
ahead, a word, a quote that closes later. Each of them goes through the text by index from the place
where the parser stands, and leaves that place as it is.

Results: for each of them, what it finds in terms of the text that is still to be read.
-/
namespace Dbml

open Text

/-! ## From an index on -/

namespace Lookahead

variable (text : Array Char)

/-- What stands in a text from an index on. -/
def onwards (i : Nat) : List Char := text.toList.drop i

theorem lt_of_getElem? {i : Nat} {c : Char} (h : text[i]? = some c) : i < text.size :=
  (Array.getElem?_eq_some_iff.1 h).1

theorem onwards_of_some {i : Nat} {c : Char} (h : text[i]? = some c) :
    onwards text i = c :: onwards text (i + 1) := by
  rw [← Array.getElem?_toList] at h
  obtain ⟨hlt, hget⟩ := List.getElem?_eq_some_iff.1 h
  rw [onwards, List.drop_eq_getElem_cons hlt, hget, onwards]

theorem onwards_of_none {i : Nat} (h : text[i]? = none) : onwards text i = [] := by
  rw [onwards, List.drop_eq_nil_iff, Array.length_toList]
  exact Array.getElem?_eq_none_iff.1 h

/-- Whether some characters stand at an index. -/
def startsAt : List Char → Nat → Bool
  | [], _ => true
  | k :: ks, i => text[i]? == some k && startsAt ks (i + 1)

/-- The first index from one on whose character is not of a class. -/
def indexWhile (p : Char → Bool) (i : Nat) : Nat :=
  match _h : text[i]? with
  | some c => if p c then indexWhile p (i + 1) else i
  | none => i
termination_by text.size - i
decreasing_by have := lt_of_getElem? text _h; omega

/-- The first index from one on where a mark stands; the end of the text if it stands nowhere. -/
def find (mark : List Char) (i : Nat) : Nat :=
  if _h : i < text.size then if startsAt text mark i then i else find mark (i + 1) else text.size
termination_by text.size - i

/-- Whether a word is over at an index (`\b`). -/
def boundaryAt (i : Nat) : Bool :=
  match text[i]? with
  | some c => !(isAlphanumeric c || c == '_')
  | none => true

/-- Whether some characters stand at an index, in any letter case. -/
def foldedAt : List Char → Nat → Bool
  | [], _ => true
  | k :: ks, i => text[i]?.any (·.toLower == k.toLower) && foldedAt ks (i + 1)

/-- The bare word at an index, empty where none stands (`BARE_WORD`). -/
def wordAt (i : Nat) : List Char :=
  if text[i]?.any isWordStart then (text.extract i (indexWhile text isWordChar (i + 1))).toList
  else []

/-- Whether the next single quote from an index on that no backslash escapes is followed by the end
of a value (`_value_closes_later`). -/
def closesFrom (i : Nat) : Bool :=
  match _h : text[i]? with
  | none => false
  | some c =>
    if c == '\\' then closesFrom (i + 2)
    else if c == '\'' then
      text[indexWhile text isInlineSpace (i + 1)]?.all fun c => c == ',' || c == ']' || c == '\n'
    else closesFrom (i + 1)
termination_by text.size - i
decreasing_by all_goals have := lt_of_getElem? text _h; omega

theorem getElem?_eq_head? (i : Nat) : text[i]? = (onwards text i).head? := by
  cases h : text[i]? with
  | none => rw [onwards_of_none text h, List.head?_nil]
  | some c => rw [onwards_of_some text h, List.head?_cons]

theorem drop_onwards (i n : Nat) : (onwards text i).drop n = onwards text (i + n) :=
  List.drop_drop

/-- What holds at the end of a text, and at an index if it holds at all later ones, holds. -/
theorem onwards_induction {motive : Nat → Prop} (none : ∀ i, text[i]? = none → motive i)
    (some : ∀ i c, text[i]? = some c → (∀ j, i < j → motive j) → motive i) (i : Nat) :
    motive i := by
  induction hn : text.size - i using Nat.strongRecOn generalizing i with
  | _ n ih =>
    cases h : text[i]? with
    | none => exact none i h
    | some c =>
      have hlt := lt_of_getElem? text h
      exact some i c h fun j hj => ih _ (by omega) j rfl

theorem startsAt_eq (ks : List Char) (i : Nat) :
    startsAt text ks i = ks.isPrefixOf (onwards text i) := by
  induction ks generalizing i with
  | nil => simp [startsAt]
  | cons k ks ih =>
    rw [startsAt, ih]
    cases h : text[i]? with
    | none => simp [onwards_of_none text h]
    | some c => simp [onwards_of_some text h, List.isPrefixOf, Bool.beq_comm]

theorem onwards_indexWhile (p : Char → Bool) (i : Nat) :
    onwards text (indexWhile text p i) = (onwards text i).dropWhile p := by
  induction i using onwards_induction text with
  | none i h =>
    have hend : indexWhile text p i = i := by rw [indexWhile]; split <;> simp_all
    rw [hend, onwards_of_none text h, List.dropWhile_nil]
  | some i c h ih =>
    have hstep : indexWhile text p i = if p c then indexWhile text p (i + 1) else i := by
      rw [indexWhile]; split <;> simp_all
    rw [hstep, onwards_of_some text h, List.dropWhile_cons]
    split
    · exact ih (i + 1) (Nat.lt_succ_self i)
    · exact onwards_of_some text h

theorem indexWhile_eq (p : Char → Bool) (i : Nat) :
    indexWhile text p i = i + ((onwards text i).takeWhile p).length := by
  induction i using onwards_induction text with
  | none i h =>
    have hend : indexWhile text p i = i := by rw [indexWhile]; split <;> simp_all
    rw [hend, onwards_of_none text h, List.takeWhile_nil, List.length_nil, Nat.add_zero]
  | some i c h ih =>
    have hstep : indexWhile text p i = if p c then indexWhile text p (i + 1) else i := by
      rw [indexWhile]; split <;> simp_all
    rw [hstep, onwards_of_some text h, List.takeWhile_cons]
    split
    · rw [ih (i + 1) (Nat.lt_succ_self i), List.length_cons]; omega
    · rfl

theorem find_eq (mark : List Char) {i : Nat} (hi : i ≤ text.size) :
    find text mark i = i + (breakAt mark (onwards text i)).1.length := by
  induction i using onwards_induction text with
  | none i h =>
    have hsize : text.size = i := by have := Array.getElem?_eq_none_iff.1 h; omega
    rw [find, dif_neg (by omega), onwards_of_none text h, breakAt, List.length_nil, hsize,
      Nat.add_zero]
  | some i c h ih =>
    have hlt := lt_of_getElem? text h
    rw [find, dif_pos hlt, startsAt_eq, onwards_of_some text h, breakAt]
    split
    · rfl
    · rw [ih (i + 1) (Nat.lt_succ_self i) hlt]
      simp only [Prod.map_fst, List.length_cons]
      omega

theorem boundaryAt_eq (i : Nat) : boundaryAt text i = wordEnds (onwards text i) := by
  cases h : text[i]? with
  | none => rw [boundaryAt, onwards_of_none text h, h]; rfl
  | some c => rw [boundaryAt, onwards_of_some text h, h]; rfl

theorem dropFolded?_onwards (ks : List Char) (i : Nat) :
    dropFolded? ks (onwards text i) =
      if foldedAt text ks i then some (onwards text (i + ks.length)) else none := by
  induction ks generalizing i with
  | nil => rfl
  | cons k ks ih =>
    cases h : text[i]? with
    | none => simp [onwards_of_none text h, dropFolded?, foldedAt, h]
    | some c =>
      rw [onwards_of_some text h, dropFolded?, ih, foldedAt, h, Option.any_some, List.length_cons]
      by_cases hc : c.toLower == k.toLower
      · simp [hc, Nat.add_comm, Nat.add_left_comm]
      · simp [hc]

theorem wordAt_eq (i : Nat) : wordAt text i = (readWord (onwards text i)).1 := by
  cases h : text[i]? with
  | none => rw [wordAt, h, onwards_of_none text h]; rfl
  | some c =>
    rw [wordAt, h, onwards_of_some text h, readWord, Option.any_some]
    split
    · have hpart : (text.extract i (indexWhile text isWordChar (i + 1))).toList =
          (onwards text i).take (indexWhile text isWordChar (i + 1) - i) := by
        rw [Array.toList_extract, List.extract_eq_take_drop, onwards]
      have hcount : indexWhile text isWordChar (i + 1) - i =
          ((onwards text (i + 1)).takeWhile isWordChar).length + 1 := by
        rw [indexWhile_eq]; omega
      rw [hpart, onwards_of_some text h, hcount, List.take_succ_cons,
        ← List.prefix_iff_eq_take.1 (List.takeWhile_prefix _)]
    · rfl

theorem closesFrom_eq (i : Nat) : closesFrom text i = closesLater (onwards text i) := by
  induction i using onwards_induction text with
  | none i h =>
    have hend : closesFrom text i = false := by rw [closesFrom]; split <;> simp_all
    rw [hend, onwards_of_none text h]; rfl
  | some i c h ih =>
    have hstep : closesFrom text i = if c == '\\' then closesFrom text (i + 2)
        else if c == '\'' then
          text[indexWhile text isInlineSpace (i + 1)]?.all fun c => c == ',' || c == ']' || c == '\n'
        else closesFrom text (i + 1) := by
      rw [closesFrom]; split <;> simp_all
    rw [hstep, onwards_of_some text h]
    by_cases hb : c = '\\'
    · subst hb
      rw [if_pos (by decide), ih (i + 2) (by omega), closesLater_backslash, ← List.drop_one,
        drop_onwards]
    · rw [if_neg (by simpa using hb)]
      by_cases hq : c = '\''
      · subst hq
        rw [if_pos (by decide), getElem?_eq_head?, onwards_indexWhile]
        show _ = valueEnds (skipInline (onwards text (i + 1)))
        rw [skipInline]
        cases (onwards text (i + 1)).dropWhile isInlineSpace <;> rfl
      · rw [if_neg (by simpa using hq), ih (i + 1) (by omega), closesLater_cons hb hq]

end Lookahead

/-! ## From where a parser stands -/

namespace Scan

open Lookahead

theorem onwards_now (s : Scanner) : onwards s.text s.now.pos = s.rest := rfl

/-- Whether some characters come next (`startswith`). -/
def startsWith (mark : List Char) : Scan Bool := look fun s => startsAt s.text mark s.now.pos

/-- Whether a keyword comes next, in any letter case (`_match_keyword`). -/
def matchKeyword (keyword : String) : Scan Bool := look fun s =>
  foldedAt s.text keyword.toList s.now.pos && boundaryAt s.text (s.now.pos + keyword.toList.length)

/-- Whether one of some keywords comes next, in any letter case. -/
def matchAnyKeyword (keywords : List String) : Scan Bool := look fun s =>
  keywords.any fun keyword => ((matchKeyword keyword).run s).1

/-- Whether the word that introduces an alias comes next (`ALIAS_KEYWORD`). -/
def matchAlias : Scan Bool := look fun s =>
  startsAt s.text ['a', 's'] s.now.pos && boundaryAt s.text (s.now.pos + 2)

/-- The bare word that comes next (`_lookahead_word`). -/
def lookaheadWord : Scan (List Char) := look fun s => wordAt s.text s.now.pos

/-- The character behind so many characters and the blanks behind them (`_peek_past_word`). -/
def peekPast (count : Nat) : Scan (Option Char) := look fun s =>
  s.text[indexWhile s.text isInlineSpace (s.now.pos + count)]?

/-- Whether the quote that is open here closes on a later line (`_value_closes_later`). -/
def valueClosesLater : Scan Bool := look fun s => closesFrom s.text s.now.pos

/-- Passes the text up to a mark and the mark, and gives that text. A mark that never comes stands
for the end of the text. -/
def throughMark (mark : List Char) : Scan (List Char) := do
  let count ← look fun s => find s.text mark s.now.pos - s.now.pos
  let value ← passed (advance count)
  advance mark.length
  return value

@[simp] theorem reads_startsWith (mark : List Char) (s : Scanner) :
    (startsWith mark).reads s = (mark.isPrefixOf s.rest, s.rest) := by
  rw [startsWith, reads_look, startsAt_eq, onwards_now]

@[simp] theorem reads_matchKeyword (keyword : String) (s : Scanner) :
    (matchKeyword keyword).reads s = ((keyword? keyword s.rest).isSome, s.rest) := by
  have hfolded := dropFolded?_onwards s.text keyword.toList s.now.pos
  rw [matchKeyword, reads_look, boundaryAt_eq, keyword?, ← onwards_now, hfolded]
  cases foldedAt s.text keyword.toList s.now.pos with
  | false => rfl
  | true =>
    rw [Bool.true_and, if_pos rfl, Option.filter_some]
    cases wordEnds (onwards s.text (s.now.pos + keyword.toList.length)) <;> rfl

@[simp] theorem reads_matchAnyKeyword (keywords : List String) (s : Scanner) :
    (matchAnyKeyword keywords).reads s =
      (keywords.any fun keyword => (keyword? keyword s.rest).isSome, s.rest) := by
  simp [matchAnyKeyword]

theorem isPrefixOf_eq_false {mark t : List Char} (h : ∀ r, t ≠ mark ++ r) :
    mark.isPrefixOf t = false := by
  rw [Bool.eq_false_iff]
  intro hp
  obtain ⟨r, hr⟩ := List.isPrefixOf_iff_prefix.1 hp
  exact h r hr.symm

@[simp] theorem reads_matchAlias (s : Scanner) :
    matchAlias.reads s = ((aliasWord? s.rest).isSome, s.rest) := by
  rw [matchAlias, reads_look, startsAt_eq, boundaryAt_eq, ← drop_onwards, onwards_now]
  congr 1
  generalize s.rest = t
  unfold aliasWord?
  split
  · rename_i r
    cases hr : wordEnds r <;> simp [hr]
  · rename_i hne
    rw [isPrefixOf_eq_false fun r e => hne r e]
    rfl

@[simp] theorem reads_lookaheadWord (s : Scanner) :
    lookaheadWord.reads s = ((readWord s.rest).1, s.rest) := by
  rw [lookaheadWord, reads_look, wordAt_eq, onwards_now]

@[simp] theorem reads_peekPast (count : Nat) (s : Scanner) :
    (peekPast count).reads s = ((skipInline (s.rest.drop count)).head?, s.rest) := by
  rw [peekPast, reads_look, getElem?_eq_head?, onwards_indexWhile, ← drop_onwards, onwards_now,
    skipInline]

@[simp] theorem reads_valueClosesLater (s : Scanner) :
    valueClosesLater.reads s = (closesLater s.rest, s.rest) := by
  rw [valueClosesLater, reads_look, closesFrom_eq, onwards_now]

theorem breakAt_eq (mark t : List Char) :
    breakAt mark t = (t.take (breakAt mark t).1.length,
      t.drop ((breakAt mark t).1.length + mark.length)) := by
  induction t with
  | nil => simp [breakAt]
  | cons c t ih =>
    rw [breakAt]
    split
    · simp
    · obtain ⟨htake, hdrop⟩ := Prod.mk.inj ih
      refine Prod.ext ?_ ?_
      · simpa using htake
      · simpa [Nat.add_right_comm] using hdrop

@[simp] theorem reads_throughMark (mark : List Char) (s : Scanner) :
    (throughMark mark).reads s = breakAt mark s.rest := by
  have hcount : find s.text mark s.now.pos - s.now.pos = (breakAt mark s.rest).1.length := by
    by_cases hpos : s.now.pos ≤ s.text.size
    · rw [find_eq _ _ hpos, onwards_now, Nat.add_sub_cancel_left]
    · have hrest : s.rest = [] := by
        rw [Scanner.rest, List.drop_eq_nil_iff, Array.length_toList]; omega
      rw [find, dif_neg (by omega), hrest, breakAt, List.length_nil]
      omega
  have hle : (breakAt mark s.rest).1.length ≤ s.rest.length := by
    have := congrArg (fun p => p.1.length) (breakAt_eq mark s.rest)
    simp only [List.length_take] at this
    omega
  rw [breakAt_eq]
  simp only [throughMark, reads_bind, reads_look, reads_passed, reads_advance, reads_pure, rest_run,
    hcount, List.length_drop, List.drop_drop]
  rw [Nat.sub_sub_self hle]

end Scan

end Dbml
