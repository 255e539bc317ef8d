import Dbml.Text.Alphanumeric
import Dbml.Text.Quoted

/-!
# Words, keywords and identifiers

A bare word is an ASCII letter or underscore followed by ASCII letters, digits and underscores.
An identifier is a bare word or a token in double quotes or backticks. A keyword is recognised in
any letter case where no further letter, number or underscore of any script follows it.

Results:
* `readWord_suffix`, `readIdentifier_suffix`, `keyword?_suffix`: what is left is a suffix;
* `readWord_shorter`, `keyword?_shorter`: a word or keyword that was read makes the text shorter.
-/
namespace Dbml.Text

/-- The first character of a bare word (`BARE_WORD`). -/
def isWordStart (c : Char) : Bool := c.isAlpha || c == '_'

/-- A further character of a bare word (`BARE_WORD`). -/
def isWordChar (c : Char) : Bool := c.isAlphanum || c == '_'

/-- The bare word at the front, empty where none stands, and the text after it (`_parse_bare_word`,
`_lookahead_word`). -/
def readWord : List Char → List Char × List Char
  | [] => ([], [])
  | c :: r =>
    if isWordStart c then (c :: r.takeWhile isWordChar, r.dropWhile isWordChar) else ([], c :: r)

theorem readWord_suffix (s : List Char) : (readWord s).2 <:+ s := by
  unfold readWord; split
  · exact List.suffix_rfl
  · split
    · exact (List.dropWhile_suffix _).trans (List.suffix_cons _ _)
    · exact List.suffix_rfl

theorem readWord_shorter {s : List Char} (h : (readWord s).1 ≠ []) : Shorter (readWord s).2 s := by
  unfold readWord at h ⊢; split
  · simp at h
  · split
    · exact .of_suffix_cons _ (List.dropWhile_suffix _)
    · simp_all

theorem readWord_of_empty {s : List Char} (h : (readWord s).1 = []) : (readWord s).2 = s := by
  unfold readWord at h ⊢; split
  · rfl
  · split <;> simp_all

/-- A word in small letters. -/
def lower (w : List Char) : String := String.ofList (w.map Char.toLower)

/-- The identifier at the front, empty where none stands, and the text after it
(`_parse_identifier`). -/
def readIdentifier (s : List Char) : List Char × List Char :=
  match s with
  | [] => ([], [])
  | c :: _ => if c == '"' || c == '\x60' then readQuoted s else readWord s

theorem readIdentifier_suffix (s : List Char) : (readIdentifier s).2 <:+ s := by
  unfold readIdentifier; split
  · exact List.suffix_rfl
  · split
    · exact readQuoted_suffix _
    · exact readWord_suffix _

/-! ## Keywords -/

/-- The text after `k`, where the text starts with `k` up to the case of ASCII letters. -/
def dropFolded? : List Char → List Char → Option (List Char)
  | [], s => some s
  | _ :: _, [] => none
  | k :: ks, c :: s => if c.toLower == k.toLower then dropFolded? ks s else none

theorem dropFolded?_suffix {k s r : List Char} (h : dropFolded? k s = some r) : r <:+ s := by
  induction k generalizing s with
  | nil => obtain rfl := Option.some.inj h; exact List.suffix_rfl
  | cons c k ih =>
    cases s with
    | nil => simp [dropFolded?] at h
    | cons d s =>
      simp only [dropFolded?] at h; split at h
      · exact (ih h).trans (List.suffix_cons d s)
      · simp at h

/-- Whether a word is over: the next character is no letter, number or underscore (the end of
`_keyword_pattern`). -/
def wordEnds : List Char → Bool
  | [] => true
  | c :: _ => !(isAlphanumeric c || c == '_')

/-- The text after the keyword `k`, where it stands at the front as a whole word, in any letter case
(`_match_keyword`). -/
def keyword? (k : String) (s : List Char) : Option (List Char) :=
  (dropFolded? k.toList s).filter wordEnds

theorem keyword?_suffix {k : String} {s r : List Char} (h : keyword? k s = some r) : r <:+ s :=
  dropFolded?_suffix (Option.filter_eq_some_iff.1 h).1

theorem dropFolded?_shorter {c : Char} {k s r : List Char} (h : dropFolded? (c :: k) s = some r) :
    Shorter r s := by
  cases s with
  | nil => simp [dropFolded?] at h
  | cons d s =>
    simp only [dropFolded?] at h; split at h
    · exact .of_suffix_cons d (dropFolded?_suffix h)
    · simp at h

theorem keyword?_shorter {k : String} {s r : List Char} (hk : k.toList ≠ [])
    (h : keyword? k s = some r) : Shorter r s := by
  obtain ⟨c, cs, e⟩ := List.exists_cons_of_ne_nil hk
  rw [keyword?, e] at h
  exact dropFolded?_shorter (Option.filter_eq_some_iff.1 h).1

/-- The text after the word `as`, which introduces an alias and is written in small letters
(`ALIAS_KEYWORD`). -/
def aliasWord? : List Char → Option (List Char)
  | 'a' :: 's' :: r => if wordEnds r then some r else none
  | _ => none

theorem aliasWord?_suffix {s r : List Char} (h : aliasWord? s = some r) : r <:+ s := by
  unfold aliasWord? at h; split at h
  · split at h
    · obtain rfl := Option.some.inj h
      exact (List.suffix_cons _ _).trans (List.suffix_cons _ _)
    · simp at h
  · simp at h

end Dbml.Text
