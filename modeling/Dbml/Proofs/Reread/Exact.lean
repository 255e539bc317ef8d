import Dbml.Proofs.PlainType
import Dbml.Proofs.Spelling
import Dbml.Text.Value

/-!
# What exactly is read back

The canonical form writes names as identifiers, values as literals and types as they are. A text of
each of the three is read back if it meets a condition, and that condition is shown to be exact
here: a name, a value or a type that does not meet it is not read back.

Results:
* `readIdentifier_identifier_iff`: names are read back just if they have no backtick and no newline;
* `readQuoted_literal_iff`: the places where a value is read back from its literal;
* `readQuoted_escape`: where a value may end, every value is read back and nothing else of the text;
* `readType_iff`: the types that are read back in front of settings and at the end of a line.
-/
namespace Dbml

open Text

/-! ## Names -/

namespace Text

theorem quotedChar?_ne_backtick {s r : List Char} {c : Char}
    (h : quotedChar? '\x60' s = some (c, r)) : c ≠ '\x60' := by
  unfold quotedChar? at h
  split at h
  · simp at h
  · split at h
    · simp at h
    · rename_i d t hd
      obtain ⟨rfl, -⟩ : d = c ∧ t = r := by simpa using h
      rintro rfl
      simp at hd

/-- Only in double quotes an identifier holds a backtick. -/
theorem readIdentifier_no_backtick {s : List Char} (h : s.head? ≠ some '"') :
    '\x60' ∉ (readIdentifier s).1 := by
  unfold readIdentifier
  split
  · exact List.not_mem_nil
  · rename_i c r
    split
    · rename_i hc
      obtain rfl : c = '\x60' := by
        have hquote : c ≠ '"' := by simpa using h
        simpa [hquote] using hc
      rw [readQuoted_of_ne (by decide)]
      exact fun hm => many_forall (fun _ _ _ h => quotedChar?_ne_backtick h) r _ hm rfl
    · exact not_mem_of_isWordChar (by decide) (readWord_all _)

end Text

namespace Canonical

theorem head?_identifier (name : String) (s : List Char) :
    ((identifier name).toList ++ s).head? ≠ some '"' := by
  unfold identifier
  split
  · rename_i h
    cases e : name.toList with
    | nil => simp [e, isBareName] at h
    | cons c r =>
      simp only [e, isBareName, Bool.and_eq_true] at h
      rintro hc
      obtain rfl : c = '"' := by simpa using hc
      exact absurd h.1 (by decide)
  · simp

/-- A word with a newline behind it is written bare. -/
theorem identifier_word_newline {w : String} (h : isWord w.toList = true) :
    identifier (w ++ "\n") = w ++ "\n" := by
  refine if_pos ?_
  cases e : w.toList with
  | nil => simp [e, isWord] at h
  | cons c r =>
    simp only [e, isWord, Bool.and_eq_true, List.all_eq_true] at h
    obtain ⟨-, hdrop⟩ := span_append h.2 (s := ['\n']) (stopsAt_cons.2 (by decide))
    simp [e, isBareName, h.1, hdrop, isOver]

/-- A name is read back from its identifier, with a text behind it that does not go on with a word,
just if it holds no backtick and no newline. Of a word with a newline behind it, which is written
without quotes, the word alone is read. -/
theorem readIdentifier_identifier_iff {s : List Char} (hs : StopsAt isWordChar s) :
    (∀ name : String, readIdentifier ((identifier name).toList ++ s) = (name.toList, s) ↔
      '\x60' ∉ name.toList ∧ '\n' ∉ name.toList) ∧
    ∀ w : String, isWord w.toList = true → identifier (w ++ "\n") = w ++ "\n" ∧
      readIdentifier ((identifier (w ++ "\n")).toList ++ s) = (w.toList, '\n' :: s) := by
  refine ⟨fun name => ⟨fun h => ?_, fun h => readIdentifier_identifier h.1 h.2 hs⟩, fun w hw => ?_⟩
  · have hread : (readIdentifier ((identifier name).toList ++ s)).1 = name.toList :=
      congrArg Prod.fst h
    rw [← hread]
    exact ⟨readIdentifier_no_backtick (head?_identifier name s), readIdentifier_no_newline _⟩
  · have hbare := identifier_word_newline hw
    refine ⟨hbare, ?_⟩
    rw [hbare, String.toList_append, List.append_assoc]
    exact readIdentifier_word hw (stopsAt_cons.2 (by decide))

/-- A name in backticks in front of a brace, and a word that loses its newline. -/
theorem readIdentifier_identifier_iff_header :
    StopsAt isWordChar " \x7b".toList ∧
      readIdentifier ((identifier "Order \"Items\"").toList ++ " \x7b".toList) =
        ("Order \"Items\"".toList, " \x7b".toList) ∧
      readIdentifier ((identifier "a\x60b").toList ++ " \x7b".toList) ≠
        ("a\x60b".toList, " \x7b".toList) ∧
      isWord "id".toList = true ∧
      readIdentifier ((identifier ("id" ++ "\n")).toList ++ " \x7b".toList) =
        ("id".toList, "\n \x7b".toList) := by
  have hs : StopsAt isWordChar " \x7b".toList := stopsAt_space _
  obtain ⟨hnames, hwords⟩ := readIdentifier_identifier_iff hs
  exact ⟨hs, (hnames "Order \"Items\"").2 (by decide), fun h => absurd ((hnames _).1 h) (by decide),
    by decide, (hwords "id" (by decide)).2⟩

/-! ## Literals -/

/-- Where no value ends behind its literal, a value is read up to its first newline. -/
theorem quotedChars_escape_no_newline (v : List Char) {s : List Char}
    (hs : valueEnds (skipInline s) = false) :
    '\n' ∉ (quotedChars '\'' (v.flatMap escapeChar ++ '\'' :: s)).1 := by
  induction v with
  | nil => rw [List.flatMap_nil, List.nil_append, quotedChars_quote]; exact List.not_mem_nil
  | cons c v ih =>
    rw [List.flatMap_cons, List.append_assoc]
    by_cases hc : c = '\n'
    · subst hc
      have hstop : quotedChar? '\'' ('\n' :: (v.flatMap escapeChar ++ '\'' :: s)) = none := by
        simp [quotedChar?, closesLater_escape, hs]
      rw [show escapeChar '\n' = ['\n'] from rfl, List.singleton_append, quotedChars_of_none hstop]
      exact List.not_mem_nil
    · rw [quotedChars_of_some (quotedChar?_escapeChar c v fun h => absurd h hc)]
      exact List.not_mem_cons_of_ne_of_not_mem (Ne.symm hc) ih

/-- A value is read back from its literal just if no third quote comes of an empty value, and, where
the value goes over several lines, what follows the literal ends a value. -/
theorem readQuoted_literal_iff (v : String) (s : List Char) :
    readQuoted ((literal v).toList ++ s) = (v.toList, s) ↔
      (v = "" → s.head? ≠ some '\'') ∧ ('\n' ∈ v.toList → valueEnds (skipInline s) = true) := by
  constructor
  · intro h
    have hempty : v = "" → s.head? ≠ some '\'' := by
      rintro rfl hhead
      obtain ⟨r, rfl⟩ := List.head?_eq_some_iff.1 hhead
      -- Three quotes open a text of which one character less is left.
      have hrest : (breakAt ['\'', '\'', '\''] r).2 = '\'' :: r := congrArg Prod.snd h
      have hle := (breakAt_suffix ['\'', '\'', '\''] r).length_le
      rw [hrest, List.length_cons] at hle
      omega
    refine ⟨hempty, fun hn => ?_⟩
    by_contra hends
    rw [readQuoted_literal_eq hempty] at h
    have hread := quotedChars_escape_no_newline v.toList (Bool.not_eq_true _ ▸ hends)
    rw [show (quotedChars '\'' _).1 = v.toList from congrArg Prod.fst h] at hread
    exact hread hn
  · rintro ⟨hempty, hends⟩
    rw [readQuoted_literal_eq hempty, quotedChars_escape hends]
    simp [dropChar]

/-- A text splits in one way only into a literal and what follows it, where a value may end. -/
theorem literal_append_inj {v w : String} {s t : List Char} (hs : valueEnds (skipInline s) = true)
    (ht : valueEnds (skipInline t) = true)
    (h : (literal v).toList ++ s = (literal w).toList ++ t) : v = w ∧ s = t := by
  have hv := readQuoted_literal v hs
  rw [h, readQuoted_literal w ht] at hv
  obtain ⟨hvalue, hrest⟩ := Prod.mk.inj hv
  exact ⟨String.toList_injective hvalue.symm, hrest.symm⟩

/-- Where a value may end, no value ends its literal early or takes of the text behind it: the
literal is read as a quoted token, and as the value of a setting or a note, and gives the value and
that text. So the escaped text tells the value, and a text splits in one way only into a literal
and what follows it. -/
theorem readQuoted_escape :
    (∀ (v : String) (s : List Char), valueEnds (skipInline s) = true →
      readQuoted ('\'' :: ((escape v).toList ++ '\'' :: s)) = (v.toList, s) ∧
        readValue ('\'' :: ((escape v).toList ++ '\'' :: s)) = (v.toList, s)) ∧
      Function.Injective escape ∧
      ∀ (v w : String) (s t : List Char), valueEnds (skipInline s) = true →
        valueEnds (skipInline t) = true →
        (literal v).toList ++ s = (literal w).toList ++ t → v = w ∧ s = t := by
  refine ⟨?_, ?_, fun v w s t hs ht h => literal_append_inj hs ht h⟩
  · intro v s hs
    have hliteral : (literal v).toList ++ s = '\'' :: ((escape v).toList ++ '\'' :: s) := by
      simp [literal]
    have hread := readQuoted_literal v hs
    rw [hliteral] at hread
    refine ⟨hread, ?_⟩
    rw [readValue, if_pos (by decide)]
    exact hread
  · intro v w h
    have hliteral : literal v = literal w := by rw [literal, literal, h]
    have hnil : valueEnds (skipInline []) = true := rfl
    exact (literal_append_inj hnil hnil (by rw [hliteral])).1

/-- A value with all that could end it, in front of another setting. -/
theorem readQuoted_escape_sundry :
    valueEnds (skipInline " , pk]".toList) = true ∧
      readQuoted ('\'' :: ((escape "it's\n'] \\\x7d // \\").toList ++ '\'' :: " , pk]".toList)) =
        ("it's\n'] \\\x7d // \\".toList, " , pk]".toList) := by
  have hs : valueEnds (skipInline " , pk]".toList) = true := by decide
  exact ⟨hs, (readQuoted_escape.1 _ _ hs).1⟩

end Canonical

/-! ## Types -/

namespace Text

theorem dropChar_of_lineOver {q : Char} (hq : q ≠ '\n') {s : List Char} (h : LineOver s) :
    dropChar q s = s := by
  cases s with
  | nil => rfl
  | cons c s =>
    obtain rfl : c = '\n' := by simpa using stopsAt_cons.1 h
    rw [dropChar, if_neg (by simpa using Ne.symm hq)]

theorem LineOver.skipInline_eq {s : List Char} (h : LineOver s) : skipInline s = s := by
  refine skipInline_of_stopsAt fun c hc => ?_
  obtain rfl : c = '\n' := by simpa using h c hc
  rfl

/-- A token in double quotes or backticks is shorter than its text by both quotes, or by the opening
one where the line ends before the closing one. -/
theorem readQuoted_taken {q : Char} (hq : q ≠ '\'') (hn : q ≠ '\n') (s : List Char) :
    (readQuoted (q :: s)).1.length + (readQuoted (q :: s)).2.length < s.length ∨
      (readQuoted (q :: s)).1.length + (readQuoted (q :: s)).2.length ≤ s.length ∧
        LineOver (readQuoted (q :: s)).2 := by
  obtain ⟨w, hs, -, hle, hend⟩ := quotedChars_taken hq s
  have hlength := congrArg List.length hs
  rw [List.length_append] at hlength
  rw [readQuoted_of_ne hq, Prod.map_fst, Prod.map_snd, id]
  rcases hend with hclosed | hover
  · obtain ⟨t, ht⟩ := List.head?_eq_some_iff.1 hclosed
    rw [ht, List.length_cons] at hlength
    rw [ht, dropChar, if_pos (beq_self_eq_true q)]
    exact .inl (by omega)
  · rw [dropChar_of_lineOver hn hover]
    exact .inr ⟨by omega, hover⟩

end Text

namespace Outline

/-- Where a type starts with a double quote, a quoted token is read. That is shorter than its text,
so if it were the type, some of the text behind the type would be read as well. -/
theorem length_of_quotedType {type s t : List Char} (hq : type.head? = some '"')
    (h : readType (type ++ s) = (type, t)) :
    t.length + 1 < s.length ∨ t.length < s.length ∧ LineOver t := by
  obtain ⟨u, rfl⟩ := List.head?_eq_some_iff.1 hq
  have hread : readQuoted ('"' :: (u ++ s)) = ('"' :: u, t) := h
  have htaken := readQuoted_taken (q := '"') (by decide) (by decide) (u ++ s)
  rw [hread, List.length_append] at htaken
  simp only [List.length_cons] at htaken
  rcases htaken with hclosed | ⟨hopen, hover⟩
  · exact .inl (by omega)
  · exact .inr ⟨by omega, hover⟩

/-- A type that is read back and starts with no double quote is plain, or it has an unclosed
parameter and ends its line. -/
theorem plain_of_readType {type s t : List Char} (hne : type ≠ []) (hq : type.head? ≠ some '"')
    (h : readType (type ++ s) = (type, t)) :
    PlainType type ∨ OpenType type ∧ ∀ c ∈ s.head?, c = '\n' := by
  obtain ⟨c, r, rfl⟩ := List.exists_cons_of_ne_nil hne
  have hquote : (c :: r ++ s).head? ≠ some '"' := hq
  rw [readType_of_no_quote hquote] at h
  -- No type is read where a blank stands.
  have hblank : isInlineSpace c = false := by
    by_contra hc
    have hchar : isTypeChar c = false := by simp [isTypeChar, hc]
    exact (readBareType_cases hne h).1 (List.takeWhile_cons_of_neg (by simp [hchar]))
  have hskip : skipInline (c :: r ++ s) = c :: r ++ s :=
    skipInline_of_stopsAt (stopsAt_cons.2 hblank)
  exact plain_of_readBareType hne (hskip.symm ▸ hquote) (hskip.symm ▸ h)

/-- In front of settings just the plain types are read back, and at the end of a line just these and
the types with an unclosed parameter. -/
theorem readType_iff {type : List Char} (hne : type ≠ []) (s : List Char) :
    ((∃ t, readType (type ++ ' ' :: '[' :: s) = (type, t) ∧ skipInline t = '[' :: s) ↔
        PlainType type) ∧
      (readType (type ++ '\n' :: s) = (type, '\n' :: s) ↔ PlainType type ∨ OpenType type) := by
  have hbracket : skipInline (' ' :: '[' :: s) = '[' :: s := rfl
  have hnewline : skipInline ('\n' :: s) = '\n' :: s := rfl
  refine ⟨⟨?_, fun h => ?_⟩, ?_, ?_⟩
  · rintro ⟨t, h, hbehind⟩
    by_cases hq : type.head? = some '"'
    · exfalso
      have hle := (skipInline_suffix t).length_le
      rw [hbehind, List.length_cons] at hle
      rcases length_of_quotedType hq h with hlt | ⟨-, hover⟩
      · simp only [List.length_cons] at hlt
        omega
      · rw [hover.skipInline_eq] at hbehind
        exact absurd (stopsAt_cons.1 (hbehind ▸ hover)) (by decide)
    · rcases plain_of_readType hne hq h with hplain | ⟨-, hend⟩
      · exact hplain
      · exact absurd (hend ' ' rfl) (by decide)
  · exact readType_append h (stopsAt_cons.2 rfl) (by simp [hbracket])
  · intro h
    by_cases hq : type.head? = some '"'
    · rcases length_of_quotedType hq h with hlt | ⟨hlt, -⟩ <;> omega
    · exact (plain_of_readType hne hq h).imp_right And.left
  · rintro (hplain | hopen)
    · have h := readType_plain hplain (s := '\n' :: s) (stopsAt_cons.2 rfl) (by simp [hnewline])
      rwa [hnewline, or_self] at h
    · exact readType_open hopen (by simp)

/-- A parameter that is closed, one that is not, and a type that stood in double quotes. -/
theorem readType_iff_parameters :
    "decimal(10, f(2))".toList ≠ [] ∧
      readType ("decimal(10, f(2))".toList ++ '\n' :: "b".toList) =
        ("decimal(10, f(2))".toList, '\n' :: "b".toList) ∧
      "set(a, (b)".toList ≠ [] ∧
      (¬∃ t, readType ("set(a, (b)".toList ++ ' ' :: '[' :: "pk]".toList) =
        ("set(a, (b)".toList, t) ∧ skipInline t = '[' :: "pk]".toList) ∧
      OpenType "set(a, (b)".toList ∧
      "my type".toList ≠ [] ∧
      ¬∃ t, readType ("my type".toList ++ ' ' :: '[' :: "pk]".toList) = ("my type".toList, t) ∧
        skipInline t = '[' :: "pk]".toList := by
  have hclosed := readType_iff (show "decimal(10, f(2))".toList ≠ [] by decide) "b".toList
  have hopen := readType_iff (show "set(a, (b)".toList ≠ [] by decide) "pk]".toList
  have hquoted := readType_iff (show "my type".toList ≠ [] by decide) "pk]".toList
  have hset : ¬PlainType "set(a, (b)".toList := by decide
  refine ⟨by decide, hclosed.2.2 (.inl (by decide)), by decide, fun h => hset (hopen.1.1 h), ?_,
    by decide, fun h => absurd (hquoted.1.1 h) (by decide)⟩
  exact (hopen.2.1 (by decide)).resolve_left hset

end Outline

end Dbml
