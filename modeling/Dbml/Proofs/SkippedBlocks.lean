import Dbml.Proofs.Composition
import Dbml.Proofs.SingleQuoted
import Dbml.Proofs.Places

/-!
# Skipped blocks

A group of tables, an enumeration and a project are recognised by their first word and skipped to
the brace that closes them. Inside, braces nest, and quoted text and comments hide theirs. The
reader only counts braces; here the bodies in which this count comes out right are described by a
grammar, and nothing else of such a block has an effect: a text behind it is read as it would be
alone, as many lines further down.

Results:
* `bodyPiece?_doubleQuoted`, `bodyPiece?_singleQuoted`, `bodyPiece?_backticks`, `bodyPiece?_triple`,
  `bodyPiece?_comment`: quoted text and comments are single pieces of a body, whatever braces stand
  in them;
* `skipBody_balanced`: a balanced body is passed over at any depth;
* `readItem_block`: a block is one statement, up to its closing brace;
* `parseWith_skipped`: a text behind a block gives the same schema, the same diagnostics further
  down, and leaves the source of ids in the same state.
-/
namespace Dbml

open Text Outline Canonical Loop

namespace Text

/-! ## Keywords in any letter case -/

/-- A keyword is compared with as many characters as it has. -/
theorem dropFolded?_eq (k s : List Char) :
    dropFolded? k s =
      if (s.take k.length).map Char.toLower = k.map Char.toLower then some (s.drop k.length)
      else none := by
  induction k generalizing s with
  | nil => simp [dropFolded?]
  | cons c k ih =>
    cases s with
    | nil => simp [dropFolded?]
    | cons d s =>
      simp only [dropFolded?, List.length_cons, List.take_succ_cons, List.drop_succ_cons,
        List.map_cons, List.cons.injEq, beq_iff_eq, ih]
      by_cases hc : d.toLower = c.toLower
      · simp [hc]
      · simp [hc]

/-- A keyword is recognised in any letter case, if the word ends behind it. -/
theorem keyword?_folded {w : List Char} {k : String} (h : lower w = lower k.toList)
    {s : List Char} (hs : wordEnds s = true) : keyword? k (w ++ s) = some s := by
  have hw : w.map Char.toLower = k.toList.map Char.toLower := String.ofList_injective h
  have hlen : k.toList.length = w.length := by simpa using (congrArg List.length hw).symm
  rw [keyword?, dropFolded?_eq, hlen, List.take_left, if_pos hw, List.drop_left]
  simp [hs]

/-- A word that goes on behind a keyword is not that keyword. -/
theorem keyword?_of_longer {w : List Char} {j k : String} (h : lower w = lower k.toList)
    (hlen : j.toList.length < k.toList.length)
    (hk : ∀ c ∈ k.toList.map Char.toLower, c.isAlpha = true) (s : List Char) :
    keyword? j (w ++ s) = none := by
  have hw : w.map Char.toLower = k.toList.map Char.toLower := String.ofList_injective h
  have hlt : j.toList.length < w.length := by
    have : w.length = k.toList.length := by simpa using congrArg List.length hw
    omega
  have hdrop : (w ++ s).drop j.toList.length =
      w[j.toList.length] :: (w.drop (j.toList.length + 1) ++ s) := by
    rw [List.drop_append_of_le_length hlt.le, List.drop_eq_getElem_cons hlt, List.cons_append]
  have hnext : isAlphanumeric w[j.toList.length] = true := by
    have halpha := isAlpha_of_folded h hk _ (List.getElem_mem hlt)
    exact isAlphanumeric_of_isAlphanum (by simp [Char.isAlphanum, halpha])
  rw [keyword?, dropFolded?_eq, hdrop]
  split
  · simp [wordEnds, hnext]
  · rfl

/-- A word with another first letter than a keyword is not that keyword. -/
theorem keyword?_of_head {w : List Char} {j k : String} (h : lower w = lower k.toList)
    (hj : j.toList ≠ []) (hk : k.toList ≠ [])
    (hne : (k.toList.map Char.toLower).head? ≠ (j.toList.map Char.toLower).head?)
    (s : List Char) : keyword? j (w ++ s) = none := by
  have hw : w.map Char.toLower = k.toList.map Char.toLower := String.ofList_injective h
  have hnil : w ≠ [] := by
    rintro rfl
    exact hk (List.map_eq_nil_iff.1 hw.symm)
  have hlen : j.toList.length ≠ 0 := by simpa using hj
  rw [keyword?, dropFolded?_eq]
  split
  · rename_i he
    refine absurd ?_ hne
    rw [← he, ← hw, List.head?_map, List.head?_map, List.head?_take, if_neg hlen,
      List.head?_append_of_ne_nil _ hnil]
  · rfl

/-! ## Quoted text and comments -/

/-- Text inside a quoted token `q` that is closed on its line: no such quote and no newline, but
behind a backslash stands any character of the line. -/
def isLineText (q : Char) : List Char → Bool
  | [] => true
  | ['\\'] => false
  | '\\' :: c :: r => c != '\n' && isLineText q r
  | c :: r => c != q && c != '\n' && isLineText q r

theorem quotedChars_lineText {q : Char} (hb : q ≠ '\\') (ht : q ≠ '\x60') {w : List Char}
    (h : isLineText q w = true) (s : List Char) :
    quotedChars q (w ++ q :: s) = (unescaped w, q :: s) := by
  induction w using isLineText.induct with
  | case1 => exact quotedChars_quote q s
  | case2 => cases h
  | case3 c r ih =>
    simp only [isLineText, Bool.and_eq_true, bne_iff_ne] at h
    have hstep : quotedChar? q ('\\' :: c :: (r ++ q :: s)) = some (c, r ++ q :: s) := by
      simp [quotedChar?, hb.symm, ht, h.1]
    rw [List.cons_append, List.cons_append, quotedChars_of_some hstep, ih h.2, unescaped, if_neg h.1]
  | case4 c r hlast hescape ih =>
    have hc : c ≠ '\\' := by
      rintro rfl
      cases r with
      | nil => exact hlast rfl rfl
      | cons d r => exact hescape d r rfl rfl
    rw [isLineText] at h
    · simp only [Bool.and_eq_true, bne_iff_ne] at h
      have hstep : quotedChar? q (c :: (r ++ q :: s)) = some (c, r ++ q :: s) := by
        simp [quotedChar?, hc, h.1.1, h.1.2]
      rw [List.cons_append, quotedChars_of_some hstep, ih h.2, unescaped_cons hc]
    · exact hlast
    · exact hescape

/-- Text is broken at a mark behind a text in which no occurrence of it starts. -/
theorem breakAt_append {mark w : List Char} (hm : mark ≠ []) (s : List Char)
    (h : ∀ t, t <:+ w → t ≠ [] → ¬mark <+: t ++ (mark ++ s)) :
    breakAt mark (w ++ (mark ++ s)) = (w, s) := by
  induction w with
  | nil =>
    obtain ⟨c, m, rfl⟩ := List.exists_cons_of_ne_nil hm
    have hp : List.isPrefixOf (c :: m) (c :: (m ++ s)) = true :=
      List.isPrefixOf_iff_prefix.2 ⟨s, rfl⟩
    rw [List.nil_append, List.cons_append, breakAt, if_pos hp]
    simp
  | cons c w ih =>
    have hp : ¬mark.isPrefixOf (c :: (w ++ (mark ++ s))) = true := fun hp =>
      h (c :: w) List.suffix_rfl (List.cons_ne_nil _ _) (List.isPrefixOf_iff_prefix.1 hp)
    rw [List.cons_append, breakAt, if_neg hp,
      ih fun t ht hne => h t (ht.trans (List.suffix_cons c w)) hne]
    rfl

/-- A block comment ends at the first mark that closes it. -/
theorem skipComment_append {w : List Char} (h : ¬['*', '/'] <:+: w) (s : List Char) :
    skipComment (w ++ '*' :: '/' :: s) = s := by
  have hbreak := @breakAt_append ['*', '/'] w (by simp) s ?_
  · exact congrArg Prod.snd hbreak
  · rintro t ht hne hp
    cases t with
    | nil => exact hne rfl
    | cons c t =>
      rw [List.cons_append, List.cons_prefix_cons] at hp
      cases t with
      | nil => exact absurd (List.cons_prefix_cons.1 hp.2).1 (by decide)
      | cons d t =>
        rw [List.cons_append, List.cons_prefix_cons] at hp
        obtain ⟨rfl, rfl, -⟩ := hp
        exact h ((List.prefix_append ['*', '/'] t).isInfix.trans ht.isInfix)

/-- Text between triple quotes is taken whole, if it holds no triple quote and does not end with a
quote. -/
theorem readQuoted_triple {w : List Char} (h : ¬['\'', '\'', '\''] <:+: w)
    (hlast : w.getLast? ≠ some '\'') (s : List Char) :
    readQuoted ('\'' :: '\'' :: '\'' :: (w ++ '\'' :: '\'' :: '\'' :: s)) = (w, s) := by
  refine @breakAt_append ['\'', '\'', '\''] _ (by simp) s ?_
  intro t ht hne hp
  -- A mark that starts in the text either lies in it or takes the text's last character.
  by_cases hlen : 3 ≤ t.length
  · exact h ((List.prefix_of_prefix_length_le hp (List.prefix_append t _) hlen).isInfix.trans
      ht.isInfix)
  · have hquotes : ∀ c ∈ t, c = '\'' := by
      have hpt : t <+: ['\'', '\'', '\''] :=
        List.prefix_of_prefix_length_le (List.prefix_append t _) hp (by simp; omega)
      intro c hc
      have := hpt.mem hc
      simpa using this
    have hw : w ≠ [] := fun he => hne (List.suffix_nil.1 (he ▸ ht))
    refine hlast ?_
    rw [List.getLast?_eq_some_getLast hw, ← ht.getLast hne]
    exact congrArg some (hquotes _ (List.getLast_mem hne))

end Text

/-! ## Balanced bodies -/

/-- A body without quoted text, braces and comments may hold any other character. -/
def isBodyChar (c : Char) : Bool :=
  !(isQuote c || c == '{' || c == '}' || c == '#' || c == '/')

/-- A body whose braces are balanced. Those inside quoted text and comments do not count. -/
inductive Balanced : List Char → Prop
  | nil : Balanced []
  | char {c : Char} {b : List Char} (hc : isBodyChar c = true) (hb : Balanced b) :
    Balanced (c :: b)
  /-- A slash that opens no comment. -/
  | slash {b : List Char} (hc : ∀ c ∈ b.head?, c ≠ '/' ∧ c ≠ '*') (hb : Balanced b) :
    Balanced ('/' :: b)
  | braces {inner b : List Char} (hi : Balanced inner) (hb : Balanced b) :
    Balanced ('{' :: (inner ++ '}' :: b))
  | doubleQuoted {w b : List Char} (hw : isLineText '"' w = true) (hb : Balanced b) :
    Balanced ('"' :: (w ++ '"' :: b))
  | backticks {w b : List Char} (hq : '\x60' ∉ w) (hn : '\n' ∉ w) (hb : Balanced b) :
    Balanced ('\x60' :: (w ++ '\x60' :: b))
  /-- An empty token must not be the beginning of a triple quote. -/
  | singleQuoted {w b : List Char} (hw : isLineText '\'' w = true)
    (ht : w = [] → b.head? ≠ some '\'') (hb : Balanced b) :
    Balanced ('\'' :: (w ++ '\'' :: b))
  | tripleQuoted {w b : List Char} (hw : ¬['\'', '\'', '\''] <:+: w)
    (hl : w.getLast? ≠ some '\'') (hb : Balanced b) :
    Balanced ('\'' :: '\'' :: '\'' :: (w ++ '\'' :: '\'' :: '\'' :: b))
  | slashComment {w b : List Char} (hn : '\n' ∉ w) (hb : Balanced b) :
    Balanced ('/' :: '/' :: (w ++ '\n' :: b))
  | hashComment {w b : List Char} (hn : '\n' ∉ w) (hb : Balanced b) :
    Balanced ('#' :: (w ++ '\n' :: b))
  | blockComment {w b : List Char} (hw : ¬['*', '/'] <:+: w) (hb : Balanced b) :
    Balanced ('/' :: '*' :: (w ++ '*' :: '/' :: b))

namespace Text

theorem bodyPiece?_char {c : Char} (h : isBodyChar c = true) (s : List Char) :
    bodyPiece? (c :: s) = some s := by
  simp only [isBodyChar, Bool.not_eq_true', Bool.or_eq_false_iff] at h
  obtain ⟨⟨⟨⟨hq, ho⟩, hc⟩, hh⟩, hs⟩ := h
  have hcomment : comment? (c :: s) = none := by
    unfold comment?; split <;> simp_all
  simp [bodyPiece?, hq, ho, hc, hcomment]

theorem bodyPiece?_slash {s : List Char} (h : ∀ c ∈ s.head?, c ≠ '/' ∧ c ≠ '*') :
    bodyPiece? ('/' :: s) = some s := by
  have hcomment : comment? ('/' :: s) = none := by
    unfold comment?; split <;> simp_all
  simp [bodyPiece?, isQuote, hcomment]

/-- A quoted token that is closed on its line is one piece of a body. -/
theorem bodyPiece?_doubleQuoted {w : List Char} (h : isLineText '"' w = true) (s : List Char) :
    bodyPiece? ('"' :: (w ++ '"' :: s)) = some s := by
  have hread : (readQuoted ('"' :: (w ++ '"' :: s))).2 = s := by
    rw [readQuoted_of_ne (by decide)]
    simp [quotedChars_lineText (by decide) (by decide) h, dropChar]
  exact congrArg some hread

theorem bodyPiece?_singleQuoted {w : List Char} (h : isLineText '\'' w = true) {s : List Char}
    (ht : w = [] → s.head? ≠ some '\'') :
    bodyPiece? ('\'' :: (w ++ '\'' :: s)) = some s := by
  have hread : (readQuoted ('\'' :: (w ++ '\'' :: s))).2 = s := by
    rw [readQuoted]
    · simp [quotedChars_lineText (by decide) (by decide) h, dropChar]
    · rintro r - he
      cases w with
      | nil =>
        obtain rfl := (List.cons.inj he).2
        exact ht rfl rfl
      | cons c w =>
        obtain ⟨rfl, -⟩ := List.cons.inj he
        simp [isLineText] at h
  exact congrArg some hread

theorem bodyPiece?_backticks {w : List Char} (hq : '\x60' ∉ w) (hn : '\n' ∉ w) (s : List Char) :
    bodyPiece? ('\x60' :: (w ++ '\x60' :: s)) = some s :=
  congrArg (fun p : List Char × List Char => some p.2) (readQuoted_backticks hq hn s)

theorem bodyPiece?_triple {w : List Char} (h : ¬['\'', '\'', '\''] <:+: w)
    (hl : w.getLast? ≠ some '\'') (s : List Char) :
    bodyPiece? ('\'' :: '\'' :: '\'' :: (w ++ '\'' :: '\'' :: '\'' :: s)) = some s :=
  congrArg (fun p : List Char × List Char => some p.2) (readQuoted_triple h hl s)

theorem comment?_slashes {w : List Char} (h : '\n' ∉ w) (s : List Char) :
    comment? ('/' :: '/' :: (w ++ '\n' :: s)) = some s :=
  congrArg some (skipLine_append_newline h s)

theorem comment?_hash {w : List Char} (h : '\n' ∉ w) (s : List Char) :
    comment? ('#' :: (w ++ '\n' :: s)) = some s :=
  congrArg some (skipLine_append_newline h s)

theorem comment?_closed {w : List Char} (h : ¬['*', '/'] <:+: w) (s : List Char) :
    comment? ('/' :: '*' :: (w ++ '*' :: '/' :: s)) = some s :=
  congrArg some (skipComment_append h s)

theorem bodyPiece?_comment {s r : List Char} (h : comment? s = some r) :
    bodyPiece? s = some r := by
  have hs : bodyPiece? s = some ((comment? s).getD []) := by
    unfold comment? at h
    split at h
    all_goals first | rfl | cases h
  rw [hs, h]
  rfl

/-- Behind a piece of a body, its braces are counted as before. -/
theorem skipBody_of_bodyPiece? {s r : List Char} (h : bodyPiece? s = some r) (depth : Nat) :
    skipBody depth s = skipBody depth r :=
  skipBody_congr (skipMany_of_some h)

theorem skipBody_open (depth : Nat) (s : List Char) :
    skipBody depth ('{' :: s) = skipBody (depth + 1) s :=
  skipBody_of_brace depth rfl

theorem skipBody_close (depth : Nat) (s : List Char) :
    skipBody (depth + 1) ('}' :: s) = skipBody depth s :=
  skipBody_of_brace (depth + 1) rfl

theorem skipBody_over (s : List Char) : skipBody 0 ('}' :: s) = s :=
  skipBody_of_brace 0 rfl

/-- A balanced body is passed over, at any depth, to the brace that closes it. -/
theorem skipBody_balanced {b : List Char} (h : Balanced b) (depth : Nat) (s : List Char) :
    skipBody depth (b ++ '}' :: s) = skipBody depth ('}' :: s) := by
  induction h generalizing depth s with
  | nil => rfl
  | char hc _ ih =>
    rw [List.cons_append, skipBody_of_bodyPiece? (bodyPiece?_char hc _), ih]
  | @slash b hc _ ih =>
    have hnext : ∀ c ∈ (b ++ '}' :: s).head?, c ≠ '/' ∧ c ≠ '*' := by
      cases b with
      | nil => simp
      | cons d b => exact hc
    rw [List.cons_append, skipBody_of_bodyPiece? (bodyPiece?_slash hnext), ih]
  | braces _ _ ihi ihb =>
    -- The inner body closes one brace deeper, and the rest is passed over where it was opened.
    rw [List.cons_append, List.append_assoc, List.cons_append, skipBody_open, ihi, skipBody_close,
      ihb]
  | doubleQuoted hw _ ih =>
    rw [List.cons_append, List.append_assoc, List.cons_append,
      skipBody_of_bodyPiece? (bodyPiece?_doubleQuoted hw _), ih]
  | backticks hq hn _ ih =>
    rw [List.cons_append, List.append_assoc, List.cons_append,
      skipBody_of_bodyPiece? (bodyPiece?_backticks hq hn _), ih]
  | @singleQuoted w b hw ht _ ih =>
    have hnext : w = [] → (b ++ '}' :: s).head? ≠ some '\'' := by
      intro he
      cases b with
      | nil => simp
      | cons d b => exact ht he
    rw [List.cons_append, List.append_assoc, List.cons_append,
      skipBody_of_bodyPiece? (bodyPiece?_singleQuoted hw hnext), ih]
  | tripleQuoted hw hl _ ih =>
    simp only [List.cons_append, List.append_assoc]
    rw [skipBody_of_bodyPiece? (bodyPiece?_triple hw hl _), ih]
  | slashComment hn _ ih =>
    simp only [List.cons_append, List.append_assoc]
    rw [skipBody_of_bodyPiece? (bodyPiece?_comment (comment?_slashes hn _)), ih]
  | hashComment hn _ ih =>
    simp only [List.cons_append, List.append_assoc]
    rw [skipBody_of_bodyPiece? (bodyPiece?_comment (comment?_hash hn _)), ih]
  | blockComment hw _ ih =>
    simp only [List.cons_append, List.append_assoc]
    rw [skipBody_of_bodyPiece? (bodyPiece?_comment (comment?_closed hw _)), ih]

/-- What stands in a header without braces and quotes is passed over. -/
theorem skipHeader_append {c : List Char}
    (hc : ∀ k ∈ c, k ≠ '\n' ∧ k ≠ '{' ∧ isQuote k = false) (s : List Char) :
    skipMany headerPiece? headerPiece?_skips (c ++ s) =
      skipMany headerPiece? headerPiece?_skips s := by
  refine skipMany_append (fun k hk r => ?_) s
  obtain ⟨hn, ho, hq⟩ := hc k hk
  simp [headerPiece?, hn, ho, hq]

end Text

/-! ## Blocks -/

/-- The header of a block: the word that introduces it, and what stands between that word and the
opening brace. -/
structure BlockHeader where
  word : List Char
  label : List Char

namespace BlockHeader

def text (h : BlockHeader) : List Char := h.word ++ h.label

/-- A header with the word of a skipped block in any letter case, on one line and without quotes. -/
structure Plain (h : BlockHeader) : Prop where
  word : ∃ k ∈ skippedWords, lower h.word = lower k.toList
  ends : wordEnds h.label = true
  label : ∀ c ∈ h.label, c ≠ '\n' ∧ c ≠ '{' ∧ isQuote c = false

variable {h : BlockHeader}

theorem Plain.isAlpha (hh : h.Plain) : ∀ c ∈ h.word, c.isAlpha = true := by
  obtain ⟨k, hk, hw⟩ := hh.word
  have hletters : ∀ k ∈ skippedWords, ∀ c ∈ k.toList.map Char.toLower, c.isAlpha = true := by
    simp [skippedWords]
  exact isAlpha_of_folded hw (hletters k hk)

/-- The word starts with a letter that no table and no reference starts with, or it goes on behind
the word of a table. -/
theorem Plain.no_statement (hh : h.Plain) (s : List Char) :
    keyword? "Table" (h.word ++ s) = none ∧ keyword? "Ref" (h.word ++ s) = none := by
  obtain ⟨k, hk, hw⟩ := hh.word
  simp only [skippedWords, List.mem_cons, List.not_mem_nil, or_false] at hk
  rcases hk with rfl | rfl | rfl
  · exact ⟨keyword?_of_longer hw (by decide) (by simp) s,
      keyword?_of_head hw (by decide) (by decide) (by decide) s⟩
  · exact ⟨keyword?_of_head hw (by decide) (by decide) (by decide) s,
      keyword?_of_head hw (by decide) (by decide) (by decide) s⟩
  · exact ⟨keyword?_of_head hw (by decide) (by decide) (by decide) s,
      keyword?_of_head hw (by decide) (by decide) (by decide) s⟩

/-- The header is passed over. -/
theorem Plain.skipHeader (hh : h.Plain) (s : List Char) :
    skipMany headerPiece? headerPiece?_skips (h.text ++ s) =
      skipMany headerPiece? headerPiece?_skips s := by
  have hword : ∀ c ∈ h.word, ∀ r, headerPiece? (c :: r) = some r := fun c hc r =>
    headerPiece?_of_isWordChar (by simp [isWordChar, Char.isAlphanum, hh.isAlpha c hc]) r
  rw [text, List.append_assoc, skipMany_append hword, skipHeader_append hh.label]

/-- The header introduces a block, whatever follows, if the text that follows ends the word. -/
theorem Plain.readItem (hh : h.Plain) {s : List Char} (hs : wordEnds (h.label ++ s) = true) :
    Outline.readItem (h.text ++ s) = (.skipped (h.text ++ s), skipBlock (h.text ++ s)) := by
  obtain ⟨k, hk, hword⟩ := hh.word
  obtain ⟨htable, href⟩ := hh.no_statement (h.label ++ s)
  rw [text, List.append_assoc]
  have hskipped : (skippedWords.any fun word =>
      (keyword? word (h.word ++ (h.label ++ s))).isSome) = true := by
    refine List.any_eq_true.2 ⟨k, hk, ?_⟩
    rw [keyword?_folded hword hs]
    rfl
  simp only [Outline.readItem, htable, href, hskipped, if_true]

theorem Plain.head (hh : h.Plain) (s : List Char) :
    ∃ c r, h.text ++ s = c :: r ∧ c.isAlpha = true := by
  obtain ⟨k, hk, hword⟩ := hh.word
  cases hw : h.word with
  | nil =>
    rw [hw] at hword
    revert k
    simp [skippedWords, lower]
  | cons c w =>
    have hc := hh.isAlpha c (hw ▸ List.mem_cons_self)
    exact ⟨c, w ++ h.label ++ s, by rw [text, hw]; rfl, hc⟩

/-- No filler stands in front of the header. -/
theorem Plain.skipFiller (hh : h.Plain) (s : List Char) :
    Text.skipFiller (h.text ++ s) = h.text ++ s := by
  obtain ⟨c, r, hc, hletter⟩ := hh.head s
  rw [hc]
  exact skipFiller_of_stopsAt (stopsAt_cons.2
    (not_startsFiller_of_isWordStart (.inl (by simp [isWordStart, hletter]))))

end BlockHeader

/-- The text of a block, with the end of its last line. -/
def skippedBlock (header : BlockHeader) (body : List Char) : List Char :=
  header.text ++ '{' :: (body ++ ['}', '\n'])

section Skipped

variable {header : BlockHeader} {body : List Char}

theorem toList_skippedBlock (s : List Char) : skippedBlock header body ++ s =
    header.text ++ '{' :: (body ++ '}' :: '\n' :: s) := by
  simp [skippedBlock]

theorem skipBlock_block (hh : header.Plain) (hb : Balanced body) (s : List Char) :
    skipBlock (skippedBlock header body ++ s) = '\n' :: s := by
  have hopen : headerPiece? ('{' :: (body ++ '}' :: '\n' :: s)) = none := rfl
  rw [toList_skippedBlock, skipBlock, hh.skipHeader, skipMany_of_none hopen]
  exact (skipBody_balanced hb 0 ('\n' :: s)).trans (skipBody_over _)

/-- A block is one statement, up to its closing brace. -/
theorem readItem_block (hh : header.Plain) (hb : Balanced body) (s : List Char) :
    readItem (skippedBlock header body ++ s) =
      (.skipped (skippedBlock header body ++ s), '\n' :: s) := by
  have hends : wordEnds (header.label ++ '{' :: (body ++ '}' :: '\n' :: s)) = true := by
    cases hl : header.label with
    | nil => rfl
    | cons c label => exact (congrArg wordEnds hl).symm.trans hh.ends
  rw [← skipBlock_block hh hb s, toList_skippedBlock, hh.readItem hends]

/-- A text behind a block is read as it is alone. -/
theorem read_skippedBlock (hh : header.Plain) (hb : Balanced body) (s : List Char) :
    Outline.read (skippedBlock header body ++ s) =
      .skipped (skippedBlock header body ++ s) :: Outline.read s := by
  have hitem : item? (skippedBlock header body ++ s) =
      some (.skipped (skippedBlock header body ++ s), '\n' :: s) := by
    have hblock := readItem_block hh hb s
    obtain ⟨c, r, hc, -⟩ := hh.head ('{' :: (body ++ '}' :: '\n' :: s))
    have hfront := hh.skipFiller ('{' :: (body ++ '}' :: '\n' :: s))
    rw [← toList_skippedBlock] at hc hfront
    rw [item?_of_skipFiller (hfront.trans hc), ← hc, hblock]
  rw [read_of_item? hitem, read_newline]

end Skipped

/-! ## Documents -/

namespace Outline

/-- A skipped block draws no id and reports nothing, and no table and no relation comes of it. -/
theorem events_skipped (s : List Char) (o : Outline) :
    Outline.events (.skipped s :: o) = o.events := by
  rw [Outline.events, Outline.events, relationCount_cons, List.flatMap_cons]
  simp [Item.events, Item.relationCount]

/-- A statement that draws no id and gives no table and no relation adds nothing to a schema. -/
theorem toSchema_cons_of_none {i : Item} (hk : i.idKinds = []) (hb : i.build [] = (none, []))
    (o : Outline) (ids : List String) : Outline.toSchema (i :: o) ids = o.toSchema ids := by
  have hdraws : i.idKinds.length = 0 := congrArg List.length hk
  have htables : Outline.tables (i :: o) ids = o.tables ids := by
    rw [tables_cons, hdraws, List.take_zero, hb]; rfl
  have hdrafts : Outline.drafts (i :: o) ids = o.drafts ids := by
    rw [drafts_cons, hdraws, List.take_zero, hb]; rfl
  rw [toSchema_eq, toSchema_eq, htables, hdrafts, build_cons, hdraws]
  rfl

theorem toSchema_skipped (s : List Char) (o : Outline) (ids : List String) :
    Outline.toSchema (.skipped s :: o) ids = o.toSchema ids :=
  toSchema_cons_of_none rfl rfl o ids

end Outline

/-- Behind whole lines, what is reported of a text is reported as many lines further down. -/
theorem supply_reported_append {σ : Type} (source : IdSource σ) (st : σ) {s : List Char}
    (hs : WholeLines s) (t : List Char) {reported : List Fault}
    (h : reported = (source.supply (Outline.read t).events st).faults ++
      (source.supply (Outline.read t).events st).refusal.toList) :
    reported.map (Fault.toDiagnostic (s ++ t)) =
      (reported.map (Fault.toDiagnostic t)).map (Diagnostic.down (s.count '\n')) := by
  have hplaces := (List.pairwise_cons.1 (supply_pairwise source st t)).1
  rw [← h] at hplaces
  rw [List.map_map]
  exact List.map_congr_left fun f hf =>
    Fault.toDiagnostic_append hs (hplaces f.rest (List.mem_map_of_mem hf))

theorem wholeLines_skippedBlock (header : BlockHeader) (body : List Char) :
    WholeLines (skippedBlock header body) :=
  .inr ⟨header.text ++ '{' :: (body ++ ['}']), by simp [skippedBlock]⟩

/-- A block that is not kept is passed over to its closing brace and has no effect. Whatever the
source of ids, one that refuses included, the text behind it gives the same schema and leaves the
source in the same state, and it has the same diagnostics as many lines further down. -/
theorem parseWith_skipped {σ : Type} (source : IdSource σ) (st : σ) {header : BlockHeader}
    (hh : header.Plain) {body : List Char} (hb : Balanced body) {text : String}
    (ht : text.toList.all isBlank = false) :
    Outline.read (skippedBlock header body ++ text.toList) =
        .skipped (skippedBlock header body ++ text.toList) :: Outline.read text.toList ∧
      parseWith source st (String.ofList (skippedBlock header body) ++ text) =
        (⟨(parse source st text).schema, (parse source st text).diagnostics.map
            (Diagnostic.down ((skippedBlock header body).count '\n'))⟩,
          (parseWith source st text).2) := by
  have hread := read_skippedBlock hh hb text.toList
  refine ⟨hread, ?_⟩
  have hlist : (String.ofList (skippedBlock header body) ++ text).toList =
      skippedBlock header body ++ text.toList := by simp
  have hblank : (skippedBlock header body ++ text.toList).all isBlank = false := by
    rw [List.all_append, ht, Bool.and_false]
  simp only [parse, parseWith_eq, parseChars, hlist, hblank, ht, Bool.false_eq_true, if_false, hread,
    events_skipped]
  refine Prod.ext (Parsed.mk.injEq .. ▸ ⟨?_, ?_⟩) rfl
  · simp only [Parsed.ofSupply, toSchema_skipped]
  · exact supply_reported_append source st (wholeLines_skippedBlock header body) text.toList rfl

/-- The header of an enumeration. -/
def colorsHeader : BlockHeader := ⟨"eNUM".toList, " colors".toList⟩

/-- A body with a brace in every kind of quoted text and comment. -/
def hiddenBraces : List Char :=
  '{' :: (['"', '\\', '"', '}', '"', ' ', '\'', '}', '\'', ' '] ++ '}' ::
    ['\x60', '{', '\x60', '\'', '\'', '\'', '{', '\'', '\'', '\'', '/', '/', '}', '\n',
      '#', '{', '\n', '/', '*', '}', '*', '/', '/', ' '])

theorem balanced_hiddenBraces : Balanced hiddenBraces := by
  refine .braces ?inner ?rest
  case inner =>
    exact @Balanced.doubleQuoted ['\\', '"', '}'] _ (by decide)
      (.char (by decide) (@Balanced.singleQuoted ['}'] _ (by decide) (by simp)
        (.char (by decide) .nil)))
  case rest =>
    refine @Balanced.backticks ['{'] _ (by decide) (by decide) ?_
    refine @Balanced.tripleQuoted ['{'] _ (by decide) (by decide) ?_
    refine @Balanced.slashComment ['}'] _ (by decide) (@Balanced.hashComment ['{'] _ (by decide) ?_)
    exact @Balanced.blockComment ['}'] _ (by decide) (.slash (by simp) (.char (by decide) .nil))

theorem parseWith_skipped_hiddenBraces :
    colorsHeader.Plain ∧ Balanced hiddenBraces ∧
      "Table t \x7b\n  :\n\x7d".toList.all isBlank = false ∧
      parseWith .sequential 1 (String.ofList (skippedBlock colorsHeader hiddenBraces) ++
        "Table t \x7b\n  :\n\x7d") =
        (⟨some { tables := [{ id := "table_1", name := "t" }] },
          [.errorAt ⟨5, 3⟩ "Expected column name"]⟩, 2) := by
  have hheader : colorsHeader.Plain :=
    ⟨⟨"Enum", by decide, by decide +kernel⟩, by decide +kernel, by simp [colorsHeader, isQuote]⟩
  have hblank : "Table t \x7b\n  :\n\x7d".toList.all isBlank = false := by decide +kernel
  have h := (parseWith_skipped .sequential 1 hheader balanced_hiddenBraces hblank).2
  refine ⟨hheader, balanced_hiddenBraces, hblank, h.trans ?_⟩
  decide +kernel

end Dbml
