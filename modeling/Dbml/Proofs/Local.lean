import Dbml.Proofs.Composition
import Dbml.Proofs.LineEndings
import Dbml.Proofs.StatementOrder

/-!
# Reading in front of the end

A reader looks no further than what it takes and the character behind it. So if it leaves something
of a text, it has read the same whatever stands behind the text. Only what starts with a blank or a
newline may stand there, since it must not carry on the last word, and there must be no single
quotes in the text, which look for their end on later lines.

If a reader leaves nothing of a text, then of the text with something behind it no more is left than
that. What was read may differ then.

Both are shown of each reader by itself, and of readers one behind the other once for all.

Results:
* `Local.bind`, `many_local`, `skipMany_local`: local readers one behind the other, and their
  repetitions, are local;
* `skipFiller_local`, `skipBlock_local`, `readIdentifier_local`, `readType_local`,
  `readEndpoint_local`: so are the readers of filler, of blocks and of tokens.
-/
namespace Dbml

open Text Outline

/-! ## Local readers -/

/-- What is left of a text with `x` behind it, and what is left of the text alone. -/
inductive Remains (x : List Char) : List Char → List Char → Prop
  | front {w : List Char} (hne : w ≠ []) : Remains x (w ++ x) w
  | past {s : List Char} (h : s <:+ x) : Remains x s []

/-- The results of a reader on a text with `x` behind it and on the text alone. If something is left
of the text, the same was read, up to `f`. -/
structure Keeps {α : Type} (x : List Char) (f : α → α) (p p' : α × List Char) : Prop where
  value : p'.2 ≠ [] → p.1 = f p'.1
  rest : Remains x p.2 p'.2

/-- A reader that does not see what stands behind a text, if it leaves something of the text. -/
structure Local {α : Type} (x : List Char) (f : α → α) (read : List Char → α × List Char) :
    Prop where
  suffix : ∀ s, (read s).2 <:+ s
  keeps : ∀ w, '\'' ∉ w → Keeps x f (read (w ++ x)) (read w)

/-- The same of what only skips. -/
structure LocalSkip (x : List Char) (skip : List Char → List Char) : Prop where
  suffix : ∀ s, skip s <:+ s
  remains : ∀ w, '\'' ∉ w → Remains x (skip (w ++ x)) (skip w)

section Combinators

variable {α β : Type} {x s s' : List Char} {e f : α → α} {k : β → β}
  {read read' : List Char → α × List Char} {skip skip' : List Char → List Char}

theorem Remains.append (x w : List Char) : Remains x (w ++ x) w := by
  cases w with
  | nil => exact .past List.suffix_rfl
  | cons c w => exact .front (List.cons_ne_nil c w)

theorem Keeps.append {a a' : α} (h : a = f a') (w : List Char) : Keeps x f (a, w ++ x) (a', w) :=
  ⟨fun _ => h, .append x w⟩

/-- Where nothing is left, nothing is said of what was read. -/
theorem Keeps.past {p p' : α × List Char} (h : p.2 <:+ x) (h' : p'.2 <:+ []) : Keeps x f p p' := by
  have hnil := List.suffix_nil.1 h'
  exact ⟨fun hne => absurd hnil hne, hnil ▸ .past h⟩

theorem LocalSkip.of_remains (hs : LocalSkip x skip) (hq : '\'' ∉ s') (h : Remains x s s') :
    Remains x (skip s) (skip s') := by
  cases h with
  | front => exact hs.remains _ hq
  | past h =>
    rw [List.suffix_nil.1 (hs.suffix [])]
    exact .past ((hs.suffix s).trans h)

theorem LocalSkip.refl : LocalSkip x id := ⟨fun _ => List.suffix_rfl, fun w _ => .append x w⟩

theorem LocalSkip.comp (hs : LocalSkip x skip) (hs' : LocalSkip x skip') :
    LocalSkip x fun s => skip' (skip s) where
  suffix s := (hs'.suffix _).trans (hs.suffix s)
  remains w hq := hs'.of_remains (fun h => hq ((hs.suffix w).mem h)) (hs.remains w hq)

/-- To skip, it is enough to see to texts that are not empty. -/
theorem LocalSkip.of_cons (hs : ∀ s, skip s <:+ s)
    (h : ∀ c t, '\'' ∉ c :: t → Remains x (skip (c :: (t ++ x))) (skip (c :: t))) :
    LocalSkip x skip where
  suffix := hs
  remains w hq := by
    cases w with
    | nil => rw [List.suffix_nil.1 (hs [])]; exact .past (hs x)
    | cons c t => exact h c t hq

/-- So it is to read. -/
theorem Local.of_cons (hs : ∀ s, (read s).2 <:+ s)
    (h : ∀ c t, '\'' ∉ c :: t → Keeps x f (read (c :: (t ++ x))) (read (c :: t))) :
    Local x f read where
  suffix := hs
  keeps w hq := by
    cases w with
    | nil => exact .past (hs x) (hs [])
    | cons c t => exact h c t hq

/-- What always reads the same is local. -/
theorem Local.of_exact (hs : ∀ s, (read s).2 <:+ s)
    (h : ∀ w, read (w ++ x) = ((read w).1, (read w).2 ++ x)) : Local x id read where
  suffix := hs
  keeps w _ := by rw [h]; exact .append rfl _

/-- To skip, it is enough to see to texts with one first character and to all others. -/
theorem LocalSkip.of_char (c : Char) (hs : LocalSkip x skip) (hs' : LocalSkip x skip')
    {skipEither : List Char → List Char} (hnil : skipEither [] = [])
    (hc : ∀ t, skipEither (c :: t) = skip t)
    (hne : ∀ d, d ≠ c → ∀ t, skipEither (d :: t) = skip' (d :: t)) : LocalSkip x skipEither := by
  refine .of_cons (fun s => ?_) fun d t hq => ?_
  · cases s with
    | nil => rw [hnil]
    | cons d t =>
      by_cases hd : d = c
      · rw [hd, hc]; exact (hs.suffix t).trans (List.suffix_cons c t)
      · rw [hne d hd]; exact hs'.suffix (d :: t)
  · by_cases hd : d = c
    · rw [hd, hc, hc]; exact hs.remains t (List.not_mem_of_not_mem_cons hq)
    · rw [hne d hd, hne d hd]; exact hs'.remains (d :: t) hq

/-- So it is to read. -/
theorem Local.of_char (c : Char) (hr : Local x f read) (hr' : Local x f read')
    {readEither : List Char → α × List Char} (hnil : (readEither []).2 = [])
    (hc : ∀ t, readEither (c :: t) = read t)
    (hne : ∀ d, d ≠ c → ∀ t, readEither (d :: t) = read' (d :: t)) : Local x f readEither := by
  refine .of_cons (fun s => ?_) fun d t hq => ?_
  · cases s with
    | nil => rw [hnil]
    | cons d t =>
      by_cases hd : d = c
      · rw [hd, hc]; exact (hr.suffix t).trans (List.suffix_cons c t)
      · rw [hne d hd]; exact hr'.suffix (d :: t)
  · by_cases hd : d = c
    · rw [hd, hc, hc]; exact hr.keeps t (List.not_mem_of_not_mem_cons hq)
    · rw [hne d hd, hne d hd]; exact hr'.keeps (d :: t) hq

theorem LocalSkip.const (hs : LocalSkip x skip) {a : α} (h : a = f a) :
    Local x f fun s => (a, skip s) where
  suffix := hs.suffix
  keeps w hq := ⟨fun _ => h, hs.remains w hq⟩

theorem Local.after (hr : Local x f read) (hs : LocalSkip x skip) :
    Local x f fun s => read (skip s) where
  suffix s := (hr.suffix _).trans (hs.suffix s)
  keeps w hq := by
    have hrest := hs.remains w hq
    have hq' : '\'' ∉ skip w := fun h => hq ((hs.suffix w).mem h)
    generalize skip (w ++ x) = t at hrest
    generalize skip w = t' at hrest hq'
    cases hrest with
    | front => exact hr.keeps _ hq'
    | past h => exact .past ((hr.suffix t).trans h) (hr.suffix [])

theorem Local.bind (hr : Local x e read) (next : α → List Char → β × List Char)
    (hsuffix : ∀ a s, (next a s).2 <:+ s)
    (hnext : ∀ a w, w ≠ [] → '\'' ∉ w → Keeps x k (next (e a) (w ++ x)) (next a w)) :
    Local x k fun s => next (read s).1 (read s).2 where
  suffix s := (hsuffix _ _).trans (hr.suffix s)
  keeps w hq := by
    have hq' : '\'' ∉ (read w).2 := fun h => hq ((hr.suffix w).mem h)
    obtain ⟨hvalue, hrest⟩ := hr.keeps w hq
    generalize read (w ++ x) = p at hvalue hrest
    generalize read w = p' at hvalue hrest hq'
    obtain ⟨a, t⟩ := p
    obtain ⟨a', t'⟩ := p'
    cases hrest with
    | front hne =>
      obtain rfl : a = e a' := hvalue hne
      exact hnext a' t' hne hq'
    | past h => exact .past ((hsuffix a t).trans h) (hsuffix a' [])

theorem Local.map (hr : Local x e read) {g : α → β} (hg : ∀ a, g (e a) = k (g a))
    (hs : LocalSkip x skip) : Local x k fun s => (read s).map g skip :=
  hr.bind (fun a s => (g a, skip s)) (fun _ => hs.suffix)
    fun a w _ hq => ⟨fun _ => hg a, hs.remains w hq⟩

end Combinators

/-! ## Repetitions -/

section Repetitions

variable {α β : Type} {x : List Char} {f : α → α} {k : β → β}
  {step : List Char → Option (α × List Char)}
  {finish : List α → List Char → β × List Char}

/-- Wherever a repetition with something behind it goes on from here, no more than `x` is left. -/
structure Passes (x : List Char) (step : List Char → Option (α × List Char))
    (finish : List α → List Char → β × List Char) (s : List Char) : Prop where
  goes : ∀ a r, step s = some (a, r) → r <:+ x
  stops : step s = none → ∀ as, (finish as s).2 <:+ x

theorem Passes.many {p : Progresses step} (hsuffix : ∀ as s, (finish as s).2 <:+ s)
    {s : List Char} (h : Passes x step finish s) (pre : List α) :
    (finish (pre ++ (many step p s).1) (many step p s).2).2 <:+ x := by
  cases hs : step s with
  | none =>
    rw [many_of_none hs, List.append_nil]
    exact h.stops hs pre
  | some q =>
    obtain ⟨a, r⟩ := q
    rw [many_of_some hs]
    exact (hsuffix _ _).trans ((many_suffix r).trans (h.goes a r hs))

variable (finish) in
/-- A repetition of a local step, with what comes behind it, is local. Where the step itself is not,
nothing must be left behind the repetition. -/
theorem many_local {p : Progresses step} (hsuffix : ∀ as s, (finish as s).2 <:+ s)
    (hstep : ∀ w, w ≠ [] → '\'' ∉ w → Option.Rel (Keeps x f) (step (w ++ x)) (step w) ∨
      Passes x step finish (w ++ x) ∧ Passes [] step finish w)
    (hstop : ∀ as w, w ≠ [] → '\'' ∉ w → step (w ++ x) = none → step w = none →
      Keeps x k (finish (as.map f) (w ++ x)) (finish as w)) :
    Local x k fun s => finish (many step p s).1 (many step p s).2 where
  suffix s := (hsuffix _ _).trans (many_suffix s)
  keeps w hq := by
    suffices h : ∀ pre, Keeps x k
        (finish (pre.map f ++ (many step p (w ++ x)).1) (many step p (w ++ x)).2)
        (finish (pre ++ (many step p w).1) (many step p w).2) from h []
    induction hn : w.length using Nat.strongRecOn generalizing w with
    | _ n ih =>
      intro pre
      by_cases hne : w = []
      · subst hne
        exact .past ((hsuffix _ _).trans (many_suffix _)) ((hsuffix _ _).trans (many_suffix _))
      rcases hstep w hne hq with hrel | ⟨hpass, hpass'⟩
      · generalize hs : step (w ++ x) = o at hrel
        generalize hs' : step w = o' at hrel
        cases hrel with
        | none =>
          rw [many_of_none hs, many_of_none hs', List.append_nil, List.append_nil]
          exact hstop pre w hne hq hs hs'
        | @some q q' h =>
          obtain ⟨a, r⟩ := q
          obtain ⟨a', r'⟩ := q'
          obtain ⟨hvalue, hrest⟩ := h
          have hshorter := p hs'
          rw [many_of_some hs, many_of_some hs']
          cases hrest with
          | front hne' =>
            obtain rfl : a = f a' := hvalue hne'
            have hrec := ih r'.length (hn ▸ hshorter.2) r'
              (fun h => hq (hshorter.1.mem h)) rfl (pre ++ [a'])
            simpa using hrec
          | past h =>
            exact .past ((hsuffix _ _).trans ((many_suffix r).trans h))
              ((hsuffix _ _).trans (many_suffix []))
      · exact .past (hpass.many hsuffix _) (hpass'.many hsuffix _)

theorem skipMany_local {step : List Char → Option (List Char)} {p : Skips step}
    (hstep : ∀ w, w ≠ [] → '\'' ∉ w → Option.Rel (Remains x) (step (w ++ x)) (step w)) :
    LocalSkip x (skipMany step p) where
  suffix := skipMany_suffix
  remains w hq := by
    induction hn : w.length using Nat.strongRecOn generalizing w with
    | _ n ih =>
      by_cases hne : w = []
      · subst hne
        rw [List.suffix_nil.1 (skipMany_suffix [])]
        exact .past (skipMany_suffix x)
      have hrel := hstep w hne hq
      generalize hs : step (w ++ x) = o at hrel
      generalize hs' : step w = o' at hrel
      cases hrel with
      | none => rw [skipMany_of_none hs, skipMany_of_none hs']; exact .append x w
      | @some r r' h =>
        have hshorter := p hs'
        rw [skipMany_of_some hs, skipMany_of_some hs']
        cases h with
        | front => exact ih r'.length (hn ▸ hshorter.2) r' (fun h => hq (hshorter.1.mem h)) rfl
        | past h =>
          rw [List.suffix_nil.1 (skipMany_suffix [])]
          exact .past ((skipMany_suffix r).trans h)

end Repetitions

/-! ## Blanks, words and keywords -/

section Readers

variable {x : List Char}

theorem dropWhile_local (p : Char → Bool) : LocalSkip x (List.dropWhile p) where
  suffix _ := List.dropWhile_suffix p
  remains w _ := by
    rw [List.dropWhile_append]
    split
    · rename_i h
      rw [List.isEmpty_iff.1 h]
      exact .past (List.dropWhile_suffix p)
    · exact .append x _

theorem span_local (p : Char → Bool) :
    Local x id fun s => (s.takeWhile p, s.dropWhile p) where
  suffix _ := List.dropWhile_suffix p
  keeps w hq := by
    refine ⟨fun hne => ?_, (dropWhile_local p).remains w hq⟩
    have hlt : (w.takeWhile p).length ≠ w.length := by
      have hsum := congrArg List.length (List.takeWhile_append_dropWhile (p := p) (l := w))
      have hpos := List.length_pos_iff.2 hne
      rw [List.length_append] at hsum
      dsimp only at hpos
      omega
    dsimp only [id]
    rw [List.takeWhile_append, if_neg hlt]

theorem skipInline_local : LocalSkip x skipInline := dropWhile_local isInlineSpace

theorem skipSeparators_local : LocalSkip x skipSeparators := dropWhile_local _

theorem tail_local : LocalSkip x List.tail :=
  .of_cons List.tail_suffix fun _ t _ => .append x t

theorem skipLine_local : LocalSkip x skipLine := (dropWhile_local _).comp tail_local

theorem dropChar_local (k : Char) : LocalSkip x (dropChar k) :=
  .of_char k .refl .refl rfl (fun t => by simp [dropChar]) fun c hc t => by simp [dropChar, hc]

variable (hx : GapFront x)
include hx

theorem readWord_local : Local x id readWord := .of_exact readWord_suffix (readWord_append_gap hx)

theorem aliasWord?_append_gap (w : List Char) :
    aliasWord? (w ++ x) = (aliasWord? w).map (· ++ x) := by
  rcases w with _ | ⟨c, _ | ⟨d, w⟩⟩
  · obtain rfl | ⟨r, rfl | rfl | rfl | rfl⟩ := hx.eq_or <;> rfl
  · have hnone : ∀ s : List Char, s.head? ≠ some 's' → aliasWord? (c :: s) = none := by
      intro s hs
      unfold aliasWord?
      split
      · rename_i he; simp [(List.cons.inj he).2] at hs
      · rfl
    rw [List.cons_append, hnone [] (by simp), List.nil_append]
    refine hnone x ?_
    obtain rfl | ⟨r, rfl | rfl | rfl | rfl⟩ := hx.eq_or <;> simp
  · by_cases has : c = 'a' ∧ d = 's'
    · obtain ⟨rfl, rfl⟩ := has
      simp only [List.cons_append, aliasWord?, wordEnds_append_gap hx]
      split <;> rfl
    · have hnone : ∀ s : List Char, aliasWord? (c :: d :: s) = none := by
        intro s
        unfold aliasWord?
        split
        · simp_all
        · rfl
      rw [List.cons_append, List.cons_append, hnone, hnone, Option.map_none]

/-! ## Comments and filler -/

theorem isPrefixOf_closing_append_gap (c : Char) (w : List Char) :
    ['*', '/'].isPrefixOf (c :: (w ++ x)) = ['*', '/'].isPrefixOf (c :: w) := by
  cases w with
  | cons d w => rfl
  | nil =>
    obtain rfl | ⟨r, rfl | rfl | rfl | rfl⟩ := hx.eq_or
    · rfl
    all_goals simp [List.isPrefixOf]

theorem skipComment_local : LocalSkip x skipComment where
  suffix := skipComment_suffix
  remains w _ := by
    induction w with
    | nil => exact .past (skipComment_suffix x)
    | cons c w ih =>
      rw [skipComment, skipComment, List.cons_append, breakAt, breakAt,
        isPrefixOf_closing_append_gap hx]
      split
      · rename_i hclose
        obtain ⟨t, ht⟩ := List.isPrefixOf_iff_prefix.1 hclose
        rw [← List.cons_append, ← ht]
        exact .append x t
      · exact ih (by simp_all)

theorem comment?_remains {w : List Char} (hne : w ≠ []) (hq : '\'' ∉ w) :
    Option.Rel (Remains x) (comment? (w ++ x)) (comment? w) := by
  obtain ⟨c, w, rfl⟩ := List.exists_cons_of_ne_nil hne
  simp only [List.mem_cons, not_or] at hq
  by_cases hhash : c = '#'
  · subst hhash
    exact .some (skipLine_local.remains w hq.2)
  by_cases hslash : c = '/'
  · subst hslash
    rcases w with _ | ⟨d, w⟩
    · obtain rfl | ⟨r, rfl | rfl | rfl | rfl⟩ := hx.eq_or <;> exact .none
    simp only [List.mem_cons, not_or] at hq
    by_cases hd : d = '/'
    · subst hd
      exact .some (skipLine_local.remains w hq.2.2)
    by_cases ha : d = '*'
    · subst ha
      exact .some ((skipComment_local hx).remains w hq.2.2)
    have hnone : ∀ s, comment? ('/' :: d :: s) = none := by
      intro s; simp [comment?, hd, ha]
    rw [List.cons_append, List.cons_append, hnone, hnone]
    exact .none
  · have hnone : ∀ s, comment? (c :: s) = none := by
      intro s; simp [comment?, hhash, hslash]
    rw [List.cons_append, hnone, hnone]
    exact .none

theorem skipFiller_local : LocalSkip x skipFiller := by
  refine skipMany_local fun w hne hq => ?_
  obtain ⟨c, w, rfl⟩ := List.exists_cons_of_ne_nil hne
  have hcomment := comment?_remains hx hne hq
  rw [List.cons_append] at hcomment ⊢
  rw [fillerPiece?, fillerPiece?]
  split
  · exact .some (.append x w)
  · exact hcomment

theorem linePiece?_remains {w : List Char} (hne : w ≠ []) (hq : '\'' ∉ w) :
    Option.Rel (Remains x) (linePiece? (w ++ x)) (linePiece? w) := by
  obtain ⟨c, w, rfl⟩ := List.exists_cons_of_ne_nil hne
  simp only [List.mem_cons, not_or] at hq
  by_cases hend : c = '\n' ∨ c = '}' ∨ c = '#'
  · rcases hend with rfl | rfl | rfl <;> exact .none
  by_cases hslash : c = '/'
  · subst hslash
    rcases w with _ | ⟨d, w⟩
    · obtain rfl | ⟨r, rfl | rfl | rfl | rfl⟩ := hx.eq_or <;> exact .some (.append _ [])
    simp only [List.mem_cons, not_or] at hq
    by_cases hd : d = '/'
    · subst hd
      exact .none
    by_cases ha : d = '*'
    · subst ha
      exact .some ((skipComment_local hx).remains w hq.2.2)
    have hpiece : ∀ s, linePiece? ('/' :: d :: s) = some (d :: s) := by
      intro s; simp [linePiece?, hd, ha]
    rw [List.cons_append, List.cons_append, hpiece, hpiece]
    exact .some (.append x (d :: w))
  · have hpiece : ∀ s, linePiece? (c :: s) = some s := by
      simp only [not_or] at hend
      intro s; simp [linePiece?, hslash, hend]
    rw [List.cons_append, hpiece, hpiece]
    exact .some (.append x w)

omit hx in
/-- The text behind the end of a line, given the text at which its last piece ends. -/
def behindLineEnd (s : List Char) : List Char :=
  match s with
  | '}' :: r => '}' :: r
  | r => skipLine r

theorem dropLine_local : LocalSkip x dropLine := by
  have hend : LocalSkip x behindLineEnd := by
    refine .of_cons (fun s => ?_) fun c t hq => ?_
    · unfold behindLineEnd
      split
      · exact List.suffix_rfl
      · exact skipLine_suffix s
    · by_cases hbrace : c = '}'
      · subst hbrace
        exact .append x ('}' :: t)
      · have hskip : ∀ s, behindLineEnd (c :: s) = skipLine (c :: s) := by
          intro s; simp [behindLineEnd, hbrace]
        rw [hskip, hskip]
        exact skipLine_local.remains (c :: t) hq
  exact (skipMany_local fun _ hne hq => linePiece?_remains hx hne hq).comp hend

/-! ## Quoted tokens -/

omit hx in
theorem quotedChar?_keeps {q : Char} (hq : q ≠ '\'') (hx : GapFront x) {w : List Char}
    (hne : w ≠ []) :
    Option.Rel (Keeps x id) (quotedChar? q (w ++ x)) (quotedChar? q w) := by
  have hsingle : (q == '\'') = false := beq_false_of_ne hq
  obtain ⟨c, w, rfl⟩ := List.exists_cons_of_ne_nil hne
  rw [List.cons_append]
  simp only [quotedChar?, hsingle, Bool.false_and, Bool.not_false, Bool.and_true]
  split
  · exact .none
  · split
    · cases w with
      | nil =>
        -- Of what stands behind, a backslash takes a blank.
        obtain rfl | ⟨r, rfl | rfl | rfl | rfl⟩ := hx.eq_or
        · exact .some (.append rfl [])
        · exact .some (.past (List.suffix_cons _ _) List.suffix_rfl)
        · exact .some (.past (List.suffix_cons _ _) List.suffix_rfl)
        · exact .some (.past (List.suffix_cons _ _) List.suffix_rfl)
        · exact .some (.append rfl [])
      | cons d w =>
        rw [List.cons_append]
        dsimp only
        split
        · exact .some (.append rfl (d :: w))
        · exact .some (.append rfl w)
    · exact .some (.append rfl w)

theorem quotedChars_local {q : Char} (hq : q ≠ '\'') : Local x id (quotedChars q) :=
  many_local (fun as s => (as, s)) (fun _ _ => List.suffix_rfl)
    (fun _ hne _ => .inl (quotedChar?_keeps hq hx hne))
    fun as w _ _ _ _ => .append (List.map_id as) w

theorem readQuoted_keeps {c : Char} {w : List Char} (hq : '\'' ∉ c :: w) :
    Keeps x id (readQuoted (c :: (w ++ x))) (readQuoted (c :: w)) := by
  simp only [List.mem_cons, not_or] at hq
  have hchars : Local x id fun s => (quotedChars c s).map id (dropChar c) :=
    (quotedChars_local hx (Ne.symm hq.1)).map (fun _ => rfl) (dropChar_local c)
  rw [readQuoted_of_ne (Ne.symm hq.1), readQuoted_of_ne (Ne.symm hq.1)]
  exact hchars.keeps w hq.2

theorem readIdentifier_local : Local x id readIdentifier := by
  refine .of_cons readIdentifier_suffix fun c t hq => ?_
  rw [readIdentifier, readIdentifier]
  split
  · exact readQuoted_keeps hx hq
  · exact (readWord_local hx).keeps (c :: t) hq

/-! ## Values and settings -/

theorem readValue_local : Local x id readValue := by
  have hbare : Local x id fun s => (trim (s.takeWhile (!endsSetting ·)),
      s.dropWhile (!endsSetting ·)) :=
    (span_local _).map (g := trim) (fun _ => rfl) .refl
  refine .of_cons readValue_suffix fun c t hq => ?_
  rw [readValue, readValue]
  split
  · exact readQuoted_keeps hx hq
  · exact hbare.keeps (c :: t) hq

theorem skipSetting_local : LocalSkip x skipSetting := by
  refine skipMany_local fun w hne hq => ?_
  obtain ⟨c, w, rfl⟩ := List.exists_cons_of_ne_nil hne
  rw [List.cons_append, settingPiece?, settingPiece?]
  split
  · exact .none
  · split
    · exact .some (readQuoted_keeps hx hq).rest
    · exact .some (.append x w)

omit hx in
/-- What a value behind a colon says, or else something other, with the rest of the setting
skipped. -/
def valueOr {α : Type} (value : String → α) (other : α) (s : List Char) : α × List Char :=
  match colonValue? s with
  | some (v, t) => (value v, t)
  | none => (other, skipSetting s)

theorem valueOr_local {α : Type} (value : String → α) (other : α) :
    Local x id (valueOr value other) := by
  have hvalue : Local x id fun s => (readValue (skipInline s)).map (value ∘ String.ofList) id :=
    ((readValue_local hx).after skipInline_local).map (fun _ => rfl) .refl
  exact .of_char ':' hvalue ((skipSetting_local hx).const (a := other) rfl)
    (List.suffix_nil.1 (skipSetting_suffix [])) (fun _ => rfl)
    fun c hc t => by simp [valueOr, colonValue?, hc]

/-! ## Blocks -/

theorem skipHeader_local : LocalSkip x (skipMany headerPiece? headerPiece?_skips) := by
  refine skipMany_local fun w hne hq => ?_
  obtain ⟨c, w, rfl⟩ := List.exists_cons_of_ne_nil hne
  rw [List.cons_append, headerPiece?, headerPiece?]
  split
  · exact .none
  · split
    · exact .some (readQuoted_keeps hx hq).rest
    · exact .some (.append x w)

theorem skipToBrace_local : LocalSkip x skipToBrace := by
  refine skipMany_local fun w hne hq => ?_
  have hcomment := comment?_remains hx hne hq
  obtain ⟨c, w, rfl⟩ := List.exists_cons_of_ne_nil hne
  rw [List.cons_append] at hcomment ⊢
  rw [bodyPiece?, bodyPiece?]
  split
  · exact .some (readQuoted_keeps hx hq).rest
  · split
    · exact .none
    · refine .some ?_
      generalize comment? (c :: (w ++ x)) = o at hcomment ⊢
      generalize comment? (c :: w) = o' at hcomment ⊢
      cases hcomment with
      | none => exact .append x w
      | some h => exact h

omit hx in
theorem skipBody_suffix_brace (depth : Nat) (s : List Char) :
    skipBody depth s <:+ skipToBrace s := by
  rw [skipBody]
  generalize skipToBrace s = t
  cases t with
  | nil => exact List.suffix_rfl
  | cons c r =>
    have hrest : ∀ d, skipBody d r <:+ c :: r := fun d =>
      (skipBody_suffix d r).trans (List.suffix_cons c r)
    dsimp only
    split
    · exact hrest (depth + 1)
    · cases depth with
      | zero => exact List.suffix_cons c r
      | succ outer => exact hrest outer

theorem skipBody_local (depth : Nat) : LocalSkip x (skipBody depth) where
  suffix := skipBody_suffix depth
  remains w hq := by
    induction hn : w.length using Nat.strongRecOn generalizing depth w with
    | _ n ih =>
      have hbrace := (skipToBrace_local hx).remains w hq
      have hpast := skipBody_suffix_brace depth (w ++ x)
      have hpast' := skipBody_suffix_brace depth w
      have hsuffix := skipToBrace_suffix w
      rw [skipBody] at hpast hpast'
      rw [skipBody, skipBody]
      generalize skipToBrace (w ++ x) = t at hbrace hpast ⊢
      generalize skipToBrace w = t' at hbrace hsuffix hpast' ⊢
      cases hbrace with
      | past h => exact .past (hpast.trans h)
      | front hne =>
        obtain ⟨c, r, rfl⟩ := List.exists_cons_of_ne_nil hne
        have hr : r <:+ w := (List.suffix_cons c r).trans hsuffix
        have hlt : r.length < n := by
          have := hsuffix.length_le
          simp only [List.length_cons] at this
          omega
        have hrest : ∀ d, Remains x (skipBody d (r ++ x)) (skipBody d r) := fun d =>
          ih r.length hlt d r (fun h => hq (hr.mem h)) rfl
        rw [List.cons_append]
        dsimp only
        split
        · exact hrest (depth + 1)
        · cases depth with
          | zero => exact .append x r
          | succ outer => exact hrest outer

theorem atBrace_local : LocalSkip x atBrace :=
  .of_char '\n' (skipFiller_local hx) .refl rfl
    skipFiller_newline fun c hc t => by simp [atBrace, hc]

omit hx in
/-- The text behind a block, given the text at its opening brace. Without a brace there is none. -/
def behindBlock (s : List Char) : List Char :=
  match s with
  | '{' :: t => skipBody 0 t
  | _ => s

theorem behindBlock_local : LocalSkip x behindBlock :=
  .of_char '{' (skipBody_local hx 0) .refl rfl (fun _ => rfl)
    fun c hc t => by simp [behindBlock, hc]

theorem skipBlock_local : LocalSkip x skipBlock :=
  ((skipHeader_local hx).comp (atBrace_local hx)).comp (behindBlock_local hx)

/-! ## Types -/

omit hx in
theorem readParameter_local (depth : Nat) : Local x id (readParameter depth) where
  suffix := readParameter_suffix depth
  keeps w hq := by
    induction w generalizing depth with
    | nil => exact .past (readParameter_suffix depth x) (readParameter_suffix depth [])
    | cons c w ih =>
      rw [List.cons_append]
      by_cases hn : c = '\n'
      · subst hn
        rw [readParameter_newline, readParameter_newline]
        exact .append rfl ('\n' :: w)
      cases e : depthAfter (depth + 1) c with
      | zero =>
        rw [readParameter_last hn e, readParameter_last hn e]
        exact .append rfl w
      | succ outer =>
        obtain ⟨hvalue, hrest⟩ := ih outer (List.not_mem_of_not_mem_cons hq)
        rw [readParameter_next hn e, readParameter_next hn e]
        exact ⟨fun hne => congrArg (c :: ·) (hvalue hne), hrest⟩

omit hx in
/-- A type with the parameter behind its run of characters, if there is one. -/
def withParameter (run s : List Char) : List Char × List Char :=
  match s with
  | '(' :: t => (readParameter 0 t).map (run ++ '(' :: ·) id
  | t => (run, t)

omit hx in
theorem withParameter_local (run : List Char) : Local x id (withParameter run) := by
  have hopened : Local x id fun s => (readParameter 0 s).map (run ++ '(' :: ·) id :=
    (readParameter_local 0).map (fun _ => rfl) .refl
  exact .of_char '(' hopened (LocalSkip.refl.const (a := run) rfl) rfl (fun _ => rfl)
    fun c hc t => by simp [withParameter, hc]

omit hx in
theorem readBareType_local : Local x id readBareType := by
  refine (span_local isTypeChar).bind (fun run r =>
    if run.isEmpty then ([], r) else withParameter run (skipInline r)) (fun run s => ?_)
    fun run w _ hq => ?_
  · split
    · exact List.suffix_rfl
    · exact ((withParameter_local (x := []) run).after skipInline_local).suffix s
  · dsimp only [id]
    split
    · exact .append rfl w
    · exact ((withParameter_local run).after skipInline_local).keeps w hq

theorem readType_local : Local x id readType := by
  refine .of_cons readType_suffix fun c t hq => ?_
  by_cases hquote : c = '"'
  · subst hquote
    exact readQuoted_keeps hx hq
  · have hbare : ∀ s, readType (c :: s) = readBareType (c :: s) := fun s =>
      readType_of_no_quote (by simpa using hquote)
    rw [hbare, hbare]
    exact readBareType_local.keeps (c :: t) hq

/-! ## References -/

omit hx in
/-- Behind a dot reading goes on where a name ends, whatever the endpoint is. -/
theorem endpointOfNames_dot (names : List String) (s : List Char) :
    (endpointOfNames names ('.' :: s)).2 = (readIdentifier s).2 := by
  unfold endpointOfNames
  split
  · rename_i he; rw [(List.cons.inj he).2]; rfl
  · rename_i he; rw [(List.cons.inj he).2]
  · rename_i hdot; exact absurd rfl (hdot s)

theorem endpointOfNames_local (names : List String) : Local x id (endpointOfNames names) := by
  refine .of_cons (endpointOfNames_suffix names) fun c t hq => ?_
  by_cases hdot : c = '.'
  · subst hdot
    have hname := (readIdentifier_local hx).keeps t (List.not_mem_of_not_mem_cons hq)
    refine ⟨fun hne => ?_, ?_⟩
    · cases t with
      | nil => rw [endpointOfNames_dot] at hne; exact absurd rfl hne
      | cons d t => by_cases ho : d = '(' <;> simp [endpointOfNames, ho]
    · rw [endpointOfNames_dot, endpointOfNames_dot]
      exact hname.rest
  · rw [endpointOfNames_of_head_ne names (s := c :: (t ++ x)) (by simpa using hdot),
      endpointOfNames_of_head_ne names (s := c :: t) (by simpa using hdot)]
    exact .append rfl (c :: t)

/-- A dot leads on to a name in front of the end. If nothing is left behind that name, so it is
behind the endpoint, whether the name is one of its names or not. -/
theorem namePart?_keeps (names : List String) {w : List Char} (hne : w ≠ []) (hq : '\'' ∉ w) :
    Option.Rel (Keeps x id) (namePart? (w ++ x)) (namePart? w) ∨
      Passes x namePart? (fun as => endpointOfNames (names ++ as)) (w ++ x) ∧
        Passes [] namePart? (fun as => endpointOfNames (names ++ as)) w := by
  obtain ⟨c, w, rfl⟩ := List.exists_cons_of_ne_nil hne
  rw [List.cons_append]
  by_cases hdot : c = '.'
  · subst hdot
    have hpasses : ∀ {y s : List Char}, (readIdentifier s).2 <:+ y →
        Passes y namePart? (fun as => endpointOfNames (names ++ as)) ('.' :: s) := by
      intro y s hs
      refine ⟨fun a r hr => ?_, fun _ as => by rw [endpointOfNames_dot]; exact hs⟩
      rw [namePart?] at hr
      dsimp only at hr
      split at hr
      · cases hr
      · obtain ⟨-, rfl⟩ := Prod.mk.inj (Option.some.inj hr)
        exact hs
    obtain ⟨hvalue, hrest⟩ := (readIdentifier_local hx).keeps w (List.not_mem_of_not_mem_cons hq)
    generalize hp : readIdentifier (w ++ x) = p at hvalue hrest
    generalize hp' : readIdentifier w = p' at hvalue hrest
    obtain ⟨name, t⟩ := p
    obtain ⟨name', t'⟩ := p'
    cases hrest with
    | past h => exact .inr ⟨hpasses (hp ▸ h), hpasses (hp' ▸ List.suffix_rfl)⟩
    | front hne =>
      obtain rfl : name = name' := hvalue hne
      rw [namePart?, namePart?, hp, hp']
      dsimp only
      split
      · exact .inl .none
      · exact .inl (.some (.append rfl t'))
  · have hnone : ∀ s, namePart? (c :: s) = none := by
      intro s; simp [namePart?, hdot]
    rw [hnone, hnone]
    exact .inl .none

theorem readEndpoint_local : Local x id readEndpoint := by
  have hnames : ∀ names, Local x id fun s =>
      endpointOfNames (names ++ (many namePart? namePart?_progresses s).1)
        (many namePart? namePart?_progresses s).2 := fun names =>
    many_local (fun as => endpointOfNames (names ++ as))
      (fun _ => endpointOfNames_suffix _) (fun _ => namePart?_keeps hx names)
      fun as w _ hq _ _ => by
        rw [List.map_id]
        exact (endpointOfNames_local hx _).keeps w hq
  have hnamed : Local x id fun s =>
      if (readIdentifier s).1.isEmpty then (.malformed, (readIdentifier s).2)
      else
        endpointOfNames (String.ofList (readIdentifier s).1 ::
          (many namePart? namePart?_progresses (readIdentifier s).2).1)
          (many namePart? namePart?_progresses (readIdentifier s).2).2 := by
    refine (readIdentifier_local hx).bind (fun name r =>
      if name.isEmpty then (.malformed, r)
      else endpointOfNames (String.ofList name :: (many namePart? namePart?_progresses r).1)
        (many namePart? namePart?_progresses r).2) (fun name s => ?_) fun name w _ hq => ?_
    · split
      · exact List.suffix_rfl
      · exact (endpointOfNames_suffix _ _).trans (many_suffix s)
    · dsimp only [id]
      split
      · exact .append rfl w
      · exact (hnames [String.ofList name]).keeps w hq
  refine .of_cons readEndpoint_suffix fun c t hq => ?_
  by_cases ho : c = '('
  · subst ho
    exact .append rfl ('(' :: t)
  · have hne : ∀ s r : List Char, c :: s ≠ '(' :: r := by simp [ho]
    rw [readEndpoint_of_ne (hne _), readEndpoint_of_ne (hne _)]
    exact hnamed.keeps (c :: t) hq

theorem readSymbol?_append_gap (w : List Char) :
    readSymbol? (w ++ x) = (readSymbol? w).map (Prod.map id (· ++ x)) := by
  rcases w with _ | ⟨c, w⟩
  · obtain rfl | ⟨r, rfl | rfl | rfl | rfl⟩ := hx.eq_or <;> rfl
  by_cases hl : c = '<'
  · subst hl
    rcases w with _ | ⟨d, w⟩
    · obtain rfl | ⟨r, rfl | rfl | rfl | rfl⟩ := hx.eq_or <;> rfl
    by_cases hg : d = '>'
    · subst hg; rfl
    · have hone : ∀ s, readSymbol? ('<' :: d :: s) = some (.oneToMany, d :: s) := by
        intro s; simp [readSymbol?, hg]
      rw [List.cons_append, List.cons_append, hone, hone]
      rfl
  · unfold readSymbol?
    rw [List.cons_append]
    split <;> simp_all

/-- What comes of a symbol and the endpoint behind it, or of no symbol. -/
theorem readSymbol?_local {α : Type} {f : α → α} (stop : List Char → α)
    (next : Cardinality → EndpointText → List Char → α)
    (hstop : ∀ s, stop (s ++ x) = f (stop s))
    (hnext : ∀ k v s, next k v (s ++ x) = f (next k v s)) :
    Local x f fun s => match readSymbol? s with
      | none => (stop s, s)
      | some (k, r) => (next k (readEndpoint (skipInline r)).1 (readEndpoint (skipInline r)).2,
          (readEndpoint (skipInline r)).2) where
  suffix s := by
    split
    · exact List.suffix_rfl
    · rename_i hk
      exact (readEndpoint_suffix _).trans ((skipInline_suffix _).trans (readSymbol?_suffix hk))
  keeps w hq := by
    rw [readSymbol?_append_gap hx]
    cases hk : readSymbol? w with
    | none => exact .append (hstop w) w
    | some p =>
      obtain ⟨k, r⟩ := p
      have hend := ((readEndpoint_local hx).after skipInline_local).bind
        (fun v u => (next k v u, u)) (k := f) (fun _ _ => List.suffix_rfl)
        fun v u _ _ => .append (hnext k v u) u
      exact hend.keeps r fun h => hq ((readSymbol?_suffix hk).mem h)

omit hx in
theorem behindColon_local : LocalSkip x behindColon :=
  .of_char ':' skipInline_local .refl rfl (fun _ => rfl)
    fun c hc t => by simp [behindColon, hc]

theorem readInlineRef_local : Local x id readInlineRef := by
  have heq : readInlineRef = fun s => match readSymbol? (behindColon s) with
      | none => (none, behindColon s)
      | some (k, r) => ((readEndpoint (skipInline r)).1.name?.map (InlineRef.mk k),
          (readEndpoint (skipInline r)).2) := by
    funext s
    cases hk : readSymbol? (behindColon s) with
    | none => exact readInlineRef_of_none hk
    | some p => exact readInlineRef_of_some hk
  rw [heq]
  exact (readSymbol?_local hx (fun _ => none)
    (fun k v _ => v.name?.map (InlineRef.mk k)) (fun _ => rfl) fun _ _ _ => rfl).after
      behindColon_local

end Readers

end Dbml
