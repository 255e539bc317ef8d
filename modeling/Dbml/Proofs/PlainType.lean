import Dbml.Outline.ColumnType
import Dbml.Proofs.Lexeme

/-!
# Column types read back

Types are written as they are. Most of what a document calls a type is read back from that, but a
type that stood in double quotes may hold anything.

Results:
* `readType_plain`, `readType_append`: a plain type is read back, whatever follows that does not go
  on with it;
* `readParameter_cases`: what `readParameter` takes either closes or stays open to the line's end.
-/
namespace Dbml.Outline

open Text

/-! ## Nesting -/

/-- How many more parentheses a text opens than it closes. -/
def nesting (s : List Char) : Int := s.count '(' - s.count ')'

/-- The number of open parentheses after a character. -/
def depthAfter (depth : Nat) (c : Char) : Nat :=
  if c = '(' then depth + 1 else if c = ')' then depth - 1 else depth

/-- One line that closes `depth` open parentheses at its last character and not before. -/
structure Closes (depth : Nat) (s : List Char) : Prop where
  oneLine : '\n' ∉ s
  closed : depth + nesting s = 0
  notBefore : ∀ p, p <+: s → depth + nesting p = 0 → p = s

/-- One line that never closes all of `depth` open parentheses. -/
structure StaysOpen (depth : Nat) (s : List Char) : Prop where
  oneLine : '\n' ∉ s
  never : ∀ p, p <+: s → depth + nesting p ≠ 0

theorem nesting_nil : nesting [] = 0 := rfl

theorem depth_add_nesting_cons {depth : Nat} (hd : 0 < depth) (c : Char) (s : List Char) :
    depth + nesting (c :: s) = depthAfter depth c + nesting s := by
  simp only [nesting, depthAfter, List.count_cons, beq_iff_eq]
  by_cases ho : c = '('
  · subst ho; simp; omega
  · by_cases hc : c = ')'
    · subst hc; simp; omega
    · simp [ho, hc]

theorem closes_zero {s : List Char} : Closes 0 s ↔ s = [] := by
  constructor
  · exact fun h => (h.notBefore [] List.nil_prefix rfl).symm
  · rintro rfl
    exact ⟨List.not_mem_nil, rfl, fun p hp _ => List.prefix_nil.1 hp⟩

theorem not_closes_succ_nil (depth : Nat) : ¬Closes (depth + 1) [] := by
  intro h
  have := h.closed
  rw [nesting_nil] at this; omega

theorem closes_cons {depth : Nat} (hd : 0 < depth) {c : Char} {s : List Char} :
    Closes depth (c :: s) ↔ c ≠ '\n' ∧ Closes (depthAfter depth c) s := by
  constructor
  · intro h
    have hn := h.oneLine
    simp only [List.mem_cons, not_or] at hn
    refine ⟨Ne.symm hn.1, hn.2, ?_, ?_⟩
    · rw [← depth_add_nesting_cons hd]; exact h.closed
    · intro p hp he
      rw [← depth_add_nesting_cons hd] at he
      exact (List.cons.inj (h.notBefore (c :: p) (List.cons_prefix_cons.2 ⟨rfl, hp⟩) he)).2
  · rintro ⟨hc, h⟩
    refine ⟨?_, ?_, ?_⟩
    · simp only [List.mem_cons, not_or]; exact ⟨Ne.symm hc, h.oneLine⟩
    · rw [depth_add_nesting_cons hd]; exact h.closed
    · intro p hp he
      rcases List.prefix_cons_iff.1 hp with rfl | ⟨q, rfl, hq⟩
      · rw [nesting_nil] at he; omega
      · rw [depth_add_nesting_cons hd] at he
        rw [h.notBefore q hq he]

theorem staysOpen_nil {depth : Nat} (hd : 0 < depth) : StaysOpen depth [] := by
  refine ⟨List.not_mem_nil, fun p hp => ?_⟩
  rw [List.prefix_nil.1 hp, nesting_nil]; omega

theorem staysOpen_cons {depth : Nat} (hd : 0 < depth) {c : Char} {s : List Char} :
    StaysOpen depth (c :: s) ↔ c ≠ '\n' ∧ StaysOpen (depthAfter depth c) s := by
  constructor
  · intro h
    have hn := h.oneLine
    simp only [List.mem_cons, not_or] at hn
    refine ⟨Ne.symm hn.1, hn.2, fun p hp he => ?_⟩
    rw [← depth_add_nesting_cons hd] at he
    exact h.never (c :: p) (List.cons_prefix_cons.2 ⟨rfl, hp⟩) he
  · rintro ⟨hc, h⟩
    refine ⟨?_, fun p hp he => ?_⟩
    · simp only [List.mem_cons, not_or]; exact ⟨Ne.symm hc, h.oneLine⟩
    · rcases List.prefix_cons_iff.1 hp with rfl | ⟨q, rfl, hq⟩
      · rw [nesting_nil] at he; omega
      · rw [depth_add_nesting_cons hd] at he
        exact h.never q hq he

theorem not_staysOpen_zero (s : List Char) : ¬StaysOpen 0 s :=
  fun h => h.never [] List.nil_prefix rfl

instance decidableCloses : ∀ depth s, Decidable (Closes depth s)
  | 0, _ => decidable_of_iff _ closes_zero.symm
  | depth + 1, [] => isFalse (not_closes_succ_nil depth)
  | depth + 1, c :: s =>
    have := decidableCloses (depthAfter (depth + 1) c) s
    decidable_of_iff _ (closes_cons (Nat.succ_pos depth)).symm

/-! ## Parameters -/

theorem readParameter_newline (depth : Nat) (s : List Char) :
    readParameter depth ('\n' :: s) = ([], '\n' :: s) := by simp [readParameter]

theorem readParameter_last {depth : Nat} {c : Char} (hc : c ≠ '\n')
    (h : depthAfter (depth + 1) c = 0) (s : List Char) :
    readParameter depth (c :: s) = ([c], s) := by
  unfold depthAfter at h
  split at h
  · omega
  · split at h
    · rename_i hp; subst hp
      obtain rfl : depth = 0 := by omega
      rfl
    · omega

theorem readParameter_next {depth outer : Nat} {c : Char} (hc : c ≠ '\n')
    (h : depthAfter (depth + 1) c = outer + 1) (s : List Char) :
    readParameter depth (c :: s) = (readParameter outer s).map (c :: ·) id := by
  unfold depthAfter at h
  split at h
  · rename_i hp; subst hp
    obtain rfl : depth + 1 = outer := by omega
    simp [readParameter]
  · split at h
    · rename_i hp; subst hp
      obtain rfl : depth = outer + 1 := by omega
      simp [readParameter]
    · rename_i ho hp
      obtain rfl : depth = outer := by omega
      simp [readParameter, hc, ho, hp]

theorem readParameter_of_closes {depth : Nat} {p : List Char} (h : Closes (depth + 1) p)
    (s : List Char) : readParameter depth (p ++ s) = (p, s) := by
  induction p generalizing depth with
  | nil => exact absurd h (not_closes_succ_nil depth)
  | cons c p ih =>
    obtain ⟨hc, hp⟩ := (closes_cons (Nat.succ_pos depth)).1 h
    rw [List.cons_append]
    cases e : depthAfter (depth + 1) c with
    | zero =>
      rw [e] at hp
      obtain rfl := closes_zero.1 hp
      exact readParameter_last hc e s
    | succ outer => rw [readParameter_next hc e, ih (e ▸ hp)]; rfl

theorem readParameter_of_staysOpen {depth : Nat} {p s : List Char} (h : StaysOpen (depth + 1) p)
    (hs : ∀ c ∈ s.head?, c = '\n') : readParameter depth (p ++ s) = (p, s) := by
  induction p generalizing depth with
  | nil =>
    cases s with
    | nil => rfl
    | cons c s =>
      obtain rfl : c = '\n' := hs c rfl
      exact readParameter_newline depth s
  | cons c p ih =>
    obtain ⟨hc, hp⟩ := (staysOpen_cons (Nat.succ_pos depth)).1 h
    rw [List.cons_append]
    cases e : depthAfter (depth + 1) c with
    | zero => rw [e] at hp; exact absurd hp (not_staysOpen_zero p)
    | succ outer => rw [readParameter_next hc e, ih (e ▸ hp)]; rfl

/-- What is taken for a parameter closes at its end, or it stays open and ends with the line. -/
theorem readParameter_cases (depth : Nat) (s : List Char) :
    s = (readParameter depth s).1 ++ (readParameter depth s).2 ∧
      (Closes (depth + 1) (readParameter depth s).1 ∨
        StaysOpen (depth + 1) (readParameter depth s).1 ∧
          ∀ c ∈ (readParameter depth s).2.head?, c = '\n') := by
  induction s generalizing depth with
  | nil => exact ⟨rfl, .inr ⟨staysOpen_nil (Nat.succ_pos depth), by simp [readParameter]⟩⟩
  | cons c s ih =>
    by_cases hc : c = '\n'
    · subst hc
      rw [readParameter_newline]
      exact ⟨rfl, .inr ⟨staysOpen_nil (Nat.succ_pos depth), by simp⟩⟩
    · cases e : depthAfter (depth + 1) c with
      | zero =>
        rw [readParameter_last hc e]
        refine ⟨rfl, .inl ((closes_cons (Nat.succ_pos depth)).2 ⟨hc, ?_⟩)⟩
        rw [e]; exact closes_zero.2 rfl
      | succ outer =>
        obtain ⟨hs, hp⟩ := ih outer
        rw [readParameter_next hc e]
        refine ⟨congrArg (c :: ·) hs, ?_⟩
        rcases hp with hp | ⟨hp, hr⟩
        · exact .inl ((closes_cons (Nat.succ_pos depth)).2 ⟨hc, e ▸ hp⟩)
        · exact .inr ⟨(staysOpen_cons (Nat.succ_pos depth)).2 ⟨hc, e ▸ hp⟩, hr⟩

/-! ## Types -/

/-- A parameter: one line that opens with a parenthesis and closes it at its last character and
not before. -/
def IsParameter (s : List Char) : Prop := ∃ t, s = '(' :: t ∧ Closes 1 t

/-- A parameter that its line never closes. -/
def IsOpenParameter (s : List Char) : Prop := ∃ t, s = '(' :: t ∧ StaysOpen 1 t

/-- A type that starts as bare types do: with a run of characters of which the first is no double
quote. -/
structure BareType (type : List Char) : Prop where
  no_quote : type.head? ≠ some '"'
  run : type.takeWhile isTypeChar ≠ []

/-- A type that is read back from its own text: a run of characters, and perhaps a parameter right
behind them. -/
structure PlainType (type : List Char) : Prop extends BareType type where
  parameter : type.dropWhile isTypeChar = [] ∨ IsParameter (type.dropWhile isTypeChar)

/-- A type that is read back from its own text at the end of a line only: a run of characters and a
parameter that is never closed. -/
structure OpenType (type : List Char) : Prop extends BareType type where
  parameter : IsOpenParameter (type.dropWhile isTypeChar)

instance (s : List Char) : Decidable (IsParameter s) :=
  match s with
  | [] => isFalse (by rintro ⟨t, h, -⟩; simp at h)
  | c :: t => decidable_of_iff (c = '(' ∧ Closes 1 t)
    ⟨fun ⟨hc, ht⟩ => ⟨t, hc ▸ rfl, ht⟩, fun ⟨_, he, ht⟩ =>
      ⟨(List.cons.inj he).1, (List.cons.inj he).2 ▸ ht⟩⟩

instance (type : List Char) : Decidable (PlainType type) :=
  decidable_of_iff ((type.head? ≠ some '"' ∧ type.takeWhile isTypeChar ≠ []) ∧
      (type.dropWhile isTypeChar = [] ∨ IsParameter (type.dropWhile isTypeChar)))
    ⟨fun h => ⟨⟨h.1.1, h.1.2⟩, h.2⟩, fun h => ⟨⟨h.no_quote, h.run⟩, h.parameter⟩⟩

theorem readType_of_no_quote {s : List Char} (h : s.head? ≠ some '"') :
    readType s = readBareType s := by
  unfold readType; split
  · simp at h
  · rfl

theorem BareType.head {type : List Char} (h : BareType type) :
    ∃ c r, type = c :: r ∧ isTypeChar c = true := by
  cases type with
  | nil => exact absurd rfl h.run
  | cons c r =>
    refine ⟨c, r, rfl, ?_⟩
    by_contra hc
    exact h.run (by simp [hc])

theorem BareType.ne_nil {type : List Char} (h : BareType type) : type ≠ [] := by
  obtain ⟨c, r, rfl, -⟩ := h.head
  exact List.cons_ne_nil c r

theorem BareType.readType_append {type : List Char} (h : BareType type) (s : List Char) :
    readType (type ++ s) = readBareType (type ++ s) := by
  refine readType_of_no_quote ?_
  obtain ⟨c, r, rfl, -⟩ := h.head
  simpa using h.no_quote

theorem readBareType_run {run s : List Char} (hr : run ≠ []) (hc : ∀ c ∈ run, isTypeChar c = true)
    (hs : StopsAt isTypeChar s) (hp : (skipInline s).head? ≠ some '(') :
    readBareType (run ++ s) = (run, skipInline s) := by
  obtain ⟨ht, hd⟩ := span_append hc hs
  simp only [readBareType, ht, hd, List.isEmpty_iff, hr, if_false]
  split
  · rename_i e; rw [e] at hp; simp at hp
  · rfl

theorem readBareType_parameter {run t : List Char} (hr : run ≠ [])
    (hc : ∀ c ∈ run, isTypeChar c = true) :
    readBareType (run ++ '(' :: t) = (readParameter 0 t).map (run ++ '(' :: ·) id := by
  obtain ⟨ht, hd⟩ := span_append hc (s := '(' :: t) (stopsAt_cons.2 rfl)
  have hi : skipInline ('(' :: t) = '(' :: t := by simp [skipInline, isInlineSpace]
  simp only [readBareType, ht, hd, List.isEmpty_iff, hr, if_false, hi]

theorem readType_run_parameter {type t s : List Char} (h : BareType type)
    (he : type.dropWhile isTypeChar = '(' :: t) (hr : readParameter 0 (t ++ s) = (t, s)) :
    readType (type ++ s) = (type, s) := by
  have hc : ∀ c ∈ type.takeWhile isTypeChar, isTypeChar c = true := fun c hc =>
    List.mem_takeWhile_imp hc
  have hrun : type = type.takeWhile isTypeChar ++ '(' :: t := by
    rw [← he, List.takeWhile_append_dropWhile]
  have := readBareType_parameter (t := t ++ s) h.run hc
  rw [hr, ← List.cons_append, ← List.append_assoc, ← hrun] at this
  rw [h.readType_append, this]
  simp [← hrun]

/-- A plain type is read back, if what follows goes on neither with the run nor with a parameter.
Behind a parameter reading stops at once, else past blanks. -/
theorem readType_plain {type s : List Char} (h : PlainType type) (hs : StopsAt isTypeChar s)
    (hp : (skipInline s).head? ≠ some '(') :
    readType (type ++ s) = (type, s) ∨ readType (type ++ s) = (type, skipInline s) := by
  rcases h.parameter with he | ⟨t, he, ht⟩
  · have hrun : type.takeWhile isTypeChar = type := by
      rw [← List.append_nil (type.takeWhile isTypeChar), ← he, List.takeWhile_append_dropWhile]
    have hc : ∀ c ∈ type, isTypeChar c = true := fun c hc => List.mem_takeWhile_imp (hrun ▸ hc)
    rw [h.readType_append]
    exact .inr (readBareType_run h.ne_nil hc hs hp)
  · exact .inl (readType_run_parameter h.toBareType he (readParameter_of_closes ht s))

/-- A plain type is read back, up to blanks behind it. -/
theorem readType_append {type s : List Char} (h : PlainType type) (hs : StopsAt isTypeChar s)
    (hp : (skipInline s).head? ≠ some '(') :
    ∃ t, readType (type ++ s) = (type, t) ∧ skipInline t = skipInline s := by
  rcases readType_plain h hs hp with he | he
  · exact ⟨s, he, rfl⟩
  · exact ⟨skipInline s, he, skipInline_skipInline s⟩

/-- A type with an unclosed parameter is read back at the end of its line. -/
theorem readType_open {type s : List Char} (h : OpenType type) (hs : ∀ c ∈ s.head?, c = '\n') :
    readType (type ++ s) = (type, s) := by
  obtain ⟨t, he, ht⟩ := h.parameter
  exact readType_run_parameter h.toBareType he (readParameter_of_staysOpen ht hs)

/-- What `readBareType` takes is a run of characters, and perhaps what `readParameter` takes behind
a parenthesis that follows it. -/
theorem readBareType_cases {s type t : List Char} (hne : type ≠ []) (h : readBareType s = (type, t)) :
    s.takeWhile isTypeChar ≠ [] ∧ (type = s.takeWhile isTypeChar ∨
      ∃ u, skipInline (s.dropWhile isTypeChar) = '(' :: u ∧
        type = s.takeWhile isTypeChar ++ '(' :: (readParameter 0 u).1) := by
  unfold readBareType at h
  dsimp only at h
  split at h
  · exact absurd (Prod.mk.inj h).1.symm hne
  · rename_i hrun
    refine ⟨by simpa using hrun, ?_⟩
    split at h
    · rename_i u hu
      exact .inr ⟨u, hu, (congrArg Prod.fst h).symm⟩
    · exact .inl (Prod.mk.inj h).1.symm

/-- A bare type that is read back is plain, or it has an unclosed parameter and ends its line. -/
theorem plain_of_readBareType {type s t : List Char} (hne : type ≠ [])
    (hq : (skipInline (type ++ s)).head? ≠ some '"')
    (h : readBareType (skipInline (type ++ s)) = (type, t)) :
    PlainType type ∨ OpenType type ∧ ∀ c ∈ s.head?, c = '\n' := by
  obtain ⟨hrun, hcases⟩ := readBareType_cases hne h
  have hall : ∀ c ∈ (skipInline (type ++ s)).takeWhile isTypeChar, isTypeChar c = true :=
    fun c hc => List.mem_takeWhile_imp hc
  have hhead : ∃ c r, type = c :: r ∧ isTypeChar c = true := by
    obtain ⟨c, r, hcr⟩ := List.exists_cons_of_ne_nil hrun
    have hc := hall c (by rw [hcr]; exact List.mem_cons_self)
    rcases hcases with he | ⟨u, -, he⟩
    · exact ⟨c, r, he.trans hcr, hc⟩
    · rw [hcr] at he; exact ⟨c, _, he, hc⟩
  have hskip : skipInline (type ++ s) = type ++ s := by
    obtain ⟨c, r, rfl, hc⟩ := hhead
    refine skipInline_of_stopsAt (stopsAt_cons.2 ?_)
    simp only [isTypeChar, Bool.not_eq_true', Bool.or_eq_false_iff] at hc
    exact hc.1.1.1.1
  rw [hskip] at hq hrun hcases hall
  have hquote : type.head? ≠ some '"' := by
    obtain ⟨c, r, rfl, -⟩ := hhead
    exact hq
  generalize hw : (type ++ s).takeWhile isTypeChar = run at hrun hcases hall
  rcases hcases with rfl | ⟨u, hu, rfl⟩
  · have ht := span_append (s := []) hall (stopsAt_nil _)
    rw [List.append_nil] at ht
    exact .inl ⟨⟨hquote, by rw [ht.1]; exact hrun⟩, .inl ht.2⟩
  · have ht := span_append (s := '(' :: (readParameter 0 u).1) hall (stopsAt_cons.2 rfl)
    have hts := span_append (s := '(' :: ((readParameter 0 u).1 ++ s)) hall (stopsAt_cons.2 rfl)
    rw [List.append_assoc, List.cons_append, hts.2] at hu
    have hus : (readParameter 0 u).1 ++ s = u := (List.cons.inj hu).2
    have hbare : BareType (run ++ '(' :: (readParameter 0 u).1) :=
      ⟨hquote, by rw [ht.1]; exact hrun⟩
    obtain ⟨hsplit, hp | ⟨hp, hend⟩⟩ := readParameter_cases 0 u
    · exact .inl ⟨hbare, .inr ⟨_, ht.2, hp⟩⟩
    · refine .inr ⟨⟨hbare, _, ht.2, hp⟩, ?_⟩
      rw [List.append_cancel_left (hus.trans hsplit)]
      exact hend

end Dbml.Outline
