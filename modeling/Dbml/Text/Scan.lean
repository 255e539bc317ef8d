/-!
# Repeated reading

A reader takes the text that is still unread, as a list of characters, and returns what it
read together with the text after it. The text after it is always a suffix of the text before,
so a place in a document is the suffix that starts there.

`many` and `skipMany` repeat a step for as long as it succeeds. They ask for a proof that the
step leaves less text than it was given, and that proof is what ends the repetition.

Results:
* `many_induction`, `skipMany_induction`: what a step keeps, a repetition keeps;
* `many_stops`, `skipMany_stops`: where a repetition ends, the step fails;
* `many_suffix`, `skipMany_suffix`: what is left is a suffix of what was given.
-/
namespace Dbml.Text

/-- `r` is what `s` leaves after at least one character was read. -/
def Shorter (r s : List Char) : Prop := r <:+ s ∧ r.length < s.length

theorem Shorter.cons (c : Char) (s : List Char) : Shorter s (c :: s) :=
  ⟨List.suffix_cons c s, Nat.lt_succ_self _⟩

theorem Shorter.of_suffix_cons {r s : List Char} (c : Char) (h : r <:+ s) : Shorter r (c :: s) :=
  ⟨h.trans (List.suffix_cons c s), Nat.lt_succ_of_le h.length_le⟩

theorem Shorter.trans_suffix {r s t : List Char} (h : r <:+ s) (h' : Shorter s t) : Shorter r t :=
  ⟨h.trans h'.1, Nat.lt_of_le_of_lt h.length_le h'.2⟩

theorem Shorter.suffix_trans {r s t : List Char} (h : Shorter r s) (h' : s <:+ t) : Shorter r t :=
  ⟨h.1.trans h', Nat.lt_of_lt_of_le h.2 h'.length_le⟩

/-! ## Collecting -/

/-- A step that reads at least one character whenever it succeeds. -/
def Progresses {α : Type} (step : List Char → Option (α × List Char)) : Prop :=
  ∀ ⦃s : List Char⦄ ⦃a : α⦄ ⦃r : List Char⦄, step s = some (a, r) → Shorter r s

/-- Repeats a step until it fails: what the steps read, in order, and the text after them. -/
def many {α : Type} (step : List Char → Option (α × List Char)) (progresses : Progresses step)
    (s : List Char) : List α × List Char :=
  match _h : step s with
  | none => ([], s)
  | some (a, r) => ((many step progresses r).map (a :: ·) id)
termination_by s.length
decreasing_by exact (progresses _h).2

theorem many_of_none {α : Type} {step : List Char → Option (α × List Char)} {p : Progresses step}
    {s : List Char} (h : step s = none) : many step p s = ([], s) := by
  rw [many]; split
  · rfl
  · simp_all

theorem many_of_some {α : Type} {step : List Char → Option (α × List Char)} {p : Progresses step}
    {s r : List Char} {a : α} (h : step s = some (a, r)) :
    many step p s = (a :: (many step p r).1, (many step p r).2) := by
  rw [many]; split
  · simp_all
  · simp_all [Prod.map]

/-- What holds where the step fails, and is kept by a step before it, holds of a repetition. -/
theorem many_induction {α : Type} {step : List Char → Option (α × List Char)}
    {p : Progresses step} {motive : List Char → List α → List Char → Prop}
    (stop : ∀ s, step s = none → motive s [] s)
    (go : ∀ s a r as t, step s = some (a, r) → motive r as t → motive s (a :: as) t)
    (s : List Char) : motive s (many step p s).1 (many step p s).2 := by
  induction h : s.length using Nat.strongRecOn generalizing s with
  | _ n ih =>
    cases hs : step s with
    | none => rw [many_of_none hs]; exact stop s hs
    | some ar =>
      obtain ⟨a, r⟩ := ar
      rw [many_of_some hs]
      exact go s a r _ _ hs (ih r.length (h ▸ (p hs).2) r rfl)

section Many

variable {α : Type} {step : List Char → Option (α × List Char)} {p : Progresses step}

/-- Where a repetition ends, its step fails. -/
theorem many_stops (s : List Char) : step (many step p s).2 = none :=
  many_induction (motive := fun _ _ t => step t = none) (fun _ h => h) (fun _ _ _ _ _ _ h => h) s

theorem many_suffix (s : List Char) : (many step p s).2 <:+ s :=
  many_induction (motive := fun s _ t => t <:+ s) (fun _ _ => List.suffix_rfl)
    (fun _ _ _ _ _ h ht => ht.trans (p h).1) s

/-- What a repetition reads, a step reads somewhere in its text. -/
theorem many_mem (s : List Char) :
    ∀ a ∈ (many step p s).1, ∃ t r, t <:+ s ∧ step t = some (a, r) := by
  refine many_induction (motive := fun s as _ => ∀ a ∈ as, ∃ t r, t <:+ s ∧ step t = some (a, r))
    (fun s _ => by simp) (fun s a r as _ h ih => ?_) s
  refine List.forall_mem_cons.2 ⟨⟨s, r, List.suffix_rfl, h⟩, fun b hb => ?_⟩
  obtain ⟨t, u, ht, hu⟩ := ih b hb
  exact ⟨t, u, ht.trans (p h).1, hu⟩

end Many

/-! ## Skipping -/

/-- A step that skips at least one character whenever it succeeds. -/
def Skips (step : List Char → Option (List Char)) : Prop :=
  ∀ ⦃s r : List Char⦄, step s = some r → Shorter r s

/-- Repeats a skipping step until it fails. -/
def skipMany (step : List Char → Option (List Char)) (skips : Skips step) (s : List Char) :
    List Char :=
  match _h : step s with
  | none => s
  | some r => skipMany step skips r
termination_by s.length
decreasing_by exact (skips _h).2

theorem skipMany_of_none {step : List Char → Option (List Char)} {p : Skips step} {s : List Char}
    (h : step s = none) : skipMany step p s = s := by
  rw [skipMany]; split
  · rfl
  · simp_all

theorem skipMany_of_some {step : List Char → Option (List Char)} {p : Skips step}
    {s r : List Char} (h : step s = some r) : skipMany step p s = skipMany step p r := by
  rw [skipMany]; split <;> simp_all

/-- What holds where the step fails, and is kept by a step before it, holds of a skipping
repetition. -/
theorem skipMany_induction {step : List Char → Option (List Char)} {p : Skips step}
    {motive : List Char → List Char → Prop} (stop : ∀ s, step s = none → motive s s)
    (go : ∀ s r t, step s = some r → motive r t → motive s t) (s : List Char) :
    motive s (skipMany step p s) := by
  induction h : s.length using Nat.strongRecOn generalizing s with
  | _ n ih =>
    cases hs : step s with
    | none => rw [skipMany_of_none hs]; exact stop s hs
    | some r => rw [skipMany_of_some hs]; exact go s r _ hs (ih r.length (h ▸ (p hs).2) r rfl)

/-- Where a skipping repetition ends, its step fails. -/
theorem skipMany_stops {step : List Char → Option (List Char)} {p : Skips step} (s : List Char) :
    step (skipMany step p s) = none :=
  skipMany_induction (motive := fun _ t => step t = none) (fun _ h => h) (fun _ _ _ _ h => h) s

theorem skipMany_suffix {step : List Char → Option (List Char)} {p : Skips step} (s : List Char) :
    skipMany step p s <:+ s :=
  skipMany_induction (motive := fun s t => t <:+ s) (fun _ _ => List.suffix_rfl)
    (fun _ _ _ h ht => ht.trans (p h).1) s

end Dbml.Text
