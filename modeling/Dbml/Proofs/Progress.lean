import Dbml.Proofs.Loop
import Dbml.Proofs.Supply

/-!
# Every text is read to its end

No loop of the reader stands still. Its places are offsets of the text, from the front to the end,
and each turn goes on at a greater one, so it is left after as many turns as there are characters
behind it, if not before. The look-ahead for the quote that closes a value goes by offsets as well,
and only it may pass the end, by one, behind a backslash.

Nothing in a text stops a parse: there is no schema for a blank text alone, if no id is refused.

Results:
* `exists_runs`: a loop whose turns make something smaller is left;
* `Loop.forward`: the offsets of a loop;
* `lookAheadForward`: the offsets of the look-ahead, which finds what `closesLater` says;
* `parse_progresses`: every loop is left, and a text without a schema is blank.
-/
namespace Dbml

open Text Outline

/-! ## Runs -/

/-- A loop with turns `next?` that starts at `a` and is left at `b` after `n` turns. -/
inductive Runs {α : Type} (next? : α → Option α) : α → Nat → α → Prop
  | stop {a : α} (h : next? a = none) : Runs next? a 0 a
  | turn {a b c : α} {n : Nat} (h : next? a = some b) (r : Runs next? b n c) :
    Runs next? a (n + 1) c

/-- A loop is left if each turn makes something smaller, after so many turns at most. -/
theorem exists_runs {α : Type} {next? : α → Option α} (size : α → Nat)
    (h : ∀ a b, next? a = some b → size b < size a) (a : α) :
    ∃ n b, n ≤ size a ∧ Runs next? a n b := by
  induction hm : size a using Nat.strongRecOn generalizing a with
  | _ m ih =>
    cases ha : next? a with
    | none => exact ⟨0, a, Nat.zero_le m, .stop ha⟩
    | some b =>
      have hlt := h a b ha
      obtain ⟨n, c, hn, hr⟩ := ih (size b) (hm ▸ hlt) b rfl
      exact ⟨n + 1, c, by omega, .turn ha hr⟩

/-- What each turn keeps, a run keeps up to where the loop is left. -/
theorem Runs.keeps {α β : Type} {next? : α → Option α} {f : α → β}
    (hf : ∀ a b, next? a = some b → f a = f b) {a b : α} {n : Nat} (h : Runs next? a n b) :
    next? b = none ∧ f a = f b := by
  induction h with
  | stop h => exact ⟨h, rfl⟩
  | turn h _ ih => exact ⟨ih.1, (hf _ _ h).trans ih.2⟩

/-! ## Offsets -/

/-- A suffix of a text from an offset on starts at an offset that is not smaller. -/
theorem exists_offset {text r : List Char} {i : Nat} (h : r <:+ text.drop i) :
    ∃ j, j + r.length = text.length ∧ r = text.drop j := by
  have hr : r <:+ text := h.trans (List.drop_suffix i text)
  have hlen := hr.length_le
  exact ⟨text.length - r.length, by omega, List.suffix_iff_eq_drop.1 hr⟩

/-- A turn of a loop, with what the loop has still to read. -/
def Loop.turn? (a : Loop × List Char) : Option (Loop × List Char) := a.1.next? a.2

/-- A loop at an offset of a text goes on at a greater offset or is left at one that is not smaller,
and none of them is past the end. It is left after as many turns at most as there are characters
behind it, at the place where the reader goes on. -/
structure Loop.Forward (l : Loop) (text : List Char) (i : Nat) : Prop where
  turn : ∀ k r, l.next? (text.drop i) = some (k, r) →
    ∃ j, i < j ∧ j ≤ text.length ∧ r = text.drop j
  left : l.next? (text.drop i) = none →
    ∃ j, i ≤ j ∧ j ≤ text.length ∧ l.finish (text.drop i) = text.drop j
  ends : ∃ n k r, n ≤ text.length - i ∧ Runs Loop.turn? (l, text.drop i) n (k, r) ∧
    k.finish r = l.after (text.drop i)

theorem Loop.forward (l : Loop) {text : List Char} {i : Nat} (hi : i ≤ text.length) :
    l.Forward text i := by
  have hdrop : (text.drop i).length = text.length - i := List.length_drop
  refine ⟨fun k r h => ?_, fun h => ?_, ?_⟩
  · obtain ⟨⟨hsuffix, hshorter⟩, -⟩ := (l.turns _).goes k r h
    obtain ⟨j, hj, hr⟩ := exists_offset hsuffix
    exact ⟨j, by omega, by omega, hr⟩
  · have hsuffix := ((l.turns _).stops h).1
    have hlen := hsuffix.length_le
    obtain ⟨j, hj, hr⟩ := exists_offset hsuffix
    exact ⟨j, by omega, by omega, hr⟩
  · have hsmaller : ∀ a b, Loop.turn? a = some b → b.2.length < a.2.length :=
      fun a b h => ((a.1.turns a.2).goes b.1 b.2 h).1.2
    obtain ⟨n, ⟨k, r⟩, hn, hruns⟩ := exists_runs (fun a => a.2.length) hsmaller (l, text.drop i)
    obtain ⟨hstop, hkeeps⟩ := hruns.keeps (f := fun a => a.1.after a.2)
      fun a b h => ((a.1.turns a.2).goes b.1 b.2 h).2
    exact ⟨n, k, r, hdrop ▸ hn, hruns, (((k.turns r).stops hstop).2.symm).trans hkeeps.symm⟩

/-! ## The look-ahead -/

/-- One turn of the look-ahead for the quote that closes a value, from an offset of the text. -/
def lookAhead? (text : List Char) (i : Nat) : Option Nat :=
  match text[i]? with
  | none => none
  | some c => if c == '\'' then none else some (if c == '\\' then i + 2 else i + 1)

/-- What the look-ahead says where it stops: whether a quote stands there that ends a value. -/
def lookAheadFinds (text : List Char) (i : Nat) : Bool :=
  text[i]? == some '\'' && valueEnds (skipInline (text.drop (i + 1)))

/-- The look-ahead at an offset of a text goes on at a greater one, at most one past the end, and
stops there. It stops after as many turns at most as there are characters behind it, with what
`closesLater` says of the text. -/
structure LookAheadForward (text : List Char) (i : Nat) : Prop where
  turn : ∀ j, lookAhead? text i = some j → i < j ∧ j ≤ text.length + 1
  past : ∀ j, text.length ≤ j → lookAhead? text j = none
  ends : ∃ n j, n ≤ text.length - i ∧ Runs (lookAhead? text) i n j ∧
    lookAheadFinds text j = closesLater (text.drop i)

/-- A turn of the look-ahead starts inside the text and does not change what is to be found. -/
theorem lookAhead?_eq_some {text : List Char} {i j : Nat} (h : lookAhead? text i = some j) :
    i < text.length ∧ i < j ∧ j ≤ i + 2 ∧ closesLater (text.drop i) = closesLater (text.drop j) := by
  unfold lookAhead? at h
  split at h
  · cases h
  · rename_i c hc
    obtain ⟨hi, hget⟩ := List.getElem?_eq_some_iff.1 hc
    have hdrop : text.drop i = c :: text.drop (i + 1) := by rw [← hget, List.drop_eq_getElem_cons hi]
    split at h
    · cases h
    · rename_i hq
      obtain rfl := Option.some.inj h
      by_cases hb : c = '\\'
      · subst hb
        have htail : (text.drop (i + 1)).tail = text.drop (i + 2) := List.tail_drop
        exact ⟨hi, by simp, by simp, by rw [hdrop, closesLater_backslash, htail]; rfl⟩
      · have hq : c ≠ '\'' := by simpa using hq
        rw [if_neg (by simpa using hb), hdrop, closesLater_cons hb hq]
        exact ⟨hi, by omega, by omega, rfl⟩

theorem lookAhead?_eq_none {text : List Char} {i : Nat} (h : lookAhead? text i = none) :
    closesLater (text.drop i) = lookAheadFinds text i := by
  unfold lookAhead? at h
  split at h
  · rename_i hnone
    rw [List.drop_eq_nil_iff.2 (List.getElem?_eq_none_iff.1 hnone), lookAheadFinds, hnone]
    rfl
  · rename_i c hc
    obtain ⟨hi, hget⟩ := List.getElem?_eq_some_iff.1 hc
    split at h
    · rename_i hq
      obtain rfl : c = '\'' := by simpa using hq
      rw [List.drop_eq_getElem_cons hi, hget, lookAheadFinds, hc]
      simp [closesLater]
    · cases h

theorem lookAheadForward (text : List Char) (i : Nat) : LookAheadForward text i := by
  refine ⟨fun j h => ?_, fun j h => ?_, ?_⟩
  · obtain ⟨hlt, hij, hle, -⟩ := lookAhead?_eq_some h
    exact ⟨hij, by omega⟩
  · simp [lookAhead?, List.getElem?_eq_none h]
  · have hsmaller : ∀ a b, lookAhead? text a = some b → text.length - b < text.length - a := by
      intro a b h
      obtain ⟨hlt, hab, -, -⟩ := lookAhead?_eq_some h
      omega
    obtain ⟨n, j, hn, hruns⟩ := exists_runs (fun i => text.length - i) hsmaller i
    obtain ⟨hstop, hkeeps⟩ := hruns.keeps (f := fun i => closesLater (text.drop i))
      fun a b h => (lookAhead?_eq_some h).2.2.2
    exact ⟨n, j, hn, hruns, (lookAhead?_eq_none hstop).symm.trans hkeeps.symm⟩

/-! ## Parsing -/

/-- Every loop of the reader goes forward through a text, whatever the text, and so does the
look-ahead. If no id is refused, there is a schema unless the text is blank, and for a blank text
that it is blank is all that is reported. -/
theorem parse_progresses {σ : Type} {source : IdSource σ} (hs : source.Total) (st : σ)
    (text : String) :
    (∀ (l : Loop) (i : Nat), i ≤ text.toList.length → l.Forward text.toList i) ∧
      (∀ i : Nat, LookAheadForward text.toList i) ∧
      ((parse source st text).schema = none ↔ text.toList.all isBlank = true) ∧
      ((parse source st text).schema = none →
        (parse source st text).diagnostics = [.errorAt ⟨1, 1⟩ "Empty input"]) := by
  refine ⟨fun l i hi => l.forward hi, lookAheadForward text.toList, ?_⟩
  cases hb : text.toList.all isBlank with
  | true => rw [parse_of_blank source st hb]; exact ⟨by simp [Parsed.empty], fun _ => rfl⟩
  | false => rw [parse_of_total hs st hb]; simp

/-- A text that ends in a backslash, behind a value that is never closed. -/
def cutOff : String := "Table a \x7b\n  x int [note: 'it\n\\"

theorem parse_progresses_cutOff :
    IdSource.counting.Total ∧ 29 ≤ cutOff.toList.length ∧
      Loop.tableBody.next? (cutOff.toList.drop 29) = some (.tableBody, []) ∧
      (∃ j, 29 < j ∧ j ≤ cutOff.toList.length ∧ [] = cutOff.toList.drop j) ∧
      lookAhead? cutOff.toList 29 = some 31 ∧ 31 ≤ cutOff.toList.length + 1 ∧
      lookAhead? cutOff.toList 31 = none ∧
      (parse IdSource.counting 1 cutOff).schema ≠ none := by
  obtain ⟨hloops, hahead, hschema, -⟩ := parse_progresses IdSource.counting_total 1 cutOff
  have hi : 29 ≤ cutOff.toList.length := by decide
  have hline : line? (cutOff.toList.drop 29) = some (.fault ⟨.noColumnName, ['\\']⟩, []) := by
    decide +kernel
  have hturn : Loop.tableBody.next? (cutOff.toList.drop 29) = some (.tableBody, []) := by
    rw [Loop.next?, hline]; rfl
  have hlook : lookAhead? cutOff.toList 29 = some 31 := by decide
  have hover : lookAhead? cutOff.toList 31 = none := (hahead 29).past 31 (by decide)
  refine ⟨IdSource.counting_total, hi, hturn, (hloops .tableBody 29 hi).turn _ _ hturn, hlook,
    ((hahead 29).turn 31 hlook).2, hover, fun h => ?_⟩
  exact absurd (hschema.1 h) (by decide +kernel)

end Dbml
