import Dbml.Parser.Scan
import Dbml.Schema.Draws

/-!
# Routines

A routine of the parser passes characters and reports errors. It draws ids, and gives up where one
is refused; and it keeps references until all tables are known. It carries the proof that nothing
but steps of its cursor lies between the scanners where it starts and where it ends.

What a routine does to the rest of the text, to the ids and to the references is said by the events
of the text that it goes through (`Performs`): faults are reported as they are met, ids are drawn as
they are asked for, and the first draw that is refused ends the routine there.

Results:
* `Performs.bind`: one routine behind the other goes through the events of both;
* `Performs.loop`: a loop goes through the events of its turns.
-/
namespace Dbml

open Outline Text

/-- What a parser changes while it reads a text (`DBMLParser`): where it stands, the state of its
source of ids, and the references that wait for all tables to be known. -/
structure Parser (σ : Type) where
  scanner : Scanner
  ids : σ
  pending : List RelationDraft

/-- What a parser does: it gives a result, or the reason why an id was refused. -/
structure Routine (σ α : Type) where
  run : Parser σ → Except String α × Parser σ
  moves : ∀ p : Parser σ, p.scanner.Leads Cursor.Steps (run p).2.scanner

namespace Parser

variable {σ α : Type}

/-- The parser behind a scan. -/
def scan (p : Parser σ) (m : Scan α) : Parser σ := { p with scanner := (m.run p.scanner).2 }

/-- The parser after a report. -/
def report (p : Parser σ) (cause : Cause) : Parser σ :=
  { p with scanner := p.scanner.move (p.scanner.now.report cause.message) }

@[simp] theorem scan_scanner (p : Parser σ) (m : Scan α) :
    (p.scan m).scanner = (m.run p.scanner).2 := rfl

@[simp] theorem report_rest (p : Parser σ) (cause : Cause) :
    (p.report cause).scanner.rest = p.scanner.rest := rfl

/-- What is reported is a fault of the text that is still to be read. -/
theorem report_diagnostics {p : Parser σ} (hp : p.scanner.Started) (cause : Cause) :
    (p.report cause).scanner.now.diagnostics = p.scanner.now.diagnostics ++
      [Fault.toDiagnostic p.scanner.text.toList ⟨cause, p.scanner.rest⟩] := by
  rw [Fault.toDiagnostic, hp.located]; rfl

end Parser

namespace Routine

variable {σ α β : Type}

/-- Goes on with the result of a routine, unless an id was refused. -/
def andThen (x : Except String α × Parser σ) (f : α → Routine σ β) : Except String β × Parser σ :=
  match x with
  | (.ok a, p) => (f a).run p
  | (.error reason, p) => (.error reason, p)

theorem andThen_of_ok {x : Except String α × Parser σ} {a : α} (h : x.1 = .ok a)
    (f : α → Routine σ β) : andThen x f = (f a).run x.2 := by
  obtain ⟨_, p⟩ := x; cases h; rfl

theorem andThen_of_error {x : Except String α × Parser σ} {reason : String}
    (h : x.1 = .error reason) (f : α → Routine σ β) : andThen x f = (.error reason, x.2) := by
  obtain ⟨_, p⟩ := x; cases h; rfl

theorem andThen_moves (x : Except String α × Parser σ) (f : α → Routine σ β) :
    x.2.scanner.Leads Cursor.Steps (andThen x f).2.scanner := by
  obtain ⟨r, p⟩ := x
  cases r with
  | ok a => exact (f a).moves p
  | error => exact .refl

instance : Monad (Routine σ) where
  pure a := ⟨fun p => (.ok a, p), fun _ => .refl⟩
  bind m f := ⟨fun p => andThen (m.run p) f, fun p => (m.moves p).trans (andThen_moves _ f)⟩

/-- A scan changes nothing but the scanner. -/
def ofScan (m : Scan α) : Routine σ α where
  run p := (.ok (m.run p.scanner).1, p.scan m)
  moves p := (m.passes p.scanner).mono fun _ _ _ => Cursor.Passes.steps

instance : MonadLift Scan (Routine σ) where
  monadLift := ofScan

/-- Reports an error (`_error`). -/
def error (cause : Cause) : Routine σ Unit where
  run p := (.ok (), p.report cause)
  moves _ := .step .refl (.report _)

/-- Draws an id (`_new_id`). -/
def newId (source : IdSource σ) (kind : IdKind) : Routine σ String where
  run p := match source.draw kind.stem p.ids with
    | .ok (id, st) => (.ok id, { p with ids := st })
    | .error (reason, st) => (.error reason, { p with ids := st })
  moves p := by split <;> exact .refl

/-- Keeps references until all tables are known. -/
def keep (refs : List RelationDraft) : Routine σ Unit where
  run p := (.ok (), { p with pending := p.pending ++ refs })
  moves _ := .refl

/-- The references that were kept. -/
def pending : Routine σ (List RelationDraft) where
  run p := (.ok p.pending, p)
  moves _ := .refl

@[simp] theorem run_pure (a : α) (p : Parser σ) :
    (pure a : Routine σ α).run p = (.ok a, p) := rfl

theorem run_bind (m : Routine σ α) (f : α → Routine σ β) (p : Parser σ) :
    (m >>= f).run p = andThen (m.run p) f := rfl

@[simp] theorem run_scan_bind (m : Scan α) (f : α → Routine σ β) (p : Parser σ) :
    ((liftM m : Routine σ α) >>= f).run p = (f (m.reads p.scanner).1).run (p.scan m) := rfl

@[simp] theorem run_ite (c : Prop) [Decidable c] (m n : Routine σ α) (p : Parser σ) :
    (if c then m else n).run p = if c then m.run p else n.run p := by split <;> rfl

/-! ## Loops -/

/-- A turn that asks for another one has passed a character. -/
def Advances (turn : α → Routine σ (ForInStep α)) : Prop :=
  ∀ ⦃a b : α⦄ ⦃p : Parser σ⦄, ((turn a).run p).1 = .ok (.yield b) →
    ((turn a).run p).2.scanner.rest.length < p.scanner.rest.length

/-- Takes turns from a state of the parser on. -/
def runLoop (turn : α → Routine σ (ForInStep α)) (h : Advances turn) (a : α) (p : Parser σ) :
    Except String α × Parser σ :=
  match _hturn : ((turn a).run p).1 with
  | .ok (.yield b) => runLoop turn h b ((turn a).run p).2
  | .ok (.done b) => (.ok b, ((turn a).run p).2)
  | .error reason => (.error reason, ((turn a).run p).2)
termination_by p.scanner.rest.length
decreasing_by exact h _hturn

section Loop

variable {turn : α → Routine σ (ForInStep α)} {h : Advances turn} {a b : α} {p : Parser σ}

theorem runLoop_of_yield (hturn : ((turn a).run p).1 = .ok (.yield b)) :
    runLoop turn h a p = runLoop turn h b ((turn a).run p).2 := by
  rw [runLoop]; split <;> simp_all

theorem runLoop_of_done (hturn : ((turn a).run p).1 = .ok (.done b)) :
    runLoop turn h a p = (.ok b, ((turn a).run p).2) := by
  rw [runLoop]; split <;> simp_all

theorem runLoop_of_error {reason : String} (hturn : ((turn a).run p).1 = .error reason) :
    runLoop turn h a p = (.error reason, ((turn a).run p).2) := by
  rw [runLoop]; split <;> simp_all

theorem runLoop_moves (turn : α → Routine σ (ForInStep α)) (h : Advances turn) (a : α)
    (p : Parser σ) : p.scanner.Leads Cursor.Steps (runLoop turn h a p).2.scanner := by
  induction hn : p.scanner.rest.length using Nat.strongRecOn generalizing a p with
  | _ n ih =>
    cases hturn : ((turn a).run p).1 with
    | error reason => rw [runLoop_of_error hturn]; exact (turn a).moves p
    | ok step =>
      cases step with
      | done b => rw [runLoop_of_done hturn]; exact (turn a).moves p
      | yield b =>
        rw [runLoop_of_yield hturn]
        exact ((turn a).moves p).trans (ih _ (hn ▸ h hturn) b _ rfl)

end Loop

/-- Takes turns for as long as they ask for another one. -/
def loop (turn : α → Routine σ (ForInStep α)) (h : Advances turn) (a : α) : Routine σ α where
  run := runLoop turn h a
  moves := runLoop_moves turn h a

/-- A loop is a turn and, where that asks for it, the loop again. -/
theorem run_loop (turn : α → Routine σ (ForInStep α)) (h : Advances turn) (a : α) (p : Parser σ) :
    (loop turn h a).run p = (turn a >>= fun
      | .yield b => loop turn h b
      | .done b => pure b).run p := by
  rw [run_bind, loop]
  cases hturn : ((turn a).run p).1 with
  | error reason => rw [andThen_of_error hturn]; exact runLoop_of_error hturn
  | ok step =>
    rw [andThen_of_ok hturn]
    cases step with
    | done b => exact runLoop_of_done hturn
    | yield b => exact runLoop_of_yield hturn

end Routine

/-! ## What routines do -/

/-- From a parser, something goes through events and comes to an end of which `post` holds, given
the ids drawn, the references kept and the result; or it stops at a draw that is refused. -/
structure Performs {σ α : Type} (source : IdSource σ) (p : Parser σ) (events : List Event)
    (rest : List Char) (post : List String → List RelationDraft → α → Prop)
    (x : Except String α × Parser σ) : Prop where
  leads : p.scanner.Leads Cursor.Steps x.2.scanner
  ids : x.2.ids = (source.supply events p.ids).state
  diagnostics : p.scanner.Started → x.2.scanner.now.diagnostics = p.scanner.now.diagnostics ++
    (source.supply events p.ids).faults.map (Fault.toDiagnostic p.scanner.text.toList)
  ends : (source.supply events p.ids).refusal = none → ∃ a kept, x.1 = .ok a ∧
    x.2.scanner.rest = rest ∧ x.2.pending = p.pending ++ kept ∧
    post (source.supply events p.ids).ids kept a
  stops : ∀ f, (source.supply events p.ids).refusal = some f → ∃ reason,
    f.cause = .idRefused reason ∧ x.1 = .error reason ∧ x.2.scanner.rest = f.rest

namespace Performs

variable {σ α β : Type} {source : IdSource σ} {p : Parser σ} {events : List Event}
  {rest : List Char} {post : List String → List RelationDraft → α → Prop}
  {x : Except String α × Parser σ}

theorem mono {post' : List String → List RelationDraft → α → Prop}
    (h : Performs source p events rest post x)
    (hpost : ∀ ids kept a, post ids kept a → post' ids kept a) :
    Performs source p events rest post' x where
  leads := h.leads
  ids := h.ids
  diagnostics := h.diagnostics
  ends hn := by
    obtain ⟨a, kept, ha, hr, hk, hp⟩ := h.ends hn
    exact ⟨a, kept, ha, hr, hk, hpost _ _ _ hp⟩
  stops := h.stops

/-- One id is drawn for each draw. -/
theorem length (h : Performs source p events rest post x) : Performs source p events rest
    (fun ids kept a => (events.filterMap Event.kind?).length = ids.length ∧ post ids kept a) x where
  leads := h.leads
  ids := h.ids
  diagnostics := h.diagnostics
  ends hn := by
    obtain ⟨a, kept, ha, hr, hk, hp⟩ := h.ends hn
    exact ⟨a, kept, ha, hr, hk, (source.length_ids_supply hn).symm, hp⟩
  stops := h.stops

/-- A result is given only if no draw was refused. -/
theorem of_ok {a : α} (h : Performs source p events rest post x) (ha : x.1 = .ok a) :
    ∃ ids kept, x.2.scanner.rest = rest ∧ post ids kept a := by
  cases hr : (source.supply events p.ids).refusal with
  | none =>
    obtain ⟨b, kept, hb, hrest, -, hpost⟩ := h.ends hr
    obtain rfl := Except.ok.inj (ha.symm.trans hb)
    exact ⟨_, kept, hrest, hpost⟩
  | some f =>
    obtain ⟨reason, -, herror, -⟩ := h.stops f hr
    cases ha.symm.trans herror

theorem pure {a : α} (hrest : p.scanner.rest = rest) (hpost : post [] [] a) :
    Performs source p [] rest post ((Pure.pure a : Routine σ α).run p) where
  leads := .refl
  ids := rfl
  diagnostics _ := (List.append_nil _).symm
  ends _ := ⟨a, [], rfl, hrest, (List.append_nil _).symm, hpost⟩
  stops f hf := by cases hf

/-- Passing characters goes through no event. -/
theorem scan {m : Scan β} (h : Performs source (p.scan m) events rest post x) :
    Performs source p events rest post x where
  leads := ((m.passes p.scanner).mono fun _ _ _ => Cursor.Passes.steps).trans h.leads
  ids := h.ids
  diagnostics hp := by
    have hs : (p.scan m).scanner.Started :=
      hp.leads ((m.passes p.scanner).mono fun _ _ _ => Cursor.Passes.steps)
    have hd := h.diagnostics hs
    rwa [Parser.scan_scanner, Scan.diagnostics_run, Scan.text_run] at hd
  ends := h.ends
  stops := h.stops

theorem scan_bind {m : Scan β} {f : β → Routine σ α} (h : Performs source (p.scan m) events rest
      post ((f (m.reads p.scanner).1).run (p.scan m))) :
    Performs source p events rest post (((liftM m : Routine σ β) >>= f).run p) := h.scan

theorem scan_last {m : Scan α} (hrest : (m.reads p.scanner).2 = rest)
    (hpost : post [] [] (m.reads p.scanner).1) :
    Performs source p [] rest post ((liftM m : Routine σ α).run p) :=
  scan (m := m) (pure hrest hpost)

theorem error {f : Unit → Routine σ α} {cause : Cause} {here : List Char}
    (hrest : p.scanner.rest = here)
    (h : Performs source (p.report cause) events rest post ((f ()).run (p.report cause))) :
    Performs source p (.fault ⟨cause, here⟩ :: events) rest post
      ((Routine.error cause >>= f).run p) where
  leads := Scanner.Leads.trans (.step .refl (.report _)) h.leads
  ids := h.ids
  diagnostics hp := by
    refine (h.diagnostics (hp.leads (.step .refl (.report _)))).trans ?_
    rw [Parser.report_diagnostics hp, hrest, List.append_assoc]
    rfl
  ends := h.ends
  stops := h.stops

theorem newId {f : String → Routine σ α} {kind : IdKind} {here : List Char}
    (hrest : p.scanner.rest = here) (h : ∀ id q, q.scanner = p.scanner → q.pending = p.pending →
      Performs source q events rest (fun ids => post (id :: ids)) ((f id).run q)) :
    Performs source p (.draw kind here :: events) rest post
      ((Routine.newId source kind >>= f).run p) := by
  cases hd : source.draw kind.stem p.ids with
  | ok drawn =>
    obtain ⟨id, st⟩ := drawn
    have hrun : (Routine.newId source kind >>= f).run p = (f id).run { p with ids := st } := by
      simp only [Routine.run_bind, Routine.newId, hd, Routine.andThen]
    have hsupply := source.supply_draw_ok p.ids here events hd
    have hnext := h id { p with ids := st } rfl rfl
    rw [hrun]
    refine ⟨hnext.leads, ?_, ?_, ?_, ?_⟩
    · rw [hsupply]; exact hnext.ids
    · rw [hsupply]; exact hnext.diagnostics
    · rw [hsupply]; exact hnext.ends
    · rw [hsupply]; exact hnext.stops
  | error refused =>
    obtain ⟨reason, st⟩ := refused
    have hrun : (Routine.newId source kind >>= f).run p =
        (.error reason, { p with ids := st }) := by
      simp only [Routine.run_bind, Routine.newId, hd, Routine.andThen]
    have hsupply := source.supply_draw_error p.ids here events hd
    rw [hrun]
    refine ⟨.refl, ?_, fun _ => ?_, fun hn => ?_, fun f hf => ?_⟩
    · rw [hsupply]
    · rw [hsupply]; exact (List.append_nil _).symm
    · rw [hsupply] at hn; cases hn
    · rw [hsupply] at hf
      obtain rfl := Option.some.inj hf
      exact ⟨reason, rfl, rfl, hrest⟩

theorem keep {f : Unit → Routine σ α} {refs : List RelationDraft}
    (h : ∀ q, q.scanner = p.scanner → Performs source q events rest
      (fun ids kept => post ids (refs ++ kept)) ((f ()).run q)) :
    Performs source p events rest post ((Routine.keep refs >>= f).run p) := by
  have hnext := h { p with pending := p.pending ++ refs } rfl
  refine ⟨hnext.leads, hnext.ids, hnext.diagnostics, fun hn => ?_, hnext.stops⟩
  obtain ⟨a, kept, ha, hrest, hkept, hpost⟩ := hnext.ends hn
  exact ⟨a, refs ++ kept, ha, hrest, hkept.trans (List.append_assoc _ _ _), hpost⟩

/-- One routine behind the other goes through the events of both. -/
theorem bind {m : Routine σ β} {f : β → Routine σ α} {mid : List Char} {before : List Event}
    {between : List String → List RelationDraft → β → Prop}
    (hm : Performs source p before mid between (m.run p))
    (hf : ∀ q b ids kept, q.scanner.rest = mid → q.pending = p.pending ++ kept →
      between ids kept b → Performs source q events rest
        (fun ids' kept' => post (ids ++ ids') (kept ++ kept')) ((f b).run q)) :
    Performs source p (before ++ events) rest post ((m >>= f).run p) := by
  have hids := hm.ids
  rw [Routine.run_bind]
  cases hr : (source.supply before p.ids).refusal with
  | none =>
    obtain ⟨b, kept, hb, hrest, hkept, hpost⟩ := hm.ends hr
    have hsupply := source.supply_append hr events
    rw [← hids] at hsupply
    have hnext := hf (m.run p).2 b _ kept hrest hkept hpost
    rw [Routine.andThen_of_ok hb]
    refine ⟨hm.leads.trans hnext.leads, ?_, fun hp => ?_, fun hn => ?_, fun f hf => ?_⟩
    · rw [hsupply]; exact hnext.ids
    · rw [hsupply, hnext.diagnostics (hp.leads hm.leads), hm.diagnostics hp, hm.leads.text_eq,
        List.map_append, List.append_assoc]
    · rw [hsupply] at hn ⊢
      obtain ⟨a, kept', ha, hrest', hkept', hpost'⟩ := hnext.ends hn
      exact ⟨a, kept ++ kept', ha, hrest', by rw [hkept', hkept, List.append_assoc], hpost'⟩
    · rw [hsupply] at hf; exact hnext.stops f hf
  | some fault =>
    obtain ⟨reason, hcause, herror, hrest⟩ := hm.stops fault hr
    have hsupply := source.supply_append_of_refusal hr events
    rw [Routine.andThen_of_error herror]
    refine ⟨hm.leads, ?_, fun hp => ?_, fun hn => ?_, fun f hf => ?_⟩
    · rw [hsupply]; exact hids
    · rw [hsupply]; exact hm.diagnostics hp
    · rw [hsupply, hr] at hn; cases hn
    · rw [hsupply, hr] at hf
      obtain rfl := Option.some.inj hf
      exact ⟨reason, hcause, rfl, hrest⟩

theorem map {m : Routine σ β} {f : β → α} {between : List String → List RelationDraft → β → Prop}
    (hm : Performs source p events rest between (m.run p))
    (hpost : ∀ ids kept b, between ids kept b → post ids kept (f b)) :
    Performs source p events rest post ((m >>= fun b => Pure.pure (f b)).run p) := by
  rw [← List.append_nil events]
  refine bind hm fun q b ids kept hq _ hb => pure hq ?_
  rw [List.append_nil, List.append_nil]
  exact hpost ids kept b hb

/-! ## Loops -/

/-- One item after the other changes a state, with the ids drawn and the references kept at it. -/
inductive Along (next : α → β → List String → List RelationDraft → α → Prop) :
    α → List β → List String → List RelationDraft → α → Prop
  | nil (a : α) : Along next a [] [] [] a
  | cons {a a' a'' : α} {b : β} {bs : List β} {ids ids' : List String}
      {kept kept' : List RelationDraft} (h : next a b ids kept a')
      (h' : Along next a' bs ids' kept' a'') :
    Along next a (b :: bs) (ids ++ ids') (kept ++ kept') a''

section Turns

variable {turn : α → Routine σ (ForInStep α)} {item? : List Char → Option (β × List Char)}
  {itemEvents : β → List Event} {stopEvents : List Char → List Event}
  {stop : List Char → List Char} {next : α → β → List String → List RelationDraft → α → Prop}

/-- A turn goes through the events of the item that comes next, or ends the loop where there is
none. -/
structure Turn (source : IdSource σ) (turn : α → Routine σ (ForInStep α))
    (item? : List Char → Option (β × List Char)) (itemEvents : β → List Event)
    (stopEvents : List Char → List Event) (stop : List Char → List Char)
    (next : α → β → List String → List RelationDraft → α → Prop) : Prop where
  item : ∀ (p : Parser σ) (a : α) (b : β) (r : List Char), item? p.scanner.rest = some (b, r) →
    Performs source p (itemEvents b) r
      (fun ids kept x => ∃ a', x = .yield a' ∧ next a b ids kept a') ((turn a).run p)
  stop : ∀ (p : Parser σ) (a : α), item? p.scanner.rest = none →
    Performs source p (stopEvents p.scanner.rest) (stop p.scanner.rest)
      (fun ids kept x => x = .done a ∧ ids = [] ∧ kept = []) ((turn a).run p)

variable (hturn : Turn source turn item? itemEvents stopEvents stop next)
include hturn

theorem Turn.advances (hp : Progresses item?) : Routine.Advances turn := by
  intro a b p hx
  cases hi : item? p.scanner.rest with
  | none =>
    obtain ⟨ids, kept, -, hdone, -⟩ := (hturn.stop p a hi).of_ok hx
    cases hdone
  | some found =>
    obtain ⟨ids, kept, hrest, -⟩ := (hturn.item p a found.1 found.2 hi).of_ok hx
    rw [hrest]
    exact (hp hi).2

theorem loop (hp : Progresses item?) {h : Routine.Advances turn} (a : α) (p : Parser σ) :
    Performs source p
      ((many item? hp p.scanner.rest).1.flatMap itemEvents ++
        stopEvents (many item? hp p.scanner.rest).2)
      (stop (many item? hp p.scanner.rest).2)
      (Along next a (many item? hp p.scanner.rest).1) ((Routine.loop turn h a).run p) := by
  induction hn : p.scanner.rest.length using Nat.strongRecOn generalizing a p with
  | _ n ih =>
    rw [Routine.run_loop]
    cases hi : item? p.scanner.rest with
    | none =>
      rw [many_of_none hi, List.flatMap_nil, List.nil_append,
        ← List.append_nil (stopEvents p.scanner.rest)]
      refine bind (hturn.stop p a hi) fun q b ids kept hq _ hb => ?_
      obtain ⟨rfl, rfl, rfl⟩ := hb
      exact pure hq (.nil a)
    | some found =>
      obtain ⟨b, r⟩ := found
      rw [many_of_some hi, List.flatMap_cons, List.append_assoc]
      refine bind (hturn.item p a b r hi) fun q x ids kept hq _ hx => ?_
      obtain ⟨a', rfl, hnext⟩ := hx
      have hrec := ih q.scanner.rest.length (by rw [hq, ← hn]; exact (hp hi).2) a' q rfl
      rw [hq] at hrec
      exact hrec.mono fun ids' kept' a'' h' => .cons hnext h'

end Turns

end Performs

end Dbml
