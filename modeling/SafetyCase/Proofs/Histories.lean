import Mathlib
import SafetyCase.Proofs.ErrorAnswers
import SafetyCase.Proofs.Retelling
/-! The history of a rating. Of all that editors do, only accepted assessments that are resolved to the hazard, and are
about this rating, bear on it; each leaves its mark, and the rating follows from its marks, in their order. Editors
may hold old copies of the case, and other cases, steps and hazards are worked on in between. An undo puts a whole case
back, so that no marks tell what comes of it. -/
namespace SafetyCase

theorem RatingSlot.attributeInjective {slot other : RatingSlot} (same : slot.toAttribute = other.toAttribute) :
    slot = other := by
  cases slot <;> cases other <;> simp_all [toAttribute]

namespace Entity

theorem patchUnrated {t : EntityType} {changes : List (String × Value)} (none : NoRatings changes) (slot : RatingSlot)
    (x : Entity) : (x.patch t changes).1.get? slot.toAttribute = x.get? slot.toAttribute := by
  induction changes generalizing x with
  | nil => rfl
  | cons c rest ih =>
    obtain ⟨name, v⟩ := c
    obtain ⟨here, later⟩ := List.forall_mem_cons.mp none
    simp only [patch]
    split
    · rfl
    · rename_i a named
      have other : slot.toAttribute ≠ a := by
        rintro rfl
        have spelt : slot.toAttribute.name = name := by simpa using List.find?_some named
        exact here slot spelt.symm
      rw [ih later]
      cases v <;> simp [assign, getSet, other]

end Entity

namespace Edit

variable {e : Edit} {held : Document} {id hazard : Identifier} {slot : RatingSlot}

def marking (e : Edit) (a : Assessment) : Mark :=
  if e.intent = .delete then .cleared else .given a.severity a.likelihood

def about (held : Document) (a : Assessment) : RatingSlot :=
  a.slot.getD (if held.phase = Kind.residualPhase then .residual else .baseline)

/-- What the edit does to a rating of a hazard, if it is an assessment of it. Which hazard is meant is decided in the
editor's copy. -/
def mark? (held : Document) (id hazard : Identifier) (slot : RatingSlot) (e : Edit) : Option Mark :=
  match held.resolve e, e.payload with
  | .ok (.entity .hazard x), some (.assessment a) =>
    if e.target = .assessment ∧ held.id = id ∧ x.id = hazard ∧ about held a = slot then some (e.marking a) else none
  | _, _ => none

def sets (held : Document) (id hazard : Identifier) (e : Edit) : List (String × Value) :=
  ((e.write? held).map (Write.sets id hazard)).getD []

theorem unmarkedElsewhere (other : held.id ≠ id) (edits : List Edit) :
    edits.filterMap (mark? held id hazard slot) = [] := by
  refine List.filterMap_eq_nil_iff.mpr fun e _ => ?_
  unfold mark?
  split
  · exact if_neg fun own => other own.2.1
  · rfl

theorem unmarkedPlain (plain : e.target ≠ .assessment) : e.mark? held id hazard slot = none := by
  unfold mark?
  split
  · exact if_neg fun own => plain own.1
  · rfl

theorem setsPlain (fits : e.Fits held.kind) (plain : e.target ≠ .assessment) :
    Entity.NoRatings (e.sets held id hazard) := by
  have nothing : Entity.NoRatings [] := fun _ listed => by contradiction
  unfold sets
  cases found : held.resolve e with
  | error =>
    rw [write?, found]
    exact nothing
  | ok r =>
    rw [Store.callOf plain found, Option.map_some, Option.getD_some]
    cases r with
    | placement | ordering => exact nothing
    | entity t x =>
      rw [write]
      split
      · exact nothing
      · rw [Write.setsUpdate]
        split_ifs
        · exact fitValues fits plain
        · exact nothing
        · exact nothing

theorem assignMarks (fits : e.Fits held.kind) (rates : e.target = .assessment) : ∃ a v,
    e.payload = some (.assessment a) ∧ e.newRating? = some v ∧ ∀ (x : Entity) (b c : Attribute),
      (x.assign b v).get? c = (x.get? c).map fun old => if c = b then (e.marking a).apply old else old := by
  cases fits with
  | @rates a _ _ intent payload =>
    have kept : e.intent ≠ .delete := by rcases intent with intent | intent <;> simp [intent]
    have rated : e.newRating? = some (.rating a.rating) := by
      rcases intent with intent | intent <;> simp [newRating?, intent, payload]
    refine ⟨a, _, payload, rated, fun x b c => ?_⟩
    rw [Entity.assignRating, Entity.getSet]
    by_cases own : c = b
    · subst own
      cases held : x.get? c <;>
        simp [Entity.rating?, held, marking, kept, Mark.apply, Rating.take, Assessment.rating]
    · simp [own]
  | @unrates a _ _ intent payload =>
    refine ⟨a, .absent, payload, by simp [newRating?, intent], fun x b c => ?_⟩
    have clears : e.marking a = .cleared := by simp [marking, intent]
    rw [show x.assign b .absent = x.set b .absent from rfl, Entity.getSet, clears]
    rfl
  | fills plain | deletes plain | orders plain => exact absurd rates plain

theorem setsMark (fits : e.Fits held.kind) (x : Entity) :
    (x.patch .hazard (e.sets held id hazard)).1.get? slot.toAttribute =
      (x.get? slot.toAttribute).map fun v => (e.mark? held id hazard slot).toList.foldl Mark.apply v := by
  by_cases rates : e.target = .assessment
  · obtain ⟨a, v, payload, rated, assigns⟩ := assignMarks fits rates
    cases found : held.resolve e with
    | error => simp [sets, write?, mark?, found, Entity.patch]
    | ok r =>
      cases Document.resolved found with
      | @assessed t y _ type =>
        obtain rfl := fitHazard fits type rates
        have call : e.write? held = some (e.rate held .hazard y v) := by simp [write?, found, rates, rated]
        have mark : e.mark? held id hazard slot =
            if held.id = id ∧ y.id = hazard ∧ e.slot held = slot then some (e.marking a) else none := by
          simp [mark?, found, payload, rates, Edit.slot, about]
        rw [sets, call, mark, Option.map_some, Option.getD_some, rate, Write.sets]
        by_cases own : held.id = id ∧ y.id = hazard
        · rw [if_pos own, Entity.patchOne (ratingKnown _), assigns]
          by_cases about : e.slot held = slot
          · simp [own, about]
          · have other : slot.toAttribute ≠ (e.slot held).toAttribute :=
              fun same => about (RatingSlot.attributeInjective same).symm
            simp [about, other]
        · have other : ¬(held.id = id ∧ y.id = hazard ∧ e.slot held = slot) := fun all => own ⟨all.1, all.2.1⟩
          simp [own, other, Entity.patch]
      | existing plain | placed plain | ordered plain => exact absurd rates plain
  · rw [unmarkedPlain rates, Entity.patchUnrated (setsPlain fits rates)]
    simp

end Edit

namespace Store

variable {s s' s'' : Store} {id hazard : Identifier} {slot : RatingSlot} {held : Document} {marks marks' : List Mark}

def Traces (id hazard : Identifier) (slot : RatingSlot) (marks : List Mark) (s s' : Store) : Prop :=
  ∀ x', s'.hazard? id hazard = some x' → ∃ x, s.hazard? id hazard = some x ∧
    x'.get? slot.toAttribute = (x.get? slot.toAttribute).map fun v => marks.foldl Mark.apply v

theorem tracesSame (same : s'.cases = s.cases) : Traces id hazard slot [] s s' := by
  intro x' after
  rw [hazard?, findSame same] at after
  exact ⟨x', after, by simp⟩

theorem Traces.trans (first : Traces id hazard slot marks s s') (second : Traces id hazard slot marks' s' s'') :
    Traces id hazard slot (marks ++ marks') s s'' := by
  intro x'' after
  obtain ⟨x', between, later⟩ := second x'' after
  obtain ⟨x, before, earlier⟩ := first x' between
  refine ⟨x, before, ?_⟩
  rw [later, earlier, Option.map_map]
  simp [Function.comp_def]

theorem Traces.silent (first : Traces id hazard slot marks s s') (second : Traces id hazard slot [] s' s'') :
    Traces id hazard slot marks s s'' :=
  List.append_nil marks ▸ first.trans second

/-- The hazard's identifier was issued long ago, so that nothing new will bear it. -/
structure Watched (s : Store) (hazard : Identifier) : Prop where
  rooted : s.All Document.Rooted
  issued : ∃ m ≤ s.issued, hazard = .numbered m

theorem Watched.same (watched : s.Watched hazard) (cases : s'.cases = s.cases) (issued : s'.issued = s.issued) :
    s'.Watched hazard := by
  refine ⟨?_, issued ▸ watched.issued⟩
  unfold All
  rw [cases, issued]
  exact watched.rooted

theorem Watched.old (watched : s.Watched hazard) : s.freshId ≠ hazard := by
  obtain ⟨m, bound, rfl⟩ := watched.issued
  rw [freshId, Ne, Identifier.numberedInj]
  omega

theorem editWatched (watched : s.Watched hazard) (held : Document) (e : Edit) :
    (s.applyEdit held e).2.Watched hazard := by
  obtain ⟨rooted, le⟩ := editKeeps rootedKeeps watched.rooted held e
  obtain ⟨m, bound, named⟩ := watched.issued
  exact ⟨rooted, m, bound.trans le, named⟩

theorem editRetells {e : Edit} (watched : s.Watched hazard) (sheltered : Sheltered held e) :
    Retells id hazard (e.sets held id hazard) s (s.applyEdit held e).2 := by
  have called {w : Write} {s' : Store} (call : e.write? held = some w) (same : s'.quiet = (s.write w).2.quiet) :
      Retells id hazard (e.sets held id hazard) s s' := by
    intro x' after
    rw [hazard?, findSame (casesOfQuiet same)] at after
    rw [Edit.sets, call]
    exact writeRetells watched.rooted (sheltered w call) (callPartial call) watched.old x' after
  have form := carried s held e
  generalize s.applyEdit held e = r at form
  cases form with
  | idle none _ same =>
    rw [Edit.sets, none]
    exact retellsSame (casesOfQuiet same)
  | refused call _ _ same => exact called call same
  | applied call _ same => exact called call same

theorem editTraces {e : Edit} (watched : s.Watched hazard) (fits : e.Fits held.kind) :
    Traces id hazard slot (e.mark? held id hazard slot).toList s (s.applyEdit held e).2 := by
  intro x' after
  obtain ⟨x, before, holds⟩ := editRetells watched (fun w => Edit.fitWhole fits) x' after
  refine ⟨x, before, ?_⟩
  rw [← Edit.setsMark fits x, Entity.get?, Entity.get?, holds]

theorem editsTraces {edits : List Edit} (watched : s.Watched hazard) (fits : ∀ e ∈ edits, e.Fits held.kind) :
    Traces id hazard slot (edits.filterMap (Edit.mark? held id hazard slot)) s (s.applyEdits held edits).2 := by
  induction edits generalizing s with
  | nil => exact tracesSame rfl
  | cons e rest ih =>
    obtain ⟨here, later⟩ := List.forall_mem_cons.mp fits
    have first : Traces id hazard slot (e.mark? held id hazard slot).toList s (s.applyEdit held e).2 :=
      editTraces watched here
    have after := editWatched watched held e
    have split : (e :: rest).filterMap (Edit.mark? held id hazard slot) =
        (e.mark? held id hazard slot).toList ++ rest.filterMap (Edit.mark? held id hazard slot) := by
      rw [List.filterMap_cons]
      cases e.mark? held id hazard slot <;> rfl
    simp only [applyEdits]
    have returns {d : Document} (found : s.find? held.id = some d) := fittingReturns found here
    generalize s.applyEdit held e = r at first after returns
    obtain ⟨abort | o, s₁⟩ := r
    · intro x' found
      obtain ⟨x, before, holds⟩ := first x' found
      have other : held.id ≠ id := by
        rintro rfl
        obtain ⟨d, stored, -⟩ := Option.bind_eq_some_iff.mp before
        obtain ⟨o, returned⟩ := returns stored
        contradiction
      exact ⟨x, before, by rw [split, Edit.unmarkedElsewhere other, List.append_nil, holds]⟩
    · have onward := first.trans (ih after later)
      rw [split]
      dsimp only
      generalize s₁.applyEdits held rest = r at onward
      obtain ⟨abort | os, s₂⟩ := r <;> exact onward

theorem silentTraces (retells : Retells id hazard [] s s') : Traces id hazard slot [] s s' := by
  intro x' after
  obtain ⟨x, before, holds⟩ := retells x' after
  exact ⟨x, before, by simp [Entity.get?, holds, Entity.patch]⟩

theorem orderTraces (watched : s.Watched hazard) (target : Target) (ids : List String) (location : Location) :
    Traces id hazard slot [] s (s.applyCommand held (Desk.reorderCommand target ids location)).2 := by
  rw [applyCommand]
  split
  · exact tracesSame rfl
  · have silent : (Desk.reorderCommand target ids location).toEdit.sets held id hazard = [] := by
      cases call : (Desk.reorderCommand target ids location).toEdit.write? held with
      | none => rw [Edit.sets, call, Option.map_none, Option.getD_none]
      | some w =>
        obtain ⟨t, parent, moved, rfl⟩ := Edit.orderCalls rfl rfl call
        rw [Edit.sets, call]
        rfl
    have traces : Traces id hazard slot [] s
        (s.applyEdit held (Desk.reorderCommand target ids location).toEdit).2 :=
      silentTraces (silent ▸ editRetells watched (Desk.orderSheltered held target ids location))
    generalize s.applyEdit held _ = r at traces
    obtain ⟨abort | o, s'⟩ := r <;> exact traces

end Store

namespace Desk

variable {k : Desk} {id hazard : Identifier} {slot : RatingSlot} {b : Envelope}

def marks (k : Desk) (id hazard : Identifier) (slot : RatingSlot) : Op → List Mark
  | .batch b =>
    match k.session.document with
    | none => []
    | some held => if k.captures b then (k.edits held b).filterMap (Edit.mark? held id hazard slot) else []
  | _ => []

theorem afterRefreshTraces {next : Document → Desk → Except Failure α × Desk}
    (after : ∀ d k, (next d k).2.store.cases = k.store.cases) (k : Desk) :
    Store.Traces id hazard slot [] k.store (k.afterRefresh next).2.store :=
  Store.tracesSame (afterRefreshCases after k)

theorem batchTraces (watched : k.store.Watched hazard) :
    Store.Traces id hazard slot (k.marks id hazard slot (.batch b)) k.store (k.applyBatch b).2.store := by
  have form := batch k b
  generalize k.applyBatch b = r at form
  cases form with
  | closed shut =>
    simp only [marks, shut]
    exact Store.tracesSame rfl
  | idle n opened _ idles =>
    simp only [marks, opened, idles]
    exact Store.tracesSame rfl
  | @applied held opened tells captures =>
    simp only [marks, opened, captures, if_true]
    have captured := watched.same (casesCapture k held b.summary) (issuedCapture k held b.summary)
    have edited : Store.Traces id hazard slot ((k.edits held b).filterMap (Edit.mark? held id hazard slot))
        (k.capture held b.summary).store ((k.capture held b.summary).store.applyEdits held (k.edits held b)).2 :=
      Store.editsTraces captured (batchFits tells)
    rw [show (k.capture held b.summary).store.applyEdits held (k.edits held b) = _ from Store.commandsAsEdits _ held _]
      at edited
    have taken : Store.Traces id hazard slot [] k.store (k.capture held b.summary).store :=
      Store.tracesSame (casesCapture k held b.summary)
    refine taken.trans ?_
    unfold applyAccepted
    dsimp only at edited ⊢
    generalize (k.capture held b.summary).store.applyCommands held (k.check held b).accepted = r at edited
    obtain ⟨abort | outcomes, s⟩ := r
    · exact edited
    · exact edited.silent (afterRefreshTraces (fun _ _ => rfl) _)

theorem moveTraces (watched : k.store.Watched hazard) (step : PhaseGate → Document → Except GateFault PhaseGate) :
    Store.Traces id hazard slot [] k.store (k.move step).2.store := by
  unfold move
  split
  · rename_i gate held _ _
    split
    · exact Store.tracesSame rfl
    · rename_i moved _
      have traces : Store.Traces id hazard slot [] k.store (k.store.setPhase held.id moved.current).2 :=
        Store.silentTraces (Store.writeRetells (w := .rephase held.id moved.current) watched.rooted trivial
          (fun _ => by simp) watched.old)
      unfold persist
      dsimp only
      generalize k.store.setPhase held.id moved.current = r at traces
      obtain ⟨(_ | _) | _, s⟩ := r
      · exact traces
      · exact traces
      · exact traces.silent (afterRefreshTraces (fun _ _ => rfl) _)
  · exact Store.tracesSame rfl

theorem performTraces (watched : k.store.Watched hazard) {op : Op} (forward : op ≠ .undo) :
    Store.Traces id hazard slot (k.marks id hazard slot op) k.store (k.perform op).store := by
  cases op with
  | undo => exact absurd rfl forward
  | batch b => exact batchTraces watched
  | openCase i =>
    have form := opening k i
    have released := casesRelease k i
    simp only [perform]
    generalize k.openCase i = r at form
    cases form <;> exact Store.tracesSame released
  | refresh => exact Store.tracesSame (refreshCases k)
  | reorder target ids location =>
    simp only [perform, reorder]
    split
    · exact Store.tracesSame rfl
    · rename_i held _
      have ordered : Store.Traces id hazard slot [] k.store
          (k.store.applyCommand held (reorderCommand target ids location)).2 :=
        Store.orderTraces watched target ids location
      generalize k.store.applyCommand held (reorderCommand target ids location) = r at ordered
      obtain ⟨abort | outcome, s⟩ := r
      · exact ordered
      · exact ordered.silent (afterRefreshTraces (fun _ _ => rfl) _)
  | advance => exact moveTraces watched _
  | jump phase => exact moveTraces watched _

end Desk

namespace Office

variable {seen : List Document} {o : Office} {id hazard : Identifier} {slot : RatingSlot}

def marking (o : Office) (id hazard : Identifier) (slot : RatingSlot) : Event → List Mark
  | .turn session s op => (o.desk session s).marks id hazard slot op
  | _ => []

def history (o : Office) (id hazard : Identifier) (slot : RatingSlot) : List Event → List Mark
  | [] => []
  | event :: rest => o.marking id hazard slot event ++ (o.step event).history id hazard slot rest

def Event.Forward : Event → Prop
  | .turn _ _ op => op ≠ .undo
  | _ => True

theorem stepTraces (watched : o.store.Watched hazard) {event : Event} (forward : event.Forward) :
    Store.Traces id hazard slot (o.marking id hazard slot event) o.store (o.step event).store := by
  cases event with
  | turn session n op => exact Desk.performTraces (k := o.desk session n) watched forward
  | clock | outage => exact Store.tracesSame rfl
  | createCase kind title =>
    intro x' after
    by_cases own : id = o.store.freshId
    · have lands : (o.store.createCase kind title).2.find? id = some (o.store.newCase kind title) :=
        own ▸ Store.findPutSame o.store.issue (o.store.newCase kind title)
      -- a new case has no hazards yet
      simp [Store.hazard?, step, lands, Document.find?, Store.newCase, Document.collection] at after
    · have stays : (o.store.createCase kind title).2.find? id = o.store.find? id :=
        Store.findPutOther o.store.issue (o.store.newCase kind title) own
      simp only [Store.hazard?, step, stays] at after
      exact ⟨x', after, by simp [marking]⟩

theorem issuedByStep (all : o.All Document.Rooted seen) (event : Event) :
    o.store.issued ≤ (o.step event).store.issued := by
  cases event with
  | createCase => exact Nat.le_succ _
  | clock | outage => exact Nat.le_refl _
  | turn session slot op =>
    have start : (o.desk session slot).All Document.Rooted := ⟨all.stored, all.cached session, all.kept slot⟩
    exact (Desk.pathKeeps Store.rootedKeeps start (Desk.performPath _ op).2).2

theorem runTraces (all : o.All Document.Rooted seen) (issued : ∃ m ≤ o.store.issued, hazard = .numbered m)
    {events : List Event} (forward : ∀ event ∈ events, event.Forward) :
    Store.Traces id hazard slot (o.history id hazard slot events) o.store (events.foldl step o).store := by
  induction events generalizing o with
  | nil => exact Store.tracesSame rfl
  | cons event rest ih =>
    obtain ⟨here, later⟩ := List.forall_mem_cons.mp forward
    obtain ⟨m, bound, named⟩ := issued
    have first : Store.Traces id hazard slot (o.marking id hazard slot event) o.store (o.step event).store :=
      stepTraces ⟨all.stored, m, bound, named⟩ here
    have still := bound.trans (issuedByStep all event)
    exact first.trans (ih (stepKeeps Store.rootedKeeps all event) ⟨m, still, named⟩ later)

theorem ratingHistory (attained : Attained seen o) {x x' : Entity} (before : o.store.hazard? id hazard = some x)
    {events : List Event} (forward : ∀ event ∈ events, event.Forward)
    (after : (events.foldl step o).store.hazard? id hazard = some x') (slot : RatingSlot) :
    (o.history id hazard slot events = [] → x'.get? slot.toAttribute = x.get? slot.toAttribute) ∧
      ∀ initial, x.get? slot.toAttribute = some initial → Mark.Sane initial →
        ∃ final, x'.get? slot.toAttribute = some final ∧
          Mark.Follows initial (o.history id hazard slot events) final := by
  have rooted := attainedKeeps Store.rootedKeeps attained
  have issued : ∃ m ≤ o.store.issued, hazard = .numbered m := by
    obtain ⟨d, found, member⟩ := Option.bind_eq_some_iff.mp before
    have listed : hazard ∈ d.idsOf .hazard :=
      List.mem_map.mpr ⟨x, List.mem_of_find?_eq_some member, by simpa using List.find?_some member⟩
    exact (rooted.stored d (Store.foundStored found).1).issued .hazard hazard listed
  have traces : Store.Traces id hazard slot (o.history id hazard slot events) o.store (events.foldl step o).store :=
    runTraces rooted issued forward
  obtain ⟨y, here, holds⟩ := traces x' after
  cases before.symm.trans here
  refine ⟨fun unmarked => ?_, fun initial stored sane => ⟨_, ?_, Mark.follows sane _⟩⟩
  · simpa [unmarked] using holds
  · rw [holds, stored, Option.map_some]

/-- Half a rating in a compound command and the other half beside it; the next batch clears the rating, gives it two
axes again, one of them through an order of another name, and gives one to the residual rating. -/
def rerating : List Event :=
  let assess (intent : String) (data : List (String × Json)) :=
    worded intent "ASSESSMENT" [("stepIndex", .int 0), ("hazardIndex", .int 0)] data
  [.turn 0 0 (.batch { commands := [worded "ADD" "MULTIPLE" [] [("commands", .list [
      assess "ADD" [("severity", .text "B")], worded "ADD" "STEP" [] [("activity", .text "Unload")]])],
      assess "MODIFY" [("likelihood", .text "2")]] }),
    .turn 0 0 (.batch { commands := [assess "DELETE" [], assess "MODIFY" [("severity", .text "A")],
      assess "MODIFY" [("likelihood", .text "3"), ("assessmentType", .text "residual")],
      assess "UPDATE" [("likelihood", .text "1")]] })]

def reratings : List Mark :=
  [.given (some .B) none, .given none (some .likely), .cleared, .given (some .A) none, .given none (some .certain)]

theorem ratingHistoryCleared : ∃ x x', assessed.store.hazard? (.numbered 1) (.numbered 3) = some x ∧
    (rerating.foldl step assessed).store.hazard? (.numbered 1) (.numbered 3) = some x' ∧
    assessed.history (.numbered 1) (.numbered 3) .baseline rerating = reratings ∧
    x'.get? .baseline = some (.rating ⟨some .A, some .certain, some .extreme⟩) ∧
    x'.get? .residual = some (.rating ⟨none, some .possible, none⟩) := by
  have forward : ∀ event ∈ rerating, event.Forward := by
    intro event listed
    simp only [rerating, List.mem_cons, List.not_mem_nil, or_false] at listed
    rcases listed with rfl | rfl <;> simp [Event.Forward]
  have start : (assessed.store.hazard? (.numbered 1) (.numbered 3)).map (fun x =>
      (x.get? .baseline, x.get? .residual)) = some (some .absent, some .absent) := by cbv
  have ends : ((rerating.foldl step assessed).store.hazard? (.numbered 1) (.numbered 3)).isSome = true := by cbv
  have baseline : assessed.history (.numbered 1) (.numbered 3) .baseline rerating = reratings := by cbv
  have residual : assessed.history (.numbered 1) (.numbered 3) .residual rerating = [.given none (some .possible)] := by
    cbv
  obtain ⟨x, before, blank⟩ := Option.map_eq_some_iff.mp start
  obtain ⟨x', after⟩ := Option.isSome_iff_exists.mp ends
  obtain ⟨none, other⟩ := Prod.mk.inj blank
  have holds (slot : RatingSlot) (blank : x.get? slot.toAttribute = some .absent) : x'.get? slot.toAttribute =
      some ((assessed.history (.numbered 1) (.numbered 3) slot rerating).foldl Mark.apply .absent) := by
    obtain ⟨final, stored, follows⟩ := (ratingHistory attainedAssessed before forward after slot).2 _ blank (.inl rfl)
    rw [stored, follows.unique (Mark.follows (.inl rfl) _)]
  have one := holds .baseline none
  have two := holds .residual other
  rw [baseline] at one
  rw [residual] at two
  exact ⟨x, x', before, after, baseline, one, two⟩

end Office
end SafetyCase
