import SafetyCase.Proofs.EditRuns
import SafetyCase.Proofs.Frame
/-! What the outcome of an edit says about the store. For an edit that was accepted, a failure means that no case
has changed, and a success that the case was saved: an update never stops partway, since every field that it
sets is one of its type. -/
namespace SafetyCase

theorem Entity.patchEnds {t : EntityType} {changes : List (String × Value)}
    (known : ∀ c ∈ changes, (t.attribute? c.1).isSome = true) (e : Entity) : (e.patch t changes).2 = .ok () := by
  induction changes generalizing e with
  | nil => rfl
  | cons c rest ih =>
    obtain ⟨a, named⟩ := Option.isSome_iff_exists.mp (known c List.mem_cons_self)
    simp only [patch, named]
    exact ih (fun c listed => known c (List.mem_cons_of_mem _ listed)) _

namespace Edit

variable {e : Edit} {held : Document}

theorem formKnown (t : EntityType) : ∀ a ∈ t.form.map (·.sets), (t.attribute? a.name).isSome = true := by
  cases t <;> decide

theorem ratingKnown (slot : RatingSlot) : (EntityType.hazard.attribute? slot.toAttribute.name).isSome = true := by
  cases slot <;> decide

theorem fitKnown (fits : e.Fits held.kind) {t : EntityType} {x : Entity}
    (addressed : held.resolve e = .ok (.entity t x)) {sets : List (String × Value)}
    (set : e.updates? held = some sets) :
    ∀ c ∈ sets, (t.attribute? c.1).isSome = true := by
  have type : e.target.entityType? held.kind = some t := by cases Document.resolved addressed <;> assumption
  have rated (target : e.target = .assessment) (supported : held.kind.supportsAssessment = true) :
      ∀ c ∈ sets, (t.attribute? c.1).isSome = true := by
    have hazard : t = .hazard := by
      cases kind : held.kind <;> simp_all [Target.entityType?, Kind.supportsAssessment, Kind.secondLevel]
    simp only [updates?, target, if_true] at set
    obtain ⟨v, _, rfl⟩ := Option.map_eq_some_iff.mp set
    intro c listed
    rw [List.mem_singleton.mp listed, hazard]
    exact ratingKnown (e.slot held)
  cases fits with
  | rates target supported => exact rated target supported
  | unrates target supported => exact rated target supported
  | @fills t' given cs plain same intent read payload =>
    cases type.symm.trans same
    have kept : e.intent ≠ .delete := by rcases intent with h | h | h <;> simp [h]
    simp only [updates?, plain, kept, if_false, Option.some.injEq] at set
    subst set
    intro c listed
    simp only [values, changes, payload, Payload.changes, Option.map_some, Option.getD_some, List.map_map] at listed
    obtain ⟨f, inside, rfl⟩ := List.mem_map.mp listed
    exact formKnown t f.1 (readFormNames read f inside)
  | deletes plain _ intent => simp [updates?, plain, intent] at set
  | orders plain _ intent =>
    cases Document.resolved addressed with
    | assessed target => exact absurd target plain
    | existing _ _ other => simp [intent] at other

end Edit

namespace Store

def Saved (s : Store) (id : Identifier) (now : Moment) : Prop := ∃ d, s.find? id = some d ∧ d.updatedAt = now

variable {s s' : Store} {held : Document} {e : Edit}

inductive Settled (s : Store) (id : Identifier) (s' : Store) : Option EditFault → Prop where
  | failed {fault : EditFault} (same : s'.cases = s.cases) (now : s'.now = s.now) : Settled s id s' (some fault)
  | applied (saved : s'.Saved id s.now) (now : s'.now = s.now) : Settled s id s' none

theorem saveSettles (before : Store) {d : Document} {id : Identifier} (named : d.id = id) (moment : before.now = s.now)
    (same : s'.quiet = (before.save d).quiet) : Settled s id s' none := by
  have now : s'.now = (before.save d).now := nowOfQuiet same
  have found : s'.find? id = (before.save d).find? id := by rw [find?, find?, casesOfQuiet same]
  refine .applied ⟨{ d with updatedAt := before.now }, found.trans ?_, moment⟩ (now.trans moment)
  rw [← named]
  exact findPutSame before { d with updatedAt := before.now }

theorem editSettles (fits : e.Fits held.kind) {o : EditOutcome} (step : EditStep s held e (.ok o, s')) :
    Settled s held.id s' o.fault? := by
  have named {d d' : Document} (found : s.find? held.id = some d) (on : d.Continues d') : d'.id = held.id :=
    on.id.trans (foundStored found).2
  have rebuilt (d : Document) (t : EntityType) (es : List Entity) : d.Continues (d.setCollection t es) :=
    Document.continuesHeader (Document.headerSet d t es)
  cases step with
  | left failing same =>
    obtain ⟨fault, failed⟩ := Option.isSome_iff_exists.mp (failing o rfl)
    rw [failed]
    exact .failed (casesOfQuiet same) (nowOfQuiet same)
  | created _ found _ _ same =>
    exact saveSettles s.issue (named found (rebuilt _ _ _)) rfl same
  | updated _ _ found _ _ same => exact saveSettles s (named found (rebuilt _ _ _)) rfl same
  | partway _ addressed set _ _ stopped =>
    rw [Entity.patchEnds (Edit.fitKnown fits addressed set)] at stopped
    contradiction
  | deleted _ found removed same =>
    exact saveSettles s (named found (Document.continuesRemove removed)) rfl same
  | reordered _ found moved same =>
    exact saveSettles s (named found (Document.continuesReorder moved)) rfl same

structure SettledRun (s : Store) (id : Identifier) (s' : Store) (os : List EditOutcome) : Prop where
  now : s'.now = s.now
  failed : (∀ o ∈ os, o.fault? ≠ none) → s'.cases = s.cases
  applied : ∀ o ∈ os, o.fault? = none → s'.Saved id s.now

theorem settledCons {id : Identifier} {s₁ : Store} {o : EditOutcome} {os : List EditOutcome}
    (first : Settled s id s₁ o.fault?) (rest : SettledRun s₁ id s' os) : SettledRun s id s' (o :: os) := by
  generalize fault : o.fault? = f at first
  cases first with
  | failed same now =>
    refine ⟨rest.now.trans now, fun none => ?_, fun x listed applied => ?_⟩
    · exact (rest.failed fun x listed => none x (List.mem_cons_of_mem _ listed)).trans same
    · rcases List.mem_cons.mp listed with rfl | later
      · rw [fault] at applied
        contradiction
      · exact now ▸ rest.applied x later applied
  | applied saved now =>
    have kept : s'.Saved id s.now := by
      by_cases later : ∃ x ∈ os, x.fault? = none
      · obtain ⟨x, listed, applied⟩ := later
        exact now ▸ rest.applied x listed applied
      · have same := rest.failed fun x listed applied => later ⟨x, listed, applied⟩
        obtain ⟨d, found, moment⟩ := saved
        exact ⟨d, by rwa [find?, same], moment⟩
    exact ⟨rest.now.trans now, fun none => absurd fault (none o List.mem_cons_self), fun _ _ _ => kept⟩

theorem editsSettle {edits : List Edit} (fits : ∀ e ∈ edits, e.Fits held.kind) {os : List EditOutcome}
    (done : s.applyEdits held edits = (.ok os, s')) : SettledRun s held.id s' os := by
  induction edits generalizing s os with
  | nil =>
    cases done
    exact ⟨rfl, fun _ => rfl, fun _ listed => by contradiction⟩
  | cons e rest ih =>
    obtain ⟨o, os', s₁, first, _, tail, rfl⟩ := editsCons done
    have settled := editSettles (fits e List.mem_cons_self) (first ▸ applyEditStep s held e)
    exact settledCons settled (ih (fun e listed => fits e (List.mem_cons_of_mem _ listed)) tail)

end Store
end SafetyCase
