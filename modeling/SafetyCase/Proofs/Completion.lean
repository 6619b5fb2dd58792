import SafetyCase.Proofs.Frame
/-! Edits of a case that is in the store come to an end of their own: each is applied or recorded as failed, and the
next one is tried. The one exception is an order where a rating is due, which no accepted command holds. -/
namespace SafetyCase

theorem Edit.fitRates {k : Kind} {e : Edit} (fits : e.Fits k) (rates : e.target = .assessment) :
    ∃ v, e.newRating? = some v := by
  cases fits with
  | rates _ _ intent payload =>
    rcases intent with intent | intent <;> simp [newRating?, intent, payload]
  | unrates _ _ intent => simp [newRating?, intent]
  | fills plain => exact absurd rates plain
  | deletes plain => exact absurd rates plain
  | orders plain => exact absurd rates plain

namespace Store

def Reaches (r : Except StoreFault α) : Prop := ∀ fault, r ≠ .error (.read fault)

variable {s : Store} {held d : Document} {e : Edit} {id : Identifier}

theorem onCaseFound (found : s.find? id = some d) (write : Document → Except StoreFault α × Store) :
    s.onCase id write = write d := by
  rw [onCase, found]

theorem creationReaches (found : s.find? id = some d) (t : EntityType) (parent : Option Identifier)
    (position : Option Int) (data : List (String × Value)) : Reaches (s.createEntity id t parent position data).1 := by
  intro fault
  rw [createEntity, onCaseFound found]
  repeat' split
  all_goals simp

theorem updateReaches (found : s.find? id = some d) (t : EntityType) (entity : Identifier)
    (changes : List (String × Value)) : Reaches (s.updateEntity id t entity changes).1 := by
  intro fault
  rw [updateEntity, onCaseFound found]
  dsimp only
  repeat' split
  all_goals simp

theorem deletionReaches (found : s.find? id = some d) (t : EntityType) (entity : Identifier) (policy : DeletePolicy) :
    Reaches (s.deleteEntity id t entity policy).1 := by
  intro fault
  rw [deleteEntity, onCaseFound found]
  split <;> simp

theorem reorderingReaches (found : s.find? id = some d) (t : EntityType) (parent : Option Identifier)
    (ids : List Identifier) : Reaches (s.reorderEntities id t parent ids).1 := by
  intro fault
  rw [reorderEntities, onCaseFound found]
  split <;> simp

theorem phaseReaches (found : s.find? id = some d) (phase : String) : Reaches (s.setPhase id phase).1 := by
  intro fault
  rw [setPhase, onCaseFound found]
  repeat' split
  all_goals simp

theorem reached {call : Except StoreFault α × Store} (reaches : Reaches call.1) :
    (∃ a s', call = (.ok a, s')) ∨ ∃ fault s', call = (.error (.write fault), s') := by
  obtain ⟨(fault | fault) | a, s'⟩ := call
  · exact absurd rfl (reaches fault)
  · exact .inr ⟨fault, s', rfl⟩
  · exact .inl ⟨a, s', rfl⟩

theorem performReaches (found : s.find? held.id = some d) (e : Edit) (r : Resolution) :
    Reaches (s.perform held e r).1 := by
  cases r with
  | placement t parent position =>
    rcases reached (creationReaches found t parent position (e.newValues t)) with ⟨x, s', done⟩ | ⟨fault, s', done⟩ <;>
      simp [perform, done, Reaches]
  | ordering t parent ids =>
    rcases reached (reorderingReaches found t parent ids) with ⟨_, s', done⟩ | ⟨fault, s', done⟩ <;>
      simp [perform, done, Reaches]
  | entity t x =>
    simp only [perform]
    split
    · rcases reached (deletionReaches found t x.id (deletePolicy held.kind t)) with ⟨_, s', done⟩ | ⟨fault, s', done⟩ <;>
        simp [done, Reaches]
    · rcases reached (updateReaches found t x.id e.values) with ⟨_, s', done⟩ | ⟨fault, s', done⟩ <;>
        simp [done, Reaches]

theorem assessReaches (found : s.find? held.id = some d) (e : Edit) (t : EntityType) (x : Entity)
    (rating : Value) : Reaches (s.assess held e t x rating).1 := by
  rcases reached (updateReaches found t x.id [((e.slot held).toAttribute.name, rating)]) with
    ⟨_, s', done⟩ | ⟨fault, s', done⟩ <;> simp [assess, done, Reaches]

theorem settleReturns {r : Except StoreFault (Option Identifier) × Store} (reaches : Reaches r.1) :
    ∃ o, (settle held e r).1 = .ok o := by
  obtain ⟨(fault | fault) | id, s⟩ := r
  · exact absurd rfl (reaches fault)
  · exact ⟨_, rfl⟩
  · exact ⟨_, rfl⟩

theorem editReturns (found : s.find? held.id = some d) (e : Edit) :
    (∃ o, (s.applyEdit held e).1 = .ok o) ∨
      (e.target = .assessment ∧ e.newRating? = none ∧ (s.applyEdit held e).1 = .error .orderForRating ∧
        (s.applyEdit held e).2.cases = s.cases) := by
  have noted : (s.note (.applying held.id e.intent e.target)).find? held.id = some d := found
  unfold applyEdit
  dsimp only
  split
  · exact .inl ⟨_, rfl⟩
  · split
    · rename_i rates _
      split
      · rename_i unrated
        exact .inr ⟨rates, unrated, rfl, rfl⟩
      · exact .inl (settleReturns (assessReaches noted e _ _ _))
    · exact .inl (settleReturns (performReaches noted e _))

theorem fittingReturns (found : s.find? held.id = some d) (fits : e.Fits held.kind) :
    ∃ o, (s.applyEdit held e).1 = .ok o := by
  rcases editReturns found e with returns | ⟨rates, unrated, _⟩
  · exact returns
  · obtain ⟨v, rated⟩ := Edit.fitRates fits rates
    rw [unrated] at rated
    contradiction

theorem editsReturn {edits : List Edit} (stored : ∃ d, s.find? held.id = some d)
    (fits : ∀ e ∈ edits, e.Fits held.kind) : ∃ os, (s.applyEdits held edits).1 = .ok os := by
  induction edits generalizing s with
  | nil => exact ⟨[], rfl⟩
  | cons e rest ih =>
    obtain ⟨d, found⟩ := stored
    have touches := editTouches (applyEditStep s held e)
    have returns := fittingReturns found (fits e List.mem_cons_self)
    simp only [applyEdits]
    generalize s.applyEdit held e = r at touches returns
    obtain ⟨abort | o, s'⟩ := r
    · obtain ⟨o, returned⟩ := returns
      contradiction
    · obtain ⟨d', still, _⟩ := touches.itself d found
      obtain ⟨os, rest⟩ := ih ⟨d', still⟩ fun e listed => fits e (List.mem_cons_of_mem _ listed)
      dsimp only
      generalize s'.applyEdits held _ = r at rest
      obtain ⟨abort | os', s''⟩ := r
      · contradiction
      · exact ⟨_, rfl⟩

theorem commandsReturn {cs : List Command} (stored : ∃ d, s.find? held.id = some d)
    (fits : ∀ e ∈ cs.flatMap Command.leaves, e.Fits held.kind) : ∃ os, (s.applyCommands held cs).1 = .ok os := by
  obtain ⟨os, done⟩ := editsReturn stored fits
  rw [commandsAsEdits] at done
  obtain ⟨os', applied, _⟩ := okOfMap done
  exact ⟨os', applied⟩

theorem outcomesLength {cs : List Command} {os : List Outcome} (done : (s.applyCommands held cs).1 = .ok os) :
    os.length = cs.length := by
  induction cs generalizing s os with
  | nil =>
    cases done
    rfl
  | cons c rest ih =>
    obtain ⟨o, os', _, tail, rfl⟩ := commandsCons done
    rw [List.length_cons, List.length_cons, ih tail]

end Store
end SafetyCase
