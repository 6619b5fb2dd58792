import SafetyCase.Proofs.Calls
import SafetyCase.Proofs.StoreRuns
/-! What a refused write leaves behind. All writes but one are checked before they begin. A partial update is checked
field by field while it goes on, so the fields before the forbidden one are already set when it is refused, and the
case does not count as saved. -/
namespace SafetyCase

theorem Document.modifyFirstSame {p : α → Bool} {f : α → α} {a : α} {es : List α} (found : es.find? p = some a) :
    modifyFirst p f es = es ↔ f a = a := by
  induction es with
  | nil => contradiction
  | cons e rest ih =>
    by_cases here : p e = true
    · rw [List.find?_cons_of_pos here] at found
      cases found
      simp [modifyFirst, here]
    · rw [List.find?_cons_of_neg here] at found
      simp [modifyFirst, here, ih found]

namespace Store

variable {s : Store} {w : Write} {fault : StoreFault}

theorem wholeRefused (whole : w.Whole) (rejected : (s.write w).1 = .error fault) : (s.write w).2 = s := by
  have form := written s w
  generalize s.write w = r at form rejected
  cases form with
  | refused => rfl
  | torn _ _ _ mixed => exact absurd whole mixed
  | done => contradiction

theorem putSame {c d : Document} (found : s.find? d.id = some c) : (s.put d).cases = s.cases ↔ d = c := by
  constructor
  · intro same
    have now := findPutSame s d
    rw [find?, same, ← find?, found] at now
    exact (Option.some.inj now).symm
  · rintro rfl
    have kept (cs : List Document) (here : cs.find? (·.id = d.id) = some d) : putIn d cs = cs := by
      induction cs with
      | nil => contradiction
      | cons c rest ih => by_cases same : c.id = d.id <;> simp_all [putIn]
    exact kept s.cases found

theorem begunSame {b : Begun} (begun : s.begun? w = some b) :
    (s.put b.changed).cases = s.cases ↔ b.after = b.before := by
  cases w with
  | update id t entity changes =>
    obtain ⟨d, found, e, member, rfl⟩ : ∃ d, s.find? id = some d ∧ ∃ e, d.find? t entity = some e ∧
        (⟨d, t, e, (e.patch t (Entity.settable t changes)).1⟩ : Begun) = b := by
      simpa [begun?, Option.bind_eq_some_iff] using begun
    have named : e.id = entity := by simpa using List.find?_some member
    have owned : s.find? (Begun.changed ⟨d, t, e, (e.patch t (Entity.settable t changes)).1⟩).id = some d := by
      rw [Begun.changed, Document.modifyEntity, Document.idSetCollection, (foundStored found).2, found]
    -- the case is found under its identifier, so it stays where it is exactly if it is put back unchanged
    rw [putSame owned, Begun.changed, Document.modifyEntity, named]
    have collected := Document.modifyFirstSame (f := fun _ => (e.patch t (Entity.settable t changes)).1) member
    rw [← collected]
    constructor
    · intro same
      simpa using congrArg (·.collection t) same
    · intro same
      rw [same, Document.setCollectionOwn]
  | create | delete | reorder | replace | rephase => contradiction

theorem refusedWrite (rejected : (s.write w).1 = .error fault) :
    (s.write w).2 = ((s.begun? w).elim s fun b => s.put b.changed) ∧
      ((s.write w).2.cases = s.cases ↔ ∀ b, s.begun? w = some b → b.after = b.before) := by
  have form := written s w
  generalize s.write w = r at form rejected
  cases form with
  | refused _ unbegun => exact ⟨by rw [unbegun]; rfl, by simp [unbegun]⟩
  | torn _ begun => exact ⟨by rw [begun]; rfl, by simp [begun, begunSame begun]⟩
  | done => contradiction

def loading : Store :=
  ((Ledger.fresh ⟨0⟩).run [.createCase .riskAssessment "Demo",
    .createEntity (.numbered 1) .step none none [("activity", .data (.text "Load"))]]).store

def relabel : String × Value := ("activity", .data (.text "Lift"))

def displace : String × Value := ("order_index", .data (.int 3))

theorem refusedWriteEarly : ∃ fault,
    (loading.write (.update (.numbered 1) .step (.numbered 2) [displace, relabel])).1 = .error fault ∧
      (loading.write (.update (.numbered 1) .step (.numbered 2) [displace, relabel])).2.cases = loading.cases := by
  have rejected : (loading.write (.update (.numbered 1) .step (.numbered 2) [displace, relabel])).1 =
      .error (.write (.tree (.notUpdatable "order_index" .step))) := by cbv
  refine ⟨_, rejected, (refusedWrite rejected).2.mpr fun b begun => ?_⟩
  have same : (loading.begun? (.update (.numbered 1) .step (.numbered 2) [displace, relabel])).map
      (fun b => decide (b.after = b.before)) = some true := by cbv
  rw [begun] at same
  simpa using same

theorem refusedWriteTorn : (∀ d ∈ loading.cases, d.Distinct) ∧ ∃ fault,
    (loading.write (.update (.numbered 1) .step (.numbered 2) [relabel, displace])).1 = .error fault ∧
      loading.cases.map (fun d => d.steps.map (·.get? .activity)) = [[some (.data (.text "Load"))]] ∧
      (loading.write (.update (.numbered 1) .step (.numbered 2) [relabel, displace])).2.cases.map
        (fun d => d.steps.map (·.get? .activity)) = [[some (.data (.text "Lift"))]] := by
  refine ⟨fun d stored => ?_, .write (.tree (.notUpdatable "order_index" .step)), by cbv, by cbv, by cbv⟩
  exact ((Ledger.runRegular (Ledger.freshRegular ⟨0⟩) _).stored d stored).toOrdered.distinct

end Store
end SafetyCase
