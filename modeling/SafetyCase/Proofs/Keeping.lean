import Mathlib
import SafetyCase.Proofs.Calls
import SafetyCase.Proofs.Office
/-! Properties of documents that every write of the store keeps. An editor keeps them too, in its copy and in its
snapshot, since all that it puts back it has read before. A property may depend on how many identifiers were issued. -/
namespace SafetyCase

namespace Store

def All (P : Nat → Document → Prop) (s : Store) : Prop := ∀ d ∈ s.cases, P s.issued d

structure Keeps (P : Nat → Document → Prop) : Prop where
  mono : ∀ {m n : Nat} {d : Document}, m ≤ n → P m d → P n d
  new : ∀ (s : Store) (kind : Kind) (title : String), P (s.issued + 1) (s.newCase kind title)
  write : ∀ {s : Store} {w : Write}, s.All P → (∀ d, w = .replace d → P s.issued d) → (s.write w).2.All P

variable {P : Nat → Document → Prop} {s s' : Store} {held : Document} {e : Edit} {w : Write}

theorem All.ofQuiet (all : s.All P) (same : s'.quiet = s.quiet) : s'.All P := by
  unfold All
  rw [casesOfQuiet same, issuedOfQuiet same]
  exact all

theorem All.read (all : s.All P) {id : Identifier} {d : Document} (read : s.get id = .ok d) : P s.issued d :=
  all d (foundStored (getFound read)).1

theorem All.create (keeps : Keeps P) (all : s.All P) (kind : Kind) (title : String) :
    (s.createCase kind title).2.All P :=
  everyPut (s := s.issue) (fun d old => keeps.mono (Nat.le_succ _) (all d old)) (keeps.new s kind title)

theorem issuedOnCase {f : Document → Except StoreFault α × Store} (each : ∀ d, s.issued ≤ (f d).2.issued)
    (id : Identifier) : s.issued ≤ (s.onCase id f).2.issued := by
  unfold onCase
  split
  · exact Nat.le_refl _
  · exact each _

theorem issuedByWrite (s : Store) (w : Write) : s.issued ≤ (s.write w).2.issued := by
  cases w with
  | create id t parent position data =>
    refine issuedOnCase (fun d => ?_) id
    repeat' split
    all_goals simp [save, put, issue]
  | update id t entity changes =>
    refine issuedOnCase (fun d => ?_) id
    dsimp only
    repeat' split
    all_goals simp [save, put]
  | delete id t entity policy =>
    refine issuedOnCase (fun d => ?_) id
    split <;> simp [save, put, note]
  | reorder id t parent ids =>
    refine issuedOnCase (fun d => ?_) id
    split <;> simp [save, put]
  | replace d =>
    simp only [write, unanswered, replaceCase]
    split
    · exact Nat.le_refl _
    · refine issuedOnCase (fun current => ?_) d.id
      split <;> simp [put, note]
  | rephase id phase =>
    simp only [write, unanswered, setPhase]
    split
    · exact Nat.le_refl _
    · refine issuedOnCase (fun d => ?_) id
      split <;> simp [put]

theorem callPartial (call : e.write? held = some w) (d : Document) : w ≠ .replace d := by
  rintro rfl
  unfold Edit.write? at call
  split at call
  · contradiction
  · split at call
    · obtain ⟨_, _, same⟩ := Option.map_eq_some_iff.mp call
      cases same
    · have same := Option.some.inj call
      unfold Edit.write at same
      repeat' split at same
      all_goals contradiction

theorem editKeeps (keeps : Keeps P) (all : s.All P) (held : Document) (e : Edit) :
    (s.applyEdit held e).2.All P ∧ s.issued ≤ (s.applyEdit held e).2.issued := by
  have called {w : Write} {s' : Store} (call : e.write? held = some w) (same : s'.quiet = (s.write w).2.quiet) :
      s'.All P ∧ s.issued ≤ s'.issued :=
    ⟨(keeps.write all fun d whole => absurd whole (callPartial call d)).ofQuiet same,
      issuedOfQuiet same ▸ issuedByWrite s w⟩
  have form := carried s held e
  generalize s.applyEdit held e = r at form
  cases form with
  | idle _ _ same => exact ⟨all.ofQuiet same, Nat.le_of_eq (issuedOfQuiet same).symm⟩
  | refused call _ _ same => exact called call same
  | applied call _ same => exact called call same

end Store

namespace Desk

structure All (P : Nat → Document → Prop) (k : Desk) : Prop where
  stored : k.store.All P
  cached : ∀ d, k.session.document = some d → P k.store.issued d
  kept : ∀ held, k.slot = some held → P k.store.issued held.document

variable {P : Nat → Document → Prop} {k k' : Desk}

theorem All.write (keeps : Store.Keeps P) (all : k.All P) {s : Store} (stored : s.All P)
    (le : k.store.issued ≤ s.issued) : ({ k with store := s } : Desk).All P :=
  ⟨stored, fun d held => keeps.mono le (all.cached d held), fun held taken => keeps.mono le (all.kept held taken)⟩

theorem All.hold (all : k.All P) {id : Identifier} {d : Document} (read : k.store.get id = .ok d) :
    ({ k with session := { k.session with document := some d } } : Desk).All P := by
  refine ⟨all.stored, fun c held => ?_, all.kept⟩
  cases held
  exact all.stored.read read

theorem stageKeeps (keeps : Store.Keeps P) (all : k.All P) (stage : Stage k k') :
    k'.All P ∧ k.store.issued ≤ k'.store.issued := by
  cases stage with
  | noted n => exact ⟨⟨all.stored, all.cached, all.kept⟩, Nat.le_refl _⟩
  | gated g => exact ⟨⟨all.stored, all.cached, all.kept⟩, Nat.le_refl _⟩
  | reloaded _ read => exact ⟨all.hold read, Nat.le_refl _⟩
  | @edited held e =>
    obtain ⟨stored, le⟩ := Store.editKeeps keeps all.stored held e
    exact ⟨all.write keeps stored le, le⟩
  | @restored _ kept _ taken =>
    have stored := keeps.write (w := .replace kept.document) all.stored fun d same => by
      cases same
      exact all.kept kept taken
    have le := Store.issuedByWrite k.store (.replace kept.document)
    exact ⟨all.write keeps stored le, le⟩
  | @rephased held _ phase =>
    have stored := keeps.write (w := .rephase held.id phase) all.stored fun d same => by contradiction
    have le := Store.issuedByWrite k.store (.rephase held.id phase)
    exact ⟨all.write keeps stored le, le⟩

theorem shiftKeeps (all : k.All P) (shift : Shift k k') : k'.All P ∧ k.store.issued ≤ k'.store.issued := by
  cases shift with
  | cleared => exact ⟨⟨all.stored, all.cached, fun _ taken => by simp at taken⟩, Nat.le_refl _⟩
  | turned read => exact ⟨all.hold read, Nat.le_refl _⟩
  | @captured held opened summary =>
    have snapshot := all.cached held opened
    unfold capture
    dsimp only
    split
    all_goals
      refine ⟨⟨all.stored, all.cached, fun _ taken => ?_⟩, Nat.le_refl _⟩
      cases taken
      exact snapshot

theorem pathKeeps (keeps : Store.Keeps P) (all : k.All P) (path : Path k k') :
    k'.All P ∧ k.store.issued ≤ k'.store.issued := by
  induction path with
  | refl => exact ⟨all, Nat.le_refl _⟩
  | tail _ last ih =>
    obtain ⟨all, le⟩ := ih
    rcases last with stage | shift
    · exact (stageKeeps keeps all stage).imp_right (Nat.le_trans le)
    · exact (shiftKeeps all shift).imp_right (Nat.le_trans le)

end Desk

namespace Office

/-- How far a run may have come: editors work and others write to the store directly, with any arguments, and take
cases out of it. Whole documents are only put back, once they were read. -/
inductive Attained : List Document → Office → Prop where
  | fresh (now : Moment) (limits : Nat → Option Int) : Attained [] (fresh now limits)
  | step {seen : List Document} {o : Office} (attained : Attained seen o) (event : Event) : Attained seen (o.step event)
  | read {seen : List Document} {o : Office} (attained : Attained seen o) {d : Document} (stored : d ∈ o.store.cases) :
      Attained (d :: seen) o
  | write {seen : List Document} {o : Office} (attained : Attained seen o) (w : Write)
      (known : ∀ d, w = .replace d → d ∈ seen) : Attained seen { o with store := (o.store.write w).2 }
  | drop {seen : List Document} {o : Office} (attained : Attained seen o) (id : Identifier) :
      Attained seen { o with store := o.store.drop id }

structure All (P : Nat → Document → Prop) (seen : List Document) (o : Office) : Prop where
  stored : o.store.All P
  cached : ∀ session d, (o.sessions session).document = some d → P o.store.issued d
  kept : ∀ slot held, o.slots slot = some held → P o.store.issued held.document
  seen : ∀ d ∈ seen, P o.store.issued d

variable {P : Nat → Document → Prop} {seen : List Document} {o : Office}

theorem All.write (keeps : Store.Keeps P) (all : o.All P seen) {s : Store} (stored : s.All P)
    (le : o.store.issued ≤ s.issued) : ({ o with store := s } : Office).All P seen :=
  ⟨stored, fun i d held => keeps.mono le (all.cached i d held), fun j held taken => keeps.mono le (all.kept j held taken),
    fun d old => keeps.mono le (all.seen d old)⟩

theorem All.settle (keeps : Store.Keeps P) (all : o.All P seen) {k : Desk} (done : k.All P)
    (le : o.store.issued ≤ k.store.issued) (session slot : Nat) : (o.settle session slot k).All P seen := by
  refine ⟨done.stored, fun i d held => ?_, fun j held taken => ?_, fun d old => keeps.mono le (all.seen d old)⟩
  · by_cases same : i = session
    · subst same
      exact done.cached d (by simpa [Office.settle] using held)
    · exact keeps.mono le (all.cached i d (by simpa [Office.settle, same] using held))
  · by_cases same : j = slot
    · subst same
      exact done.kept held (by simpa [Office.settle] using taken)
    · exact keeps.mono le (all.kept j held (by simpa [Office.settle, same] using taken))

theorem stepKeeps (keeps : Store.Keeps P) (all : o.All P seen) (event : Event) : (o.step event).All P seen := by
  cases event with
  | createCase kind title => exact all.write keeps (all.stored.create keeps kind title) (Nat.le_succ _)
  | clock now => exact ⟨all.stored, all.cached, all.kept, all.seen⟩
  | outage parts => exact ⟨all.stored, all.cached, all.kept, all.seen⟩
  | turn session slot op =>
    have start : (o.desk session slot).All P := ⟨all.stored, all.cached session, all.kept slot⟩
    obtain ⟨done, le⟩ := Desk.pathKeeps keeps start (Desk.performPath _ op).2
    exact all.settle keeps done le session slot

theorem allFresh (now : Moment) (limits : Nat → Option Int) : (fresh now limits).All P [] := by
  refine ⟨fun _ stored => ?_, fun _ _ held => ?_, fun _ _ taken => ?_, fun _ old => ?_⟩ <;> contradiction

theorem All.drop (all : o.All P seen) (id : Identifier) : ({ o with store := o.store.drop id } : Office).All P seen :=
  ⟨fun d stored => all.stored d (List.mem_of_mem_filter stored), all.cached, all.kept, all.seen⟩

theorem attainedKeeps (keeps : Store.Keeps P) (attained : Attained seen o) : o.All P seen := by
  induction attained with
  | fresh now limits => exact allFresh now limits
  | step _ event all => exact stepKeeps keeps all event
  | read _ stored all =>
    exact ⟨all.stored, all.cached, all.kept, List.forall_mem_cons.mpr ⟨all.stored _ stored, all.seen⟩⟩
  | @write _ o _ w known all =>
    exact all.write keeps (keeps.write all.stored fun d same => all.seen d (known d same))
      (Store.issuedByWrite o.store w)
  | drop _ id all => exact all.drop id

theorem attainedSteps (attained : Attained seen o) (events : List Event) : Attained seen (events.foldl step o) := by
  induction events generalizing o with
  | nil => exact attained
  | cons event rest ih => exact ih (.step attained event)

end Office
end SafetyCase
