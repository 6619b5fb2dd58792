import Mathlib
import SafetyCase.Proofs.Operations
import SafetyCase.Proofs.StoreRuns
/-! Any number of editors over one store, with slots of their own or shared ones, each editor holding whatever
it read last. Between two operations the clock moves on and parts of the store go out of order or come back. -/
namespace SafetyCase

structure Desk.Sound (kinds : Identifier → Kind) (k : Desk) : Prop where
  stored : k.store.Sound kinds
  cached : ∀ d, k.session.document = some d → d.Sound kinds k.store.issued
  kept : ∀ held, k.slot = some held → held.document.Sound kinds k.store.issued

theorem Document.Sound.older {kinds : Identifier → Kind} {s : Store} {d : Document} (sound : d.Sound kinds s.issued) :
    d.id ≠ s.freshId := by
  obtain ⟨m, bound, named⟩ := sound.numbered
  rw [named, Store.freshId, Ne, Identifier.numberedInj]
  omega

theorem Document.Sound.beside {kinds : Identifier → Kind} {s : Store} {d : Document} (sound : d.Sound kinds s.issued)
    (kind : Kind) : d.Sound (Function.update kinds s.freshId kind) (s.issued + 1) := by
  have later := sound.mono (Nat.le_succ _)
  exact ⟨later.toRegular, later.whole, by rw [Function.update_of_ne sound.older, sound.kind], later.numbered⟩

theorem Store.Sound.create {kinds : Identifier → Kind} {s : Store} (sound : s.Sound kinds) (kind : Kind)
    (title : String) : (s.createCase kind title).2.Sound (Function.update kinds s.freshId kind) := by
  have new : (s.newCase kind title).Sound (Function.update kinds s.freshId kind) (s.issued + 1) := by
    refine ⟨Store.regularNewCase s kind title, ?_, by simp [Store.newCase], _, Nat.le_refl _, rfl⟩
    refine ⟨fun t _ inside => ?_, fun t _ => ?_, fun t _ inside => ?_⟩
    · cases t <;> contradiction
    · cases t <;> rfl
    · cases t <;> contradiction
  exact Store.everyPut (fun c old => (sound c old).beside kind) new

namespace Desk

variable {kinds : Identifier → Kind} {k k' : Desk}

theorem Sound.write (sound : k.Sound kinds) {s : Store} (stored : s.Sound kinds) (le : k.store.issued ≤ s.issued) :
    ({ k with store := s } : Desk).Sound kinds :=
  ⟨stored, fun d held => (sound.cached d held).mono le, fun held taken => (sound.kept held taken).mono le⟩

theorem Sound.hold (sound : k.Sound kinds) {id : Identifier} {d : Document} (read : k.store.get id = .ok d) :
    ({ k with session := { k.session with document := some d } } : Desk).Sound kinds := by
  refine ⟨sound.stored, fun c held => ?_, sound.kept⟩
  cases held
  exact sound.stored _ (Store.foundStored (Store.getFound read)).1

theorem stageSound (sound : k.Sound kinds) (stage : Stage k k') :
    k'.Sound kinds ∧ k.store.issued ≤ k'.store.issued := by
  cases stage with
  | noted n => exact ⟨⟨sound.stored, sound.cached, sound.kept⟩, Nat.le_refl _⟩
  | gated g => exact ⟨⟨sound.stored, sound.cached, sound.kept⟩, Nat.le_refl _⟩
  | reloaded _ read => exact ⟨sound.hold read, Nat.le_refl _⟩
  | @edited held e opened suits =>
    have step := Store.applyEditStep k.store held e
    have le := Store.issuedByEdit step
    exact ⟨sound.write (Store.editSound step suits (sound.cached held opened).kind sound.stored) le, le⟩
  | @restored _ kept _ taken _ =>
    have snapshot := sound.kept kept taken
    have call := Store.replacement k.store kept.document
    generalize k.store.replaceCase kept.document = r at call
    cases call with
    | refused => exact ⟨sound, Nat.le_refl _⟩
    | @done current _ _ =>
      have back : (k.store.restored kept.document current).Sound kinds k.store.issued :=
        snapshot.reheaded (fun t => by cases t <;> rfl) rfl rfl snapshot.phase
      have replaced : (k.store.put (k.store.restored kept.document current)).Sound kinds := sound.stored.put back
      exact ⟨sound.write replaced (Nat.le_refl _), Nat.le_refl _⟩
  | @rephased held _ phase =>
    have call := Store.phaseChange k.store held.id phase
    generalize k.store.setPhase held.id phase = r at call
    cases call with
    | refused => exact ⟨sound, Nat.le_refl _⟩
    | @done d found known =>
      have moved : (k.store.atPhase d phase).Sound kinds k.store.issued :=
        (sound.stored d (Store.foundStored found).1).reheaded (fun t => by cases t <;> rfl) rfl rfl known
      exact ⟨sound.write (sound.stored.put moved) (Nat.le_refl _), Nat.le_refl _⟩

theorem shiftSound (sound : k.Sound kinds) (shift : Shift k k') :
    k'.Sound kinds ∧ k.store.issued ≤ k'.store.issued := by
  cases shift with
  | cleared => exact ⟨⟨sound.stored, sound.cached, fun _ taken => by simp at taken⟩, Nat.le_refl _⟩
  | turned read => exact ⟨sound.hold read, Nat.le_refl _⟩
  | @captured held opened summary =>
    have snapshot := sound.cached held opened
    unfold capture
    dsimp only
    split
    all_goals
      refine ⟨⟨sound.stored, sound.cached, fun _ taken => ?_⟩, Nat.le_refl _⟩
      cases taken
      exact snapshot

theorem pathSound (sound : k.Sound kinds) (path : Path k k') : k'.Sound kinds ∧ k.store.issued ≤ k'.store.issued := by
  induction path with
  | refl => exact ⟨sound, Nat.le_refl _⟩
  | tail _ last ih =>
    obtain ⟨sound, le⟩ := ih
    rcases last with stage | shift
    · exact (stageSound sound stage).imp_right (Nat.le_trans le)
    · exact (shiftSound sound shift).imp_right (Nat.le_trans le)

end Desk

structure Office where
  store : Store
  sessions : Nat → Session
  slots : Nat → Option Snapshot

namespace Office

inductive Event where
  | createCase (kind : Kind) (title : String)
  | turn (session slot : Nat) (op : Desk.Op)
  | clock (now : Moment)
  | outage (o : Outage)

def desk (o : Office) (session slot : Nat) : Desk := ⟨o.store, o.slots slot, o.sessions session⟩

def settle (session slot : Nat) (o : Office) (k : Desk) : Office :=
  ⟨k.store, Function.update o.sessions session k.session, Function.update o.slots slot k.slot⟩

def step (o : Office) : Event → Office
  | .createCase kind title => { o with store := (o.store.createCase kind title).2 }
  | .turn session slot op => o.settle session slot ((o.desk session slot).perform op)
  | .clock now => { o with store := { o.store with now } }
  | .outage parts => { o with store := { o.store with outage := parts } }

def passing (o : Office) : Event → List Store
  | .turn session slot op => (o.desk session slot).passing op
  | _ => []

/-- The store after every single write of a run, and after every event. -/
def trail (o : Office) : List Event → List Store
  | [] => []
  | event :: rest => o.passing event ++ (o.step event).store :: (o.step event).trail rest

def fresh (now : Moment) (limits : Nat → Option Int) : Office :=
  ⟨{ now }, fun session => { limit := limits session }, fun _ => none⟩

structure Sound (kinds : Identifier → Kind) (o : Office) : Prop where
  stored : o.store.Sound kinds
  cached : ∀ session d, (o.sessions session).document = some d → d.Sound kinds o.store.issued
  kept : ∀ slot held, o.slots slot = some held → held.document.Sound kinds o.store.issued

variable {kinds : Identifier → Kind} {o : Office}

theorem soundDesk (sound : o.Sound kinds) (session slot : Nat) : (o.desk session slot).Sound kinds :=
  ⟨sound.stored, sound.cached session, sound.kept slot⟩

theorem soundSettle (sound : o.Sound kinds) {k : Desk} (done : k.Sound kinds) (le : o.store.issued ≤ k.store.issued)
    (session slot : Nat) : (o.settle session slot k).Sound kinds := by
  refine ⟨done.stored, fun i d held => ?_, fun j held taken => ?_⟩
  · by_cases same : i = session
    · subst same
      exact done.cached d (by simpa [settle] using held)
    · exact (sound.cached i d (by simpa [settle, same] using held)).mono le
  · by_cases same : j = slot
    · subst same
      exact done.kept held (by simpa [settle] using taken)
    · exact (sound.kept j held (by simpa [settle, same] using taken)).mono le

theorem soundCreateCase (sound : o.Sound kinds) (kind : Kind) (title : String) :
    (o.step (.createCase kind title)).Sound (Function.update kinds o.store.freshId kind) :=
  ⟨sound.stored.create kind title, fun i d held => (sound.cached i d held).beside kind,
    fun j held taken => (sound.kept j held taken).beside kind⟩

theorem stepSound (sound : ∃ kinds, o.Sound kinds) (event : Event) :
    (∀ s ∈ o.passing event, ∃ kinds, s.Sound kinds) ∧ ∃ kinds, (o.step event).Sound kinds := by
  obtain ⟨kinds, sound⟩ := sound
  cases event with
  | createCase kind title => exact ⟨by simp [passing], _, soundCreateCase sound kind title⟩
  | clock now => exact ⟨by simp [passing], kinds, sound.stored, sound.cached, sound.kept⟩
  | outage parts => exact ⟨by simp [passing], kinds, sound.stored, sound.cached, sound.kept⟩
  | turn session slot op =>
    have start := soundDesk sound session slot
    obtain ⟨along, whole⟩ := Desk.performPath (o.desk session slot) op
    obtain ⟨done, le⟩ := Desk.pathSound start whole
    refine ⟨fun s passed => ?_, kinds, soundSettle sound done le session slot⟩
    obtain ⟨k, path, rfl⟩ := along s passed
    exact ⟨kinds, (Desk.pathSound start path).1.stored⟩

theorem trailSound (sound : ∃ kinds, o.Sound kinds) (events : List Event) :
    ∀ s ∈ o.trail events, ∃ kinds, s.Sound kinds := by
  induction events generalizing o with
  | nil => simp [trail]
  | cons event rest ih =>
    obtain ⟨along, kinds, after⟩ := stepSound sound event
    intro s passed
    rcases List.mem_append.mp passed with within | later
    · exact along s within
    · rcases List.mem_cons.mp later with rfl | later
      · exact ⟨kinds, after.stored⟩
      · exact ih ⟨kinds, after⟩ s later

theorem freshSound (now : Moment) (limits : Nat → Option Int) : (fresh now limits).Sound fun _ => .riskAssessment := by
  refine ⟨fun _ stored => ?_, fun _ _ held => ?_, fun _ _ taken => ?_⟩ <;> contradiction

theorem trailWhole (now : Moment) (limits : Nat → Option Int) (events : List Event) :
    ∀ s ∈ (fresh now limits).trail events, ∀ d ∈ s.cases, d.Whole := by
  intro s passed d stored
  obtain ⟨_, sound⟩ := trailSound ⟨_, freshSound now limits⟩ events s passed
  exact (sound d stored).whole

/-- The second editor still holds the step that the first one deletes; its hazard only comes in once the deletion
is undone. -/
def staleEditor : List Event :=
  let addHazard := worded "ADD" "HAZARD" [("stepIndex", .int 0)] [("label", .text "Crushing")]
  [.createCase .jobHazardAnalysis "Demo", .turn 0 0 (.openCase (.numbered 1)),
    .turn 0 0 (.batch { commands := [worded "ADD" "STEP" [] [("activity", .text "Load")]] }),
    .turn 1 1 (.openCase (.numbered 1)),
    .turn 0 0 (.batch { commands := [worded "DELETE" "STEP" [("stepIndex", .int 0)] []] }),
    .turn 1 1 (.batch { commands := [addHazard] }), .turn 0 0 .undo, .turn 1 1 .refresh,
    .turn 1 1 (.batch { commands := [addHazard] })]

theorem staleEditorWhole : ∃ s ∈ (fresh ⟨0⟩ fun _ => none).trail staleEditor, ∃ d ∈ s.cases,
    d.hazards.map (·.parent) = [some (.numbered 2)] ∧ d.Whole := by
  have last : ((fresh ⟨0⟩ fun _ => none).trail staleEditor).getLast?.map (fun s => s.cases.map fun d =>
      d.hazards.map (·.parent)) = some [[some (.numbered 2)]] := by cbv
  obtain ⟨s, ends, hazards⟩ := Option.map_eq_some_iff.mp last
  obtain ⟨d, stored, parents⟩ := List.mem_map.mp (hazards ▸ List.mem_singleton_self _)
  have passed := List.mem_of_getLast? ends
  exact ⟨s, passed, d, stored, parents, trailWhole ⟨0⟩ _ staleEditor s passed d stored⟩

end Office
end SafetyCase
