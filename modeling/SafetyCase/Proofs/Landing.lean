import Mathlib
import SafetyCase.Proofs.Calls
import SafetyCase.Proofs.Completion
/-! Calls on a case that is in the store: when each of them goes through, and as what the case is stored then. -/
namespace SafetyCase

namespace Document

variable {d : Document} {t : EntityType} {id : Identifier}

theorem removeGoes {k : Kind} {id : Identifier} {policy : DeletePolicy} :
    (∃ out, d.remove k t id policy = .ok out) ↔
      (d.find? t id).isSome = true ∧ (policy = .restrict → d.childType? k t id = none) := by
  unfold remove
  cases member : d.find? t id with
  | none => simp
  | some x =>
    cases policy with
    | cascade => simp
    | restrict => cases children : d.childType? k t id <;> simp

theorem reorderGoes {parent : Option Identifier} {ids : List Identifier} :
    (∃ d', d.reorder t parent ids = .ok d') ↔ ids.Nodup ∧ ∀ i, i ∈ ids ↔ ∃ x ∈ d.siblings t parent, x.id = i := by
  have members : (Entity.positions t parent (d.collection t)).map (·.1.id) = (d.siblings t parent).map (·.id) := by
    rw [siblings, ← Entity.mapPositions, List.map_map]
    rfl
  have whole : (ids.all ((d.siblings t parent).map (·.id)).contains && ((d.siblings t parent).map (·.id)).all ids.contains)
      = true ↔ ∀ i, i ∈ ids ↔ ∃ x ∈ d.siblings t parent, x.id = i := by
    simp only [Bool.and_eq_true, List.all_eq_true, List.contains_iff_mem, List.mem_map]
    constructor
    · rintro ⟨known, complete⟩ i
      exact ⟨known i, complete i⟩
    · exact fun same => ⟨fun i => (same i).mp, fun i => (same i).mpr⟩
  simp only [reorder, members, ← whole]
  by_cases once : ids.Nodup
  · rw [if_neg (not_not.mpr once)]
    split <;> simp_all
  · simp [once]

end Document

namespace Store

variable {s : Store} {id entity : Identifier} {d : Document} {t : EntityType} {parent : Option Identifier}

theorem createGoes (found : s.find? id = some d) (position : Option Int) (data : List (String × Value)) :
    (s.write (.create id t parent position data)).1 = .ok () ↔
      lacksParent? d t parent = none ∧ ∃ x, Entity.build t s.freshId parent data = .ok x := by
  rw [write, unanswered, createEntity, onCaseFound found]
  cases lacks : lacksParent? d t parent with
  | some p => simp [Except.map]
  | none =>
    dsimp only
    split
    · rename_i failed
      simp [Except.map, failed]
    · rename_i x built
      simp [Except.map, built]

theorem updateGoes (found : s.find? id = some d) (changes : List (String × Value)) :
    (s.write (.update id t entity changes)).1 = .ok () ↔
      ∃ x, d.find? t entity = some x ∧ (x.patch t changes).2 = .ok () := by
  rw [write, unanswered, updateEntity, onCaseFound found]
  dsimp only
  cases member : d.find? t entity with
  | none => simp [Except.map]
  | some x =>
    cases ending : (x.patch t changes).2 <;> simp [Except.map, ending]

theorem deleteGoes (found : s.find? id = some d) (policy : DeletePolicy) :
    (s.write (.delete id t entity policy)).1 = .ok () ↔
      (d.find? t entity).isSome = true ∧ (policy = .restrict → d.childType? d.kind t entity = none) := by
  rw [← Document.removeGoes, write, unanswered, deleteEntity, onCaseFound found]
  cases d.remove d.kind t entity policy <;> simp [Except.map]

theorem reorderGoes (found : s.find? id = some d) (ids : List Identifier) :
    (s.write (.reorder id t parent ids)).1 = .ok () ↔
      ids.Nodup ∧ ∀ i, i ∈ ids ↔ ∃ x ∈ d.siblings t parent, x.id = i := by
  rw [← Document.reorderGoes, write, unanswered, reorderEntities, onCaseFound found]
  cases d.reorder t parent ids <;> simp [Except.map]

theorem createLands (found : s.find? id = some d) {position : Option Int} {data : List (String × Value)}
    (goes : (s.write (.create id t parent position data)).1 = .ok ()) :
    ∃ x, Entity.build t s.freshId parent data = .ok x ∧ (s.write (.create id t parent position data)).2.find? id =
      some { d.insert t x position with updatedAt := s.now } := by
  have call := creation s id t parent position data
  simp only [write, unanswered] at goes ⊢
  generalize s.createEntity id t parent position data = r at call goes ⊢
  cases call with
  | refused => contradiction
  | done _ found' _ built =>
    cases found.symm.trans found'
    exact ⟨_, built, savedFound found (Document.headerSet d t _) rfl⟩

theorem updateLands (found : s.find? id = some d) {changes : List (String × Value)}
    (goes : (s.write (.update id t entity changes)).1 = .ok ()) :
    ∃ x, d.find? t entity = some x ∧ (s.write (.update id t entity changes)).2.find? id =
      some { d.modifyEntity t entity fun _ => (x.patch t changes).1 with updatedAt := s.now } := by
  have call := update s id t entity changes
  simp only [write, unanswered] at goes ⊢
  generalize s.updateEntity id t entity changes = r at call goes ⊢
  cases call with
  | refused => contradiction
  | partway => contradiction
  | done found' member _ =>
    cases found.symm.trans found'
    exact ⟨_, member, savedFound found (Document.headerSet d t _) rfl⟩

theorem deleteLands (found : s.find? id = some d) {policy : DeletePolicy}
    (goes : (s.write (.delete id t entity policy)).1 = .ok ()) :
    ∃ out, d.remove d.kind t entity policy = .ok out ∧
      (s.write (.delete id t entity policy)).2.find? id = some { out.2 with updatedAt := s.now } := by
  have call := deletion s id t entity policy
  simp only [write, unanswered] at goes ⊢
  generalize s.deleteEntity id t entity policy = r at call goes ⊢
  cases call with
  | refused => contradiction
  | done found' removed =>
    cases found.symm.trans found'
    exact ⟨_, removed, savedFound found (Document.removeHeader removed) rfl⟩

theorem reorderLands (found : s.find? id = some d) {ids : List Identifier}
    (goes : (s.write (.reorder id t parent ids)).1 = .ok ()) :
    ∃ d', d.reorder t parent ids = .ok d' ∧
      (s.write (.reorder id t parent ids)).2.find? id = some { d' with updatedAt := s.now } := by
  have call := reordering s id t parent ids
  simp only [write, unanswered] at goes ⊢
  generalize s.reorderEntities id t parent ids = r at call goes ⊢
  cases call with
  | refused => contradiction
  | done found' moved =>
    cases found.symm.trans found'
    exact ⟨_, moved, savedFound found (Document.reorderHeader moved) rfl⟩

end Store
end SafetyCase
