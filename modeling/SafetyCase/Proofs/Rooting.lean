import Mathlib
import SafetyCase.Proofs.Keeping
import SafetyCase.Proofs.Refusals
/-! Every write of the store keeps the cases regular and every parent there, with any arguments. -/
namespace SafetyCase

namespace Document

structure Rooted (n : Nat) (d : Document) : Prop extends d.Regular n where
  linked : d.Linked

variable {n : Nat} {d : Document} {t : EntityType}

theorem linkedNew (linked : d.Linked) {id : Identifier} {parent : Option Identifier} {data : List (String × Value)}
    {e : Entity} (parented : Store.lacksParent? d t parent = none) (built : Entity.build t id parent data = .ok e)
    (position : Option Int) : (d.insert t e position).Linked := by
  refine linkedInsert linked (fun p child => ?_) position
  rw [(Entity.builtForm built).1, Kind.childNotTop child]
  exact parentPresent parented child

theorem rootedRemove (rooted : d.Rooted n) {id : Identifier} {policy : DeletePolicy} {out : List Entity × Document}
    (done : d.remove d.kind t id policy = .ok out) : out.2.Rooted n := by
  refine ⟨regularRemove rooted.toRegular done, ?_⟩
  have kept : out.2.Linked ∧ out.2.Distinct ∧ out.2.kind = d.kind := by
    rw [removeResult done]
    refine removeTreeKeeps (k := d.kind) (P := fun c => c.Linked ∧ c.Distinct ∧ c.kind = d.kind) (fun _ c => c.2.1)
      (fun c t e ⟨linked, distinct, kind⟩ bare => ?_) (Nat.le_refl _) ⟨rooted.linked, rooted.toOrdered.distinct, rfl⟩
    exact ⟨linkedRemoveOne linked (kind ▸ bare), (removeOnePruned c t e).distinct distinct,
      (kindOfHeader (headerSet c t _)).trans kind⟩
  exact kept.1

end Document

namespace Store

variable {s : Store} {id : Identifier} {t : EntityType}

theorem All.put {P : Nat → Document → Prop} (all : s.All P) {d : Document} (changed : P s.issued d) : (s.put d).All P :=
  everyPut all changed

theorem rootedSave (all : s.All Document.Rooted) {d : Document} (changed : d.Rooted s.issued) :
    (s.save d).All Document.Rooted := by
  have tree (t : EntityType) : Document.collection { d with updatedAt := s.now } t = d.collection t := by cases t <;> rfl
  exact all.put ⟨changed.toRegular.reheaded tree changed.phase, changed.linked.reheaded tree rfl⟩

theorem rootedUpdate (all : s.All Document.Rooted) {d : Document} {x : Entity} {entity : Identifier}
    (found : s.find? id = some d) (member : d.find? t entity = some x) (changes : List (String × Value)) :
    (d.modifyEntity t entity fun _ => (x.patch t changes).1).Rooted s.issued := by
  have rooted := all d (foundStored found).1
  have sameId := Entity.idPatch t changes x
  have parent := Entity.parentPatch t changes x
  exact ⟨Document.regularModify rooted.toRegular member sameId parent (Entity.orderPatch t changes x),
    Document.linkedModify rooted.linked member sameId parent⟩

theorem rootedKeeps : Keeps Document.Rooted where
  mono le rooted := ⟨rooted.toRegular.mono le, rooted.linked⟩
  new s kind title := by
    refine ⟨regularNewCase s kind title, fun p t child e inside => ?_⟩
    cases t <;> contradiction
  write {s w} all brings := by
    have stored {id : Identifier} {d : Document} (found : s.find? id = some d) : d.Rooted s.issued :=
      all d (foundStored found).1
    cases w with
    | create id t parent position data =>
      have call := creation s id t parent position data
      simp only [write, unanswered]
      generalize s.createEntity id t parent position data = r at call
      cases call with
      | refused => exact all
      | @done d e answer found parented built =>
        have before : s.issue.All Document.Rooted := fun c old =>
          ⟨(all c old).toRegular.mono (Nat.le_succ _), (all c old).linked⟩
        exact rootedSave before ⟨Document.regularInsert (stored found).toRegular (Entity.idBuild built) position,
          Document.linkedNew (stored found).linked parented built position⟩
    | update id t entity changes =>
      have call := update s id t entity changes
      simp only [write, unanswered]
      generalize s.updateEntity id t entity changes = r at call
      cases call with
      | refused => exact all
      | done found member => exact rootedSave all (rootedUpdate all found member changes)
      | partway found member => exact all.put (rootedUpdate all found member changes)
    | delete id t entity policy =>
      have call := deletion s id t entity policy
      simp only [write, unanswered]
      generalize s.deleteEntity id t entity policy = r at call
      cases call with
      | refused => exact all
      | done found removed => exact rootedSave all (Document.rootedRemove (stored found) removed)
    | reorder id t parent ids =>
      have call := reordering s id t parent ids
      simp only [write, unanswered]
      generalize s.reorderEntities id t parent ids = r at call
      cases call with
      | refused => exact all
      | done found moved =>
        refine rootedSave all ⟨Document.regularReorder (stored found).toRegular moved, ?_⟩
        rw [(Document.reorderResult moved).result]
        exact Document.linkedRenumber (stored found).linked _
    | replace d =>
      have call := replacement s d
      simp only [write, unanswered]
      generalize s.replaceCase d = r at call
      cases call with
      | refused => exact all
      | @done current found kind =>
        have given := brings d rfl
        have tree (t : EntityType) : (s.restored d current).collection t = d.collection t := by cases t <;> rfl
        exact all.put ⟨given.toRegular.reheaded tree given.phase, given.linked.reheaded tree rfl⟩
    | rephase id phase =>
      have call := phaseChange s id phase
      simp only [write, unanswered]
      generalize s.setPhase id phase = r at call
      cases call with
      | refused => exact all
      | @done d found known =>
        have tree (t : EntityType) : (s.atPhase d phase).collection t = d.collection t := by cases t <;> rfl
        exact all.put ⟨(stored found).toRegular.reheaded tree known, (stored found).linked.reheaded tree rfl⟩

end Store
end SafetyCase
