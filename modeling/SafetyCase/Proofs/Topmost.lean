import Mathlib
import SafetyCase.Proofs.Keeping
/-! Entities at the top of a case name no parent, whatever is written to the store and with any arguments. -/
namespace SafetyCase

namespace Document

def Topmost (d : Document) : Prop := ∀ t, t.isTop = true → ∀ x ∈ d.collection t, x.parent = none

variable {d d' : Document} {t : EntityType} {parent : Option Identifier}

theorem Topmost.onward (topmost : d.Topmost) (origin : ∀ t, t.isTop = true → ∀ y ∈ d'.collection t,
    y.parent = none ∨ ∃ x ∈ d.collection t, x.parent = y.parent) : d'.Topmost := by
  intro t top y inside
  rcases origin t top y inside with free | ⟨x, before, same⟩
  · exact free
  · rw [← same, topmost t top x before]

theorem Topmost.reheaded (topmost : d.Topmost) (tree : ∀ t, d'.collection t = d.collection t) : d'.Topmost :=
  topmost.onward fun t _ y inside => .inr ⟨y, tree t ▸ inside, rfl⟩

theorem Topmost.set {es : List Entity} (topmost : d.Topmost) (members : t.isTop = true → ∀ y ∈ es,
    y.parent = none ∨ ∃ x ∈ d.collection t, x.parent = y.parent) : (d.setCollection t es).Topmost := by
  refine topmost.onward fun s top y inside => ?_
  rw [collectionSet] at inside
  split at inside
  · rename_i same
    subst same
    exact members top y inside
  · exact .inr ⟨y, inside, rfl⟩

theorem topmostInsert (topmost : d.Topmost) {id : Identifier} {data : List (String × Value)} {e : Entity}
    (built : Entity.build t id parent data = .ok e) (position : Option Int) : (d.insert t e position).Topmost := by
  obtain ⟨n, _, same⟩ := insertAsInserted d t e position
  rw [same]
  refine topmost.set fun top y inside => ?_
  obtain ⟨x, before, like⟩ := memRenumber inside
  rw [← (Entity.unplacedFields like).2.1]
  rcases List.mem_append.mp before with old | new
  · exact .inr ⟨x, old, rfl⟩
  · left
    rw [List.mem_singleton.mp new, (Entity.builtForm built).1, top]
    rfl

theorem topmostModify (topmost : d.Topmost) {x : Entity} {key : Identifier} (found : d.find? t key = some x)
    (changes : List (String × Value)) : (d.modifyEntity t key fun _ => (x.patch t changes).1).Topmost := by
  refine topmost.set fun _ y inside => .inr ?_
  rcases memModifyFirst inside with old | ⟨_, _, rfl⟩
  · exact ⟨y, old, rfl⟩
  · exact ⟨x, List.mem_of_find?_eq_some found, (Entity.parentPatch t changes x).symm⟩

theorem topmostRemove (topmost : d.Topmost) {k : Kind} {id : Identifier} {policy : DeletePolicy}
    {out : List Entity × Document} (done : d.remove k t id policy = .ok out) : out.2.Topmost := by
  rw [removeResult done]
  refine topmost.onward fun s _ y inside => .inr ?_
  obtain ⟨x, before, like⟩ := (removeTreePruned k (k.height t) t d id).origin inside
  exact ⟨x, before, (Entity.unplacedFields like).2.1⟩

theorem topmostReorder (topmost : d.Topmost) {ids : List Identifier} (done : d.reorder t parent ids = .ok d') :
    d'.Topmost := by
  rw [(reorderResult done).result]
  refine topmost.set fun _ y inside => .inr ?_
  obtain ⟨x, before, like⟩ := memRenumber inside
  exact ⟨x, before, (Entity.unplacedFields like).2.1⟩

end Document

namespace Store

theorem topmostKeeps : Keeps fun _ d => d.Topmost where
  mono _ topmost := topmost
  new s kind title := fun t _ x inside => by cases t <;> contradiction
  write {s w} all brings := by
    have stored {id : Identifier} {d : Document} (found : s.find? id = some d) : d.Topmost := all d (foundStored found).1
    have saved {p : Store} {d : Document} (before : p.cases = s.cases) (changed : d.Topmost) :
        (p.save d).All fun _ d => d.Topmost :=
      everyPut (before ▸ all) (changed.reheaded fun t => by cases t <;> rfl)
    cases w with
    | create id t parent position data =>
      have call := creation s id t parent position data
      simp only [write, unanswered]
      generalize s.createEntity id t parent position data = r at call
      cases call with
      | refused => exact all
      | done _ found _ built => exact saved rfl (Document.topmostInsert (stored found) built position)
    | update id t entity changes =>
      have call := update s id t entity changes
      simp only [write, unanswered]
      generalize s.updateEntity id t entity changes = r at call
      cases call with
      | refused => exact all
      | done found member => exact saved rfl (Document.topmostModify (stored found) member changes)
      | partway found member => exact everyPut all (Document.topmostModify (stored found) member changes)
    | delete id t entity policy =>
      have call := deletion s id t entity policy
      simp only [write, unanswered]
      generalize s.deleteEntity id t entity policy = r at call
      cases call with
      | refused => exact all
      | done found removed => exact saved rfl (Document.topmostRemove (stored found) removed)
    | reorder id t parent ids =>
      have call := reordering s id t parent ids
      simp only [write, unanswered]
      generalize s.reorderEntities id t parent ids = r at call
      cases call with
      | refused => exact all
      | done found moved => exact saved rfl (Document.topmostReorder (stored found) moved)
    | replace d =>
      have call := replacement s d
      simp only [write, unanswered]
      generalize s.replaceCase d = r at call
      cases call with
      | refused => exact all
      | done => exact everyPut all ((brings d rfl).reheaded fun t => by cases t <;> rfl)
    | rephase id phase =>
      have call := phaseChange s id phase
      simp only [write, unanswered]
      generalize s.setPhase id phase = r at call
      cases call with
      | refused => exact all
      | done found => exact everyPut all ((stored found).reheaded fun t => by cases t <;> rfl)

end Store
end SafetyCase
