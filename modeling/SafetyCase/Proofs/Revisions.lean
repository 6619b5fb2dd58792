import Mathlib
import SafetyCase.Proofs.Assignments
import SafetyCase.Proofs.Effects
import SafetyCase.Proofs.Outlines
/-! Revisions: the partial update of one entity as which a command about existing content reaches the store. A
revision leaves the outline of a case alone, so that after it every reference is still resolved as before; the
fields that it sets are known from the copy in which it was resolved. -/
namespace SafetyCase

def EntityType.assignments (t : EntityType) : List (String × Value) → List (Attribute × Value)
  | [] => []
  | (name, v) :: rest =>
    match t.attribute? name with
    | none => []
    | some a => (a, v) :: t.assignments rest

theorem EntityType.assignmentsNamed {t : EntityType} {cs : List (Attribute × Value)}
    (known : ∀ c ∈ cs, (t.attribute? c.1.name).isSome = true) : t.assignments (cs.map fun c => (c.1.name, c.2)) = cs := by
  induction cs with
  | nil => rfl
  | cons c rest ih =>
    obtain ⟨here, later⟩ := List.forall_mem_cons.mp known
    obtain ⟨a, found⟩ := Option.isSome_iff_exists.mp here
    obtain rfl : a = c.1 := Attribute.nameInjective (by simpa using List.find?_some found)
    simp [assignments, found, ih later]

theorem Entity.patchAssigned (t : EntityType) (changes : List (String × Value)) (x : Entity) :
    (x.patch t changes).1 = x.assigned (t.assignments changes) := by
  induction changes generalizing x with
  | nil => rfl
  | cons c rest ih =>
    obtain ⟨name, v⟩ := c
    cases found : t.attribute? name with
    | none => simp [patch, EntityType.assignments, found, assigned]
    | some a =>
      simp only [patch, EntityType.assignments, found, ih]
      rfl

/-- What of an entity a command sets. The two axes of a rating are set apart from each other. -/
inductive Field where
  | plain (a : Attribute)
  | severity (a : Attribute)
  | likelihood (a : Attribute)
  deriving DecidableEq

def Field.ofAssignment : Attribute × Value → List Field
  | (a, .data _) => [plain a]
  | (a, .rating r) => (r.severity.map fun _ => severity a).toList ++ (r.likelihood.map fun _ => likelihood a).toList

structure Revision where
  type : EntityType
  entity : Identifier
  assignments : List (Attribute × Value)
  deriving DecidableEq

namespace Revision

variable {r s : Revision}

def fields (r : Revision) : List (EntityType × Identifier × Field) :=
  (r.assignments.flatMap Field.ofAssignment).map fun f => (r.type, r.entity, f)

/-- A revision as accepted commands make it: each attribute is set once, and a rating only under its own name. -/
structure Formed (r : Revision) : Prop where
  once : (r.assignments.map (·.1)).Nodup
  sorted : ∀ c ∈ r.assignments, (∃ slot : RatingSlot, c.1 = slot.toAttribute) ↔ ∃ rating, c.2 = .rating rating

theorem fieldsSeparate (formed : r.Formed) (formed' : s.Formed) (disjoint : r.fields.Disjoint s.fields)
    (type : r.type = s.type) (entity : r.entity = s.entity) :
    ∀ c ∈ r.assignments, ∀ c' ∈ s.assignments, Entity.Separate c c' := by
  rintro ⟨a, v⟩ listed ⟨b, w⟩ listed'
  by_cases other : a ≠ b
  · exact .elsewhere other
  obtain rfl := not_not.mp other
  have apart (f : Field) (here : f ∈ Field.ofAssignment (a, v)) : f ∉ Field.ofAssignment (a, w) := by
    intro there
    refine disjoint (a := (r.type, r.entity, f)) ?_ ?_
    · exact List.mem_map_of_mem (List.mem_flatMap.mpr ⟨_, listed, here⟩)
    · rw [type, entity]
      exact List.mem_map_of_mem (List.mem_flatMap.mpr ⟨_, listed', there⟩)
  have sorted := (formed.sorted (a, v) listed).symm.trans (formed'.sorted (a, w) listed')
  cases v with
  | data j =>
    cases w with
    | data j' => exact absurd (List.mem_singleton_self _) (apart (.plain a) (List.mem_singleton_self _))
    | rating second => simp at sorted
  | rating first =>
    cases w with
    | data j' => simp at sorted
    | rating second =>
      refine .axes ⟨?_, ?_⟩
      · have severity := apart (.severity a)
        cases one : first.severity <;> cases two : second.severity <;> simp_all [Field.ofAssignment]
      · have likelihood := apart (.likelihood a)
        cases one : first.likelihood <;> cases two : second.likelihood <;> simp_all [Field.ofAssignment]

end Revision

namespace Document

variable {d : Document} {r s : Revision}

def undated (d : Document) : Document := { d with updatedAt := d.createdAt }

def revise (d : Document) (r : Revision) : Document := d.modifyEntity r.type r.entity fun x => x.assigned r.assignments

def revised (d : Document) : Option Revision → Document
  | none => d
  | some r => d.revise r

theorem modifyFirstFound {p : Entity → Bool} {f : Entity → Entity} {x : Entity} {es : List Entity}
    (found : es.find? p = some x) : modifyFirst p (fun _ => f x) es = modifyFirst p f es := by
  induction es with
  | nil => rfl
  | cons e rest ih =>
    cases here : p e with
    | true =>
      obtain rfl : e = x := by simpa [List.find?_cons, here] using found
      simp [modifyFirst, here]
    | false =>
      rw [List.find?_cons, here] at found
      simp [modifyFirst, here, ih found]

theorem modifyFirstTwice {p : Entity → Bool} {f g : Entity → Entity} (keeps : ∀ x, p (f x) = p x) (es : List Entity) :
    modifyFirst p g (modifyFirst p f es) = modifyFirst p (fun x => g (f x)) es := by
  induction es with
  | nil => rfl
  | cons x rest ih => cases here : p x <;> simp [modifyFirst, here, keeps, ih]

theorem modifyFirstOthers {p q : Entity → Bool} {f g : Entity → Entity} (keeps : ∀ x, q (f x) = q x)
    (keeps' : ∀ x, p (g x) = p x) (others : ∀ x, p x = true → q x = false) (es : List Entity) :
    modifyFirst q g (modifyFirst p f es) = modifyFirst p f (modifyFirst q g es) := by
  induction es with
  | nil => rfl
  | cons x rest ih =>
    cases here : p x with
    | true => simp [modifyFirst, here, keeps, others x here]
    | false => cases there : q x <;> simp [modifyFirst, here, there, keeps', ih]

theorem modifyFirstOutline {p : Entity → Bool} {f : Entity → Entity} (keeps : ∀ x, (f x).outline = x.outline)
    (es : List Entity) : (modifyFirst p f es).map Entity.outline = es.map Entity.outline := by
  induction es with
  | nil => rfl
  | cons x rest ih => cases here : p x <;> simp [modifyFirst, here, keeps, ih]

end Document

namespace Entity

@[simp] theorem outlineAssigned (x : Entity) (cs : List (Attribute × Value)) : (x.assigned cs).outline = x.outline := by
  induction cs generalizing x with
  | nil => rfl
  | cons c rest ih =>
    obtain ⟨a, _ | r⟩ := c <;> exact (ih _).trans rfl

@[simp] theorem idAssigned (x : Entity) (cs : List (Attribute × Value)) : (x.assigned cs).id = x.id := by
  rw [← idOutline, outlineAssigned, idOutline]

end Entity

namespace Document

variable {d : Document} {r s : Revision}

theorem reviseOwn (d : Document) (r : Revision) : (d.revise r).collection r.type =
    modifyFirst (·.id = r.entity) (fun x => x.assigned r.assignments) (d.collection r.type) :=
  collectionSetOwn d r.type _

theorem reviseOther (r : Revision) {t : EntityType} (other : t ≠ r.type) :
    (d.revise r).collection t = d.collection t :=
  collectionSetOther d _ other

theorem sameHeader {d d' : Document} (header : d.header = d'.header) (same : ∀ t, d.collection t = d'.collection t) :
    d = d' := by
  obtain ⟨id, kind, title, phase, _, _, _, _, _, _, created, updated⟩ := Document.mk.inj header
  exact extCollection id kind title phase created updated same

theorem reviseHeader (d : Document) (r : Revision) : (d.revise r).header = d.header := headerSet d r.type _

theorem reviseTwice (formed : r.Formed) : (d.revise r).revise r = d.revise r := by
  refine sameHeader (reviseHeader _ r) fun t => ?_
  by_cases own : t = r.type
  · subst own
    rw [reviseOwn, reviseOwn, modifyFirstTwice (by simp)]
    simp only [Entity.assignedTwice formed.once]
  · rw [reviseOther r own]

theorem reviseCommute (formed : r.Formed) (formed' : s.Formed) (disjoint : r.fields.Disjoint s.fields) :
    (d.revise r).revise s = (d.revise s).revise r := by
  have header : ((d.revise r).revise s).header = ((d.revise s).revise r).header := by simp only [reviseHeader]
  refine sameHeader header fun t => ?_
  by_cases own : t = r.type
  · subst own
    by_cases type : r.type = s.type
    · have left := reviseOwn (d.revise r) s
      have right := reviseOwn d s
      rw [← type] at left right
      rw [left, reviseOwn, reviseOwn, right]
      by_cases entity : r.entity = s.entity
      · rw [← entity, modifyFirstTwice (by simp), modifyFirstTwice (by simp)]
        simp only [Entity.assignedSeparate (Revision.fieldsSeparate formed formed' disjoint type entity)]
      · exact modifyFirstOthers (by simp) (by simp) (by simp_all) _
    · rw [reviseOther s type, reviseOwn, reviseOwn, reviseOther s type]
  · rw [reviseOther r own]
    by_cases type : t = s.type
    · subst type
      rw [reviseOwn, reviseOwn, reviseOther r own]
    · rw [reviseOther s type, reviseOther r own, reviseOther s type]

theorem reviseOutline (d : Document) (r : Revision) : (d.revise r).outline = d.outline := by
  have header : (d.revise r).outline.header = d.outline.header := by
    change { (d.revise r).header with updatedAt := (d.revise r).header.createdAt } = _
    rw [reviseHeader]
    rfl
  refine sameHeader header fun t => ?_
  rw [collectionOutline, collectionOutline]
  by_cases own : t = r.type
  · subst own
    rw [reviseOwn, modifyFirstOutline (by simp)]
  · rw [reviseOther r own]

end Document
end SafetyCase
