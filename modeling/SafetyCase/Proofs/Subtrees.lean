import Mathlib
import SafetyCase.Proofs.Descent
/-! The entities below another in one list, each child right after all that hangs below it. Nothing but distinct
identifiers is asked of the case: by its type an entity has one parent at most, so the subtrees of different children
have nothing in common, and the list holds each entity below once. -/
namespace SafetyCase

namespace Kind

variable {k : Kind} {t p q : EntityType}

theorem oneParentType (one : t ∈ k.children p) (other : t ∈ k.children q) : p = q :=
  Option.some.inj ((parentTypeIff.mpr one).symm.trans (parentTypeIff.mpr other))

theorem childrenOnce (k : Kind) (t : EntityType) : (k.children t).Nodup := by cases k <;> cases t <;> decide

end Kind

namespace Document

/-- All below an entity, with their types: the children type by type in the order of their groups, each of them after
what hangs below it. -/
def beneath (d : Document) (k : Kind) : Nat → EntityType → Identifier → List (EntityType × Entity)
  | 0, _, _ => []
  | depth + 1, t, id => (k.children t).flatMap fun c =>
      (d.siblings c (some id)).flatMap fun x => beneath d k depth c x.id ++ [(c, x)]

def Under (k : Kind) (a b : EntityType × Entity) : Prop := a.1 ∈ k.children b.1 ∧ a.2.parent = some b.2.id

/-- The entity itself or one below it. -/
def Within (d : Document) (k : Kind) (t : EntityType) (x : Entity) (s : EntityType) (y : Entity) : Prop :=
  (s = t ∧ y = x) ∨ d.Below k t x.id s y

variable {d : Document} {k : Kind} {t s c c' : EntityType} {id i j : Identifier} {x x' y : Entity} {depth : Nat}

theorem memChildren (child : c ∈ k.children t) : x ∈ d.siblings c (some id) ↔ x ∈ d.collection c ∧ x.parent = some id := by
  simp [memSiblings, Entity.inGroup, Kind.childNotTop child]

theorem siblingsOnce (distinct : d.Distinct) (t : EntityType) (parent : Option Identifier) :
    ((d.siblings t parent).map (·.id)).Nodup :=
  ((Entity.groupPerm t parent _).map _).nodup_iff.mpr ((distinct t).sublist (List.filter_sublist.map _))

theorem Below.under (child : c ∈ k.children t) (inside : x ∈ d.collection c) (under : x.parent = some id)
    (below : d.Below k c x.id s y) : d.Below k t id s y := by
  induction below with
  | child type here parent => exact .deeper (.child child inside under) type here parent
  | deeper _ type here parent ih => exact .deeper ih type here parent

theorem belowThroughChild : d.Below k t id s y ↔ ∃ c ∈ k.children t, ∃ x ∈ d.siblings c (some id), d.Within k c x s y := by
  constructor
  · intro below
    induction below with
    | child type inside under => exact ⟨_, type, _, (memChildren type).mpr ⟨inside, under⟩, .inl ⟨rfl, rfl⟩⟩
    | deeper _ type inside under ih =>
      obtain ⟨c, child, x, member, within⟩ := ih
      refine ⟨c, child, x, member, .inr ?_⟩
      rcases within with ⟨rfl, rfl⟩ | below
      · exact .child type inside under
      · exact .deeper below type inside under
  · rintro ⟨c, child, x, member, within⟩
    obtain ⟨inside, under⟩ := (memChildren child).mp member
    rcases within with ⟨rfl, rfl⟩ | below
    · exact .child child inside under
    · exact below.under child inside under

theorem siblingNotBelow (child : c ∈ k.children t) (other : c' ∈ k.children t) : ¬d.Below k c i c' y := by
  have lower := Kind.heightChild child
  intro below
  cases below with
  | child type =>
    obtain rfl := Kind.oneParentType other type
    omega
  | deeper above type =>
    obtain rfl := Kind.oneParentType other type
    have := above.lower
    omega

theorem belowApart (distinct : d.Distinct) (child : c ∈ k.children t) (other : c' ∈ k.children t)
    (one : d.Below k c i s y) (two : d.Below k c' j s y) : c = c' ∧ i = j := by
  induction one with
  | child type inside under =>
    cases two with
    | child type' _ under' => exact ⟨Kind.oneParentType type type', Option.some.inj (under.symm.trans under')⟩
    | deeper above type' =>
      obtain rfl := Kind.oneParentType type type'
      exact absurd above (siblingNotBelow other child)
  | deeper above type inside under ih =>
    cases two with
    | child type' =>
      obtain rfl := Kind.oneParentType type type'
      exact absurd above (siblingNotBelow child other)
    | deeper above' type' _ under' =>
      obtain rfl := Kind.oneParentType type type'
      -- both ways up lead through one entity, since its identifier is borne by no other
      have named := Option.some.inj (under.symm.trans under')
      obtain rfl := List.inj_on_of_nodup_map (distinct _) above.inside above'.inside named
      exact ih above'

theorem withinApart (distinct : d.Distinct) (child : c ∈ k.children t) (other : c' ∈ k.children t)
    (one : d.Within k c x s y) (two : d.Within k c' x' s y) : c = c' ∧ x.id = x'.id := by
  rcases one with ⟨rfl, rfl⟩ | one <;> rcases two with ⟨rfl, rfl⟩ | two
  · exact ⟨rfl, rfl⟩
  · exact absurd two (siblingNotBelow other child)
  · exact absurd one (siblingNotBelow child other)
  · exact belowApart distinct child other one two

theorem beneathBelow (listed : (s, y) ∈ d.beneath k depth t id) : d.Below k t id s y := by
  induction depth generalizing t id with
  | zero => simp [beneath] at listed
  | succ depth ih =>
    simp only [beneath, List.mem_flatMap, List.mem_append, List.mem_singleton, Prod.mk.injEq] at listed
    obtain ⟨c, child, x, member, below | same⟩ := listed
    · exact belowThroughChild.mpr ⟨c, child, x, member, .inr (ih below)⟩
    · exact belowThroughChild.mpr ⟨c, child, x, member, .inl same⟩

theorem belowBeneath (deep : k.height t ≤ depth) (below : d.Below k t id s y) : (s, y) ∈ d.beneath k depth t id := by
  induction depth generalizing t id with
  | zero =>
    obtain ⟨c, child, _⟩ := belowThroughChild.mp below
    rw [Kind.childrenAtHeightZero (Nat.le_zero.mp deep)] at child
    contradiction
  | succ depth ih =>
    obtain ⟨c, child, x, member, within⟩ := belowThroughChild.mp below
    simp only [beneath, List.mem_flatMap, List.mem_append, List.mem_singleton, Prod.mk.injEq]
    refine ⟨c, child, x, member, ?_⟩
    rcases within with same | below
    · exact .inr same
    · have lower := Kind.heightChild child
      exact .inl (ih (by omega) below)

theorem blockWithin {a : EntityType × Entity} (listed : a ∈ d.beneath k depth c x.id ++ [(c, x)]) :
    d.Within k c x a.1 a.2 := by
  rcases List.mem_append.mp listed with below | own
  · exact .inr (beneathBelow below)
  · cases List.mem_singleton.mp own
    exact .inl ⟨rfl, rfl⟩

theorem blocksApart (distinct : d.Distinct) (child : c ∈ k.children t) (other : c' ∈ k.children t)
    (inside : x' ∈ d.collection c') (differ : ¬(c = c' ∧ x.id = x'.id)) :
    ∀ a ∈ d.beneath k depth c x.id ++ [(c, x)], ∀ b ∈ d.beneath k depth c' x'.id ++ [(c', x')],
      a ≠ b ∧ ¬Under k b a := by
  intro a first b second
  refine ⟨?_, fun ⟨type, under⟩ => ?_⟩
  · rintro rfl
    exact differ (withinApart distinct child other (blockWithin first) (blockWithin second))
  · have here : b.2 ∈ d.collection b.1 := by
      rcases blockWithin second with ⟨type, same⟩ | below
      · rw [type, same]
        exact inside
      · exact below.inside
    have below : d.Below k c x.id b.1 b.2 := by
      rcases blockWithin first with ⟨type', same⟩ | above
      · exact .child (type' ▸ type) here (same ▸ under)
      · exact .deeper above type here under
    exact differ (withinApart distinct child other (.inr below) (blockWithin second))

theorem blockOrder (below : (d.beneath k depth c x.id).Pairwise fun a b => a ≠ b ∧ ¬Under k b a) :
    (d.beneath k depth c x.id ++ [(c, x)]).Pairwise fun a b => a ≠ b ∧ ¬Under k b a := by
  refine List.pairwise_append.mpr ⟨below, List.pairwise_singleton _ _, fun a listed b own => ?_⟩
  have lower := (beneathBelow listed).lower
  cases List.mem_singleton.mp own
  refine ⟨?_, fun under => ?_⟩
  · rintro rfl
    exact Nat.lt_irrefl _ lower
  · exact Nat.lt_asymm lower (Kind.heightChild under.1)

theorem beneathOrder (distinct : d.Distinct) (depth : Nat) (t : EntityType) (id : Identifier) :
    (d.beneath k depth t id).Pairwise fun a b => a ≠ b ∧ ¬Under k b a := by
  induction depth generalizing t id with
  | zero => exact .nil
  | succ depth ih =>
    rw [beneath, List.pairwise_flatMap]
    refine ⟨fun c child => ?_, (Kind.childrenOnce k t).imp_of_mem fun {c c'} child other differ => ?_⟩
    · rw [List.pairwise_flatMap]
      refine ⟨fun x _ => blockOrder (ih c x.id), ?_⟩
      refine (List.pairwise_map.mp (siblingsOnce distinct c (some id))).imp_of_mem fun {x x'} _ member differ => ?_
      exact blocksApart distinct child child (memSiblings.mp member).1 fun same => differ same.2
    · intro a first b second
      obtain ⟨x, _, listed⟩ := List.mem_flatMap.mp first
      obtain ⟨x', member, listed'⟩ := List.mem_flatMap.mp second
      exact blocksApart distinct child other (memSiblings.mp member).1 (fun same => differ same.1) a listed b listed'

end Document
end SafetyCase
