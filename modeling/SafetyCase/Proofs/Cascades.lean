import Mathlib
import SafetyCase.Proofs.Deletions
import SafetyCase.Proofs.Effects
import SafetyCase.Proofs.Subtrees
/-! A removal takes an entity with all that is below it, and nothing else. What it returns is told by the listing of the
case as it was before: groups are numbered anew while it goes on, yet nothing still to go is lost or met twice. The same
removal on a document in place goes through as well, or is refused before anything is done. -/
namespace SafetyCase

namespace Document

variable {d d' : Document} {k : Kind} {t s c c' p : EntityType} {id i : Identifier} {e x y : Entity} {depth : Nat}

/-! A removal leaves alone what hangs below other children of the same parent, places included. -/

theorem siblingsSevered (severed : Severed k d t e d') (distinct : d.Distinct) (inside : e ∈ d.collection t)
    (child : s ∈ k.children p) (spared : ∀ y ∈ d.siblings s (some i), ¬d.Below k t e.id s y)
    (elsewhere : s = t → e.parent ≠ some i) : d'.siblings s (some i) = d.siblings s (some i) := by
  have below := Kind.childNotTop child
  by_cases own : s = t
  · subst own
    rw [siblings, severed.own, siblings]
    refine Entity.groupRemovedOther (fun y listed named => ?_) fun y member => ?_
    · rw [List.inj_on_of_nodup_map (distinct s) listed inside named]
    · have parent : y.parent = some i := by simpa [Entity.inGroup, below] using member
      simpa [Entity.inGroup, below, parent] using (elsewhere rfl).symm
  · have kept : d'.collection s = (d.collection s).filter fun y => !d.isBelow k t e.id s y.id :=
      keptSublist (distinct s) (severed.rest s own) fun y listed => by
        rw [severed.left s own y listed, ← isBelowIff distinct listed]
        simp
    rw [siblings, kept, Entity.groupFiltered]
    refine List.filter_eq_self.mpr fun y member => ?_
    have stays := spared y member
    rw [← isBelowIff distinct (memSiblings.mp member).1] at stays
    simpa using stays

theorem beneathSame (groups : ∀ c ∈ k.children t, d'.siblings c (some id) = d.siblings c (some id))
    (lower : ∀ s y, d.Below k t id s y → ∀ c ∈ k.children s, d'.siblings c (some y.id) = d.siblings c (some y.id)) :
    d'.beneath k depth t id = d.beneath k depth t id := by
  induction depth generalizing t id with
  | zero => rfl
  | succ depth ih =>
    rw [beneath, beneath]
    refine List.flatMap_congr fun c child => ?_
    rw [groups c child]
    refine List.flatMap_congr fun x member => ?_
    obtain ⟨inside, under⟩ := (memChildren child).mp member
    rw [ih (lower c x (.child child inside under)) fun s y below => lower s y (below.under child inside under)]

theorem beneathAside (severed : Severed k d c x d') (distinct : d.Distinct) (inside : x ∈ d.collection c)
    (child : c ∈ k.children t) (other : c' ∈ k.children t) (apart : ¬(c = c' ∧ x.id = i)) :
    d'.beneath k depth c' i = d.beneath k depth c' i := by
  refine beneathSame (fun p type => ?_) fun s z below p type => ?_
  · refine siblingsSevered severed distinct inside type (fun y member below => ?_) fun same => ?_
    · cases below with
      | child type' _ under =>
        exact apart ⟨Kind.oneParentType type' type, Option.some.inj (under.symm.trans ((memChildren type).mp member).2)⟩
      | deeper above type' =>
        obtain rfl := Kind.oneParentType type type'
        exact siblingNotBelow child other above
    · obtain rfl := Kind.oneParentType child (same ▸ type)
      exact absurd (Kind.heightChild other) (Nat.lt_irrefl _)
  · refine siblingsSevered severed distinct inside type (fun y member above => ?_) fun same => ?_
    · obtain ⟨here, under⟩ := (memChildren type).mp member
      exact apart (belowApart distinct child other above (.deeper below type here under))
    · obtain rfl := Kind.oneParentType child (same ▸ type)
      exact absurd (Kind.heightChild other) (Nat.lt_asymm below.lower)

theorem Severed.distinct (severed : Severed k d t e d') (distinct : d.Distinct) : d'.Distinct := by
  intro s
  by_cases own : s = t
  · subst own
    rw [idsOf, severed.own, Entity.removed, Entity.renumberGroup, Entity.idsRenumber]
    exact (distinct s).sublist (List.eraseP_sublist.map _)
  · exact (distinct s).sublist ((severed.rest s own).map _)

theorem Severed.others (severed : Severed k d t e d') (distinct : d.Distinct) {y' : Entity}
    (found : d.find? t y.id = some y') (other : y.id ≠ e.id) :
    ∃ z, d'.find? t y.id = some z ∧ z.unplaced = y'.unplaced := by
  have named : y'.id = y.id := by simpa using List.find?_some found
  have listed : y'.unplaced ∈ ((d.collection t).filter fun x => x.id ≠ e.id).map Entity.unplaced :=
    List.mem_map_of_mem (List.mem_filter.mpr ⟨List.mem_of_find?_eq_some found, by simpa [named] using other⟩)
  rw [← Entity.unplacedRemoved (distinct t), ← severed.own] at listed
  obtain ⟨z, inside, same⟩ := List.mem_map.mp listed
  obtain ⟨z', found'⟩ := findInside inside
  rw [findOwn (severed.distinct distinct) inside found', (Entity.unplacedFields same).1, named] at found'
  exact ⟨z, found', same⟩

def Spares (k : Kind) (c' : EntityType) (d d' : Document) : Prop := ∀ i,
  d'.siblings c' (some i) = d.siblings c' (some i) ∧ ∀ depth, d'.beneath k depth c' i = d.beneath k depth c' i

theorem treeSpares (child : c ∈ k.children t) (other : c' ∈ k.children t) (differ : c' ≠ c) (distinct : d.Distinct)
    (deep : k.height c ≤ depth) (id : Identifier) : Spares k c' d (removeTree k depth c d id).2 := by
  cases found : d.find? c id with
  | none => cases depth <;> simp [removeTree, found, Spares]
  | some x =>
    have severed := removeTreeSevered distinct found deep
    have inside := List.mem_of_find?_eq_some found
    refine fun i => ⟨?_, fun n => beneathAside severed distinct inside child other fun same => differ same.1.symm⟩
    exact siblingsSevered severed distinct inside other (fun _ _ => siblingNotBelow child other) fun same =>
      absurd same differ

theorem eachSpares (child : c ∈ k.children t) (other : c' ∈ k.children t) (differ : c' ≠ c) (distinct : d.Distinct)
    (deep : k.height c ≤ depth) (ids : List Identifier) :
    Spares k c' d (removeEach (removeTree k depth c) ids d).2 := by
  induction ids generalizing d with
  | nil => exact fun _ => ⟨rfl, fun _ => rfl⟩
  | cons id rest ih =>
    have first := treeSpares child other differ distinct deep id
    have later := ih ((removeTreePruned k depth c d id).distinct distinct)
    exact fun i => ⟨(later i).1.trans (first i).1, fun n => ((later i).2 n).trans ((first i).2 n)⟩

def brood (d : Document) (k : Kind) (depth : Nat) (id : Identifier) (types : List EntityType) :
    List (EntityType × Entity) :=
  types.flatMap fun c => (d.siblings c (some id)).flatMap fun x => d.beneath k depth c x.id ++ [(c, x)]

theorem broodSpared {types : List EntityType} (spares : ∀ c ∈ types, Spares k c d d') :
    d'.brood k depth id types = d.brood k depth id types := by
  refine List.flatMap_congr fun c listed => ?_
  rw [(spares c listed id).1]
  exact List.flatMap_congr fun x _ => by rw [(spares c listed x.id).2]

/-! The same removal on a document in place: every entity below is asked for again by its identifier, each of these
removals may be refused, and what was done before stays done. -/

abbrev InPlace := ExceptT TreeFault (StateM Document)

def InPlace.on (m : InPlace α) (d : Document) : Except TreeFault α × Document := StateT.run (ExceptT.run m) d

def admitted (k : Kind) (t : EntityType) (id : Identifier) (policy : DeletePolicy) : InPlace Entity := do
  let d ← get
  match d.find? t id with
  | none => throw (.missing t id)
  | some e =>
    match policy, d.childType? k t id with
    | .restrict, some c => throw (.hasChildren t id c)
    | _, _ => return e

def eachInPlace (remove : Identifier → InPlace (List Entity)) : List Identifier → InPlace (List Entity)
  | [] => return []
  | i :: rest => do
    let first ← remove i
    let others ← eachInPlace remove rest
    return first ++ others

def childrenInPlace (remove : EntityType → Identifier → InPlace (List Entity)) (parent : Identifier) :
    List EntityType → InPlace (List Entity)
  | [] => return []
  | c :: rest => do
    let d ← get
    let first ← eachInPlace (remove c) ((d.siblings c (some parent)).map (·.id))
    let others ← childrenInPlace remove parent rest
    return first ++ others

def removeInPlace (k : Kind) : Nat → EntityType → Identifier → DeletePolicy → InPlace (List Entity)
  | 0, t, id, policy => do
    let e ← admitted k t id policy
    modify (·.removeOne t e)
    return [e]
  | depth + 1, t, id, policy => do
    let e ← admitted k t id policy
    let below ← childrenInPlace (fun c i => removeInPlace k depth c i .cascade) id (k.children t)
    modify (·.removeOne t e)
    return below ++ [e]

/-- The removal in place goes through with the given outcome; what it returns is as listed, but for places. -/
structure Goes (m : InPlace (List Entity)) (d : Document) (out : List Entity × Document)
    (row : List (EntityType × Entity)) : Prop where
  run : m.on d = (.ok out.1, out.2)
  listed : out.1.map Entity.unplaced = row.map fun r => r.2.unplaced

theorem onBind {m : InPlace α} {f : α → InPlace β} {a : α} (done : m.on d = (.ok a, d')) :
    (m >>= f).on d = (f a).on d' := by
  simp only [InPlace.on, ExceptT.run_bind, StateT.run_bind] at done ⊢
  rw [done]
  rfl

theorem onStop {m : InPlace α} {f : α → InPlace β} {fault : TreeFault} (stops : m.on d = (.error fault, d')) :
    (m >>= f).on d = (.error fault, d') := by
  simp only [InPlace.on, ExceptT.run_bind, StateT.run_bind] at stops ⊢
  rw [stops]
  rfl

theorem getOn (d : Document) : (get : InPlace Document).on d = (.ok d, d) := rfl

theorem admittedGoes {policy : DeletePolicy} (found : d.find? t id = some e)
    (free : policy = .restrict → d.childType? k t id = none) : (admitted k t id policy).on d = (.ok e, d) := by
  rw [admitted, onBind (getOn d), found]
  cases policy with
  | cascade => rfl
  | restrict =>
    rw [free rfl]
    rfl

theorem admittedStops {policy : DeletePolicy} {fault : TreeFault} (refused : d.remove k t id policy = .error fault) :
    (admitted k t id policy).on d = (.error fault, d) := by
  rw [admitted, onBind (getOn d)]
  unfold remove at refused
  cases found : d.find? t id with
  | none =>
    rw [found] at refused
    cases refused
    rfl
  | some e =>
    rw [found] at refused
    cases policy with
    | cascade => contradiction
    | restrict =>
      cases children : d.childType? k t id with
      | none =>
        rw [children] at refused
        contradiction
      | some c =>
        rw [children] at refused
        cases refused
        rfl

theorem Goes.append {m m' : InPlace (List Entity)} {out out' : List Entity × Document}
    {row row' : List (EntityType × Entity)} (first : Goes m d out row) (second : Goes m' out.2 out' row') :
    Goes (do return (← m) ++ (← m')) d (out.1 ++ out'.1, out'.2) (row ++ row') := by
  refine ⟨?_, ?_⟩
  · rw [onBind first.run, onBind second.run]
    rfl
  · rw [List.map_append, List.map_append, first.listed, second.listed]

theorem eachGoes (child : c ∈ k.children t) (deep : k.height c ≤ depth)
    (one : ∀ {d : Document} {i : Identifier} {x : Entity}, d.Distinct → d.find? c i = some x →
      Goes (removeInPlace k depth c i .cascade) d (removeTree k depth c d i) (d.beneath k depth c i ++ [(c, x)]))
    {xs : List Entity} (once : (xs.map (·.id)).Nodup) (distinct : d.Distinct)
    (there : ∀ x ∈ xs, ∃ x', d.find? c x.id = some x' ∧ x'.unplaced = x.unplaced) :
    Goes (eachInPlace (removeInPlace k depth c · .cascade) (xs.map (·.id))) d
      (removeEach (removeTree k depth c) (xs.map (·.id)) d) (xs.flatMap fun x => d.beneath k depth c x.id ++ [(c, x)]) := by
  induction xs generalizing d with
  | nil => exact ⟨rfl, rfl⟩
  | cons x rest ih =>
    obtain ⟨absent, once⟩ := List.nodup_cons.mp once
    obtain ⟨⟨x', found, same⟩, later⟩ := List.forall_mem_cons.mp there
    have named : x'.id = x.id := (Entity.unplacedFields same).1
    have severed := removeTreeSevered distinct found deep
    have inside := List.mem_of_find?_eq_some found
    have others : ∀ y ∈ rest, y.id ≠ x'.id := fun y listed equal =>
      absent (List.mem_map.mpr ⟨y, listed, equal.trans named⟩)
    have tail := ih once (severed.distinct distinct) fun y listed => by
      obtain ⟨y', found', like⟩ := later y listed
      obtain ⟨z, left, like'⟩ := severed.others distinct found' (others y listed)
      exact ⟨z, left, like'.trans like⟩
    -- the first child takes nothing that the listing has for the others
    have kept : rest.flatMap (fun y => (removeTree k depth c d x.id).2.beneath k depth c y.id ++ [(c, y)]) =
        rest.flatMap fun y => d.beneath k depth c y.id ++ [(c, y)] :=
      List.flatMap_congr fun y listed => by
        rw [beneathAside severed distinct inside child child fun equal => others y listed equal.2.symm]
    have whole := (one distinct found).append tail
    rw [kept] at whole
    refine ⟨whole.run, whole.listed.trans ?_⟩
    simp [same]

theorem childrenGoes (deep : ∀ c ∈ k.children t, k.height c ≤ depth)
    (one : ∀ {c : EntityType} {d : Document} {i : Identifier} {x : Entity}, c ∈ k.children t → d.Distinct →
      d.find? c i = some x →
      Goes (removeInPlace k depth c i .cascade) d (removeTree k depth c d i) (d.beneath k depth c i ++ [(c, x)]))
    {types : List EntityType} (among : ∀ c ∈ types, c ∈ k.children t) (once : types.Nodup) (distinct : d.Distinct) :
    Goes (childrenInPlace (fun c i => removeInPlace k depth c i .cascade) id types) d
      (removeChildren (removeTree k depth) id types d)
      (d.brood k depth id types) := by
  induction types generalizing d with
  | nil => exact ⟨rfl, rfl⟩
  | cons c rest ih =>
    obtain ⟨child, among⟩ := List.forall_mem_cons.mp among
    obtain ⟨absent, once⟩ := List.nodup_cons.mp once
    have first := eachGoes child (deep c child) (one child) (siblingsOnce distinct c (some id)) distinct fun x member => by
      have inside := (memSiblings.mp member).1
      obtain ⟨y, found⟩ := findInside inside
      rw [findOwn distinct inside found] at found
      exact ⟨x, found, rfl⟩
    have kept (c' : EntityType) (listed : c' ∈ rest) := eachSpares child (among c' listed)
      (fun same => absent (same ▸ listed)) distinct (deep c child) ((d.siblings c (some id)).map (·.id))
    have tail := ih among once ((removeEachPruned (removeTreePruned k depth c) ((d.siblings c (some id)).map (·.id))
      d).distinct distinct)
    rw [broodSpared kept] at tail
    exact ⟨(first.append tail).run, (first.append tail).listed⟩

theorem treeGoes {policy : DeletePolicy} (distinct : d.Distinct) (deep : k.height t ≤ depth)
    (found : d.find? t id = some e) (free : policy = .restrict → d.childType? k t id = none) :
    Goes (removeInPlace k depth t id policy) d (removeTree k depth t d id) (d.beneath k depth t id ++ [(t, e)]) := by
  induction depth generalizing t d id e policy with
  | zero =>
    refine ⟨?_, ?_⟩
    · rw [removeInPlace, onBind (admittedGoes found free)]
      simp only [removeTree, found]
      rfl
    · simp [removeTree, found, beneath]
  | succ depth ih =>
    have lower (c : EntityType) (child : c ∈ k.children t) : k.height c ≤ depth := by
      have := Kind.heightChild child
      omega
    have below : Goes (childrenInPlace (fun c i => removeInPlace k depth c i .cascade) id (k.children t)) d
        (removeChildren (removeTree k depth) id (k.children t) d) (d.brood k depth id (k.children t)) :=
      childrenGoes lower (fun {c d i x} child distinct found => ih distinct (lower c child) found (by simp))
        (fun _ child => child) (Kind.childrenOnce k t) distinct
    refine ⟨?_, ?_⟩
    · rw [removeInPlace, onBind (admittedGoes found free), onBind below.run]
      simp only [removeTree, found]
      rfl
    · simp only [removeTree, found, List.map_append, below.listed]
      rfl

theorem childTypeNone : d.childType? k t id = none ↔
    ∀ c ∈ k.children t, ∀ y ∈ d.collection c, y.parent ≠ some id := by
  simp only [childType?, List.find?_eq_none, Bool.not_eq_true', Bool.not_eq_false, List.isEmpty_iff,
    List.eq_nil_iff_forall_not_mem]
  refine forall₂_congr fun c child => ?_
  simp [memChildren child]

theorem withinOwn (y : Entity) : d.Within k t e t y ↔ y = e := by
  refine ⟨fun within => ?_, fun same => .inl ⟨rfl, same⟩⟩
  rcases within with ⟨_, same⟩ | below
  · exact same
  · exact absurd below.lower (Nat.lt_irrefl _)

theorem refusedInPlace {policy : DeletePolicy} {fault : TreeFault} (refused : d.remove k t id policy = .error fault)
    (depth : Nat) : (removeInPlace k depth t id policy).on d = (.error fault, d) := by
  cases depth with
  | zero => rw [removeInPlace, onStop (admittedStops refused)]
  | succ depth => rw [removeInPlace, onStop (admittedStops refused)]

open Classical in
/-- What a removal returns and what it leaves: the entity and all below it, each once, go and are returned, children before
their parents and the entity last; all else stays as it is, but for the numbering of the group it was in. -/
structure Uprooted (k : Kind) (d : Document) (t : EntityType) (e : Entity) (gone : List Entity) (d' : Document) :
    Prop where
  listed : ∃ row : List (EntityType × Entity), gone.map Entity.unplaced = row.map (fun r => r.2.unplaced) ∧
    (∀ s y, (s, y) ∈ row ↔ d.Within k t e s y) ∧ row.Pairwise fun a b => a ≠ b ∧ ¬Under k b a
  last : gone.getLast? = some e
  header : d'.header = d.header
  elsewhere : ∀ s ≠ t, d'.collection s = (d.collection s).filter fun y => ¬d.Within k t e s y
  own : Entity.Shifts t e.parent ((d.collection t).filter fun y => ¬d.Within k t e t y) (d'.collection t)
  group : d'.siblings t e.parent = Entity.numbered ((d.siblings t e.parent).filter fun y => ¬d.Within k t e t y)

open Classical in
theorem removeTreeUproots (distinct : d.Distinct) (found : d.find? t id = some e) :
    Uprooted k d t e (removeTree k (k.height t) t d id).1 (removeTree k (k.height t) t d id).2 := by
  have inside := List.mem_of_find?_eq_some found
  obtain rfl : e.id = id := by simpa using List.find?_some found
  have goes := treeGoes distinct (Nat.le_refl (k.height t)) found (show DeletePolicy.cascade = .restrict → _ from nofun)
  have severed := removeTreeSevered distinct found (Nat.le_refl (k.height t))
  have others : (d.collection t).eraseP (·.id = e.id) = (d.collection t).filter fun y => ¬d.Within k t e t y := by
    rw [Entity.eraseFiltered (distinct t)]
    refine List.filter_congr fun y listed => ?_
    rw [withinOwn]
    simp only [ne_eq, decide_not, Bool.not_eq_eq_eq_not, Bool.not_not, decide_eq_decide]
    exact ⟨List.inj_on_of_nodup_map (distinct t) listed inside, fun same => by rw [same]⟩
  refine ⟨⟨_, goes.listed, fun s y => ?_, blockOrder (beneathOrder distinct _ t e.id)⟩, ?_, severed.header,
    fun s other => ?_, ?_, ?_⟩
  · rw [List.mem_append, List.mem_singleton, Prod.mk.injEq]
    exact ⟨fun listed => listed.elim (fun below => .inr (beneathBelow below)) .inl,
      fun within => within.elim .inr fun below => .inl (belowBeneath (Nat.le_refl _) below)⟩
  · cases height : k.height t <;> simp [removeTree, found]
  · refine keptSublist (distinct s) (severed.rest s other) fun y listed => ?_
    rw [severed.left s other y listed]
    simp [Within, other]
  · rw [severed.own, ← others]
    exact Entity.shiftsRemoved t e (d.collection t)
  · rw [siblings, severed.own, Entity.groupRemoved, others, Entity.groupFiltered]
    rfl

theorem removalUproots {d : Document} (distinct : d.Distinct) (k : Kind) (t : EntityType) (id : Identifier)
    (policy : DeletePolicy) :
    ((∃ fault, d.remove k t id policy = .error fault) ↔ (∀ e ∈ d.collection t, e.id ≠ id) ∨
      policy = .restrict ∧ ∃ c ∈ k.children t, ∃ y ∈ d.collection c, y.parent = some id) ∧
    (∀ fault, d.remove k t id policy = .error fault →
      (removeInPlace k (k.height t) t id policy).on d = (.error fault, d)) ∧
    ∀ gone d', d.remove k t id policy = .ok (gone, d') →
      (removeInPlace k (k.height t) t id policy).on d = (.ok gone, d') ∧
        ∃ e ∈ d.collection t, e.id = id ∧ Uprooted k d t e gone d' := by
  have goes : (∃ out, d.remove k t id policy = .ok out) ↔
      (d.find? t id).isSome = true ∧ (policy = .restrict → d.childType? k t id = none) := removeGoes
  refine ⟨?_, fun fault refused => refusedInPlace refused _, fun gone d' done => ?_⟩
  · have either : (∃ fault, d.remove k t id policy = .error fault) ↔ ¬∃ out, d.remove k t id policy = .ok out := by
      cases d.remove k t id policy <;> simp
    rw [either, goes, childTypeNone, find?, List.find?_isSome]
    grind
  · obtain ⟨here, free⟩ := goes.mp ⟨_, done⟩
    obtain ⟨e, found⟩ := Option.isSome_iff_exists.mp here
    obtain rfl : e.id = id := by simpa using List.find?_some found
    have result := removeResult done
    obtain ⟨rfl, rfl⟩ := Prod.mk.inj result
    exact ⟨(treeGoes distinct (Nat.le_refl _) found free).run, e, List.mem_of_find?_eq_some found, rfl,
      removeTreeUproots distinct found⟩

def plain (t : EntityType) (n : Nat) (parent : Option Identifier) (order : Int) : Entity :=
  ⟨.numbered n, parent, order, t.attributes⟩

/-- Two hazards of one place and one before them, a hazard without its step, and a control that bears the identifier of
a hazard. -/
def tangled : Document :=
  { id := .numbered 1, kind := .riskAssessment, title := "Yard", phase := "HAZARDS",
    steps := [plain .step 2 none 4],
    hazards := [plain .hazard 3 (some (.numbered 2)) 7, plain .hazard 4 (some (.numbered 2)) 7,
      plain .hazard 5 (some (.numbered 9)) 0, plain .hazard 6 (some (.numbered 2)) 1],
    controls := [plain .control 4 (some (.numbered 3)) 5, plain .control 7 (some (.numbered 4)) 5,
      plain .control 8 (some (.numbered 3)) 2],
    actions := [plain .action 10 (some (.numbered 3)) 0],
    createdAt := ⟨0⟩, updatedAt := ⟨0⟩ }

theorem removalUprootsTangled : tangled.Distinct ∧ ∃ gone d',
    tangled.remove .riskAssessment .hazard (.numbered 3) .cascade = .ok (gone, d') ∧
    gone.map (·.id) = [.numbered 8, .numbered 4, .numbered 10, .numbered 3] ∧
    d'.hazards.map (fun y => (y.id, y.order)) = [(.numbered 4, 1), (.numbered 5, 0), (.numbered 6, 0)] ∧
    (removeInPlace .riskAssessment (Kind.riskAssessment.height .hazard) .hazard (.numbered 3) .cascade).on tangled =
      (.ok gone, d') ∧
    ∃ e ∈ tangled.collection .hazard, e.id = .numbered 3 ∧ Uprooted .riskAssessment tangled .hazard e gone d' := by
  have distinct : tangled.Distinct := fun t => by cases t <;> decide
  have holds : (tangled.remove .riskAssessment .hazard (.numbered 3) .cascade).toOption.map (fun out =>
      (out.1.map (·.id), out.2.hazards.map fun y => (y.id, y.order))) =
      some ([.numbered 8, .numbered 4, .numbered 10, .numbered 3],
        [(.numbered 4, 1), (.numbered 5, 0), (.numbered 6, 0)]) := by cbv
  cases done : tangled.remove .riskAssessment .hazard (.numbered 3) .cascade with
  | error fault =>
    rw [done] at holds
    contradiction
  | ok out =>
    rw [done] at holds
    obtain ⟨gone, left⟩ := Prod.mk.inj (Option.some.inj holds)
    exact ⟨distinct, out.1, out.2, rfl, gone, left,
      (removalUproots distinct .riskAssessment .hazard (.numbered 3) .cascade).2.2 out.1 out.2 done⟩

end Document
end SafetyCase
