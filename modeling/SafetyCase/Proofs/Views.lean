import Mathlib
import SafetyCase.Proofs.Cascades
import SafetyCase.Proofs.Declarations
import SafetyCase.Proofs.Rooting
/-! The view of a case is canonical. It does not depend on how the flat collections are arranged, it shows each entity
once and each group in one piece, in its order; and a case can be told from its view but for that arrangement. The view
ranks parents by number, which for identifiers of the usual width is the order of their texts. -/
namespace SafetyCase

theorem Kind.nameInjective {k k' : Kind} (same : k.name = k'.name) : k = k' := by
  cases k <;> cases k' <;> first | rfl | exact absurd same (by decide)

namespace Entity

variable {t : EntityType} {parent : Option Identifier} {es es' : List Entity} {a b e : Entity}

def Unambiguous (es : List Entity) : Prop := (es.map fun e => (e.parent, e.order)).Nodup

def groupRank (t : EntityType) (parent : Option Identifier) : Nat :=
  if t.isTop then 0 else (parent.map (·.value + 1)).getD 0

theorem parentRankTells (same : a.parentRank = b.parentRank) : a.parent = b.parent := by
  obtain ⟨_, p, _, _⟩ := a
  obtain ⟨_, q, _, _⟩ := b
  rcases p with _ | ⟨⟨m⟩⟩ <;> rcases q with _ | ⟨⟨n⟩⟩ <;> simp_all [parentRank]

theorem inGroupRank (declared : e.Declared t) :
    e.inGroup t parent = decide (e.parentRank = groupRank t parent) := by
  have referred := declared.parent
  unfold inGroup groupRank parentRank
  cases top : t.isTop with
  | true =>
    rw [top] at referred
    have alone : e.parent = none := by simpa using referred
    simp [alone]
  | false =>
    obtain ⟨⟨m⟩, under⟩ := Option.isSome_iff_exists.mp (referred.trans (by rw [top]; rfl))
    rcases parent with _ | ⟨⟨n⟩⟩ <;> simp [under]

theorem viewLeIff : a.viewLe b = true ↔
    a.parentRank < b.parentRank ∨ a.parentRank = b.parentRank ∧ a.order ≤ b.order := by
  simp [viewLe]

def parentText (e : Entity) : String := (e.parent.map (·.text)).getD ""

/-- All parents are written with the usual number of characters. -/
def Usual (es : List Entity) : Prop := ∀ e ∈ es, ∀ p, e.parent = some p → p.value < 2 ^ 128

theorem parentTextRises (usual : ∀ p, b.parent = some p → p.value < 2 ^ 128) (below : a.parentRank < b.parentRank) :
    a.parentText < b.parentText := by
  obtain ⟨_, p, _, _⟩ := a
  obtain ⟨_, q, _, _⟩ := b
  cases q with
  | none => simp [parentRank] at below
  | some q =>
    cases p with
    | none =>
      have hyphen : '-' ∈ q.text.toList := by simp [Identifier.text, Identifier.digitGroups, List.intercalate]
      obtain ⟨c, cs, written⟩ := List.exists_cons_of_ne_nil (List.ne_nil_of_mem hyphen)
      exact String.lt_iff_toList_lt.mpr (show [] < q.text.toList by simp [written])
    | some p => exact Identifier.textRises (usual q rfl) (by simpa [parentRank] using below)

theorem viewLeTexts (usual : Usual es) (here : a ∈ es) (there : b ∈ es) : a.viewLe b = true ↔
    a.parentText < b.parentText ∨ a.parentText = b.parentText ∧ a.order ≤ b.order := by
  rw [viewLeIff]
  rcases Nat.lt_trichotomy a.parentRank b.parentRank with below | same | above
  · have rises := parentTextRises (usual b there) below
    simp [below, rises]
  · have one : a.parentText = b.parentText := by rw [parentText, parentText, parentRankTells same]
    simp [same, one]
  · have falls := parentTextRises (usual a here) above
    simp [above.not_gt, above.ne', falls.not_gt, falls.ne']

theorem viewSorted (es : List Entity) : (es.mergeSort viewLe).Pairwise fun a b => a.viewLe b = true := by
  refine List.pairwise_mergeSort (fun a b c => ?_) (fun a b => ?_) es
  · simp only [viewLeIff]
    omega
  · simp only [Bool.or_eq_true, viewLeIff]
    omega

theorem unambiguousSame (unambiguous : Unambiguous es) (inside : a ∈ es) (inside' : b ∈ es)
    (rank : a.parentRank = b.parentRank) (order : a.order = b.order) : a = b :=
  List.inj_on_of_nodup_map unambiguous inside inside' (Prod.ext (parentRankTells rank) order)

theorem viewArranged (unambiguous : Unambiguous es) (perm : es'.Perm es) : es'.mergeSort viewLe = es.mergeSort viewLe := by
  have same := (List.mergeSort_perm es' viewLe).trans (perm.trans (List.mergeSort_perm es viewLe).symm)
  -- two sorted readings of the same entities agree, since no two of these have the same rank and place
  refine same.eq_of_pairwise (fun a b here there le ge => ?_) (viewSorted es') (viewSorted es)
  rw [viewLeIff] at le ge
  exact unambiguousSame unambiguous (perm.mem_iff.mp (List.mem_mergeSort.mp here)) (List.mem_mergeSort.mp there)
    (by omega) (by omega)

theorem splitsOff {p : Entity → Bool} (first : es.Pairwise fun a b => p b = true → p a = true) :
    es = es.filter p ++ es.filter fun e => !p e := by
  induction es with
  | nil => rfl
  | cons e rest ih =>
    obtain ⟨before, first⟩ := List.pairwise_cons.mp first
    cases kept : p e with
    | true => simp [kept, ← ih first]
    | false =>
      have later : ∀ x ∈ rest, p x = false := fun x listed => by simpa [kept] using before x listed
      have none : rest.filter p = [] := List.filter_eq_nil_iff.mpr fun x listed => by simp [later x listed]
      have all : (rest.filter fun x => !p x) = rest := List.filter_eq_self.mpr fun x listed => by simp [later x listed]
      simp [kept, none, all]

theorem rankTogether (r : Nat) (sorted : es.Pairwise fun a b => a.parentRank ≤ b.parentRank) :
    ∃ before after, es = before ++ es.filter (·.parentRank = r) ++ after ∧
      ∀ e ∈ before ++ after, e.parentRank ≠ r := by
  have lower := splitsOff (p := (·.parentRank < r)) (sorted.imp fun le => by simp; omega)
  have upper := splitsOff (p := (·.parentRank ≤ r)) ((sorted.filter fun e => !decide (e.parentRank < r)).imp fun le => by
    simp; omega)
  have middle : (es.filter fun e => !decide (e.parentRank < r)).filter (·.parentRank ≤ r) =
      es.filter (·.parentRank = r) := by
    rw [List.filter_filter]
    refine List.filter_congr fun e _ => ?_
    rw [Bool.eq_iff_iff]
    simp only [Bool.and_eq_true, Bool.not_eq_true', decide_eq_true_eq, decide_eq_false_iff_not]
    omega
  rw [upper, middle, ← List.append_assoc] at lower
  refine ⟨_, _, lower, fun e outside => ?_⟩
  simp only [List.mem_append, List.mem_filter, decide_eq_true_eq, Bool.not_eq_true', decide_eq_false_iff_not] at outside
  omega

end Entity

namespace Document

variable {d d' : Document} {t : EntityType} {parent : Option Identifier}

def Declared (d : Document) : Prop := ∀ t, ∀ e ∈ d.collection t, e.Declared t

def Unambiguous (d : Document) : Prop := ∀ t, Entity.Unambiguous (d.collection t)

structure Rearranged (d' d : Document) : Prop where
  header : d'.header = d.header
  collections : ∀ t, (d'.collection t).Perm (d.collection t)

/-- Under the name of a type the view shows these entities: those of the case, each once, by the text of the parent and
then by place, so that every group of siblings stands in one piece and in its order. -/
structure Shown (d : Document) (t : EntityType) (rows : List Entity) : Prop where
  field : d.view.get? t.plural = some (.list (rows.map (·.toJson t)))
  all : rows.Perm (d.collection t)
  sorted : Entity.Usual rows → rows.Pairwise fun a b =>
    a.parentText < b.parentText ∨ a.parentText = b.parentText ∧ a.order ≤ b.order
  groups : ∀ parent, ∃ before after, rows = before ++ d.siblings t parent ++ after ∧
    ∀ e ∈ before ++ after, e.inGroup t parent = false

theorem viewArranged (unambiguous : d.Unambiguous) (rearranged : Rearranged d' d) : d'.view = d.view := by
  have header {α : Type} (f : Document → α) : f d'.header = f d.header := by rw [rearranged.header]
  have fields : d'.collectionField = d.collectionField := by
    funext t
    rw [collectionField, collectionField, viewCollection, viewCollection,
      Entity.viewArranged (unambiguous t) (rearranged.collections t)]
  have id : d'.id = d.id := header Document.id
  have kind : d'.kind = d.kind := header Document.kind
  have title : d'.title = d.title := header Document.title
  have phase : d'.phase = d.phase := header Document.phase
  have created : d'.createdAt = d.createdAt := header Document.createdAt
  have updated : d'.updatedAt = d.updatedAt := header Document.updatedAt
  rw [view, view, id, kind, title, phase, created, updated, fields]

theorem siblingsInView (declared : d.Declared) (unambiguous : d.Unambiguous) (t : EntityType)
    (parent : Option Identifier) :
    (d.viewCollection t).filter (·.parentRank = Entity.groupRank t parent) = d.siblings t parent := by
  have members : (d.collection t).filter (·.inGroup t parent) =
      (d.collection t).filter (·.parentRank = Entity.groupRank t parent) :=
    List.filter_congr fun e inside => Entity.inGroupRank (declared t e inside)
  have perm : ((d.viewCollection t).filter (·.parentRank = Entity.groupRank t parent)).Perm (d.siblings t parent) :=
    ((List.mergeSort_perm _ _).filter _).trans (members ▸ (Entity.groupPerm t parent _).symm)
  have ranked {e : Entity} (listed : e ∈ (d.viewCollection t).filter (·.parentRank = Entity.groupRank t parent)) :
      e ∈ d.collection t ∧ e.parentRank = Entity.groupRank t parent := by
    simpa [viewCollection, List.mem_mergeSort] using listed
  have sorted : ((d.viewCollection t).filter (·.parentRank = Entity.groupRank t parent)).Pairwise
      fun a b => a.order ≤ b.order := by
    refine ((Entity.viewSorted _).filter _).imp_of_mem fun {a b} here there le => ?_
    have one := (ranked here).2.trans (ranked there).2.symm
    rw [Entity.viewLeIff] at le
    omega
  refine perm.eq_of_pairwise (fun a b here there le ge => ?_) sorted (Entity.groupSorted t parent _)
  obtain ⟨inside, rank⟩ := ranked here
  obtain ⟨inside', rank'⟩ := ranked (perm.mem_iff.mpr there)
  exact Entity.unambiguousSame (unambiguous t) inside inside' (rank.trans rank'.symm) (Int.le_antisymm le ge)

theorem fieldInView (d : Document) (t : EntityType) :
    d.view.get? t.plural = some (.list ((d.viewCollection t).map (·.toJson t))) := by
  cases t <;> rfl

theorem viewShows (declared : d.Declared) (unambiguous : d.Unambiguous) (t : EntityType) :
    Shown d t (d.viewCollection t) := by
  refine ⟨fieldInView d t, List.mergeSort_perm _ _, fun usual => (Entity.viewSorted _).imp_of_mem fun here there le =>
    (Entity.viewLeTexts usual here there).mp le, fun parent => ?_⟩
  have sorted := (Entity.viewSorted (d.collection t)).imp fun {a b} le => by
    rw [Entity.viewLeIff] at le
    exact (by omega : a.parentRank ≤ b.parentRank)
  obtain ⟨before, after, split, others⟩ := Entity.rankTogether (Entity.groupRank t parent) sorted
  have whole : d.viewCollection t = before ++ d.siblings t parent ++ after := by
    rw [← siblingsInView declared unambiguous]
    exact split
  refine ⟨before, after, whole, fun e outside => ?_⟩
  have inside : e ∈ d.viewCollection t := by
    rw [whole]
    simp only [List.mem_append] at outside ⊢
    exact outside.imp_left .inl
  rw [Entity.inGroupRank (declared t e (List.mem_mergeSort.mp inside)), decide_eq_false_iff_not]
  exact others e outside

theorem rowsApart {rows rows' : List Entity} (declared : ∀ e ∈ rows, e.Declared t) (declared' : ∀ e ∈ rows', e.Declared t)
    (same : rows.map (·.toJson t) = rows'.map (·.toJson t)) : rows = rows' := by
  induction rows generalizing rows' with
  | nil => exact (List.map_eq_nil_iff.mp same.symm).symm
  | cons e rest ih =>
    cases rows' with
    | nil => contradiction
    | cons e' rest' =>
      obtain ⟨first, later⟩ := List.cons.inj same
      obtain ⟨one, others⟩ := List.forall_mem_cons.mp declared
      obtain ⟨one', others'⟩ := List.forall_mem_cons.mp declared'
      rw [Entity.shownApart one one' first, ih others others' later]

theorem collectionTold (declared : d.Declared) (declared' : d'.Declared) (same : d'.view = d.view) (t : EntityType) :
    (d'.collection t).Perm (d.collection t) := by
  have listed {c : Document} (held : c.Declared) : ∀ e ∈ c.viewCollection t, e.Declared t := fun e inside =>
    held t e (List.mem_mergeSort.mp inside)
  have fields := (fieldInView d' t).symm.trans ((congrArg (Json.get? t.plural) same).trans (fieldInView d t))
  have rows := rowsApart (listed declared') (listed declared) (Json.list.inj (Option.some.inj fields))
  exact ((List.mergeSort_perm _ _).symm.trans (.of_eq rows)).trans (List.mergeSort_perm _ _)

theorem headerTold (same : d'.view = d.view) :
    d'.id = d.id ∧ d'.kind = d.kind ∧ d'.title = d.title ∧ d'.phase = d.phase := by
  simp only [view, Json.object.injEq, List.cons_append, List.cons.injEq, Prod.mk.injEq, true_and, Json.text.injEq,
    Identifier.toJson] at same
  obtain ⟨id, kind, title, phase, -⟩ := same
  exact ⟨Identifier.textInjective id, Kind.nameInjective kind, title, phase⟩

theorem Ordered.unambiguous (ordered : d.Ordered) : d.Unambiguous := by
  intro t
  refine List.Nodup.map_on (fun a here b there same => ?_) (ordered.distinct t).of_map
  obtain ⟨parent, order⟩ := Prod.mk.inj same
  have member : b ∈ d.siblings t a.parent := memSiblings.mpr ⟨there, by simp [Entity.inGroup, parent]⟩
  have places := Entity.consecutiveDistinct ((ordered.placed t).gapless a.parent)
  exact List.inj_on_of_nodup_map places (memSiblings.mpr ⟨here, Entity.inGroupOwn t a⟩) member order

theorem viewCanonical (declared : d.Declared) (unambiguous : d.Unambiguous) :
    (∀ d', Rearranged d' d → d'.view = d.view) ∧
    (∀ t, Shown d t (d.viewCollection t)) ∧
    (∀ d' : Document, d'.Declared → d'.view = d.view →
      (d'.id = d.id ∧ d'.kind = d.kind ∧ d'.title = d.title ∧ d'.phase = d.phase) ∧
      ∀ t, (d'.collection t).Perm (d.collection t)) ∧
    ∀ seen o, Office.Attained seen o → ∀ c ∈ o.store.cases, c.Unambiguous := by
  refine ⟨fun d' => viewArranged unambiguous, viewShows declared unambiguous, fun d' declared' same => ?_,
    fun seen o attained c stored => ?_⟩
  · exact ⟨headerTold same, collectionTold declared declared' same⟩
  · exact ((Office.attainedKeeps Store.rootedKeeps attained).stored c stored).toOrdered.unambiguous

def spread : Document :=
  { id := .numbered 1, kind := .riskAssessment, title := "Yard", phase := "HAZARDS",
    steps := [plain .step 2 none 4, plain .step 3 none 1],
    hazards := [plain .hazard 4 (some (.numbered 3)) 0, plain .hazard 5 (some (.numbered 2)) 6,
      plain .hazard 6 (some (.numbered 2)) 2],
    createdAt := ⟨0⟩, updatedAt := ⟨0⟩ }

theorem viewCanonicalSpread : spread.Declared ∧ spread.Unambiguous ∧
    ({ spread with hazards := spread.hazards.reverse } : Document).view = spread.view ∧
    (spread.viewCollection .hazard).map (·.id) = [.numbered 6, .numbered 5, .numbered 4] ∧
    Shown spread .hazard (spread.viewCollection .hazard) := by
  have plainly : ∀ t, ∀ e ∈ spread.collection t, e.parent.isSome = !t.isTop ∧ e.attributes = t.attributes := fun t => by
    cases t <;> decide
  have declared : spread.Declared := fun t e inside => by
    obtain ⟨referred, attributes⟩ := plainly t e inside
    exact ⟨referred, attributes ▸ t.defaultsConform⟩
  have unambiguous : spread.Unambiguous := fun t => by cases t <;> unfold Entity.Unambiguous <;> decide
  obtain ⟨arranged, shown, -⟩ := viewCanonical declared unambiguous
  refine ⟨declared, unambiguous, arranged _ ⟨rfl, fun t => ?_⟩, by cbv, shown .hazard⟩
  cases t with
  | hazard => exact List.reverse_perm _
  | _ => exact .refl _

end Document
end SafetyCase
