import Mathlib
import SafetyCase.Proofs.Agreement
import SafetyCase.Proofs.Ranking
/-! Several deletions one after the other, each referring to the case as it was before the first. Whatever an earlier one
has taken away with it, what is gone in the end are the entities that are addressed and all below them, and what stays is
numbered by rank in the order in which it stood. So the order of the deletions does not matter. -/
namespace SafetyCase

namespace Document

noncomputable def fallen (d : Document) (k : Kind) (t : EntityType) (id : Identifier) (s : EntityType)
    (i : Identifier) : Bool :=
  decide (s = t ∧ i = id) || d.isBelow k t id s i

/-- The second document is the first without what is gone, each group in the order in which it was. -/
structure Reduced (d : Document) (gone : EntityType → Identifier → Bool) (c : Document) : Prop where
  header : c.header = { d.header with updatedAt := c.updatedAt }
  kept : ∀ t, (c.collection t).map Entity.unplaced = (d.spared gone t).map Entity.unplaced
  rows : ∀ t parent, Entity.row t (c.collection t) parent =
    (Entity.row t (d.collection t) parent).filter fun i => !gone t i

variable {d c b : Document} {gone later : EntityType → Identifier → Bool} {k : Kind} {t s : EntityType}
  {id i : Identifier} {x y e : Entity} {n : Nat}

theorem mapSpared (d : Document) (gone : EntityType → Identifier → Bool) (t : EntityType) :
    (d.spared gone t).map Entity.unplaced =
      ((d.collection t).map Entity.unplaced).filter fun u => !gone t u.id := by
  rw [List.filter_map]
  rfl

theorem reducedNone (d : Document) : d.Reduced (fun _ _ => false) d := by
  refine ⟨rfl, fun t => ?_, fun t parent => ?_⟩ <;> simp [spared]

theorem Reduced.trans (first : d.Reduced gone c) (second : c.Reduced later b) :
    d.Reduced (fun t i => gone t i || later t i) b := by
  refine ⟨?_, fun t => ?_, fun t parent => ?_⟩
  · rw [second.header, first.header]
  · rw [second.kept, mapSpared, first.kept, mapSpared, mapSpared, List.filter_filter]
    exact List.filter_congr fun u _ => by simp [Bool.and_comm]
  · rw [second.rows, first.rows, List.filter_filter]
    exact List.filter_congr fun i _ => by simp [Bool.and_comm]

theorem Reduced.congr (reduced : d.Reduced gone c) (same : ∀ t, ∀ i ∈ d.idsOf t, gone t i = later t i) :
    d.Reduced later c := by
  refine ⟨reduced.header, fun t => ?_, fun t parent => ?_⟩
  · rw [reduced.kept, spared, spared]
    congr 1
    exact List.filter_congr fun y inside => by rw [same t y.id (List.mem_map.mpr ⟨y, inside, rfl⟩)]
  · rw [reduced.rows]
    refine List.filter_congr fun i listed => ?_
    obtain ⟨y, member, rfl⟩ := List.mem_map.mp listed
    rw [same t y.id (List.mem_map.mpr ⟨y, (memSiblings.mp member).1, rfl⟩)]

theorem Reduced.origin (reduced : d.Reduced gone c) (inside : y ∈ c.collection t) :
    ∃ x ∈ d.collection t, gone t x.id = false ∧ x.unplaced = y.unplaced := by
  have listed : y.unplaced ∈ (c.collection t).map Entity.unplaced := List.mem_map.mpr ⟨y, inside, rfl⟩
  rw [reduced.kept] at listed
  obtain ⟨x, spared, same⟩ := List.mem_map.mp listed
  obtain ⟨before, stays⟩ := List.mem_filter.mp spared
  exact ⟨x, before, by simpa using stays, same⟩

theorem Reduced.stays (reduced : d.Reduced gone c) (inside : x ∈ d.collection t) (kept : gone t x.id = false) :
    ∃ y ∈ c.collection t, y.unplaced = x.unplaced := by
  have listed : x.unplaced ∈ (d.spared gone t).map Entity.unplaced :=
    List.mem_map.mpr ⟨x, List.mem_filter.mpr ⟨inside, by simpa using kept⟩, rfl⟩
  rw [← reduced.kept] at listed
  exact List.mem_map.mp listed

theorem Reduced.ranked (reduced : d.Reduced gone c) (before : d.Ordered) (after : c.Ordered) (t : EntityType) :
    c.collection t = Entity.ranked t (d.spared gone t) := by
  rw [← Entity.rankedPlaced (after.placed t)]
  refine Entity.rankedAlike (Entity.untiedFiltered (before.placed t) _) (Entity.untiedPlaced (after.placed t))
    ((before.placed t).distinct.sublist (List.filter_sublist.map _)) (reduced.kept t) fun parent => ?_
  rw [reduced.rows]
  exact (Entity.rowFiltered (fun i => !gone t i) (d.collection t) parent).symm

theorem Reduced.unique (first : d.Reduced gone c) (second : d.Reduced gone b) (before : d.Ordered) (after : c.Ordered)
    (other : b.Ordered) : b = { c with updatedAt := b.updatedAt } := by
  have header {α : Type} (f : Document → α) : f b.header = f { c.header with updatedAt := b.updatedAt } := by
    rw [second.header, first.header]
  refine extCollection (header Document.id) (header Document.kind) (header Document.title) (header Document.phase)
    (header Document.createdAt) rfl fun t => ?_
  have tree : Document.collection { c with updatedAt := b.updatedAt } t = c.collection t := by cases t <;> rfl
  rw [tree, second.ranked before other, first.ranked before after]

theorem keptSublist {es es' : List Entity} {keep : Entity → Bool} (distinct : (es.map (·.id)).Nodup)
    (sub : es'.Sublist es) (same : ∀ y ∈ es, y ∈ es' ↔ keep y = true) : es' = es.filter keep := by
  have whole : es'.filter keep = es' :=
    List.filter_eq_self.mpr fun y inside => (same y (sub.subset inside)).mp inside
  have narrow : es'.Sublist (es.filter keep) := whole ▸ sub.filter keep
  have covers : es.filter keep ⊆ es' := fun y listed =>
    (same y (List.mem_of_mem_filter listed)).mpr (List.mem_filter.mp listed).2
  exact narrow.eq_of_length_le ((List.Nodup.of_map _ distinct).filter _ |>.subperm covers).length_le

theorem removeReduces (ordered : d.Ordered) (found : d.find? t id = some e) :
    d.Reduced (d.fallen k t id) (removeTree k (k.height t) t d id).2 := by
  obtain rfl : e.id = id := by simpa using List.find?_some found
  have severed := removeTreeSevered ordered.distinct found (Nat.le_refl (k.height t))
  have ownGone (i : Identifier) : d.fallen k t e.id t i = decide (i = e.id) := by simp [fallen, isBelowLower]
  have otherKept (s : EntityType) (other : s ≠ t) :
      (removeTree k (k.height t) t d e.id).2.collection s = d.spared (d.fallen k t e.id) s := by
    refine keptSublist (ordered.distinct s) (severed.rest s other) fun y inside => ?_
    rw [severed.left s other y inside, ← isBelowIff ordered.distinct inside]
    simp [fallen, other]
  refine ⟨?_, fun s => ?_, fun s parent => ?_⟩
  · rw [severed.header]
    have moment : (removeTree k (k.height t) t d e.id).2.header.updatedAt = d.header.updatedAt := by rw [severed.header]
    exact congrArg (fun m => { d.header with updatedAt := m }) moment.symm
  · by_cases own : s = t
    · subst own
      rw [severed.own, Entity.unplacedRemoved (ordered.distinct s), spared]
      congr 1
      exact List.filter_congr fun y _ => by simp [ownGone]
    · rw [otherKept s own]
  · by_cases own : s = t
    · subst own
      rw [severed.own, Entity.rowRemoved (ordered.placed s) (List.mem_of_find?_eq_some found)]
      exact List.filter_congr fun i _ => by simp [ownGone]
    · rw [otherKept s own]
      exact Entity.rowFiltered (fun i => !d.fallen k t e.id s i) (d.collection s) parent

section
variable (reduced : d.Reduced gone c)
include reduced

theorem Reduced.belowBefore (below : c.Below k t id s y) : ∃ x, d.Below k t id s x ∧ x.id = y.id := by
  induction below with
  | child type inside under =>
    obtain ⟨x, before, _, same⟩ := reduced.origin inside
    obtain ⟨named, parent, _⟩ := Entity.unplacedFields same.symm
    exact ⟨x, .child type before (parent ▸ under), named.symm⟩
  | deeper _ type inside under ih =>
    obtain ⟨z, above, same⟩ := ih
    obtain ⟨x, before, _, like⟩ := reduced.origin inside
    obtain ⟨named, parent, _⟩ := Entity.unplacedFields like.symm
    exact ⟨x, .deeper above type before (by rw [← parent, under, same]), named.symm⟩

theorem Reduced.belowAfter (closed : d.Closed gone k) (below : d.Below k t id s x) (kept : gone s x.id = false) :
    ∃ y, c.Below k t id s y ∧ y.id = x.id := by
  induction below with
  | child type inside under =>
    obtain ⟨y, after, same⟩ := reduced.stays inside kept
    obtain ⟨named, parent, _⟩ := Entity.unplacedFields same
    exact ⟨y, .child type after (parent ▸ under), named⟩
  | @deeper s' _ z _ above type inside under ih =>
    -- what hangs below something that is gone would be gone as well
    have stays : gone s' z.id = false := by
      by_contra lost
      rw [closed s' z above.inside (by simpa using lost) _ type _ inside under] at kept
      contradiction
    obtain ⟨z', above', same⟩ := ih stays
    obtain ⟨y, after, like⟩ := reduced.stays inside kept
    obtain ⟨named, parent, _⟩ := Entity.unplacedFields like
    exact ⟨y, .deeper above' type after (by rw [parent, under, same]), named⟩

theorem Reduced.fallenSame (closed : d.Closed gone k) (kept : gone s i = false) (listed : i ∈ d.idsOf s) :
    c.fallen k t id s i = d.fallen k t id s i := by
  have same : c.isBelow k t id s i = d.isBelow k t id s i := by
    rw [isBelow, isBelow, decide_eq_decide]
    constructor
    · rintro ⟨y, below, rfl⟩
      exact reduced.belowBefore below
    · rintro ⟨x, below, rfl⟩
      exact reduced.belowAfter closed below kept
  rw [fallen, fallen, same]

end

theorem closedFallen (distinct : d.Distinct) (k : Kind) (t : EntityType) (id : Identifier) :
    d.Closed (d.fallen k t id) k := by
  intro s z inside lost child type y within under
  refine Bool.or_eq_true_iff.mpr (.inr ((isBelowIff distinct within).mpr ?_))
  rcases Bool.or_eq_true_iff.mp lost with own | below
  · obtain ⟨rfl, rfl⟩ := of_decide_eq_true own
    exact .child type within under
  · exact .deeper ((isBelowIff distinct inside).mp below) type within under

theorem Closed.or (first : d.Closed gone k) (second : d.Closed later k) :
    d.Closed (fun t i => gone t i || later t i) k := by
  intro s z inside lost child type y within under
  rcases Bool.or_eq_true_iff.mp lost with one | other
  · exact Bool.or_eq_true_iff.mpr (.inl (first s z inside one child type y within under))
  · exact Bool.or_eq_true_iff.mpr (.inr (second s z inside other child type y within under))

theorem Closed.below (closed : d.Closed gone k) (there : x ∈ d.collection t) (lost : gone t x.id = true)
    (below : d.Below k t x.id s y) : gone s y.id = true := by
  induction below with
  | child type inside under => exact closed t x there lost _ type _ inside under
  | deeper above type inside under ih => exact closed _ _ above.inside ih _ type _ inside under

theorem fallenGone (distinct : d.Distinct) (closed : d.Closed gone k) (there : x ∈ d.collection t)
    (lost : gone t x.id = true) (inside : y ∈ d.collection s) (falls : d.fallen k t x.id s y.id = true) :
    gone s y.id = true := by
  rcases Bool.or_eq_true_iff.mp falls with own | below
  · obtain ⟨rfl, same⟩ := of_decide_eq_true own
    rwa [same]
  · exact closed.below there lost ((isBelowIff distinct inside).mp below)

theorem Reduced.further (reduced : d.Reduced gone c) (before : d.Ordered) (after : c.Ordered) (closed : d.Closed gone d.kind)
    (inside : x ∈ d.collection t) :
    (∀ y, c.find? t x.id = some y → d.Reduced (fun s i => gone s i || d.fallen d.kind t x.id s i)
      (removeTree c.kind (c.kind.height t) t c x.id).2) ∧
    (c.find? t x.id = none → d.Reduced (fun s i => gone s i || d.fallen d.kind t x.id s i) c) := by
  have kind : c.kind = d.kind := by
    change c.header.kind = d.kind
    rw [reduced.header]
    rfl
  refine ⟨fun y found => ?_, fun missing => ?_⟩
  · rw [kind]
    refine (reduced.trans (removeReduces after found)).congr fun s i listed => ?_
    cases lost : gone s i with
    | true => rfl
    | false => rw [reduced.fallenSame closed lost listed]
  · -- the entity is not there any more, so all below it is gone already
    have lost : gone t x.id = true := by
      by_contra kept
      obtain ⟨y, there, same⟩ := reduced.stays inside (by simpa using kept)
      obtain ⟨z, found⟩ := findInside there
      rw [(Entity.unplacedFields same).1, missing] at found
      contradiction
    refine reduced.congr fun s i listed => ?_
    obtain ⟨y, here, rfl⟩ := List.mem_map.mp listed
    cases falls : d.fallen d.kind t x.id s y.id with
    | true => simp [fallenGone before.distinct closed inside lost here falls]
    | false => simp

theorem Reduced.reheaded (reduced : d.Reduced gone c) (m : Moment) : d.Reduced gone { c with updatedAt := m } := by
  have tree (t : EntityType) : Document.collection { c with updatedAt := m } t = c.collection t := by cases t <;> rfl
  refine ⟨?_, fun t => (congrArg _ (tree t)).trans (reduced.kept t), fun t parent => ?_⟩
  · exact congrArg (fun h : Document => { h with updatedAt := m }) reduced.header
  · rw [tree, reduced.rows]

noncomputable def falls (d : Document) (e : Edit) : EntityType → Identifier → Bool :=
  match d.resolve e with
  | .ok (.entity t x) => d.fallen d.kind t x.id
  | _ => fun _ _ => false

theorem closedFalls (distinct : d.Distinct) (e : Edit) : d.Closed (d.falls e) d.kind := by
  unfold falls
  split
  · exact closedFallen distinct d.kind _ _
  · exact fun s z _ lost => by simp at lost

/-- An entity that a deletion of the list refers to, or one below it. -/
def Takes (d : Document) (cs : List Command) (t : EntityType) (y : Entity) : Prop :=
  ∃ c ∈ cs, ∃ s x, d.resolve c.toEdit = .ok (.entity s x) ∧ (t = s ∧ y = x ∨ d.Below d.kind s x.id t y)

theorem resolvedInside {e : Edit} (plain : e.target ≠ .assessment) (done : d.resolve e = .ok (.entity t x)) :
    x ∈ d.collection t := by
  cases resolved done with
  | assessed rates => exact absurd rates plain
  | existing _ type _ found => exact designatedInside (existingDesignated type found)

theorem takesIff (distinct : d.Distinct) {cs : List Command} (plain : ∀ c ∈ cs, c.target ≠ .assessment)
    (inside : y ∈ d.collection t) : (cs.any fun c => d.falls c.toEdit t y.id) = true ↔ d.Takes cs t y := by
  simp only [List.any_eq_true, Takes]
  refine exists_congr fun c => and_congr_right fun listed => ?_
  constructor
  · intro lost
    cases resolves : d.resolve c.toEdit with
    | error fault => simp [falls, resolves] at lost
    | ok r =>
      cases r with
      | entity s x =>
        refine ⟨s, x, rfl, ?_⟩
        simp only [falls, resolves, fallen] at lost
        rcases Bool.or_eq_true_iff.mp lost with own | below
        · obtain ⟨rfl, same⟩ := of_decide_eq_true own
          exact .inl ⟨rfl, List.inj_on_of_nodup_map (distinct t) inside (resolvedInside (plain c listed) resolves) same⟩
        · exact .inr ((isBelowIff distinct inside).mp below)
      | placement | ordering => simp [falls, resolves] at lost
  · rintro ⟨s, x, resolves, own | below⟩
    · simp [falls, resolves, fallen, own]
    · simp [falls, resolves, fallen, (isBelowIff distinct inside).mpr below]

end Document

namespace Store

variable {s : Store} {d c : Document} {gone : EntityType → Identifier → Bool} {e : Edit} {n : Nat}

theorem deletionReduces {t : EntityType} {x : Entity} (found : s.find? d.id = some c) (regular : c.Regular n)
    (before : d.Ordered) (reduced : d.Reduced gone c) (closed : d.Closed gone d.kind) (inside : x ∈ d.collection t) :
    ∃ c', (s.write (.delete d.id t x.id .cascade)).2.find? d.id = some c' ∧ c'.Regular n ∧
      d.Reduced (fun s i => gone s i || d.fallen d.kind t x.id s i) c' := by
  obtain ⟨there, missing⟩ := reduced.further before regular.toOrdered closed inside
  have goes : (s.write (.delete d.id t x.id .cascade)).1 = .ok () ↔ _ := deleteGoes found .cascade
  cases member : c.find? t x.id with
  | some y =>
    obtain ⟨out, removed, lands⟩ := deleteLands found (goes.mpr (by simp [member]))
    refine ⟨_, lands, (Document.regularRemove regular removed).reheaded (fun t => by cases t <;> rfl) ?_, ?_⟩
    · exact (Document.regularRemove regular removed).phase
    · rw [Document.removeResult removed]
      exact (there y member).reheaded s.now
  | none =>
    obtain ⟨fault, rejected⟩ : ∃ fault, (s.write (.delete d.id t x.id .cascade)).1 = .error fault := by
      cases answer : (s.write (.delete d.id t x.id .cascade)).1 with
      | error fault => exact ⟨fault, rfl⟩
      | ok => simp [member] at goes; contradiction
    rw [wholeRefused (by trivial) rejected]
    exact ⟨c, found, regular, missing member⟩

theorem deletionStep (found : s.find? d.id = some c) (regular : c.Regular n) (before : d.Ordered)
    (reduced : d.Reduced gone c) (closed : d.Closed gone d.kind) (deletes : e.intent = .delete)
    (plain : e.target ≠ .assessment)
    (free : d.kind = .riskAssessment → ∀ x, d.resolve e ≠ .ok (.entity .step x)) :
    ∃ o c', (s.applyEdit d e).1 = .ok o ∧ (s.applyEdit d e).2.find? d.id = some c' ∧ c'.Regular n ∧
      d.Reduced (fun s i => gone s i || d.falls e s i) c' := by
  obtain ⟨o, done⟩ := (editReturns found e).resolve_right fun rates => plain rates.1
  refine ⟨o, ?_⟩
  have form := carried s d e
  generalize s.applyEdit d e = r at done form
  cases resolves : d.resolve e with
  | error fault =>
    have none : e.write? d = none := by simp [Edit.write?, resolves]
    cases form with
    | idle _ _ same =>
      refine ⟨c, done, (findSame (casesOfQuiet same) _).trans found, regular, ?_⟩
      exact reduced.congr fun t i _ => by simp [Document.falls, resolves]
    | refused call => simp [none] at call
    | applied call => simp [none] at call
  | ok r =>
    have called := callOf plain resolves
    cases Document.resolved resolves with
    | assessed rates => exact absurd rates plain
    | placed _ _ intent => simp [deletes] at intent
    | ordered _ _ intent => simp [deletes] at intent
    | @existing t x _ type _ inside =>
      have inside := Document.designatedInside (Document.existingDesignated type inside)
      have policy : deletePolicy d.kind t = .cascade := by
        cases policy : deletePolicy d.kind t with
        | cascade => rfl
        | restrict =>
          obtain ⟨kind, rfl⟩ := restrictedStep.mp policy
          exact absurd resolves (free kind x)
      have falls : d.falls e = d.fallen d.kind t x.id := by simp [Document.falls, resolves]
      simp only [Edit.write, if_pos deletes, policy] at called
      obtain ⟨c', lands, regular, reduced⟩ := deletionReduces found regular before reduced closed inside
      refine ⟨c', done, ?_, regular, falls ▸ reduced⟩
      cases form with
      | idle none => simp [none] at called
      | refused call _ _ same | applied call _ same =>
        cases called.symm.trans call
        rw [findSame (casesOfQuiet same), lands]

theorem deletionsRun (before : d.Ordered) {edits : List Edit}
    (deletes : ∀ e ∈ edits, e.intent = .delete ∧ e.target ≠ .assessment)
    (free : d.kind = .riskAssessment → ∀ e ∈ edits, ∀ x, d.resolve e ≠ .ok (.entity .step x))
    (found : s.find? d.id = some c) (regular : c.Regular n) (reduced : d.Reduced gone c) (closed : d.Closed gone d.kind) :
    ∃ os c', (s.applyEdits d edits).1 = .ok os ∧ (s.applyEdits d edits).2.find? d.id = some c' ∧ c'.Regular n ∧
      d.Reduced (fun s i => gone s i || edits.any fun e => d.falls e s i) c' := by
  induction edits generalizing s c gone with
  | nil => exact ⟨[], c, rfl, found, regular, by simpa using reduced⟩
  | cons e rest ih =>
    obtain ⟨⟨intent, plain⟩, later⟩ := List.forall_mem_cons.mp deletes
    obtain ⟨o, c₁, done, found₁, regular₁, reduced₁⟩ := deletionStep found regular before reduced closed intent plain
      fun kind => free kind e List.mem_cons_self
    obtain ⟨os, c₂, rested, found₂, regular₂, reduced₂⟩ := ih later
      (fun kind e listed => free kind e (List.mem_cons_of_mem _ listed)) found₁ regular₁ reduced₁
      (closed.or (Document.closedFalls before.distinct e))
    simp only [applyEdits]
    generalize s.applyEdit d e = r at done rested found₂
    obtain ⟨_, s₁⟩ := r
    cases done
    dsimp only at rested found₂ ⊢
    generalize s₁.applyEdits d rest = r at rested found₂
    obtain ⟨_, s₂⟩ := r
    cases rested
    exact ⟨_, c₂, rfl, found₂, regular₂, reduced₂.congr fun t i _ => by simp [Bool.or_assoc]⟩

theorem deletionsReduce (regular : d.Regular n) (stored : s.find? d.id = some d) {cs cs' : List Command}
    (deletes : ∀ c ∈ cs, c.intent = .delete ∧ c.target ≠ .assessment ∧ c.target ≠ .multiple)
    (free : d.kind = .riskAssessment → ∀ c ∈ cs, ∀ x, d.resolve c.toEdit ≠ .ok (.entity .step x))
    (perm : cs'.Perm cs) :
    ∃ outs c, (s.applyCommands d cs').1 = .ok outs ∧ (s.applyCommands d cs').2.find? d.id = some c ∧ c.Regular n ∧
      d.Reduced (fun t i => cs.any fun c => d.falls c.toEdit t i) c := by
  have single : cs'.flatMap Command.leaves = cs'.map (·.toEdit) := by
    rw [List.map_eq_flatMap]
    exact List.flatMap_congr fun c listed => by simp [Command.leaves, (deletes c (perm.mem_iff.mp listed)).2.2]
  have run := commandsAsEdits s d cs'
  rw [single] at run
  have edits : ∀ e ∈ cs'.map (·.toEdit), e.intent = .delete ∧ e.target ≠ .assessment := fun e listed => by
    obtain ⟨c, inside, rfl⟩ := List.mem_map.mp listed
    obtain ⟨intent, plain, _⟩ := deletes c (perm.mem_iff.mp inside)
    exact ⟨intent, plain⟩
  have spares : d.kind = .riskAssessment → ∀ e ∈ cs'.map (·.toEdit), ∀ x, d.resolve e ≠ .ok (.entity .step x) :=
    fun kind e listed => by
      obtain ⟨c, inside, rfl⟩ := List.mem_map.mp listed
      exact free kind c (perm.mem_iff.mp inside)
  obtain ⟨os, c, done, found, left, reduced⟩ := deletionsRun regular.toOrdered edits spares stored regular
    (Document.reducedNone d) fun _ _ _ lost => by simp at lost
  rw [run] at done found
  obtain ⟨outs, done, _⟩ := okOfMap done
  refine ⟨outs, c, done, found, left, reduced.congr fun t i _ => ?_⟩
  rw [Bool.false_or, List.any_map]
  exact perm.any_eq

end Store

namespace Office

open Classical in
theorem deletionsCommute {seen : List Document} {o : Office} (attained : Attained seen o) {d : Document}
    (stored : o.store.find? d.id = some d) {cs : List Command}
    (deletes : ∀ c ∈ cs, c.intent = .delete ∧ c.target ≠ .assessment ∧ c.target ≠ .multiple)
    (free : d.kind = .riskAssessment → ∀ c ∈ cs, ∀ x, d.resolve c.toEdit ≠ .ok (.entity .step x)) :
    ∃ outs d', (o.store.applyCommands d cs).1 = .ok outs ∧ (o.store.applyCommands d cs).2.find? d.id = some d' ∧
      d'.header = { d.header with updatedAt := d'.updatedAt } ∧
      (∀ t, d'.collection t = Entity.ranked t ((d.collection t).filter fun y => ¬d.Takes cs t y)) ∧
      ∀ cs', cs'.Perm cs → ∃ m, (o.store.applyCommands d cs').2.find? d.id = some { d' with updatedAt := m } := by
  have regular := ((attainedKeeps Store.rootedKeeps attained).stored d (Store.foundStored stored).1).toRegular
  obtain ⟨outs, d', done, found, left, reduced⟩ := Store.deletionsReduce regular stored deletes free (List.Perm.refl cs)
  refine ⟨outs, d', done, found, reduced.header, fun t => ?_, fun cs' perm => ?_⟩
  · rw [reduced.ranked regular.toOrdered left.toOrdered, Document.spared]
    congr 1
    refine List.filter_congr fun y inside => ?_
    have taken := Document.takesIff regular.toOrdered.distinct (fun c listed => (deletes c listed).2.1) inside
    rw [Bool.eq_iff_iff, Bool.not_eq_true', decide_eq_true_iff, ← taken, Bool.not_eq_true]
  · obtain ⟨_, c, _, lands, left', reduced'⟩ := Store.deletionsReduce regular stored deletes free perm
    rw [lands, reduced.unique reduced' regular.toOrdered left.toOrdered left'.toOrdered]
    exact ⟨_, rfl⟩

def branching : Office :=
  let step label := worded "ADD" "STEP" [] [("activity", .text label)]
  let hazard (i : Int) label := worded "ADD" "HAZARD" [("stepIndex", .int i)] [("label", .text label)]
  [.createCase .jobHazardAnalysis "Demo", .turn 0 0 (.openCase (.numbered 1)),
    .turn 0 0 (.batch { commands := [step "Load", step "Haul"] }),
    .turn 0 0 (.batch { commands := [hazard 0 "Crushing", hazard 0 "Noise", hazard 1 "Collision", hazard 1 "Dust"] })].foldl
    Office.step (fresh ⟨0⟩ fun _ => none)

def deleting (target : Target) (l : Location) : Command := .single { intent := .delete, target := target, location := l }

def overlapping : List Command :=
  [deleting .step { stepIndex := some 0 }, deleting .hazard { hazardId := (Identifier.numbered 4).text },
    deleting .hazard { stepIndex := some 1, hazardIndex := some 0 }]

theorem deletionsCommuteOverlapping : ∃ d d', branching.store.find? (.numbered 1) = some d ∧
    (branching.store.applyCommands d overlapping).2.find? d.id = some d' ∧
    d'.steps.map (fun y => (y.id, y.order)) = [(.numbered 3, 0)] ∧
    d'.hazards.map (fun y => (y.id, y.order)) = [(.numbered 7, 0)] ∧
    ∃ m, (branching.store.applyCommands d overlapping.reverse).2.find? d.id = some { d' with updatedAt := m } := by
  have attained : Attained [] branching := attainedSteps (.fresh ⟨0⟩ fun _ => none) _
  have holds : (branching.store.find? (.numbered 1)).map (fun d => (d.kind,
      ((branching.store.applyCommands d overlapping).2.find? (.numbered 1)).map fun d' =>
        (d'.steps.map (fun y => (y.id, y.order)), d'.hazards.map fun y => (y.id, y.order)))) =
      some (.jobHazardAnalysis, some ([(.numbered 3, 0)], [(.numbered 7, 0)])) := by cbv
  obtain ⟨d, found, same⟩ := Option.map_eq_some_iff.mp holds
  obtain ⟨kind, rest⟩ := Prod.mk.inj same
  have named := (Store.foundStored found).2
  rw [← named] at found rest
  have deletes : ∀ c ∈ overlapping, c.intent = .delete ∧ c.target ≠ .assessment ∧ c.target ≠ .multiple := by
    simp [overlapping, deleting, Command.single]
  obtain ⟨outs, d', _, lands, _, _, orders⟩ := deletionsCommute attained found deletes (by simp [kind])
  rw [lands, Option.map_some, Option.some.injEq] at rest
  obtain ⟨steps, hazards⟩ := Prod.mk.inj rest
  exact ⟨d, d', named ▸ found, lands, steps, hazards, orders _ (List.reverse_perm _)⟩

end Office
end SafetyCase
