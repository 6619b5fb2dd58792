import SafetyCase.Proofs.Acceptance
import SafetyCase.Proofs.Edits
import SafetyCase.Proofs.Wholeness
/-! Sound documents: regular and whole, of the kind with which their case was made, and under an identifier that
was issued. Every edit that suits the editor's document keeps the store sound, however old that document is:
it is only asked to be of the kind of the case. -/
namespace SafetyCase

structure Document.Sound (kinds : Identifier → Kind) (n : Nat) (d : Document) : Prop extends Document.Regular n d where
  whole : d.Whole
  kind : d.kind = kinds d.id
  numbered : ∃ m, m ≤ n ∧ d.id = .numbered m

namespace Document

variable {kinds : Identifier → Kind} {n : Nat} {d d' : Document} {t : EntityType}

theorem Sound.mono {m : Nat} (sound : d.Sound kinds m) (le : m ≤ n) : d.Sound kinds n := by
  obtain ⟨i, bound, named⟩ := sound.numbered
  exact ⟨sound.toRegular.mono le, sound.whole, sound.kind, i, by omega, named⟩

theorem Sound.rebuilt (sound : d.Sound kinds n) (header : d'.header = d.header) (regular : d'.Regular n)
    (whole : d'.Whole) : d'.Sound kinds n := by
  have ids : d'.id = d.id := by
    change d'.header.id = d.header.id
    rw [header]
  exact ⟨regular, whole, by rw [kindOfHeader header, ids, sound.kind], by rw [ids]; exact sound.numbered⟩

theorem Sound.reheaded (sound : d.Sound kinds n) (tree : ∀ t, d'.collection t = d.collection t) (id : d'.id = d.id)
    (kind : d'.kind = d.kind) (phase : d'.phase ∈ d'.kind.phaseNames) : d'.Sound kinds n :=
  ⟨sound.toRegular.reheaded tree phase, sound.whole.reheaded tree kind, by rw [kind, id, sound.kind],
    by rw [id]; exact sound.numbered⟩

theorem soundInsert (sound : d.Sound kinds n) (used : d.kind.Uses t) {e : Entity} (fresh : e.id = .numbered (n + 1))
    (attached : d.Attached t e) (rated : e.Rated) (position : Option Int) :
    (d.insert t e position).Sound kinds (n + 1) :=
  (sound.mono (Nat.le_succ n)).rebuilt (headerSet d t _) (regularInsert sound.toRegular fresh position)
    (wholeInsert sound.whole used attached rated position)

theorem soundRemove (sound : d.Sound kinds n) {id : Identifier} {policy : DeletePolicy} {out : List Entity × Document}
    (done : d.remove d.kind t id policy = .ok out) : out.2.Sound kinds n := by
  have kept : out.2.Sound kinds n ∧ out.2.kind = d.kind := by
    rw [removeResult done]
    refine removeTreeKeeps (k := d.kind) (P := fun c => c.Sound kinds n ∧ c.kind = d.kind)
      (fun _ c => c.1.toOrdered.distinct) (fun c t e before bare => ?_) (Nat.le_refl _) ⟨sound, rfl⟩
    have header := headerSet c t (Entity.renumberGroup t e.parent ((c.collection t).eraseP (·.id = e.id)))
    refine ⟨before.1.rebuilt header (regularRemoveOne before.1.toRegular bare) ?_, (kindOfHeader header).trans before.2⟩
    exact wholeRemoveOne before.1.whole (before.2 ▸ bare)
  exact kept.1

theorem soundReorder (sound : d.Sound kinds n) {parent : Option Identifier} {ids : List Identifier}
    (done : d.reorder t parent ids = .ok d') : d'.Sound kinds n := by
  refine sound.rebuilt ?_ (regularReorder sound.toRegular done) (wholeReorder sound.whole done)
  rw [(reorderResult done).result, headerSet]

theorem soundPatch (sound : d.Sound kinds n) {x : Entity} {key : Identifier} (found : d.find? t key = some x)
    {changes : List (String × Value)} (harmless : Entity.RatingsOnly changes) :
    (d.modifyEntity t key fun _ => (x.patch t changes).1).Sound kinds n := by
  have rated := Entity.ratedPatch (t := t) (sound.whole.rated t x (List.mem_of_find?_eq_some found)) harmless
  have sameId := Entity.idPatch t changes x
  have sameParent := Entity.parentPatch t changes x
  exact sound.rebuilt (headerSet d t _)
    (regularModify sound.toRegular found sameId sameParent (Entity.orderPatch t changes x))
    (wholeModify sound.whole found sameId sameParent rated)

theorem builtAttached {id : Identifier} {parent : Option Identifier} {data : List (String × Value)} {e : Entity}
    (used : d.kind.Uses t) (parented : Store.lacksParent? d t parent = none)
    (built : Entity.build t id parent data = .ok e) : d.Attached t e := by
  intro below
  obtain ⟨p, type⟩ := Kind.parentOfUsed used below
  obtain ⟨q, present, named⟩ := parentPresent parented (Kind.parentTypeIff.mp type)
  exact ⟨p, type, q, present, by simp [(Entity.builtForm built).1, below, named]⟩

end Document

namespace Edit

variable {k : Kind} {e : Edit} {held : Document}

theorem formUnrated (t : EntityType) (slot : RatingSlot) :
    ∀ a ∈ t.form.map (·.sets), a.name ≠ slot.toAttribute.name := by
  cases t <;> cases slot <;> decide

theorem orderUnrated (slot : RatingSlot) : "ordered_ids" ≠ slot.toAttribute.name := by cases slot <;> decide

theorem fitValues (fits : e.Fits k) (plain : e.target ≠ .assessment) : Entity.NoRatings e.values := by
  have spelt {p : Payload} (given : e.payload = some p) :
      e.values = p.changes.map fun c => (c.1, Value.data c.2) := by
    simp [values, changes, given]
  cases fits with
  | rates rated => exact absurd rated plain
  | unrates rated => exact absurd rated plain
  | @fills t given cs _ _ _ read payload =>
    intro c listed slot
    rw [spelt payload, Payload.changes, List.map_map] at listed
    obtain ⟨f, inside, rfl⟩ := List.mem_map.mp listed
    exact formUnrated t slot f.1 (readFormNames read f inside)
  | deletes _ _ _ payload =>
    intro c listed
    simp [values, changes, payload] at listed
  | orders _ _ _ payload =>
    intro c listed slot
    rw [spelt payload, Payload.changes] at listed
    rw [List.mem_singleton.mp listed]
    exact orderUnrated slot

theorem fitNewValues (fits : e.Fits k) (plain : e.target ≠ .assessment) (t : EntityType) :
    Entity.NoRatings (e.newValues t) := by
  intro c listed slot
  rcases List.mem_append.mp listed with given | text
  · exact fitValues fits plain c given slot
  · rw [List.mem_singleton.mp text]
    cases t <;> cases slot <;> decide

theorem fitUpdates (fits : e.Fits k) {sets : List (String × Value)} (set : e.updates? held = some sets) :
    Entity.RatingsOnly sets := by
  unfold updates? at set
  split at set
  · obtain ⟨v, given, rfl⟩ := Option.map_eq_some_iff.mp set
    intro c listed _ _
    rw [List.mem_singleton.mp listed]
    unfold newRating? at given
    split at given
    · exact .inl (Option.some.inj given).symm
    · exact .inr ⟨_, (Option.some.inj given).symm⟩
    · contradiction
  · rename_i plain
    split at set
    · contradiction
    · cases set
      exact fun c listed slot same => absurd same (fitValues fits plain c listed slot)

structure Suits (held : Document) (e : Edit) : Prop where
  placing : ∀ t parent position, held.resolve e = .ok (.placement t parent position) →
    held.kind.Uses t ∧ Entity.NoRatings (e.newValues t)
  updating : ∀ sets, e.updates? held = some sets → Entity.RatingsOnly sets

theorem fitSuits (fits : e.Fits held.kind) : e.Suits held := by
  refine ⟨fun t parent position addressed => ?_, fun sets set => fitUpdates fits set⟩
  cases Document.resolved addressed with
  | placed plain type => exact ⟨Target.typeUsed type, fitNewValues fits plain t⟩

theorem orderSuits (target : Target) (refs : List String) (location : Location) :
    Suits held { intent := .reorder, target, location, payload := some (.order refs) } := by
  refine ⟨fun t parent position addressed => ?_, fun sets set c listed slot same => ?_⟩
  · cases Document.resolved addressed with
    | placed _ _ intent => simp at intent
  · unfold updates? at set
    split at set
    · contradiction
    · cases set
      rw [List.mem_singleton.mp listed] at same
      exact absurd same (orderUnrated slot)

end Edit

namespace Store

def Sound (kinds : Identifier → Kind) (s : Store) : Prop := ∀ d ∈ s.cases, d.Sound kinds s.issued

variable {kinds : Identifier → Kind} {s s' : Store} {held d : Document} {e : Edit}

theorem Sound.put (sound : s.Sound kinds) (changed : d.Sound kinds s.issued) : (s.put d).Sound kinds :=
  everyPut sound changed

theorem Sound.save (sound : s.Sound kinds) (changed : d.Sound kinds s.issued) : (s.save d).Sound kinds :=
  sound.put (changed.reheaded (fun t => by cases t <;> rfl) rfl rfl changed.phase)

theorem Sound.ofQuiet (sound : s.Sound kinds) (same : s'.quiet = s.quiet) : s'.Sound kinds := by
  unfold Sound
  rw [casesOfQuiet same, issuedOfQuiet same]
  exact sound

theorem Sound.insert (sound : s.Sound kinds) {id : Identifier} {t : EntityType} {parent : Option Identifier}
    {data : List (String × Value)} {x : Entity} (found : s.find? id = some d) (used : d.kind.Uses t)
    (parented : lacksParent? d t parent = none) (built : Entity.build t s.freshId parent data = .ok x)
    (unrated : Entity.NoRatings data) (position : Option Int) :
    (s.issue.save (d.insert t x position)).Sound kinds := by
  -- the identifier is spent before the case is saved
  have before : s.issue.Sound kinds := fun c old => (sound c old).mono (Nat.le_succ _)
  exact before.save (Document.soundInsert (sound d (foundStored found).1) used (Entity.idBuild built)
    (Document.builtAttached used parented built) (Entity.ratedBuild built unrated) position)

theorem creationSound (sound : s.Sound kinds) {id : Identifier} {t : EntityType} {parent : Option Identifier}
    {position : Option Int} {data : List (String × Value)} {r : Except StoreFault Entity × Store}
    (call : Creation s id t parent position data r) (used : (kinds id).Uses t) (unrated : Entity.NoRatings data) :
    r.2.Sound kinds := by
  cases call with
  | refused => exact sound
  | @done d e answer found parented built =>
    obtain ⟨listed, named⟩ := foundStored found
    have kind : d.kind = kinds id := by rw [(sound d listed).kind, named]
    exact sound.insert found (kind ▸ used) parented built unrated position

theorem issuedByEdit {r : Except Abort EditOutcome × Store} (step : EditStep s held e r) : s.issued ≤ r.2.issued := by
  cases step with
  | left _ same => exact Nat.le_of_eq (issuedOfQuiet same).symm
  | created _ _ _ _ same =>
    rw [issuedOfQuiet same]
    exact Nat.le_succ s.issued
  | updated _ _ _ _ _ same => exact Nat.le_of_eq (issuedOfQuiet same).symm
  | partway _ _ _ _ _ _ same => exact Nat.le_of_eq (issuedOfQuiet same).symm
  | deleted _ _ _ same => exact Nat.le_of_eq (issuedOfQuiet same).symm
  | reordered _ _ _ same => exact Nat.le_of_eq (issuedOfQuiet same).symm

theorem editSound {r : Except Abort EditOutcome × Store} (step : EditStep s held e r) (suits : e.Suits held)
    (kind : held.kind = kinds held.id) (sound : s.Sound kinds) : r.2.Sound kinds := by
  have stored {d : Document} (found : s.find? held.id = some d) : d.Sound kinds s.issued ∧ d.kind = held.kind := by
    obtain ⟨listed, named⟩ := foundStored found
    have here := sound d listed
    exact ⟨here, by rw [here.kind, named, kind]⟩
  cases step with
  | left _ same => exact sound.ofQuiet same
  | @created _ _ position _ _ _ _ addressed found parented built same =>
    obtain ⟨_, kinds⟩ := stored found
    obtain ⟨used, none⟩ := suits.placing _ _ _ addressed
    rw [← kinds] at used
    exact (sound.insert found used parented built none position).ofQuiet same
  | updated _ set found member _ same =>
    exact (sound.save (Document.soundPatch (stored found).1 member (suits.updating _ set))).ofQuiet same
  | partway _ _ set found member _ same =>
    exact (sound.put (Document.soundPatch (stored found).1 member (suits.updating _ set))).ofQuiet same
  | deleted _ found removed same =>
    exact (sound.save (Document.soundRemove (stored found).1 removed)).ofQuiet same
  | reordered _ found moved same =>
    exact (sound.save (Document.soundReorder (stored found).1 moved)).ofQuiet same

end Store
end SafetyCase
