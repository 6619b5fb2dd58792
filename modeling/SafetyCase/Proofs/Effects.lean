import Mathlib
import SafetyCase.Proofs.Agreement
import SafetyCase.Proofs.Replay
import SafetyCase.Proofs.Shifting
/-! What one applied command changes, and that it changes nothing else: for each intent, what becomes of every
collection of the case. The moment of the last change is left out of account. -/
namespace SafetyCase

theorem Attribute.nameInjective {a b : Attribute} (same : a.name = b.name) : a = b := by
  have all : ∀ a ∈ Attribute.all, ∀ b ∈ Attribute.all, a.name = b.name → a = b := by decide +kernel
  exact all a (by cases a <;> decide) b (by cases b <;> decide) same

def EntityType.wording (t : EntityType) : List (Attribute × Value) :=
  t.attributes.map fun f => if f.1 = t.newText.1 then (f.1, .data (.text t.newText.2)) else f

def overlay (changes : List (String × Json)) (fields : List (Attribute × Value)) : List (Attribute × Value) :=
  fields.map fun f => (f.1, ((changes.lookup f.1.name).map Value.data).getD f.2)

namespace Edit

variable {k : Kind} {t : EntityType} {e : Edit}

theorem changesOnce (fits : e.Fits k) (fills : e.intent.needsData = true) (plain : e.target ≠ .assessment) :
    (e.changes.map (·.1)).Nodup := by
  have once (t : EntityType) : (t.form.map (·.sets)).Nodup := by cases t <;> decide
  cases fits with
  | rates target | unrates target => exact absurd target plain
  | deletes _ _ intent | orders _ _ intent => simp [intent, Intent.needsData] at fills
  | @fills t given cs _ _ _ read payload =>
    have spelt : e.changes.map (·.1) = (cs.map (·.1)).map Attribute.name := by
      simp [changes, payload, Payload.changes, Function.comp_def]
    rw [spelt, List.nodup_map_iff fun a b => Attribute.nameInjective]
    exact (once t).sublist (readFormRow read)

end Edit

namespace Entity

variable {t : EntityType} {x : Entity} {e : Edit}

theorem patchOverlaid {changes : List (String × Json)} (once : (changes.map (·.1)).Nodup)
    (known : ∀ c ∈ changes, (t.attribute? c.1).isSome = true) (x : Entity) :
    (x.patch t (changes.map fun c => (c.1, .data c.2))).1 = { x with attributes := overlay changes x.attributes } := by
  induction changes generalizing x with
  | nil => simp [patch, overlay]
  | cons c rest ih =>
    obtain ⟨name, j⟩ := c
    obtain ⟨absent, once⟩ := List.nodup_cons.mp once
    obtain ⟨here, later⟩ := List.forall_mem_cons.mp known
    obtain ⟨a, found⟩ := Option.isSome_iff_exists.mp here
    have spelt : a.name = name := by simpa using List.find?_some found
    have missing : rest.lookup name = none := by
      rw [List.lookup_eq_none_iff]
      intro p listed
      simpa using fun same => absent (List.mem_map.mpr ⟨p, listed, same.symm⟩)
    simp only [List.map_cons, patch, found]
    -- no later change bears the name again, so what is set now stays
    rw [ih once later]
    simp only [assign, set, overlay, List.map_map]
    congr 1
    refine List.map_congr_left fun f _ => ?_
    by_cases own : f.1 = a
    · simp [own, spelt, missing]
    · have other : f.1.name ≠ name := fun same => own (Attribute.nameInjective (same.trans spelt.symm))
      simp [own, List.lookup_cons, beq_false_of_ne other]

theorem patchOne {a : Attribute} (known : (t.attribute? a.name).isSome = true) (v : Value) (x : Entity) :
    (x.patch t [(a.name, v)]).1 = x.assign a v := by
  obtain ⟨b, found⟩ := Option.isSome_iff_exists.mp known
  obtain rfl : b = a := Attribute.nameInjective (by simpa using List.find?_some found)
  simp [patch, found]

theorem builtWorded {id : Identifier} {parent : Option Identifier} (built : build t id parent (e.newValues t) = .ok x) :
    x.attributes = overlay e.changes t.wording := by
  rw [(builtForm built).2, overlay, EntityType.wording, List.map_map]
  refine List.map_congr_left fun f _ => ?_
  have given : e.values.lookup f.1.name = (e.changes.lookup f.1.name).map Value.data :=
    getMapped e.changes (fun _ j => Value.data j) f.1.name
  rw [Edit.newValues, List.lookup_append, given]
  by_cases own : f.1 = t.newText.1
  · simp only [Function.comp_apply, own, if_true]
    cases e.changes.lookup t.newText.1.name <;> simp
  · have other : f.1.name ≠ t.newText.1.name := fun same => own (Attribute.nameInjective same)
    simp only [Function.comp_apply, if_neg own]
    cases e.changes.lookup f.1.name <;> simp [List.lookup_cons, beq_false_of_ne other]

end Entity

namespace Document

structure Exchanged (d : Document) (t : EntityType) (x y : Entity) (d' : Document) : Prop where
  inside : x ∈ d.collection t
  elsewhere : ∀ s ≠ t, d'.collection s = d.collection s
  own : d'.collection t = (d.collection t).map fun z => if z = x then y else z

/-- What becomes of a case in which an edit is applied, by what the edit is resolved to. -/
inductive Effect (fresh : Identifier) (d : Document) (e : Edit) : Resolution → Document → Prop where
  | added {t : EntityType} {parent : Option Identifier} {position : Option Int} {x : Entity} {d' : Document}
      (intent : e.intent = .add ∨ e.intent = .insert) (plain : e.target ≠ .assessment) (id : x.id = fresh)
      (under : x.parent = if t.isTop then none else parent) (values : x.attributes = overlay e.changes t.wording)
      (elsewhere : ∀ s ≠ t, d'.collection s = d.collection s)
      (own : Entity.Shifts t parent (d.collection t ++ [x]) (d'.collection t))
      (row : (d'.siblings t parent).map (·.id) = ((d.siblings t parent).map (·.id)).insertIdx
        (insertionPoint position (d.siblings t parent).length) fresh) :
      Effect fresh d e (.placement t parent position) d'
  | modified {t : EntityType} {x : Entity} {d' : Document} (intent : e.intent = .modify) (plain : e.target ≠ .assessment)
      (only : d.Exchanged t x { x with attributes := overlay e.changes x.attributes } d') :
      Effect fresh d e (.entity t x) d'
  | rated {x : Entity} {a : Assessment} {d' : Document} (rates : e.target = .assessment) (intent : e.intent ≠ .delete)
      (payload : e.payload = some (.assessment a)) (only : d.Exchanged .hazard x (x.set (e.slot d).toAttribute
        (.rating (Rating.merge (x.rating? (e.slot d).toAttribute) a.severity a.likelihood))) d') :
      Effect fresh d e (.entity .hazard x) d'
  | unrated {x : Entity} {d' : Document} (rates : e.target = .assessment) (intent : e.intent = .delete)
      (only : d.Exchanged .hazard x (x.set (e.slot d).toAttribute .absent) d') : Effect fresh d e (.entity .hazard x) d'
  | deleted {t : EntityType} {x : Entity} {d' : Document} (intent : e.intent = .delete) (plain : e.target ≠ .assessment)
      (inside : x ∈ d.collection t) (below : ∀ s ≠ t, ∀ y ∈ d.collection s,
        y ∈ d'.collection s ↔ ¬d.Below d.kind t x.id s y)
      (rest : ∀ s ≠ t, (d'.collection s).Sublist (d.collection s))
      (own : Entity.Shifts t x.parent ((d.collection t).filter (·.id ≠ x.id)) (d'.collection t))
      (row : (d'.siblings t x.parent).map (·.id) = ((d.siblings t x.parent).map (·.id)).filter (· ≠ x.id)) :
      Effect fresh d e (.entity t x) d'
  | reordered {t : EntityType} {parent : Option Identifier} {ids : List Identifier} {refs : List String} {d' : Document}
      (intent : e.intent = .reorder) (order : e.payload = some (.order refs)) (named : refs = ids.map (·.text))
      (elsewhere : ∀ s ≠ t, d'.collection s = d.collection s)
      (own : Entity.Shifts t parent (d.collection t) (d'.collection t)) (row : (d'.siblings t parent).map (·.id) = ids) :
      Effect fresh d e (.ordering t parent ids) d'

variable {n : Nat} {d d' : Document} {t : EntityType} {x y : Entity} {e : Edit}

theorem findOwn (distinct : d.Distinct) (inside : x ∈ d.collection t) (found : d.find? t x.id = some y) : y = x :=
  List.inj_on_of_nodup_map (distinct t) (List.mem_of_find?_eq_some found) inside
    (by simpa using List.find?_some found)

theorem modifyExchanges (distinct : d.Distinct) (inside : x ∈ d.collection t) (y : Entity) :
    d.Exchanged t x y (d.modifyEntity t x.id fun _ => y) := by
  refine ⟨inside, fun s other => collectionSetOther d _ other, ?_⟩
  rw [modifyEntity, collectionSetOwn, modifyFirstUnique (distinct t)]
  refine List.map_congr_left fun z listed => ?_
  have same : z.id = x.id ↔ z = x := ⟨List.inj_on_of_nodup_map (distinct t) listed inside, fun equal => by rw [equal]⟩
  simp only [same]

theorem insertEffect {id : Identifier} {parent : Option Identifier} {position : Option Int}
    (intent : e.intent = .add ∨ e.intent = .insert) (plain : e.target ≠ .assessment)
    (built : Entity.build t id parent (e.newValues t) = .ok x) :
    d.Effect id e (.placement t parent position) (d.insert t x position) := by
  have under := (Entity.builtForm built).1
  have group := Entity.builtGroup built
  obtain ⟨i, _, inserted⟩ := insertAsInserted d t x position
  refine .added intent plain (Entity.idBuild built) under (Entity.builtWorded built)
    (fun s other => collectionSetOther d _ other) ?_ ?_
  · rw [inserted, collectionSetOwn]
    exact (Entity.shiftsInserted t x i (d.collection t)).ofSame fun z => (group z).symm
  · rw [siblingsInserted d group, Entity.idsNumbered, List.map_insertIdx, Entity.idBuild built]

theorem removeEffect (regular : d.Regular n) (intent : e.intent = .delete) (plain : e.target ≠ .assessment)
    (inside : x ∈ d.collection t) {policy : DeletePolicy} {out : List Entity × Document} {fresh : Identifier}
    (done : d.remove d.kind t x.id policy = .ok out) :
    d.Effect fresh e (.entity t x) out.2 := by
  have distinct := regular.toOrdered.distinct
  obtain ⟨y, found⟩ := findInside inside
  obtain rfl := findOwn distinct inside found
  rw [removeResult done]
  have severed := removeTreeSevered distinct found (Nat.le_refl (d.kind.height t))
  refine .deleted intent plain inside severed.left severed.rest ?_ ?_
  · rw [severed.own, ← Entity.eraseFiltered (distinct t)]
    exact Entity.shiftsRemoved t y (d.collection t)
  · rw [siblings, severed.own]
    exact Entity.idsRemoved (distinct t) y

theorem reorderEffect {parent : Option Identifier} {ids : List Identifier} {refs : List String} {fresh : Identifier}
    (regular : d.Regular n) (intent : e.intent = .reorder) (order : e.payload = some (.order refs))
    (named : refs = ids.map (·.text)) (moved : d.reorder t parent ids = .ok d') :
    d.Effect fresh e (.ordering t parent ids) d' := by
  obtain ⟨once, whole, rfl⟩ := reorderResult moved
  refine .reordered intent order named (fun s other => collectionSetOther d _ other) ?_ ?_
  · rw [collectionSetOwn]
    exact Entity.shiftsReordered t parent ids (d.collection t)
  · rw [siblings, collectionSetOwn, Entity.groupReordered (regular.placed t).distinct once whole,
      Entity.idsNumbered, List.map_map]
    exact Entity.idsReordered fun id => (whole id).mp

end Document

namespace Store

variable {n : Nat} {s : Store} {d : Document} {e : Edit} {r : Resolution} {w : Write}

theorem rateLands (found : s.find? d.id = some d) (regular : d.Regular n) (fits : e.Fits d.kind) {x : Entity}
    (rates : e.target = .assessment) (inside : x ∈ d.hazards) {rating : Value} (rated : e.newRating? = some rating)
    (goes : (s.write (e.rate d .hazard x rating)).1 = .ok ()) :
    ∃ d', d.Effect s.freshId e (.entity .hazard x) d' ∧ d'.header = d.header ∧
      (s.write (e.rate d .hazard x rating)).2.find? d.id = some { d' with updatedAt := s.now } := by
  have distinct := regular.toOrdered.distinct
  obtain ⟨y, member, lands⟩ := updateLands found goes
  obtain rfl := Document.findOwn (t := .hazard) distinct inside member
  rw [Entity.patchOne (Edit.ratingKnown _)] at lands
  refine ⟨d.modifyEntity .hazard y.id fun _ => y.assign _ rating, ?_, Document.headerSet d .hazard _, lands⟩
  have only := Document.modifyExchanges (t := .hazard) distinct inside
  cases fits with
  | @rates a _ _ intent payload =>
    have kept : e.intent ≠ .delete := by rcases intent with intent | intent <;> simp [intent]
    have given : rating = .rating a.rating := by
      unfold Edit.newRating? at rated
      rw [payload] at rated
      split at rated <;> simp_all
    subst given
    exact .rated rates kept payload (only _)
  | unrates _ _ intent =>
    have cleared : rating = .absent := by simpa [Edit.newRating?, intent] using rated.symm
    subst cleared
    exact .unrated rates intent (only _)
  | fills plain | deletes plain | orders plain => exact absurd rates plain

theorem callLands (found : s.find? d.id = some d) (regular : d.Regular n) (fits : e.Fits d.kind)
    (done : d.resolve e = .ok r) (call : e.write? d = some w) (goes : (s.write w).1 = .ok ()) :
    ∃ d', d.Effect s.freshId e r d' ∧ d'.header = d.header ∧
      (s.write w).2.find? d.id = some { d' with updatedAt := s.now } := by
  cases Document.resolved done with
  | @assessed t x rates type inside =>
    obtain rfl := Edit.fitHazard fits type rates
    simp only [Edit.write?, done, rates] at call
    obtain ⟨rating, rated, rfl⟩ := Option.map_eq_some_iff.mp call
    have inside := Document.foundInside inside
    rw [← Document.assessedType rates type] at inside
    exact rateLands found regular fits rates inside rated goes
  | @existing t x plain type intent inside =>
    have inside := Document.designatedInside (Document.existingDesignated type inside)
    cases (callOf plain done).symm.trans call
    rcases intent with modifies | deletes
    · have kept : e.intent ≠ .delete := by simp [modifies]
      have fills : e.intent.needsData = true := by rw [modifies]; rfl
      simp only [Edit.write, if_neg kept] at goes ⊢
      obtain ⟨y, member, lands⟩ := updateLands found goes
      obtain rfl := Document.findOwn regular.toOrdered.distinct inside member
      have known : ∀ c ∈ e.changes, (t.attribute? c.1).isSome = true := fun c listed =>
        EntityType.settableKnown (Edit.fitSettable fits type fills plain c listed)
      rw [Edit.values, Entity.patchOverlaid (Edit.changesOnce fits fills plain) known] at lands
      have only := Document.modifyExchanges regular.toOrdered.distinct inside
      exact ⟨_, .modified modifies plain (only _), Document.headerSet d t _, lands⟩
    · simp only [Edit.write, if_pos deletes] at goes ⊢
      obtain ⟨out, removed, lands⟩ := deleteLands found goes
      exact ⟨out.2, Document.removeEffect regular deletes plain inside removed, Document.removeHeader removed, lands⟩
  | placed plain type intent =>
    cases (callOf plain done).symm.trans call
    simp only [Edit.write] at goes ⊢
    obtain ⟨x, built, lands⟩ := createLands found goes
    exact ⟨_, Document.insertEffect intent plain built, Document.headerSet d _ _, lands⟩
  | ordered plain type intent order inside =>
    cases (callOf plain done).symm.trans call
    simp only [Edit.write] at goes ⊢
    obtain ⟨d', moved, lands⟩ := reorderLands found goes
    have named := (Document.orderingFound inside).1
    exact ⟨d', Document.reorderEffect regular intent order named moved, Document.reorderHeader moved, lands⟩

theorem singleEnds {c : Command} (single : c.target ≠ .multiple) {out : Outcome}
    (ends : (s.applyCommand d c).1 = .ok out) : ∃ o, (s.applyEdit d c.toEdit).1 = .ok o ∧ out = singleOutcome c o ∧
      (s.applyCommand d c).2 = (s.applyEdit d c.toEdit).2 := by
  rw [applyCommand, if_neg single] at ends ⊢
  generalize s.applyEdit d c.toEdit = r at ends ⊢
  obtain ⟨abort | o, s'⟩ := r
  · contradiction
  · cases ends
    exact ⟨o, rfl, rfl, rfl⟩

theorem appliedWrites {c : Command} (single : c.target ≠ .multiple) {out : Outcome}
    (ends : (s.applyCommand d c).1 = .ok out) (applied : out.succeeded = true) :
    ∃ w, c.toEdit.write? d = some w ∧ (s.write w).1 = .ok () ∧ (s.applyCommand d c).2.quiet = (s.write w).2.quiet := by
  obtain ⟨o, done, rfl, store⟩ := singleEnds single ends
  have clean := (singleFault c o).1.mp applied
  have form := carried s d c.toEdit
  rw [store]
  generalize s.applyEdit d c.toEdit = r at form done ⊢
  cases form with
  | idle _ failing | refused _ _ failing =>
    have failed := failing o done
    simp [clean] at failed
  | applied call accepted same => exact ⟨_, call, accepted, same⟩

theorem writingFits {raw : Json} {c : Command} (accepted : validate d.kind raw = .ok c) (single : c.target ≠ .multiple)
    (call : c.toEdit.write? d = some w) : c.toEdit.Fits d.kind := by
  have leaf : c.toEdit ∈ c.leaves := by simp [Command.leaves, single]
  rcases validated accepted with ⟨_, asks⟩ | made
  · rw [Edit.asksIdle (asks _ leaf) d] at call
    contradiction
  · exact Draft.madeFits (made _ leaf)

end Store

namespace Office

theorem commandEffect {seen : List Document} {o : Office} (attained : Attained seen o) {d : Document}
    (stored : o.store.find? d.id = some d) {raw : Json} {c : Command} (accepted : validate d.kind raw = .ok c)
    (single : c.target ≠ .multiple) {out : Outcome} (ends : (o.store.applyCommand d c).1 = .ok out)
    (applied : out.succeeded = true) :
    ∃ r d', d.resolve c.toEdit = .ok r ∧ d.Effect o.store.freshId c.toEdit r d' ∧ d'.header = d.header ∧
      (o.store.applyCommand d c).2.find? d.id = some { d' with updatedAt := o.store.now } ∧
      ∀ b ∈ o.store.cases, ∀ t, o.store.freshId ∉ b.idsOf t := by
  have rooted := (attainedKeeps Store.rootedKeeps attained).stored
  have regular := (rooted d (Store.foundStored stored).1).toRegular
  obtain ⟨w, call, goes, same⟩ := Store.appliedWrites single ends applied
  have fits := Store.writingFits accepted single call
  obtain ⟨r, done⟩ : ∃ r, d.resolve c.toEdit = .ok r := by
    cases done : d.resolve c.toEdit with
    | error fault => simp [Edit.write?, done] at call
    | ok r => exact ⟨r, rfl⟩
  obtain ⟨d', effect, header, lands⟩ := Store.callLands stored regular fits done call goes
  refine ⟨r, d', done, effect, header, ?_, fun b kept t => (rooted b kept).issued.fresh t⟩
  rw [Store.findSame (Store.casesOfQuiet same), lands]

def unloading : Command :=
  .single { intent := .insert, target := .step, location := { stepIndex := some 0 },
            payload := some (.fields .step [(.activity, .text "Unload")]) }

theorem commandEffectInserted : ∃ d out d', assessed.store.find? (.numbered 1) = some d ∧
    validate d.kind (worded "INSERT" "STEP" [("stepIndex", .int 0)] [("activity", .text "Unload")]) = .ok unloading ∧
    (assessed.store.applyCommand d unloading).1 = .ok out ∧ out.succeeded = true ∧
    d.Effect (.numbered 4) unloading.toEdit (.placement .step none (some 0)) d' ∧
    (assessed.store.applyCommand d unloading).2.find? d.id = some { d' with updatedAt := assessed.store.now } ∧
    (d'.siblings .step none).map (·.id) = [.numbered 4, .numbered 2] := by
  obtain ⟨d, current, found, kind, -⟩ := currentAssessed
  have accepted : validate d.kind (worded "INSERT" "STEP" [("stepIndex", .int 0)] [("activity", .text "Unload")]) =
      .ok unloading := by
    rw [kind]
    decide +kernel
  have runs : (assessed.store.find? (.numbered 1)).map (fun d =>
      (((assessed.store.applyCommand d unloading).1.toOption.map Outcome.succeeded),
        (d.resolve unloading.toEdit).toOption, (d.siblings .step none).map (·.id))) =
      some (some true, some (.placement .step none (some 0)), [.numbered 2]) := by cbv
  have fresh : assessed.store.freshId = .numbered 4 := by cbv
  simp only [found, Option.map_some, Option.some.injEq, Prod.mk.injEq] at runs
  obtain ⟨succeeds, resolves, before⟩ := runs
  obtain ⟨out, ends, applied⟩ : ∃ out, (assessed.store.applyCommand d unloading).1 = .ok out ∧ out.succeeded = true := by
    cases ends : (assessed.store.applyCommand d unloading).1 <;> simp_all [Except.toOption]
  obtain ⟨r, d', done, effect, -, lands, -⟩ :=
    commandEffect attainedAssessed current.stored accepted (by decide) ends applied
  obtain rfl : r = .placement .step none (some 0) := by simpa [done, Except.toOption] using resolves
  rw [fresh] at effect
  refine ⟨d, out, d', found, accepted, ends, applied, effect, lands, ?_⟩
  cases effect with
  | added _ _ _ _ _ _ _ row =>
    rw [row, before]
    simp [Document.insertionPoint]

end Office
end SafetyCase
