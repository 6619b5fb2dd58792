import Mathlib
import SafetyCase.Proofs.Designation
import SafetyCase.Proofs.Landing
import SafetyCase.Proofs.Rooting
import SafetyCase.Proofs.Storable
/-! The resolver and the store look at the same references, each in its own way: the one in the copy that the editor
holds, the other in the case as it is stored. Where the two are equal they agree, and the store turns down two things
only: a step that may not take its hazards with it, and an order that is not one of the whole group. -/
namespace SafetyCase

namespace Kind

variable {k : Kind} {t p : EntityType}

theorem parentAtTop (top : t.isTop = true) : k.parentType? t = none := by
  refine Option.eq_none_iff_forall_not_mem.mpr fun p typed => ?_
  simp [childNotTop (parentTypeIff.mp typed)] at top

theorem topIsTop (k : Kind) : k.topLevel.isTop = true := by cases k <;> rfl

theorem parentOfSecond (k : Kind) : k.parentType? k.secondLevel = some k.topLevel := by cases k <;> decide

theorem parentDeeper (used : k.Uses t) (lower : t ≠ k.topLevel) (deeper : t ≠ k.secondLevel) :
    k.parentType? t = some k.secondLevel := by
  revert used lower deeper
  cases k <;> cases t <;> decide

end Kind

namespace Document

variable {d : Document} {l : Location} {t : EntityType} {x : Entity}

theorem topInside (designated : d.TopOf l x) : x ∈ d.collection d.kind.topLevel := by
  cases designated with
  | named named => exact named.1
  | placed _ _ listed => exact (memSiblings.mp (List.mem_of_getElem? listed)).1

theorem secondInside (designated : d.SecondOf l x) : x ∈ d.collection d.kind.secondLevel := by
  cases designated with
  | named named => exact named.1
  | placed _ _ _ listed => exact (memSiblings.mp (List.mem_of_getElem? listed)).1

theorem firstInside (first : d.FirstOf l x) : x ∈ d.collection d.kind.secondLevel := by
  cases first with
  | ofStep _ first => exact (memSiblings.mp (List.mem_of_head? first)).1
  | ofDocument _ first => exact List.mem_mergeSort.mp (List.mem_of_head? first)

theorem designatedInside (designated : d.Designates l t x) : x ∈ d.collection t := by
  cases designated with
  | top type designated => exact type ▸ topInside designated
  | second type designated => exact type ▸ secondInside designated
  | control _ named => exact named.1
  | action _ named => exact named.1

theorem foundInside (found : d.secondOrDefault l = .ok x) : x ∈ d.collection d.kind.secondLevel := by
  unfold secondOrDefault at found
  split at found
  · exact secondInside (secondOf found)
  · exact firstInside (firstOfDefault found)

theorem findInside (inside : x ∈ d.collection t) : ∃ y, d.find? t x.id = some y :=
  Option.isSome_iff_exists.mp (List.find?_isSome.mpr ⟨x, inside, by simp⟩)

theorem namedEachFound {refs : List String} {es : List Entity} (found : d.namedEach t refs = .ok es) :
    refs = es.map (·.id.text) ∧ ∀ x ∈ es, x ∈ d.collection t := by
  induction refs generalizing es with
  | nil =>
    cases found
    simp
  | cons ref rest ih =>
    unfold namedEach at found
    split at found
    · contradiction
    · rename_i x named
      obtain ⟨others, later, rfl⟩ := okOfMap found
      obtain ⟨same, inside⟩ := ih later
      obtain ⟨here, given⟩ := namesFound named
      exact ⟨by rw [List.map_cons, ← same, Option.some.inj given], List.forall_mem_cons.mpr ⟨here, inside⟩⟩

theorem orderingFound {refs : List String} {parent : Option Identifier} {ids : List Identifier}
    (found : d.ordering t l refs = .ok (.ordering t parent ids)) :
    refs = ids.map (·.text) ∧ ∀ i ∈ ids, ∃ x ∈ d.siblings t parent, x.id = i := by
  unfold ordering at found
  split at found
  · contradiction
  · rename_i es named
    obtain ⟨same, inside⟩ := namedEachFound named
    split at found
    · contradiction
    · split at found
      · contradiction
      · rename_i close
        cases found
        refine ⟨by rw [same, List.map_map]; rfl, fun i listed => ?_⟩
        obtain ⟨x, member, rfl⟩ := List.mem_map.mp listed
        have under : x.parent = parent := by simpa using List.find?_eq_none.mp close x member
        exact ⟨x, memSiblings.mpr ⟨inside x member, by simp [Entity.inGroup, under]⟩, rfl⟩

theorem placedUnder (linked : d.Linked) (used : d.kind.Uses t) {intent : Intent} {parent : Option Identifier}
    {position : Option Int} (found : d.placement t intent l = .ok (.placement t parent position)) {p : EntityType}
    (child : t ∈ d.kind.children p) : ∃ q ∈ d.collection p, parent = some q.id := by
  have typed := Kind.parentTypeIff.mpr child
  unfold placement at found
  split at found
  · rename_i anchor named
    cases found
    exact linked p t child anchor (namesFound named).1
  · obtain ⟨under, above, same⟩ := okOfMap found
    cases same
    unfold parentFor at above
    split at above
    · rename_i top
      rw [top, Kind.parentAtTop d.kind.topIsTop] at typed
      contradiction
    · rename_i lower
      split at above
      · rename_i second
        rw [second, Kind.parentOfSecond] at typed
        cases typed
        obtain ⟨q, given, rfl⟩ := okOfMap above
        refine ⟨q, ?_, rfl⟩
        split at given
        · exact topInside (topOf given)
        · exact (memSiblings.mp (List.mem_of_head? (firstFound.mp given))).1
      · rename_i deeper
        rw [Kind.parentDeeper used lower deeper] at typed
        cases typed
        obtain ⟨q, given, rfl⟩ := okOfMap above
        exact ⟨q, foundInside given, rfl⟩

theorem placedParented (linked : d.Linked) (used : d.kind.Uses t) {intent : Intent} {parent : Option Identifier}
    {position : Option Int} (found : d.placement t intent l = .ok (.placement t parent position)) :
    Store.lacksParent? d t parent = none ∧ (t.isTop = true ∨ parent.isSome = true) := by
  cases typed : d.kind.parentType? t with
  | none =>
    refine ⟨by simp [Store.lacksParent?, typed], .inl ?_⟩
    by_contra below
    obtain ⟨p, child⟩ := Kind.parentOfUsed used (by simpa using below)
    rw [typed] at child
    contradiction
  | some p =>
    obtain ⟨q, inside, rfl⟩ := placedUnder linked used found (Kind.parentTypeIff.mp typed)
    obtain ⟨y, there⟩ := findInside inside
    exact ⟨by simp [Store.lacksParent?, typed, there], .inr rfl⟩

/-- What the store turns down although it is resolved. -/
inductive Barred (d : Document) (e : Edit) : Resolution → Prop where
  | occupied {x hazard : Entity} (kind : d.kind = .riskAssessment) (deletes : e.intent = .delete)
      (inside : hazard ∈ d.hazards) (under : hazard.parent = some x.id) : Barred d e (.entity .step x)
  | repeated {t : EntityType} {parent : Option Identifier} {ids : List Identifier} {refs : List String}
      (order : e.payload = some (.order refs)) (twice : ¬refs.Nodup) : Barred d e (.ordering t parent ids)
  | incomplete {t : EntityType} {parent : Option Identifier} {ids : List Identifier} {refs : List String} {x : Entity}
      (order : e.payload = some (.order refs)) (member : x ∈ d.siblings t parent) (left : x.id.text ∉ refs) :
      Barred d e (.ordering t parent ids)

end Document

namespace Store

variable {s : Store} {id entity : Identifier} {d : Document} {t : EntityType} {parent : Option Identifier}

theorem restrictedStep {k : Kind} : deletePolicy k t = .restrict ↔ k = .riskAssessment ∧ t = .step := by
  cases k <;> cases t <;> decide

theorem deletionFree {e : Edit} {x : Entity} (deletes : e.intent = .delete) :
    (deletePolicy d.kind t = .restrict → d.childType? d.kind t x.id = none) ↔ ¬d.Barred e (.entity t x) := by
  have below (kind : d.kind = .riskAssessment) : d.childType? d.kind .step x.id = none ↔
      ∀ hazard ∈ d.hazards, hazard.parent ≠ some x.id := by
    simp [Document.childType?, kind, Kind.children, List.eq_nil_iff_forall_not_mem, Document.memSiblings,
      Document.collection, Entity.inGroup, EntityType.isTop, EntityType.parentKey]
  rw [restrictedStep]
  constructor
  · rintro free (⟨kind, _, inside, under⟩ | _ | _)
    exact (below kind).mp (free ⟨kind, rfl⟩) _ inside under
  · rintro unbarred ⟨kind, rfl⟩
    exact (below kind).mpr fun hazard inside under => unbarred (.occupied kind deletes inside under)

theorem orderWhole {e : Edit} {refs : List String} {ids : List Identifier} (order : e.payload = some (.order refs))
    (same : refs = ids.map (·.text)) (members : ∀ i ∈ ids, ∃ x ∈ d.siblings t parent, x.id = i) :
    (ids.Nodup ∧ ∀ i, i ∈ ids ↔ ∃ x ∈ d.siblings t parent, x.id = i) ↔ ¬d.Barred e (.ordering t parent ids) := by
  have texts : refs.Nodup ↔ ids.Nodup := by
    rw [same, List.nodup_map_iff fun i j => Identifier.textInjective]
  have listed (i : Identifier) : i.text ∈ refs ↔ i ∈ ids := by
    rw [same, List.mem_map_of_injective fun i j => Identifier.textInjective]
  constructor
  · rintro ⟨once, whole⟩ (_ | ⟨given, twice⟩ | ⟨given, member, left⟩)
    · cases order.symm.trans given
      exact twice (texts.mpr once)
    · cases order.symm.trans given
      exact left ((listed _).mpr ((whole _).mpr ⟨_, member, rfl⟩))
  · intro unbarred
    refine ⟨?_, fun i => ⟨members i, ?_⟩⟩
    · by_contra twice
      exact unbarred (.repeated order fun once => twice (texts.mp once))
    · rintro ⟨x, member, rfl⟩
      by_contra left
      exact unbarred (.incomplete order member fun here => left ((listed _).mp here))

theorem newSettable {e : Edit} (storable : e.Storable t) (fills : e.intent.needsData = true)
    (plain : e.target ≠ .assessment) : ∀ c ∈ e.newValues t, t.Settable c.1 := by
  intro c listed
  rcases List.mem_append.mp listed with given | new
  · obtain ⟨c, inside, rfl⟩ := List.mem_map.mp given
    exact storable.fields fills plain c inside
  · rw [List.mem_singleton.mp new]
    exact EntityType.newTextSettable t

theorem callOf {e : Edit} {r : Resolution} (plain : e.target ≠ .assessment) (done : d.resolve e = .ok r) :
    e.write? d = some (e.write d r) := by
  simp only [Edit.write?, done]
  split
  · exact absurd (by assumption) plain
  · rfl

theorem callGoes {e : Edit} {r : Resolution} (found : s.find? d.id = some d) (linked : d.Linked)
    (executable : e.Executable d.kind) (type : e.target.entityType? d.kind = some t) (storable : e.Storable t)
    (done : d.resolve e = .ok r) :
    ∃ w, e.write? d = some w ∧ ((s.write w).1 = .ok () ↔ ¬d.Barred e r) := by
  cases Document.resolved done with
  | @assessed _ x rates same inside =>
    cases type.symm.trans same
    obtain ⟨rating, rated⟩ := Option.isSome_iff_exists.mp (executable.rates rates)
    obtain rfl := Document.assessedType rates type
    obtain ⟨y, member⟩ := Document.findInside (Document.foundInside inside)
    refine ⟨e.rate d d.kind.secondLevel x rating, by simp [Edit.write?, done, rates, rated], ?_⟩
    simp only [Edit.rate]
    rw [updateGoes found]
    refine iff_of_true ⟨y, member, storable.rerates rates _ _ y⟩ fun barred => ?_
    generalize level : d.kind.secondLevel = t at barred
    cases barred with
    | occupied kind => simp [kind, Kind.secondLevel] at level
  | existing plain same intent inside =>
    cases type.symm.trans same
    obtain ⟨y, member⟩ := Document.findInside (Document.designatedInside (Document.existingDesignated type inside))
    refine ⟨_, callOf plain done, ?_⟩
    rcases intent with modifies | deletes
    · have kept : e.intent ≠ .delete := by simp [modifies]
      simp only [Edit.write, if_neg kept]
      rw [updateGoes found]
      refine iff_of_true ⟨y, member, storable.patches (by rw [modifies]; rfl) plain y⟩ ?_
      rintro (⟨_, deletes⟩ | _ | _)
      exact kept deletes
    · simp only [Edit.write, if_pos deletes]
      rw [deleteGoes found, ← deletionFree deletes]
      simp [member]
  | placed plain same intent inside =>
    cases type.symm.trans same
    refine ⟨_, callOf plain done, ?_⟩
    obtain ⟨parented, under⟩ := Document.placedParented linked (Target.typeUsed type) inside
    have fills : e.intent.needsData = true := by rcases intent with intent | intent <;> rw [intent] <;> rfl
    have built := Entity.buildReturns (newSettable storable fills plain) under s.freshId
    simp only [Edit.write]
    rw [createGoes found]
    refine iff_of_true ⟨parented, built⟩ fun barred => ?_
    cases barred
  | ordered plain same intent order inside =>
    cases type.symm.trans same
    refine ⟨_, callOf plain done, ?_⟩
    obtain ⟨texts, members⟩ := Document.orderingFound inside
    simp only [Edit.write]
    rw [reorderGoes found, orderWhole order texts members]

theorem appliedCall {e : Edit} {o : EditOutcome} (done : (s.applyEdit d e).1 = .ok o) :
    o.fault? = none ↔ ∃ w, e.write? d = some w ∧ (s.write w).1 = .ok () := by
  have form := carried s d e
  generalize s.applyEdit d e = r at form done
  cases form with
  | idle none failing =>
    have failed := failing o done
    simp [none, Option.isSome_iff_ne_none.mp failed]
  | refused call rejected failing =>
    have failed := failing o done
    simp [call, rejected, Option.isSome_iff_ne_none.mp failed]
  | applied call accepted =>
    cases done
    simp [EditOutcome.fault?, call, accepted]

theorem settledWrite {e : Edit} {o : EditOutcome} {r : Except StoreFault (Option Identifier) × Store} {fault : EditFault}
    (done : (settle d e r).1 = .ok o) (failed : o.settled = .error fault) : ∃ stop, fault = .write stop := by
  obtain ⟨(stop | stop) | i, s'⟩ := r
  · contradiction
  · cases done
    exact ⟨stop, (Except.error.inj failed).symm⟩
  · cases done
    contradiction

theorem resolvedWrite {e : Edit} {o : EditOutcome} {r : Resolution} {fault : EditFault} (done : d.resolve e = .ok r)
    (ends : (s.applyEdit d e).1 = .ok o) (failed : o.settled = .error fault) : ∃ stop, fault = .write stop := by
  unfold applyEdit at ends
  rw [done] at ends
  dsimp only at ends
  split at ends
  · split at ends
    · contradiction
    · exact settledWrite ends failed
  · exact settledWrite ends failed

theorem singleCommand {c : Command} (single : c.target ≠ .multiple) {o : EditOutcome}
    (done : (s.applyEdit d c.toEdit).1 = .ok o) : (s.applyCommand d c).1 = .ok (singleOutcome c o) := by
  rw [applyCommand, if_neg single]
  generalize s.applyEdit d c.toEdit = r at done
  obtain ⟨_, s'⟩ := r
  cases done
  rfl

theorem singleFault (c : Command) (o : EditOutcome) :
    ((singleOutcome c o).succeeded = true ↔ o.fault? = none) ∧
      ∀ fault, (singleOutcome c o).settled = .error fault → ∃ inner, fault = .edit inner ∧ o.settled = .error inner := by
  cases settled : o.settled with
  | ok id => simp [singleOutcome, Outcome.succeeded, EditOutcome.fault?, settled]
  | error inner =>
    simp only [singleOutcome, Outcome.succeeded, EditOutcome.fault?, settled]
    refine ⟨by simp, fun fault same => ⟨inner, (Except.error.inj same).symm, rfl⟩⟩

theorem acceptedReturns {e : Edit} (found : s.find? d.id = some d) (executable : e.Executable d.kind) :
    ∃ o, (s.applyEdit d e).1 = .ok o := by
  rcases editReturns found e with returns | ⟨rates, unrated, _⟩
  · exact returns
  · have rated := executable.rates rates
    rw [unrated] at rated
    contradiction

end Store

namespace Office

/-- The session's copy of a case is the case as it is stored. -/
structure Current (o : Office) (session : Nat) (d : Document) : Prop where
  cached : (o.sessions session).document = some d
  stored : o.store.find? d.id = some d

theorem agreement {seen : List Document} {o : Office} (attained : Attained seen o) {session : Nat} {d : Document}
    (current : o.Current session d) {raw : Json} {c : Command} (accepted : validate d.kind raw = .ok c)
    (tells : c.isClarification = false) (single : c.target ≠ .multiple) :
    ∃ out, (o.store.applyCommand d c).1 = .ok out ∧
      (out.succeeded = true ↔ ∃ r, d.resolve c.toEdit = .ok r ∧ ¬d.Barred c.toEdit r) ∧
      ∀ fault, out.settled = .error fault → (fault.code = "ReferenceNotFound" ↔ ∀ r, d.resolve c.toEdit ≠ .ok r) := by
  have linked := ((attainedKeeps Store.rootedKeeps attained).stored d (Store.foundStored current.stored).1).linked
  have made : Draft.Made d.kind c.toEdit := validatedMade accepted tells _ (by simp [Command.leaves, single])
  have executable := Draft.madeExecutable made
  obtain ⟨t, type⟩ := Option.isSome_iff_exists.mp executable.type
  have storable := Draft.madeStorable made type
  obtain ⟨o', ends⟩ := Store.acceptedReturns current.stored executable
  obtain ⟨succeeds, faults⟩ := Store.singleFault c o'
  refine ⟨_, Store.singleCommand single ends, ?_, fun fault failed => ?_⟩
  · rw [succeeds, Store.appliedCall ends]
    cases done : d.resolve c.toEdit with
    | error lost => simp [Edit.write?, done]
    | ok r =>
      obtain ⟨w, call, goes⟩ := Store.callGoes current.stored linked executable type storable done
      simp [call, goes]
  · obtain ⟨inner, rfl, settled⟩ := faults fault failed
    cases done : d.resolve c.toEdit with
    | error lost =>
      have left := (Store.unresolvedLeaves (s := o.store) done).1
      cases ends.symm.trans left
      cases settled
      have ordered (orders : c.intent = .reorder) : ∃ refs, c.payload = some (.order refs) := by
        obtain ⟨first, rest, order⟩ := executable.orders orders
        exact ⟨_, order⟩
      simp [CommandFault.code, Document.resolveLost d c.toEdit ordered lost done]
    | ok r =>
      obtain ⟨stop, rfl⟩ := Store.resolvedWrite done ends settled
      simp [CommandFault.code, EditFault.code]

def assessing : List Event :=
  [.createCase .riskAssessment "Demo", .turn 0 0 (.openCase (.numbered 1)),
    .turn 0 0 (.batch { commands := [worded "ADD" "STEP" [] [("activity", .text "Load")]] }),
    .turn 0 0 (.batch { commands := [worded "ADD" "HAZARD" [("stepIndex", .int 0)] [("label", .text "Crushing")]] })]

def assessed : Office := assessing.foldl step (fresh ⟨0⟩ fun _ => none)

theorem attainedAssessed : Attained [] assessed := attainedSteps (.fresh ⟨0⟩ fun _ => none) assessing

theorem currentAssessed : ∃ d, assessed.Current 0 d ∧ assessed.store.find? (.numbered 1) = some d ∧
    d.kind = .riskAssessment ∧ d.hazards.map (·.parent) = [some (.numbered 2)] := by
  have copy : (assessed.sessions 0).document = assessed.store.find? (.numbered 1) := by cbv
  have holds : (assessed.store.find? (.numbered 1)).map (fun d => (d.kind, d.hazards.map (·.parent))) =
      some (.riskAssessment, [some (.numbered 2)]) := by cbv
  obtain ⟨d, found, same⟩ := Option.map_eq_some_iff.mp holds
  have named := (Store.foundStored found).2
  exact ⟨d, ⟨copy.trans found, by rw [named, found]⟩, found, Prod.mk.inj same⟩

def deletingStep : Command := .single { intent := .delete, target := .step, location := { stepIndex := some 0 } }

theorem agreementOccupied : ∃ d out, assessed.Current 0 d ∧
    validate d.kind (worded "DELETE" "STEP" [("stepIndex", .int 0)] []) = .ok deletingStep ∧
    (assessed.store.applyCommand d deletingStep).1 = .ok out ∧ out.succeeded = false ∧
    ∀ fault, out.settled = .error fault → fault.code ≠ "ReferenceNotFound" := by
  obtain ⟨d, current, found, kind, hazards⟩ := currentAssessed
  have accepted : validate d.kind (worded "DELETE" "STEP" [("stepIndex", .int 0)] []) = .ok deletingStep := by
    rw [kind]
    decide +kernel
  obtain ⟨x, done, id⟩ : ∃ x, d.resolve deletingStep.toEdit = .ok (.entity .step x) ∧ x.id = .numbered 2 := by
    have resolves : (assessed.store.find? (.numbered 1)).map (fun d =>
        ((d.resolve deletingStep.toEdit).toOption.bind (·.entity? .step)).map (·.id)) = some (some (.numbered 2)) := by cbv
    rw [found, Option.map_some, Option.some.injEq] at resolves
    obtain ⟨x, addressed, id⟩ := Option.map_eq_some_iff.mp resolves
    exact ⟨x, resolvedEntity addressed, id⟩
  obtain ⟨hazard, inside, under⟩ := List.mem_map.mp (hazards ▸ List.mem_singleton_self (some (Identifier.numbered 2)))
  obtain ⟨out, ends, succeeds, faults⟩ :=
    agreement attainedAssessed current accepted (by decide) (by decide)
  refine ⟨d, out, current, accepted, ends, ?_, fun fault failed lost => (faults fault failed).mp lost _ done⟩
  rw [Bool.eq_false_iff]
  intro succeeded
  obtain ⟨r, same, free⟩ := succeeds.mp succeeded
  cases done.symm.trans same
  exact free (.occupied kind rfl inside (by rw [under, id]))

end Office
end SafetyCase
