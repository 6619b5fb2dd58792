import Mathlib
import SafetyCase.Proofs.Enumeration
/-! References by identifier and by place. A place is looked up as a position in the ordered group, and it is the number
that the entity carries because no group has gaps. A place that is past the end of its group is never replaced by
another one: the reference is not found. Only an edit that gives no reference at all gets the first entity in reading
order. -/
namespace SafetyCase.Document

/-- The location refers to the entity by its identifier, whatever place stands beside it, or by its place alone. -/
inductive RefersTop (d : Document) (l : Location) (x : Entity) : Prop where
  | byId (id : l.stepId = some x.id.text)
  | byPlace {i : Nat} (unnamed : ∀ y, ¬d.Names d.kind.topLevel l.stepId y) (index : l.stepIndex = some i)
      (place : x.order = i)

inductive RefersSecond (d : Document) (l : Location) (x y : Entity) : Prop where
  | byId (id : l.hazardId = some y.id.text)
  | byPlace {j : Nat} (unnamed : ∀ z, ¬d.Names d.kind.secondLevel l.hazardId z) (above : d.RefersTop l x)
      (index : l.hazardIndex = some j) (place : y.order = j)

def Unanchored (d : Document) (e : Edit) : Prop :=
  ∀ t, e.target.entityType? d.kind = some t → ∀ x, ¬d.Names t e.location.insertAfter x

def Deepens (e : Edit) : Prop := e.target = .control ∨ e.target = .action

/-- The edit is about the entity if it is a rating, and puts its new entity below it if it adds what hangs there. -/
def Reaches (d : Document) (e : Edit) (y : Entity) : Prop :=
  (e.target = .assessment → d.resolve e = .ok (.entity d.kind.secondLevel y)) ∧
  ∀ t, e.target.entityType? d.kind = some t → Deepens e → e.intent = .add → d.Unanchored e →
    d.resolve e = .ok (.placement t (some y.id) none)

inductive SeeksSecond (d : Document) (e : Edit) : Prop where
  | own (target : e.target = .hazard) (intent : e.intent = .modify ∨ e.intent = .delete)
  | rated (target : e.target = .assessment) (refers : e.location.hasHazard = true)
  | above (deep : Deepens e) (intent : e.intent = .add ∨ e.intent = .insert) (free : d.Unanchored e)
      (refers : e.location.hasHazard = true)
  | group {refs : List String} (deep : Deepens e) (intent : e.intent = .reorder)
      (order : e.payload = some (.order refs)) (refers : e.location.hasHazard = true)

inductive SeeksTop (d : Document) (e : Edit) : Prop where
  | own (target : e.target = .step) (intent : e.intent = .modify ∨ e.intent = .delete)
  | above (target : e.target = .hazard) (intent : e.intent = .add ∨ e.intent = .insert) (free : d.Unanchored e)
  | group {refs : List String} (target : e.target = .hazard) (intent : e.intent = .reorder)
      (order : e.payload = some (.order refs))
  | within (seeks : d.SeeksSecond e) (unnamed : ∀ y, ¬d.Names d.kind.secondLevel e.location.hazardId y)
  | rated (target : e.target = .assessment) (unnamed : e.location.hasHazard = false)
  | default (deep : Deepens e) (intent : e.intent = .add ∨ e.intent = .insert) (free : d.Unanchored e)
      (unnamed : e.location.hasHazard = false)

def Unfound (d : Document) (e : Edit) : Prop :=
  ∃ fault, d.resolve e = .error fault ∧ (EditFault.reference fault).code = "ReferenceNotFound"

def FirstRead (d : Document) (y : Entity) : Prop :=
  y ∈ d.collection d.kind.secondLevel ∧ ∃ x ∈ d.collection d.kind.topLevel, y.parent = some x.id ∧
    ∀ z ∈ d.collection d.kind.secondLevel, z ≠ y → ∀ w ∈ d.collection d.kind.topLevel, z.parent = some w.id →
      x.order < w.order ∨ x.order = w.order ∧ y.order < z.order

variable {d : Document} {l : Location} {t : EntityType} {parent : Option Identifier} {x y z : Entity} {e : Edit}
  {fault : ReferenceFault}

theorem topMember (inside : x ∈ d.collection d.kind.topLevel) : x ∈ d.siblings d.kind.topLevel none :=
  memSiblings.mpr ⟨inside, by simp [Entity.inGroup, d.kind.topIsTop]⟩

theorem secondMember (inside : y ∈ d.collection d.kind.secondLevel) (under : y.parent = some x.id) :
    y ∈ d.siblings d.kind.secondLevel (some x.id) :=
  memSiblings.mpr ⟨inside, by simp [Entity.inGroup, under]⟩

theorem stepReferred (refers : d.RefersTop l x) : l.hasStep = true := by
  cases refers with
  | byId id => simp [Location.hasStep, id]
  | byPlace _ index => simp [Location.hasStep, index]

theorem hazardReferred (refers : d.RefersSecond l x y) : l.hasHazard = true := by
  cases refers with
  | byId id => simp [Location.hasHazard, id]
  | byPlace _ _ index => simp [Location.hasHazard, index]

section
variable (ordered : d.Ordered)
include ordered

theorem placeIsPosition (member : x ∈ d.siblings t parent) {i : Nat} (place : x.order = i) :
    (d.siblings t parent)[i]? = some x := by
  obtain ⟨p, here, position⟩ := Entity.placeOfMember ((ordered.placed t).gapless parent) member
  obtain rfl : i = p := by omega
  exact here

theorem placeNatural (member : x ∈ d.siblings t parent) : 0 ≤ x.order := by
  obtain ⟨p, _, position⟩ := Entity.placeOfMember ((ordered.placed t).gapless parent) member
  omega

theorem placeTells (member : x ∈ d.siblings t parent) (other : y ∈ d.siblings t parent) (same : x.order = y.order) :
    x = y := by
  obtain ⟨i, place⟩ := Int.eq_ofNat_of_zero_le (placeNatural ordered member)
  have first := placeIsPosition ordered member place
  rw [placeIsPosition ordered other (same ▸ place)] at first
  exact (Option.some.inj first).symm

theorem topFinds (inside : x ∈ d.collection d.kind.topLevel) (refers : d.RefersTop l x) : d.top l = .ok x := by
  have designated : d.TopOf l x := by
    cases refers with
    | byId id => exact .named ⟨inside, id⟩
    | byPlace unnamed index place => exact .placed unnamed index (placeIsPosition ordered (topMember inside) place)
  obtain ⟨y, found, same⟩ := topReturns designated
  rw [found, List.inj_on_of_nodup_map (ordered.distinct _) (topInside (topOf found)) inside same]

theorem secondFinds (above : x ∈ d.collection d.kind.topLevel) (inside : y ∈ d.collection d.kind.secondLevel)
    (under : y.parent = some x.id) (refers : d.RefersSecond l x y) : d.second l = .ok y := by
  have designated : d.SecondOf l y := by
    cases refers with
    | byId id => exact .named ⟨inside, id⟩
    | byPlace unnamed refersAbove index place =>
      exact .placed unnamed (topOf (topFinds ordered above refersAbove)) index
        (placeIsPosition ordered (secondMember inside under) place)
  obtain ⟨z, found, same⟩ := secondReturns designated
  rw [found, List.inj_on_of_nodup_map (ordered.distinct _) (secondInside (secondOf found)) inside same]

end

theorem anchorMissing (free : d.Unanchored e) (type : e.target.entityType? d.kind = some t) :
    d.named? t e.location.insertAfter = none := namedNone.mpr (free t type)

theorem deepType (deep : Deepens e) (type : e.target.entityType? d.kind = some t) :
    t ≠ d.kind.topLevel ∧ t ≠ d.kind.secondLevel := by
  rcases deep with target | target <;> rw [target] at type
  · obtain ⟨lower, deeper, _⟩ := Kind.controlApart type
    exact ⟨lower, deeper⟩
  · exact Kind.actionApart type

theorem deepPlain (deep : Deepens e) : e.target ≠ .assessment := by
  rcases deep with target | target <;> simp [target]

theorem resolvesTop (found : d.top e.location = .ok x) (target : e.target = .step)
    (changes : e.intent = .modify ∨ e.intent = .delete) : d.resolve e = .ok (.entity d.kind.topLevel x) := by
  rcases changes with intent | intent <;>
    simp [resolve, target, Target.entityType?, intent, existing, found, Except.map]

theorem placesSecond (found : d.top e.location = .ok x) (given : e.location.hasStep = true) (target : e.target = .hazard)
    (adds : e.intent = .add) (free : d.Unanchored e) :
    d.resolve e = .ok (.placement d.kind.secondLevel (some x.id) none) := by
  have missing : d.named? d.kind.secondLevel e.location.insertAfter = none := anchorMissing free (by rw [target]; rfl)
  simp [resolve, target, Target.entityType?, adds, placement, missing, parentFor, d.kind.levelsApart, given, found,
    Except.map, requestedPosition]

theorem resolvesSecond (found : d.second e.location = .ok y) (target : e.target = .hazard)
    (changes : e.intent = .modify ∨ e.intent = .delete) : d.resolve e = .ok (.entity d.kind.secondLevel y) := by
  rcases changes with intent | intent <;>
    simp [resolve, target, Target.entityType?, intent, existing, d.kind.levelsApart, found, Except.map]

theorem reaches (found : d.secondOrDefault e.location = .ok y) : d.Reaches e y := by
  refine ⟨fun target => ?_, fun t type deep adds free => ?_⟩
  · simp [resolve, target, Target.entityType?, found, Except.map]
  · obtain ⟨lower, deeper⟩ := deepType deep type
    simp [resolve, type, deepPlain deep, adds, placement, anchorMissing free type, parentFor, lower, deeper, found,
      Except.map, requestedPosition]

section
variable (plain : e.target ≠ .assessment)
include plain

theorem changeUnfound (type : e.target.entityType? d.kind = some t) (changes : e.intent = .modify ∨ e.intent = .delete)
    (lost : d.existing t e.location = .error fault) : d.Unfound e := by
  refine ⟨fault, ?_, lostExisting d t e.location fault lost⟩
  rcases changes with intent | intent <;> simp [resolve, type, plain, intent, lost, Except.map]

theorem additionUnfound (places : e.intent = .add ∨ e.intent = .insert) (free : d.Unanchored e)
    (lost : ∀ t, e.target.entityType? d.kind = some t → d.parentFor t e.location = .error fault) : d.Unfound e := by
  cases type : e.target.entityType? d.kind with
  | none => exact ⟨.noCollection e.target d.kind, by simp [resolve, type], rfl⟩
  | some t =>
    refine ⟨fault, ?_, lostParent d t e.location fault (lost t type)⟩
    rcases places with intent | intent <;>
      simp [resolve, type, plain, intent, placement, anchorMissing free type, lost t type, Except.map]

theorem orderUnfound {refs : List String} (intent : e.intent = .reorder) (order : e.payload = some (.order refs))
    (lost : ∀ t, e.target.entityType? d.kind = some t → ∀ es, d.groupParent t e.location es = .error fault) :
    d.Unfound e := by
  have unresolved : ∃ fault, d.resolve e = .error fault := by
    cases type : e.target.entityType? d.kind with
    | none => exact ⟨.noCollection e.target d.kind, by simp [resolve, type]⟩
    | some t =>
      cases named : d.namedEach t refs with
      | error missing => exact ⟨missing, by simp [resolve, type, plain, intent, order, ordering, named]⟩
      | ok es => exact ⟨fault, by simp [resolve, type, plain, intent, order, ordering, named, lost t type es]⟩
  obtain ⟨fault, unresolved⟩ := unresolved
  exact ⟨fault, unresolved, resolveLost d e (fun _ => ⟨refs, order⟩) fault unresolved⟩

end

theorem ratingUnfound (target : e.target = .assessment) (lost : d.secondOrDefault e.location = .error fault) :
    d.Unfound e :=
  ⟨fault, by simp [resolve, target, Target.entityType?, lost, Except.map], lostSecondOrDefault d e.location fault lost⟩

theorem parentLost (deep : Deepens e) (type : e.target.entityType? d.kind = some t)
    (lost : d.secondOrDefault e.location = .error fault) : d.parentFor t e.location = .error fault := by
  obtain ⟨lower, deeper⟩ := deepType deep type
  simp [parentFor, lower, deeper, lost, Except.map]

theorem secondUnfound (seeks : d.SeeksSecond e) (lost : d.second e.location = .error fault) : d.Unfound e := by
  have sought (refers : e.location.hasHazard = true) : d.secondOrDefault e.location = .error fault := by
    simp [secondOrDefault, refers, lost]
  cases seeks with
  | own target changes =>
    have misses : d.existing d.kind.secondLevel e.location = .error fault := by
      simp [existing, d.kind.levelsApart, lost]
    exact changeUnfound (by simp [target]) (by rw [target]; rfl) changes misses
  | rated target refers => exact ratingUnfound target (sought refers)
  | above deep places free refers =>
    exact additionUnfound (deepPlain deep) places free fun t type => parentLost deep type (sought refers)
  | group deep intent order refers =>
    have misses (t : EntityType) (type : e.target.entityType? d.kind = some t) (es : List Entity) :
        d.groupParent t e.location es = .error fault := by
      obtain ⟨lower, deeper⟩ := deepType deep type
      simp [groupParent, lower, deeper, refers, parentLost deep type (sought refers)]
    exact orderUnfound (deepPlain deep) intent order misses

theorem topUnfound (seeks : d.SeeksTop e) (given : e.location.hasStep = true) (lost : d.top e.location = .error fault) :
    d.Unfound e := by
  have above : d.parentFor d.kind.secondLevel e.location = .error fault := by
    simp [parentFor, d.kind.levelsApart, given, lost, Except.map]
  have first (unnamed : e.location.hasHazard = false) : d.secondOrDefault e.location = .error fault := by
    simp [secondOrDefault, unnamed, defaultSecond, given, lost]
  cases seeks with
  | own target changes =>
    have misses : d.existing d.kind.topLevel e.location = .error fault := by simp [existing, lost]
    exact changeUnfound (by simp [target]) (by rw [target]; rfl) changes misses
  | above target places free =>
    have misses (t : EntityType) (type : e.target.entityType? d.kind = some t) :
        d.parentFor t e.location = .error fault := by
      rw [target] at type
      exact Option.some.inj type ▸ above
    exact additionUnfound (by simp [target]) places free misses
  | group target intent order =>
    have misses (t : EntityType) (type : e.target.entityType? d.kind = some t) (es : List Entity) :
        d.groupParent t e.location es = .error fault := by
      rw [target] at type
      obtain rfl : d.kind.secondLevel = t := Option.some.inj type
      simp [groupParent, d.kind.levelsApart, given, above]
    exact orderUnfound (by simp [target]) intent order misses
  | within seeks unnamed =>
    obtain ⟨missing, lost⟩ : ∃ missing, d.second e.location = .error missing := by
      by_cases index : e.location.hazardIndex.isSome <;> simp [second, namedNone.mpr unnamed, index, given, lost]
    exact secondUnfound seeks lost
  | rated target unnamed => exact ratingUnfound target (first unnamed)
  | default deep places free unnamed =>
    exact additionUnfound (deepPlain deep) places free fun t type => parentLost deep type (first unnamed)

theorem topBeyond {i : Nat} (unnamed : ∀ y, ¬d.Names d.kind.topLevel l.stepId y) (index : l.stepIndex = some i)
    (beyond : (d.siblings d.kind.topLevel none).length ≤ i) : ∃ fault, d.top l = .error fault := by
  simp [top, namedNone.mpr unnamed, member?, index, List.getElem?_eq_none beyond]

theorem secondBeyond {j : Nat} (unnamed : ∀ y, ¬d.Names d.kind.secondLevel l.hazardId y) (index : l.hazardIndex = some j)
    (beyond : ∀ x, d.TopOf l x → (d.siblings d.kind.secondLevel (some x.id)).length ≤ j) :
    ∃ fault, d.second l = .error fault := by
  cases done : d.second l with
  | error fault => exact ⟨fault, rfl⟩
  | ok y =>
    cases secondOf done with
    | named named => exact absurd named (unnamed y)
    | placed _ under given listed =>
      cases index.symm.trans given
      rw [List.getElem?_eq_none (beyond _ under)] at listed
      contradiction

theorem readingSorted (d : Document) : d.secondLevel.Pairwise fun a b => d.readingLe a b = true := by
  refine List.pairwise_mergeSort (fun a b c first second => ?_) (fun a b => ?_) _
  · simp only [readingLe, Bool.or_eq_true, Bool.and_eq_true, decide_eq_true_eq] at first second ⊢
    omega
  · simp only [readingLe, Bool.or_eq_true, Bool.and_eq_true, decide_eq_true_eq]
    omega

theorem parentPlaceOf (distinct : d.Distinct) (inside : x ∈ d.collection d.kind.topLevel) (under : y.parent = some x.id) :
    d.parentPlace y = x.order := by
  obtain ⟨z, found⟩ := findInside inside
  cases findOwn distinct inside found
  simp [parentPlace, under, found]

theorem firstIsRead (ordered : d.Ordered) (linked : d.Linked) (first : d.secondLevel.head? = some y) : d.FirstRead y := by
  have above (z : Entity) (inside : z ∈ d.collection d.kind.secondLevel) :
      ∃ w ∈ d.collection d.kind.topLevel, z.parent = some w.id :=
    linked _ _ (Kind.parentTypeIff.mp d.kind.parentOfSecond) z inside
  obtain ⟨rest, reading⟩ := List.head?_eq_some_iff.mp first
  have members (z : Entity) : z ∈ d.collection d.kind.secondLevel ↔ z ∈ y :: rest := by
    rw [← reading, secondLevel, List.mem_mergeSort]
  have inside := (members y).mpr List.mem_cons_self
  obtain ⟨x, top, under⟩ := above y inside
  refine ⟨inside, x, top, under, fun z other apart w topOther underOther => ?_⟩
  have later := (List.mem_cons.mp ((members z).mp other)).resolve_left apart
  have le := (List.pairwise_cons.mp (reading ▸ readingSorted d)).1 z later
  simp only [readingLe, parentPlaceOf ordered.distinct top under, parentPlaceOf ordered.distinct topOther underOther,
    Bool.or_eq_true, Bool.and_eq_true, decide_eq_true_eq] at le
  refine le.imp_right fun level => ⟨level.1, lt_of_le_of_ne level.2 fun tie => apart ?_⟩
  -- the two stand under the same entity, where no two places are the same
  obtain rfl := placeTells ordered (topMember top) (topMember topOther) level.1
  exact (placeTells ordered (secondMember inside under) (secondMember other underOther) tie).symm

end SafetyCase.Document

namespace SafetyCase.Office

theorem referencesAgree {seen : List Document} {o : Office} (attained : Attained seen o) {d : Document}
    (stored : d ∈ o.store.cases) :
    (∀ x ∈ d.collection d.kind.topLevel, 0 ≤ x.order ∧ ∀ e : Edit, d.RefersTop e.location x →
      (e.target = .step → e.intent = .modify ∨ e.intent = .delete →
        d.resolve e = .ok (.entity d.kind.topLevel x)) ∧
      (e.target = .hazard → e.intent = .add → d.Unanchored e →
        d.resolve e = .ok (.placement d.kind.secondLevel (some x.id) none))) ∧
    (∀ x ∈ d.collection d.kind.topLevel, ∀ y ∈ d.collection d.kind.secondLevel, y.parent = some x.id → 0 ≤ y.order ∧
      ∀ e : Edit, d.RefersSecond e.location x y →
        (e.target = .hazard → e.intent = .modify ∨ e.intent = .delete →
          d.resolve e = .ok (.entity d.kind.secondLevel y)) ∧
        d.Reaches e y) ∧
    (∀ e : Edit, ∀ i, e.location.stepIndex = some i → (∀ y, ¬d.Names d.kind.topLevel e.location.stepId y) →
      (d.siblings d.kind.topLevel none).length ≤ i → d.SeeksTop e → d.Unfound e) ∧
    (∀ e : Edit, ∀ j, e.location.hazardIndex = some j → (∀ y, ¬d.Names d.kind.secondLevel e.location.hazardId y) →
      (∀ x, d.TopOf e.location x → (d.siblings d.kind.secondLevel (some x.id)).length ≤ j) → d.SeeksSecond e →
      d.Unfound e) ∧
    (d.collection d.kind.secondLevel ≠ [] → ∃ y, d.FirstRead y ∧
      ∀ e : Edit, e.location.hasStep = false → e.location.hasHazard = false → d.Reaches e y) := by
  have rooted := (attainedKeeps Store.rootedKeeps attained).stored d stored
  have ordered := rooted.toOrdered
  refine ⟨fun x inside => ⟨Document.placeNatural ordered (Document.topMember inside), fun e refers => ?_⟩,
    fun x top y inside under => ⟨Document.placeNatural ordered (Document.secondMember inside under), fun e refers => ?_⟩,
    fun e i index unnamed beyond seeks => ?_, fun e j index unnamed beyond seeks => ?_, fun filled => ?_⟩
  · have found := Document.topFinds ordered inside refers
    exact ⟨Document.resolvesTop found, Document.placesSecond found (Document.stepReferred refers)⟩
  · have found := Document.secondFinds ordered top inside under refers
    refine ⟨Document.resolvesSecond found, Document.reaches ?_⟩
    rw [Document.secondOrDefault, if_pos (Document.hazardReferred refers), found]
  · obtain ⟨fault, lost⟩ := Document.topBeyond unnamed index beyond
    exact Document.topUnfound seeks (by simp [Location.hasStep, index]) lost
  · obtain ⟨fault, lost⟩ := Document.secondBeyond unnamed index beyond
    exact Document.secondUnfound seeks lost
  · obtain ⟨y, first⟩ : ∃ y, d.secondLevel.head? = some y := by
      cases reading : d.secondLevel with
      | nil => exact absurd (by simpa [Document.secondLevel] using congrArg List.length reading) filled
      | cons y rest => exact ⟨y, rfl⟩
    refine ⟨y, Document.firstIsRead ordered rooted.linked first, fun e free unnamed => Document.reaches ?_⟩
    rw [Document.secondOrDefault, unnamed]
    exact Document.defaultReturns (.ofDocument free first)

def relabeling (l : Location) : Edit := { intent := .modify, target := .hazard, location := l }

theorem referencesAgreeByPlace : ∃ d y, swapping.store.find? (.numbered 1) = some d ∧ y.id = .numbered 4 ∧
    d.resolve (relabeling { stepIndex := some 0, hazardIndex := some 1 }) = .ok (.entity .hazard y) ∧
    d.Unfound (relabeling { stepIndex := some 0, hazardIndex := some 2 }) := by
  have attained : Attained [] swapping := attainedSteps (.fresh ⟨0⟩ fun _ => none) _
  have holds : (swapping.store.find? (.numbered 1)).map (fun d => (d.kind, d.steps.map (fun x => (x.id, x.order)),
      d.hazards.map fun y => (y.id, y.parent, y.order))) = some (.riskAssessment, [(.numbered 2, 0)],
      [(.numbered 3, some (.numbered 2), 0), (.numbered 4, some (.numbered 2), 1)]) := by cbv
  obtain ⟨d, found, same⟩ := Option.map_eq_some_iff.mp holds
  obtain ⟨kind, rest⟩ := Prod.mk.inj same
  obtain ⟨steps, hazards⟩ := Prod.mk.inj rest
  have top : d.kind.topLevel = .step := by rw [kind]; rfl
  have second : d.kind.secondLevel = .hazard := by rw [kind]; rfl
  obtain ⟨x, step, place⟩ : ∃ x ∈ d.steps, (x.id, x.order) = (.numbered 2, 0) := List.mem_map.mp (by simp [steps])
  obtain ⟨y, hazard, shape⟩ : ∃ y ∈ d.hazards, (y.id, y.parent, y.order) = (.numbered 4, some (.numbered 2), 1) :=
    List.mem_map.mp (by simp [hazards])
  simp only [Prod.mk.injEq] at place shape
  obtain ⟨-, agree, -, beyond, -⟩ := referencesAgree attained (Store.foundStored found).1
  have unnamed (t : EntityType) (z : Entity) : ¬d.Names t none z := by simp [Document.Names]
  refine ⟨d, y, found, shape.1, ?_, ?_⟩
  · have refers : d.RefersSecond { stepIndex := some 0, hazardIndex := some 1 } x y :=
      .byPlace (unnamed _) (.byPlace (unnamed _) rfl place.2) rfl shape.2.2
    have resolves := (agree x (top ▸ step) y (second ▸ hazard) (by rw [shape.2.1, place.1])).2
      (relabeling { stepIndex := some 0, hazardIndex := some 1 }) refers
    rw [second] at resolves
    exact resolves.1 rfl (.inl rfl)
  · refine beyond (relabeling { stepIndex := some 0, hazardIndex := some 2 }) 2 rfl (unnamed _) (fun w _ => ?_)
      (.own rfl (.inl rfl))
    calc (d.siblings d.kind.secondLevel (some w.id)).length
        ≤ (d.collection d.kind.secondLevel).length :=
          (Entity.groupPerm _ _ _).length_eq.trans_le (List.length_filter_le _ _)
      _ = 2 := by simpa [second, Document.collection] using congrArg List.length hazards

end SafetyCase.Office
