import Mathlib
import SafetyCase.Proofs.Effects
import SafetyCase.Proofs.Returns
import SafetyCase.Proofs.Topmost
/-! Reordering by hand. An order goes through exactly if it names each member of one sibling group once and nothing
else, and if that is the group of the parent that the location refers to, where it refers to one. The group then reads
as it was asked for and nothing else is different; any other order leaves the case as it was. -/
namespace SafetyCase

theorem Kind.topOnly {k : Kind} {t : EntityType} (used : k.Uses t) (top : t.isTop = true) : t = k.topLevel := by
  revert used top
  cases k <;> cases t <;> decide

namespace Document

/-- The group is the one that the location gives, if it gives one, and the references name its members once each. -/
structure Enumerates (d : Document) (t : EntityType) (l : Location) (parent : Option Identifier) (refs : List String) :
    Prop where
  once : refs.Nodup
  whole : ∀ ref, ref ∈ refs ↔ ∃ x ∈ d.siblings t parent, x.id.text = ref
  top : t = d.kind.topLevel → parent = none
  step : t = d.kind.secondLevel → l.hasStep = true → ∃ p, d.TopOf l p ∧ parent = some p.id
  hazard : t ≠ d.kind.topLevel → t ≠ d.kind.secondLevel → l.hasHazard = true → ∃ p, d.SecondOf l p ∧ parent = some p.id

/-- The group reads in the order of the references, and nothing but places within the group is different. -/
structure Regrouped (d : Document) (t : EntityType) (parent : Option Identifier) (refs : List String) (d' : Document) :
    Prop where
  header : d'.header = d.header
  elsewhere : ∀ s ≠ t, d'.collection s = d.collection s
  own : Entity.Shifts t parent (d.collection t) (d'.collection t)
  row : (d'.siblings t parent).map (·.id.text) = refs

variable {d : Document} {t : EntityType} {l : Location} {parent : Option Identifier} {refs : List String}
  {es : List Entity}

theorem groupGiven (given : d.groupParent t l es = .ok parent) :
    (t = d.kind.topLevel → parent = none) ∧
    (t = d.kind.secondLevel → l.hasStep = true → ∃ p, d.TopOf l p ∧ parent = some p.id) ∧
    (t ≠ d.kind.topLevel → t ≠ d.kind.secondLevel → l.hasHazard = true → ∃ p, d.SecondOf l p ∧ parent = some p.id) := by
  unfold groupParent at given
  refine ⟨fun top => ?_, fun second refers => ?_, fun lower deeper refers => ?_⟩
  · rw [if_pos top] at given
    exact (Except.ok.inj given).symm
  · have lower : t ≠ d.kind.topLevel := second ▸ d.kind.levelsApart
    simp only [if_neg lower, if_pos second, if_pos refers, parentFor] at given
    obtain ⟨p, found, same⟩ := okOfMap given
    exact ⟨p, topOf found, same.symm⟩
  · simp only [if_neg lower, if_neg deeper, if_pos refers, parentFor, secondOrDefault] at given
    obtain ⟨p, found, same⟩ := okOfMap given
    exact ⟨p, secondOf found, same.symm⟩

theorem orderingGroup {ids : List Identifier} (found : d.ordering t l refs = .ok (.ordering t parent ids)) :
    ∃ es, d.groupParent t l es = .ok parent := by
  unfold ordering at found
  split at found
  · contradiction
  · split at found
    · contradiction
    · rename_i given
      split at found
      · contradiction
      · cases found
        exact ⟨_, given⟩

theorem namedMembers (distinct : d.Distinct) (named : ∀ ref ∈ refs, ∃ x ∈ d.siblings t parent, x.id.text = ref) :
    ∃ es, d.namedEach t refs = .ok es ∧ ∀ x ∈ es, x ∈ d.siblings t parent := by
  induction refs with
  | nil => exact ⟨[], rfl, by simp⟩
  | cons ref rest ih =>
    obtain ⟨⟨x, member, spelt⟩, later⟩ := List.forall_mem_cons.mp named
    obtain ⟨es, others, inside⟩ := ih later
    have here := (memSiblings.mp member).1
    have names : d.Names t (some ref) x := ⟨here, by rw [spelt]⟩
    obtain ⟨y, found, same⟩ := namedLike names
    obtain rfl : y = x := List.inj_on_of_nodup_map (distinct t) (namesFound found).1 here same
    exact ⟨y :: es, by simp [namedEach, found, others, Except.map], List.forall_mem_cons.mpr ⟨member, inside⟩⟩

theorem memberParent (topmost : d.Topmost) (top : t.isTop = true → parent = none) {x : Entity}
    (member : x ∈ d.siblings t parent) : x.parent = parent := by
  obtain ⟨inside, under⟩ := memSiblings.mp member
  by_cases level : t.isTop
  · rw [top level, topmost t level x inside]
  · simpa [Entity.inGroup, level] using under

theorem enumeratedGroup (enumerates : d.Enumerates t l parent refs) (members : ∀ x ∈ es, x.parent = parent)
    (some : es ≠ []) : d.groupParent t l es = .ok parent := by
  unfold groupParent
  by_cases top : t = d.kind.topLevel
  · rw [if_pos top, enumerates.top top]
  · rw [if_neg top]
    by_cases second : t = d.kind.secondLevel
    · rw [if_pos second]
      by_cases refers : l.hasStep = true
      · obtain ⟨p, designated, same⟩ := enumerates.step second refers
        obtain ⟨y, found, named⟩ := topReturns designated
        simp [parentFor, second, d.kind.levelsApart, refers, found, Except.map, named, same]
      · obtain ⟨x, rest, rfl⟩ := List.exists_cons_of_ne_nil some
        simp [refers, members x List.mem_cons_self]
    · rw [if_neg second]
      by_cases refers : l.hasHazard = true
      · obtain ⟨p, designated, same⟩ := enumerates.hazard top second refers
        obtain ⟨y, found, named⟩ := secondReturns designated
        simp [parentFor, top, second, secondOrDefault, refers, found, Except.map, named, same]
      · obtain ⟨x, rest, rfl⟩ := List.exists_cons_of_ne_nil some
        simp [refers, members x List.mem_cons_self]

theorem enumeratedOrdering (distinct : d.Distinct) (topmost : d.Topmost) (used : d.kind.Uses t) (some : refs ≠ [])
    (enumerates : d.Enumerates t l parent refs) : ∃ ids, d.ordering t l refs = .ok (.ordering t parent ids) := by
  obtain ⟨es, named, inside⟩ := namedMembers distinct fun ref => (enumerates.whole ref).mp
  have members (x : Entity) (listed : x ∈ es) : x.parent = parent :=
    memberParent topmost (fun top => enumerates.top (Kind.topOnly used top)) (inside x listed)
  have filled : es ≠ [] := by
    rintro rfl
    exact some (by simpa using (namedEachFound named).1)
  have close : es.find? (fun e => e.parent ≠ parent) = none :=
    List.find?_eq_none.mpr fun x listed => by simpa using members x listed
  exact ⟨es.map (·.id), by simp only [ordering, named, enumeratedGroup enumerates members filled, close]⟩

theorem wholeByText {ids : List Identifier} (same : refs = ids.map (·.text)) :
    (refs.Nodup ∧ ∀ ref, ref ∈ refs ↔ ∃ x ∈ d.siblings t parent, x.id.text = ref) ↔
      ids.Nodup ∧ ∀ i, i ∈ ids ↔ ∃ x ∈ d.siblings t parent, x.id = i := by
  subst same
  rw [List.nodup_map_iff fun i j => Identifier.textInjective]
  refine and_congr_right fun _ => ⟨fun whole i => ?_, fun whole ref => ?_⟩
  · rw [← List.mem_map_of_injective (f := Identifier.text) fun i j => Identifier.textInjective, whole]
    exact exists_congr fun x => and_congr_right fun _ => ⟨Identifier.textInjective, congrArg _⟩
  · rw [List.mem_map]
    constructor
    · rintro ⟨i, listed, rfl⟩
      obtain ⟨x, member, rfl⟩ := (whole i).mp listed
      exact ⟨x, member, rfl⟩
    · rintro ⟨x, member, rfl⟩
      exact ⟨x.id, (whole x.id).mpr ⟨x, member, rfl⟩, rfl⟩

end Document

namespace Store

variable {s : Store} {d : Document} {e : Edit} {refs : List String}

theorem orderCalls {n : Nat} (found : s.find? d.id = some d) (regular : d.Regular n) (topmost : d.Topmost)
    (orders : e.intent = .reorder) (plain : e.target ≠ .assessment) (order : e.payload = some (.order refs))
    (filled : refs ≠ []) :
    (∀ w, e.write? d = some w → ∃ t parent ids, w = .reorder d.id t parent ids ∧
      e.target.entityType? d.kind = some t ∧ ((s.write w).1 = .ok () → d.Enumerates t e.location parent refs)) ∧
    ∀ t parent, e.target.entityType? d.kind = some t → d.Enumerates t e.location parent refs →
      ∃ ids, e.write? d = some (.reorder d.id t parent ids) ∧ refs = ids.map (·.text) ∧
        (s.write (.reorder d.id t parent ids)).1 = .ok () := by
  refine ⟨fun w call => ?_, fun t parent type enumerates => ?_⟩
  · cases done : d.resolve e with
    | error fault => simp [Edit.write?, done] at call
    | ok r =>
      cases (callOf plain done).symm.trans call
      cases Document.resolved done with
      | assessed rates => exact absurd rates plain
      | existing _ _ intent => simp [orders] at intent
      | placed _ _ intent => simp [orders] at intent
      | @ordered t parent ids _ _ type _ order' inside =>
        cases order.symm.trans order'
        refine ⟨t, parent, ids, rfl, type, fun goes => ?_⟩
        obtain ⟨same, _⟩ := Document.orderingFound inside
        obtain ⟨once, whole⟩ := (Document.wholeByText same).mpr ((reorderGoes found ids).mp goes)
        obtain ⟨es, given⟩ := Document.orderingGroup inside
        obtain ⟨top, step, hazard⟩ := Document.groupGiven given
        exact ⟨once, whole, top, step, hazard⟩
  · obtain ⟨ids, ordered⟩ := Document.enumeratedOrdering regular.toOrdered.distinct topmost (Target.typeUsed type) filled
      enumerates
    have done : d.resolve e = .ok (.ordering t parent ids) := by
      simp only [Document.resolve, type, if_neg plain, orders, order, ordered]
    have same := (Document.orderingFound ordered).1
    refine ⟨ids, callOf plain done, same, ?_⟩
    exact (reorderGoes found ids).mpr ((Document.wholeByText same).mp ⟨enumerates.once, enumerates.whole⟩)

theorem orderEnds {n : Nat} (found : s.find? d.id = some d) (regular : d.Regular n) (topmost : d.Topmost)
    (orders : e.intent = .reorder) (plain : e.target ≠ .assessment) (order : e.payload = some (.order refs))
    (filled : refs ≠ []) {o : EditOutcome} (done : (s.applyEdit d e).1 = .ok o) :
    (o.fault? = none ↔ ∃ t parent, e.target.entityType? d.kind = some t ∧ d.Enumerates t e.location parent refs) ∧
    (∀ t parent, e.target.entityType? d.kind = some t → d.Enumerates t e.location parent refs →
      ∃ d' : Document, d.Regrouped t parent refs d' ∧
        (s.applyEdit d e).2.find? d.id = some { d' with updatedAt := s.now }) ∧
    ((∀ t parent, e.target.entityType? d.kind = some t → ¬d.Enumerates t e.location parent refs) →
      (s.applyEdit d e).2.cases = s.cases) := by
  obtain ⟨calls, answers⟩ := orderCalls found regular topmost orders plain order filled
  have form := carried s d e
  refine ⟨?_, fun t parent type enumerates => ?_, fun none => ?_⟩
  · rw [appliedCall done]
    constructor
    · rintro ⟨w, call, goes⟩
      obtain ⟨t, parent, _, _, type, enumerates⟩ := calls w call
      exact ⟨t, parent, type, enumerates goes⟩
    · rintro ⟨t, parent, type, enumerates⟩
      obtain ⟨ids, call, _, goes⟩ := answers t parent type enumerates
      exact ⟨_, call, goes⟩
  · obtain ⟨ids, call, named, goes⟩ := answers t parent type enumerates
    obtain ⟨d', moved, lands⟩ := reorderLands found goes
    have effect : d.Effect s.freshId e (.ordering t parent ids) d' :=
      Document.reorderEffect regular orders order named moved
    refine ⟨d', ?_, ?_⟩
    · cases effect with
      | reordered _ _ _ elsewhere own row =>
        exact ⟨Document.reorderHeader moved, elsewhere, own, by rw [named, ← row, List.map_map]; rfl⟩
    · generalize s.applyEdit d e = r at form
      cases form with
      | idle free => simp [free] at call
      | refused call' rejected =>
        cases call.symm.trans call'
        rw [goes] at rejected
        contradiction
      | applied call' _ same =>
        cases call.symm.trans call'
        rw [findSame (casesOfQuiet same), lands]
  · generalize s.applyEdit d e = r at form
    cases form with
    | idle _ _ same => exact casesOfQuiet same
    | refused call rejected _ same =>
      obtain ⟨t, parent, ids, rfl, _⟩ := calls _ call
      rw [casesOfQuiet same, wholeRefused (by trivial) rejected]
    | applied call accepted =>
      obtain ⟨t, parent, _, _, type, enumerates⟩ := calls _ call
      exact absurd (enumerates accepted) (none t parent type)

end Store

namespace Desk

variable {k : Desk} {d : Document} {target : Target} {refs : List String} {l : Location}

theorem reorderRuns (opened : k.session.document = some d) (single : target ≠ .multiple) {o : EditOutcome}
    (done : (k.store.applyEdit d (reorderCommand target refs l).toEdit).1 = .ok o) :
    k.reorder target refs l = ({ k with store := (k.store.applyEdit d (reorderCommand target refs l).toEdit).2 } :
      Desk).afterRefresh fun _ k => (.ok (Store.singleOutcome (reorderCommand target refs l) o), k) := by
  have compound : (reorderCommand target refs l).target ≠ .multiple := single
  simp only [reorder, opened, Store.applyCommand, if_neg compound]
  generalize k.store.applyEdit d (reorderCommand target refs l).toEdit = r at done
  obtain ⟨_, s⟩ := r
  cases done
  rfl

theorem outageStops {next : Document → Desk → Except Failure α × Desk} (opened : k.session.document = some d)
    (out : k.store.outage.reads = true) : (k.afterRefresh next).1 = .error (.refresh d.id .unavailable) := by
  simp [afterRefresh, refresh, opened, Store.get, out]

end Desk

namespace Office

theorem orderedByHand {seen : List Document} {o : Office} (attained : Attained seen o) {session : Nat} {d : Document}
    (current : o.Current session d) {target : Target} (plain : target ≠ .assessment) (single : target ≠ .multiple)
    {refs : List String} (filled : refs ≠ []) (l : Location) (slot : Nat) :
    (o.store.outage.reads = false → ∃ out, ((o.desk session slot).reorder target refs l).1 = .ok out ∧
      (out.succeeded = true ↔
        ∃ t parent, target.entityType? d.kind = some t ∧ d.Enumerates t l parent refs)) ∧
    (o.store.outage.reads = true →
      ((o.desk session slot).reorder target refs l).1 = .error (.refresh d.id .unavailable)) ∧
    (∀ t parent, target.entityType? d.kind = some t → d.Enumerates t l parent refs →
      ∃ d' : Document, d.Regrouped t parent refs d' ∧
        ((o.desk session slot).reorder target refs l).2.store.find? d.id = some { d' with updatedAt := o.store.now }) ∧
    ((∀ t parent, target.entityType? d.kind = some t → ¬d.Enumerates t l parent refs) →
      ((o.desk session slot).reorder target refs l).2.store.cases = o.store.cases) ∧
    ((o.desk session slot).reorder target refs l).2.slot = o.slots slot := by
  have regular := ((attainedKeeps Store.rootedKeeps attained).stored d (Store.foundStored current.stored).1).toRegular
  have topmost := (attainedKeeps Store.topmostKeeps attained).stored d (Store.foundStored current.stored).1
  have phased : o.store.Phased := (attainedKeeps Store.phasedKeeps attained).stored
  have opened : (o.desk session slot).session.document = some d := current.cached
  set e := (Desk.reorderCommand target refs l).toEdit with order
  obtain ⟨out, done⟩ : ∃ out, (o.store.applyEdit d e).1 = .ok out :=
    (Store.editReturns current.stored e).resolve_right fun rates => plain rates.1
  obtain ⟨reports, lands, leaves⟩ := Store.orderEnds current.stored regular topmost rfl plain rfl filled done
  have runs := Desk.reorderRuns opened single done
  have cases : ((o.desk session slot).reorder target refs l).2.store.cases = (o.store.applyEdit d e).2.cases := by
    rw [runs]
    exact Desk.afterRefreshCases (fun _ _ => rfl) _
  refine ⟨fun reads => ?_, fun out => ?_, fun t parent type enumerates => ?_, fun none => ?_, ?_⟩
  · have ready : (o.store.applyEdit d e).2.Ready d.id := Store.editReady ⟨⟨d, current.stored⟩, reads, phased⟩ e
    obtain ⟨fresh, k, read⟩ := Desk.refreshReturns
      (k := { o.desk session slot with store := (o.store.applyEdit d e).2 }) opened ready
    refine ⟨Store.singleOutcome (Desk.reorderCommand target refs l) out, ?_, ?_⟩
    · rw [runs, Desk.afterRefresh]
      have read : ({ o.desk session slot with store := ((o.desk session slot).store.applyEdit d e).2 } : Desk).refresh =
        (.ok fresh, k) := read
      rw [read]
    · rw [(Store.singleFault _ out).1, reports]
      rfl
  · rw [runs]
    exact Desk.outageStops opened ((Store.editOutage o.store d e).symm ▸ out)
  · obtain ⟨d', regrouped, stored⟩ := lands t parent type enumerates
    exact ⟨d', regrouped, (Store.findSame cases d.id).trans stored⟩
  · exact cases.trans (leaves none)
  · exact (Desk.stagesStay ⟨d, opened, rfl⟩ (Desk.reorderStages _ target refs l)).slot

def swapping : Office :=
  let hazard label := worded "ADD" "HAZARD" [("stepIndex", .int 0)] [("label", .text label)]
  [.createCase .riskAssessment "Demo", .turn 0 0 (.openCase (.numbered 1)),
    .turn 0 0 (.batch { commands := [worded "ADD" "STEP" [] [("activity", .text "Load")]] }),
    .turn 0 0 (.batch { commands := [hazard "Crushing", hazard "Noise"] })].foldl step (fresh ⟨0⟩ fun _ => none)

def swapped : List String := [(Identifier.numbered 4).text, (Identifier.numbered 3).text]

theorem orderedByHandSwapped : ∃ d out d', swapping.Current 0 d ∧
    ((swapping.desk 0 0).reorder .hazard swapped { stepIndex := some 0 }).1 = .ok out ∧ out.succeeded = true ∧
    d.Regrouped .hazard (some (.numbered 2)) swapped d' ∧
    ((swapping.desk 0 0).reorder .hazard swapped { stepIndex := some 0 }).2.store.find? d.id =
      some { d' with updatedAt := swapping.store.now } := by
  have attained : Attained [] swapping := attainedSteps (.fresh ⟨0⟩ fun _ => none) _
  have copy : (swapping.sessions 0).document = swapping.store.find? (.numbered 1) := by cbv
  have holds : (swapping.store.find? (.numbered 1)).map (fun d => (d.kind,
      (d.siblings .hazard (some (.numbered 2))).map (·.id),
      (d.top { stepIndex := some 0 }).toOption.map (·.id))) =
      some (.riskAssessment, [.numbered 3, .numbered 4], some (.numbered 2)) := by cbv
  obtain ⟨d, found, same⟩ := Option.map_eq_some_iff.mp holds
  obtain ⟨kind, rest⟩ := Prod.mk.inj same
  obtain ⟨members, above⟩ := Prod.mk.inj rest
  have named := (Store.foundStored found).2
  have current : swapping.Current 0 d := ⟨copy.trans found, by rw [named, found]⟩
  have level : d.kind.secondLevel = .hazard := by rw [kind]; rfl
  have texts : (d.siblings .hazard (some (.numbered 2))).map (·.id.text) =
      [(Identifier.numbered 3).text, (Identifier.numbered 4).text] := by
    rw [← Function.comp_def Identifier.text, ← List.map_map, members]
    rfl
  have enumerates : d.Enumerates .hazard { stepIndex := some 0 } (some (.numbered 2)) swapped := by
    refine ⟨by decide +kernel, fun ref => ?_, by simp [kind, Kind.topLevel], fun _ _ => ?_, by simp [level]⟩
    · rw [← List.mem_map, texts]
      simp [swapped, or_comm]
    · cases parent : d.top { stepIndex := some 0 } with
      | error fault => simp [parent, Except.toOption] at above
      | ok p =>
        refine ⟨p, Document.topOf parent, ?_⟩
        rw [parent] at above
        exact above.symm
  have type : Target.entityType? d.kind .hazard = some .hazard := by rw [kind]; rfl
  have rows : Target.hazard ≠ .assessment ∧ Target.hazard ≠ .multiple := by decide
  have filled : swapped ≠ [] := by simp [swapped]
  obtain ⟨reports, -, lands, -⟩ := orderedByHand attained current rows.1 rows.2 filled { stepIndex := some 0 } 0
  obtain ⟨out, answer, succeeds⟩ := reports (by cbv)
  obtain ⟨d', regrouped, stored⟩ := lands .hazard (some (.numbered 2)) type enumerates
  exact ⟨d, out, d', current, answer, succeeds.mpr ⟨_, _, type, enumerates⟩, regrouped, stored⟩

end Office
end SafetyCase
