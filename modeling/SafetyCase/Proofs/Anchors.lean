import SafetyCase.Proofs.ChangedFlag
import SafetyCase.Proofs.Lineage
import SafetyCase.Proofs.Office
/-! Insertion after a named sibling, within a batch. The place is counted in the document with which the batch began
and sent to the store as a number. So the new entity comes right after its anchor only while the anchor stands where
it stood, or if it has moved up to the very end of its group. -/
namespace SafetyCase

theorem besideInserted {a new : α} {row : List α} {n p : Nat} (distinct : row.Nodup) (fresh : new ∉ row)
    (bound : n ≤ row.length) (here : row[p]? = some a) : [a, new] <:+: row.insertIdx n new ↔ n = p + 1 := by
  have inserted : (row.insertIdx n new)[n]? = some new := by rw [List.getElem?_insertIdx_self, if_pos bound]
  have earlier {i : Nat} (below : i < n) : (row.insertIdx n new)[i]? = row[i]? := by
    rw [List.getElem?_insertIdx, if_pos below]
  have once : (row.insertIdx n new).Nodup :=
    (List.perm_insertIdx new row bound).nodup_iff.mpr (List.nodup_cons.mpr ⟨fresh, distinct⟩)
  rw [List.infix_iff_getElem?]
  constructor
  · rintro ⟨i, fits, found⟩
    have first : (row.insertIdx n new)[i]? = some a := by simpa using found 0 (by simp)
    have second : (row.insertIdx n new)[i + 1]? = some new := by simpa [Nat.add_comm] using found 1 (by simp)
    have next : i + 1 = n := (List.getElem?_inj (by simp at fits; omega) once).mp (second.trans inserted.symm)
    rw [earlier (by omega), ← here] at first
    have place := (List.getElem?_inj (by omega) distinct).mp first
    omega
  · rintro rfl
    refine ⟨p, by simp [List.length_insertIdx, bound]; omega, fun i inside => ?_⟩
    match i, inside with
    | 0, _ => simpa [earlier (Nat.lt_succ_self p)] using here
    | 1, _ => simpa [Nat.add_comm] using inserted

namespace Entity

theorem placeOfMember {es : List Entity} (consecutive : Consecutive es) {x : Entity} (inside : x ∈ es) :
    ∃ p : Nat, es[p]? = some x ∧ x.order = p := by
  obtain ⟨p, here⟩ := List.mem_iff_getElem?.mp inside
  have order : (es.map (·.order))[p]? = some x.order := by rw [List.getElem?_map, here]; rfl
  obtain ⟨bound, _⟩ := List.getElem?_eq_some_iff.mp here
  rw [consecutive, List.getElem?_map, List.getElem?_range bound] at order
  exact ⟨p, here, (Option.some.inj order).symm⟩

end Entity

namespace Document

variable {c : Document} {t : EntityType} {x e : Entity} {n : Nat}

theorem insertBeside (regular : c.Regular n) (fresh : e.id = .numbered (n + 1)) (inside : x ∈ c.collection t)
    (group : Entity.SameGroup t x.parent e.parent) (place : Nat) :
    [x.id, e.id] <:+: ((c.insert t e (some (place + 1))).siblings t x.parent).map (·.id) ↔
      x.order = place ∨ x.order ≤ place ∧ x.order + 1 = (c.siblings t x.parent).length := by
  have placed := regular.placed t
  obtain ⟨p, here, order⟩ : ∃ p : Nat, (c.siblings t x.parent)[p]? = some x ∧ x.order = p :=
    Entity.placeOfMember (placed.gapless x.parent) (memSiblings.mpr ⟨inside, Entity.inGroupOwn t x⟩)
  have row : (c.insert t e (some (place + 1))).siblings t x.parent =
      Entity.numbered ((c.siblings t x.parent).insertIdx (min (place + 1) (c.siblings t x.parent).length) e) :=
    siblingsInserted c group _
  have length := (List.getElem?_eq_some_iff.mp here).1
  have ids : ((c.siblings t x.parent).map (·.id))[p]? = some x.id := by rw [List.getElem?_map, here]; rfl
  have distinct : ((c.siblings t x.parent).map (·.id)).Nodup :=
    ((Entity.groupPerm t x.parent _).map _).nodup_iff.mpr (placed.distinct.sublist (List.filter_sublist.map _))
  have absent : e.id ∉ (c.siblings t x.parent).map (·.id) := by
    intro listed
    obtain ⟨y, member, same⟩ := List.mem_map.mp listed
    exact regular.issued.fresh t (List.mem_map.mpr ⟨y, (memSiblings.mp member).1, same.trans fresh⟩)
  -- A place behind the group is cut to its length, and so comes right after the last entity wherever that one stands.
  rw [row, Entity.idsNumbered, List.map_insertIdx, besideInserted distinct absent (by simp) ids]
  omega

theorem resolveAfter {d : Document} {e : Edit} {anchor : Entity} (adds : e.intent = .add ∨ e.intent = .insert)
    (plain : e.target ≠ .assessment) (type : e.target.entityType? d.kind = some t)
    (named : d.named? t e.location.insertAfter = some anchor) :
    d.resolve e = .ok (.placement t anchor.parent (some (anchor.order + 1))) := by
  have placement : d.placement t e.intent e.location = .ok (.placement t anchor.parent (some (anchor.order + 1))) := by
    simp [Document.placement, named]
  rw [resolve, type]
  dsimp only
  rw [if_neg plain]
  rcases adds with add | insert
  · rw [add] at placement ⊢
    exact placement
  · rw [insert] at placement ⊢
    exact placement

end Document

namespace Store

variable {s : Store} {held : Document}

theorem creationAnswer {id : Identifier} {t : EntityType} {parent : Option Identifier} {position : Option Int}
    {data : List (String × Value)} {x : Entity} (done : (s.createEntity id t parent position data).1 = .ok x) :
    x.id = s.freshId := by
  unfold createEntity onCase at done
  split at done
  · contradiction
  · rename_i d _
    dsimp only at done
    split at done
    · contradiction
    · split at done
      · contradiction
      · rename_i e built
        have last : ((d.insert t e position).collection t).getLast?.map (·.id) = some s.freshId := by
          obtain ⟨n, _, same⟩ := Document.insertAsInserted d t e position
          rw [same, Document.collectionSetOwn, Entity.inserted, ← List.getLast?_map, Entity.idsRenumber]
          simp [Entity.idBuild built]
        obtain ⟨x, ends, named⟩ := Option.map_eq_some_iff.mp last
        rw [ends] at done
        cases done
        exact named

theorem editsHead {edits : List Edit} {o : EditOutcome} {os : List EditOutcome}
    (done : (s.applyEdits held edits).1 = .ok (o :: os)) : (s.applyEdit held o.edit).1 = .ok o ∧
      ∃ rest, ((s.applyEdit held o.edit).2.applyEdits held rest).1 = .ok os := by
  cases edits with
  | nil => cases done
  | cons e rest =>
    obtain ⟨o', os', s', applied, rfl, tail, same⟩ := editsCons (Prod.ext done rfl)
    cases same
    rw [applied]
    exact ⟨rfl, rest, by rw [tail]⟩

theorem editsSplit {edits : List Edit} {before after : List EditOutcome} {o : EditOutcome}
    (done : (s.applyEdits held edits).1 = .ok (before ++ o :: after)) :
    ((s.applyEdits held (before.map (·.edit))).2.applyEdit held o.edit).1 = .ok o := by
  induction before generalizing s edits with
  | nil => exact (editsHead done).1
  | cons p before ih =>
    obtain ⟨first, rest, tail⟩ := editsHead done
    have later := ih tail
    simp only [List.map_cons, applyEdits]
    generalize s.applyEdit held p.edit = r at first later
    obtain ⟨abort | o', s'⟩ := r
    · cases first
    · dsimp only at later ⊢
      generalize s'.applyEdits held (before.map (·.edit)) = r at later
      obtain ⟨abort | os, s''⟩ := r <;> exact later

theorem placedAnswer {e : Edit} {t : EntityType} {parent : Option Identifier} {position : Option Int} {new : Identifier}
    (addressed : held.resolve e = .ok (.placement t parent position))
    (done : (s.applyEdit held e).1 = .ok ⟨e, .ok (some new)⟩) : new = s.freshId := by
  unfold applyEdit at done
  simp only [addressed] at done
  split at done
  · contradiction
  · simp only [perform] at done
    have answer : ∀ x, ((s.note (.applying held.id e.intent e.target)).createEntity held.id t parent position
        (e.newValues t)).1 = .ok x → x.id = s.freshId := fun _ => creationAnswer
    generalize createEntity _ _ _ _ _ _ = r at done answer
    obtain ⟨(fault | fault) | x, s'⟩ := r
    · cases done
    · cases done
    · cases done
      exact answer x rfl

theorem placedEdit {e : Edit} {t : EntityType} {parent : Option Identifier} {position : Option Int} {new : Identifier}
    (addressed : held.resolve e = .ok (.placement t parent position))
    (done : (s.applyEdit held e).1 = .ok ⟨e, .ok (some new)⟩) : ∃ c x, s.find? held.id = some c ∧
      Entity.build t s.freshId parent (e.newValues t) = .ok x ∧ ∃ c', (s.applyEdit held e).2.find? held.id = some c' ∧
        c'.collection t = (c.insert t x position).collection t := by
  have step := applyEditStep s held e
  generalize s.applyEdit held e = r at step done
  cases step with
  | left failing => exact absurd (failing _ done) (by simp [EditOutcome.fault?])
  | partway failing => exact absurd (failing _ done) (by simp [EditOutcome.fault?])
  | @created _ _ _ c x _ _ also found _ built same =>
    cases addressed.symm.trans also
    refine ⟨c, x, found, built, { c.insert t x position with updatedAt := s.now }, ?_, by cases t <;> rfl⟩
    rw [findSame (casesOfQuiet same)]
    exact savedFound found (Document.headerSet c t _) rfl
  | updated also => cases addressed.symm.trans also
  | deleted also => cases addressed.symm.trans also
  | reordered also => cases addressed.symm.trans also

end Store

namespace Desk

def turn (k : Desk) (d : Document) (b : Envelope) (before : List EditOutcome) : Store :=
  ((k.capture d b.summary).store.applyEdits d (before.map (·.edit))).2

variable {k k' : Desk} {d : Document} {b : Envelope} {r : BatchResult}
variable {before after : List EditOutcome} {o : EditOutcome}

theorem turnAnswers (opened : k.session.document = some d) (returned : k.applyBatch b = (.ok r, k'))
    (reported : r.outcomes.flatMap Outcome.tried = before ++ o :: after) :
    ((k.turn d b before).applyEdit d o.edit).1 = .ok o := by
  have form := batch k b
  rw [returned] at form
  generalize same : ((.ok r, k') : Except Failure BatchResult × Desk) = answer at form
  cases form with
  | closed => cases same
  | idle n _ empty =>
    cases same
    simp [empty] at reported
  | applied here tells =>
    cases opened.symm.trans here
    obtain ⟨store, applied, _⟩ := appliedBatch same.symm
    have run := Store.commandsAsEdits (k.capture d b.summary).store d (k.check d b).accepted
    rw [applied] at run
    exact Store.editsSplit (by rw [run, ← reported]; rfl)

theorem turnCarries (current : k.store.find? d.id = some d) (regular : d.Regular k.store.issued) (b : Envelope)
    (before : List EditOutcome) : (k.turn d b before).Carries k.store.issued d := by
  have start : (k.capture d b.summary).store.Carries k.store.issued d := by
    refine ⟨by rw [issuedCapture], d, ?_, by rwa [issuedCapture], .refl _ d⟩
    rw [Store.findSame (casesCapture k d b.summary), current]
  exact Store.editsCarry start _

/-- What is added after a named sibling comes right after it exactly if the sibling stands where it stood before the
batch, or has moved up and is the last of its group. -/
theorem insertAfterPlace {e : Edit} {t : EntityType} {anchor : Entity} {new : Identifier}
    (opened : k.session.document = some d) (current : k.store.find? d.id = some d) (regular : d.Regular k.store.issued)
    (returned : k.applyBatch b = (.ok r, k'))
    (reported : r.outcomes.flatMap Outcome.tried = before ++ ⟨e, .ok (some new)⟩ :: after)
    (adds : e.intent = .add ∨ e.intent = .insert) (plain : e.target ≠ .assessment)
    (type : e.target.entityType? d.kind = some t) (named : d.named? t e.location.insertAfter = some anchor) :
    ∃ c c', (k.turn d b before).find? d.id = some c ∧ ((k.turn d b before).applyEdit d e).2.find? d.id = some c' ∧
      ∀ x, c.find? t anchor.id = some x → ([anchor.id, new] <:+: (c'.siblings t x.parent).map (·.id) ↔
        x.order = anchor.order ∨ x.order ≤ anchor.order ∧ x.order + 1 = (c.siblings t x.parent).length) := by
  have done := turnAnswers opened returned reported
  obtain ⟨_, c, found, on, descends⟩ := turnCarries current regular b before
  have addressed := Document.resolveAfter adds plain type named
  cases Store.placedAnswer addressed done
  obtain ⟨_, y, also, built, c', stored, tree⟩ := Store.placedEdit addressed done
  cases found.symm.trans also
  obtain ⟨ref, _, here⟩ := Option.bind_eq_some_iff.mp named
  have inside : anchor ∈ d.collection t := List.mem_of_find?_eq_some here
  obtain ⟨place, _, order⟩ := Entity.placeOfMember ((regular.placed t).gapless anchor.parent)
    (Document.memSiblings.mpr ⟨inside, Entity.inGroupOwn t anchor⟩)
  refine ⟨c, c', found, stored, fun x present => ?_⟩
  have known : x ∈ c.collection t := List.mem_of_find?_eq_some present
  have same : x.id = anchor.id := by simpa using List.find?_some present
  have parent := descends.parent regular.issued regular.toOrdered.distinct inside known same
  have group : Entity.SameGroup t x.parent y.parent := by
    intro z
    rw [(Entity.builtForm built).1, parent]
    cases top : t.isTop <;> simp [Entity.inGroup, top]
  rw [order] at tree ⊢
  rw [Document.siblings, tree, ← same, ← Entity.idBuild built]
  exact Document.insertBeside on (Entity.idBuild built) known group place

def loaded : Desk := blank.perform (.batch { commands := [worded "ADD" "STEP" [] [("activity", .text "Load")]] })

def demo : Document := loaded.session.document.getD blankCase

def afterLoad : Json :=
  worded "INSERT" "STEP" [("insertAfter", .text (Identifier.numbered 2).text)] [("activity", .text "Inspect")]

def following : Envelope := { commands := [worded "ADD" "STEP" [] [("activity", .text "Unload")], afterLoad] }

def shifting : Envelope :=
  { commands := [worded "INSERT" "STEP" [("stepIndex", .int 0)] [("activity", .text "Unload")], afterLoad] }

def tried (b : Envelope) : Option (List EditOutcome) :=
  (loaded.applyBatch b).1.toOption.map (·.outcomes.flatMap Outcome.tried)

theorem afterLoadTried {b : Envelope} {first : Intent} {place : Option String}
    (answers : (tried b).map (·.map fun o => (o.edit.intent, o.edit.target, o.edit.location.insertAfter,
      o.settled.toOption)) = some [(first, .step, place, some (some (.numbered 3))),
        (.insert, .step, some (Identifier.numbered 2).text, some (some (.numbered 4)))]) :
    ∃ r k' o e, loaded.applyBatch b = (.ok r, k') ∧ tried b = some [o, ⟨e, .ok (some (.numbered 4))⟩] ∧
      r.outcomes.flatMap Outcome.tried = [o, ⟨e, .ok (some (.numbered 4))⟩] ∧ e.intent = .insert ∧ e.target = .step ∧
      e.location.insertAfter = some (Identifier.numbered 2).text := by
  obtain ⟨os, listed, answers⟩ := Option.map_eq_some_iff.mp answers
  obtain ⟨r, k', same, reported⟩ := returnsOfMap listed
  obtain ⟨o, ⟨e, settled⟩, rfl⟩ : ∃ o o', os = [o, o'] := by
    refine List.length_eq_two.mp ?_
    rw [← List.length_map, answers]
    rfl
  simp only [List.map_cons, List.map_nil, List.cons.injEq, Prod.mk.injEq] at answers
  obtain ⟨-, ⟨insert, target, after, answer⟩, -⟩ := answers
  rcases settled with fault | new
  · cases answer
  · cases answer
    exact ⟨r, k', o, e, same, listed, reported, insert, target, after⟩

theorem loadedRegular {d : Document} (found : loaded.store.find? d.id = some d) : d.Regular loaded.store.issued := by
  have empty : Store.Sound (fun _ => .riskAssessment) { now := ⟨0⟩ } := fun d stored => by contradiction
  have start := empty.create .riskAssessment "Demo"
  have path : Path blank loaded := (performPath blank _).2
  have sound : blank.Sound _ := ⟨start, fun d cached => ?_, fun _ taken => by contradiction⟩
  · exact ((pathSound sound path).1.stored d (Store.foundStored found).1).toRegular
  · cases cached
    exact start blankCase List.mem_cons_self

theorem insertAfterFollowing : loaded.session.document = some demo ∧ ∃ r k' o e c,
    loaded.applyBatch following = (.ok r, k') ∧
    r.outcomes.flatMap Outcome.tried = [o, ⟨e, .ok (some (.numbered 4))⟩] ∧
    e.location.insertAfter = some (Identifier.numbered 2).text ∧
    ((loaded.turn demo following [o]).applyEdit demo e).2.find? demo.id = some c ∧
    [.numbered 2, .numbered 4] <:+: (c.siblings .step none).map (·.id) := by
  have opened : loaded.session.document = some demo := by cbv
  have current : loaded.store.find? demo.id = some demo := by cbv
  have type : Target.step.entityType? demo.kind = some .step := by cbv
  have anchor : (demo.named? .step (some (Identifier.numbered 2).text)).map (fun x => (x.id, x.order)) =
      some (.numbered 2, 0) := by cbv
  have turn : ((tried following).bind fun os => ((loaded.turn demo following (os.take 1)).find? demo.id).map fun c =>
      (c.find? .step (.numbered 2)).map fun x => (x.parent, x.order)) = some (some (none, 0)) := by cbv
  obtain ⟨r, k', o, e, returned, listed, reported, insert, target, after⟩ := afterLoadTried (b := following) (by cbv)
  rw [listed] at turn
  obtain ⟨x, named, same⟩ := Option.map_eq_some_iff.mp anchor
  obtain ⟨id, order⟩ := Prod.mk.inj same
  have split : r.outcomes.flatMap Outcome.tried = [o] ++ ⟨e, .ok (some (.numbered 4))⟩ :: [] := reported
  obtain ⟨c, c', found, stored, beside⟩ := insertAfterPlace opened current (loadedRegular current) returned split
    (.inr insert) (by simp [target]) (by rw [target, type]) (by rw [after, named])
  obtain ⟨_, also, held⟩ := Option.map_eq_some_iff.mp turn
  cases found.symm.trans also
  obtain ⟨y, present, stands⟩ := Option.map_eq_some_iff.mp held
  obtain ⟨parent, place⟩ := Prod.mk.inj stands
  refine ⟨opened, r, k', o, e, c', returned, reported, after, stored, ?_⟩
  rw [← parent, ← id]
  exact (beside y (by rw [id, present])).mpr (.inl (place.trans order.symm))

theorem insertAfterShifted : loaded.session.document = loaded.store.find? (.numbered 1) ∧ ∃ r k' o e c c',
    loaded.applyBatch shifting = (.ok r, k') ∧
    r.outcomes.flatMap Outcome.tried = [o, ⟨e, .ok (some (.numbered 4))⟩] ∧
    e.location.insertAfter = some (Identifier.numbered 2).text ∧
    (loaded.turn demo shifting [o]).find? (.numbered 1) = some c ∧ .numbered 2 ∈ (c.siblings .step none).map (·.id) ∧
    ((loaded.turn demo shifting [o]).applyEdit demo e).2.find? (.numbered 1) = some c' ∧
    ¬ [.numbered 2, .numbered 4] <:+: (c'.siblings .step none).map (·.id) := by
  have before : ((tried shifting).bind fun os => ((loaded.turn demo shifting (os.take 1)).find? (.numbered 1)).map
      fun c => (c.siblings .step none).map (·.id)) = some [.numbered 3, .numbered 2] := by cbv
  have after : ((tried shifting).bind fun os => os[1]?.bind fun o =>
      (((loaded.turn demo shifting (os.take 1)).applyEdit demo o.edit).2.find? (.numbered 1)).map fun c =>
        (c.siblings .step none).map (·.id)) = some [.numbered 3, .numbered 4, .numbered 2] := by cbv
  obtain ⟨r, k', o, e, returned, listed, reported, _, _, named⟩ := afterLoadTried (b := shifting) (by cbv)
  rw [listed] at before after
  obtain ⟨c, found, row⟩ := Option.map_eq_some_iff.mp before
  obtain ⟨c', stored, moved⟩ := Option.map_eq_some_iff.mp after
  refine ⟨by cbv, r, k', o, e, c, c', returned, reported, named, found, ?_, stored, ?_⟩
  · rw [row]
    exact .tail _ (.head _)
  · rw [moved]
    decide

end Desk
end SafetyCase
