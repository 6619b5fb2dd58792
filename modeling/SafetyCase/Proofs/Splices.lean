import Mathlib
import SafetyCase.Proofs.Cascades
/-! Where a new entity comes to stand. Its group may have had ties and gaps; it is read with the new entity at its
position and numbered afresh. The flat collection has the new entity at its end, so the order of the group is in the
places alone. -/
namespace SafetyCase.Document

def clamped (position : Option Int) (size : Nat) : Int := position.elim size fun p => max 0 (min p size)

/-- What an insertion at a position makes of a case: the group with the new entity spliced in, and all else as it was. -/
structure Spliced (d : Document) (t : EntityType) (e : Entity) (n : Nat) (d' : Document) : Prop where
  group : d'.siblings t e.parent = Entity.numbered ((d.siblings t e.parent).insertIdx n e)
  places : (d'.siblings t e.parent).map (·.order) = (List.range ((d.siblings t e.parent).length + 1)).map Int.ofNat
  own : Entity.Shifts t e.parent (d.collection t ++ [e]) (d'.collection t)
  others : ∀ parent, Entity.Apart t parent e.parent → d'.siblings t parent = d.siblings t parent
  elsewhere : ∀ s ≠ t, d'.collection s = d.collection s
  header : d'.header = d.header

variable {d : Document} {t : EntityType} {e : Entity}

theorem insertionPointClamped (position : Option Int) (size : Nat) :
    (insertionPoint position size : Int) = clamped position size := by
  cases position with
  | none => rfl
  | some p =>
    simp only [insertionPoint, clamped, Option.elim_some]
    omega

theorem insertSplices (d : Document) (t : EntityType) (e : Entity) (position : Option Int) :
    Spliced d t e (insertionPoint position (d.siblings t e.parent).length) (d.insert t e position) := by
  obtain ⟨i, bound, inserted⟩ := insertAsInserted d t e position
  have group := siblingsInserted d (t := t) (e := e) (fun _ => rfl) position
  refine ⟨group, ?_, ?_, fun parent apart => ?_, fun s other => collectionSetOther d _ other, headerSet d t _⟩
  · have places := Entity.consecutiveNumbered
      ((d.siblings t e.parent).insertIdx (insertionPoint position (d.siblings t e.parent).length) e)
    rw [group, places, Entity.numbered, List.length_mapIdx,
      List.length_insertIdx_of_le_length (insertionPointBound position _)]
  · rw [inserted, collectionSetOwn]
    exact Entity.shiftsInserted t e i (d.collection t)
  · rw [inserted, siblings, collectionSetOwn]
    exact Entity.groupInsertedOther apart

theorem insertDistinct (distinct : d.Distinct) (fresh : e.id ∉ d.idsOf t) (position : Option Int) :
    (d.insert t e position).Distinct := by
  obtain ⟨i, _, inserted⟩ := insertAsInserted d t e position
  intro s
  rw [inserted, idsOf, collectionSet]
  split
  · exact Entity.distinctInserted (distinct t) fresh
  · exact distinct s

theorem insertionSplices (distinct : d.Distinct) (fresh : e.id ∉ d.idsOf t) (position : Option Int) :
    ∃ n : Nat, (n : Int) = clamped position (d.siblings t e.parent).length ∧
      Spliced d t e n (d.insert t e position) ∧ (d.insert t e position).Distinct ∧
      (d.insert t e position).find? t e.id = some (e.withOrder n) ∧
      ((d.insert t e position).siblings t e.parent)[n]? = some (e.withOrder n) := by
  have spliced := insertSplices d t e position
  have whole := insertDistinct distinct fresh position
  have point := insertionPointBound position (d.siblings t e.parent).length
  have stands : ((d.insert t e position).siblings t e.parent)[insertionPoint position (d.siblings t e.parent).length]? =
      some (e.withOrder (insertionPoint position (d.siblings t e.parent).length)) := by
    rw [spliced.group, Entity.numbered, List.getElem?_mapIdx, List.getElem?_insertIdx_self]
    simp [point]
  have inside := (memSiblings.mp (List.mem_of_getElem? stands)).1
  obtain ⟨x, found⟩ := findInside inside
  rw [findOwn whole inside found] at found
  exact ⟨_, insertionPointClamped position _, spliced, whole, found, stands⟩

theorem insertionSplicesTangled : tangled.Distinct ∧ Identifier.numbered 11 ∉ tangled.idsOf .hazard ∧
    ∃ d', tangled.insert .hazard (plain .hazard 11 (some (.numbered 2)) 5) (some 1) = d' ∧
      d'.hazards.map (fun y => (y.id, y.order)) = [(.numbered 3, 2), (.numbered 4, 3), (.numbered 5, 0), (.numbered 6, 0),
        (.numbered 11, 1)] ∧
      ∃ n : Nat, (n : Int) = clamped (some 1) (tangled.siblings .hazard (some (.numbered 2))).length ∧
        Spliced tangled .hazard (plain .hazard 11 (some (.numbered 2)) 5) n d' := by
  have distinct : tangled.Distinct := fun t => by cases t <;> decide
  have fresh : (plain .hazard 11 (some (.numbered 2)) 5).id ∉ tangled.idsOf .hazard := by decide
  obtain ⟨n, point, spliced, _⟩ := insertionSplices distinct fresh (some 1)
  exact ⟨distinct, fresh, _, rfl, by cbv, n, point, spliced⟩

end SafetyCase.Document
