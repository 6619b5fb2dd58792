import SafetyCase.Proofs.Passage
import SafetyCase.Proofs.UndoRoundTrip
/-! How old a snapshot is. It is taken of the document in hand, which is the case as it was stored when it was last
read. Where the case has been written since but could not be read again, the snapshot is older than the
batch that it is taken for, and an undo goes back behind that batch. -/
namespace SafetyCase.Desk
open Relation (ReflTransGen)

/-- A run of an editor who alone writes its case, with what its operations tell, the last first. Elsewhere other cases
are written, the clock moves on, and parts of the store go out of order. -/
inductive Alone (start : Desk) : Desk → List Signal → Prop where
  | start : Alone start start []
  | operation {k : Desk} {heard : List Signal} (run : Alone start k heard) (op : Op) :
      Alone start (k.perform op) (k.signal op :: heard)
  | elsewhere {k : Desk} {heard : List Signal} {s : Store} (run : Alone start k heard)
      (own : ∀ held, k.session.document = some held → s.find? held.id = k.store.find? held.id) :
      Alone start { k with store := s } heard

/-- A document is the case as it was stored at a moment since which it has not been read. It is what is stored still,
unless a reading has failed since. -/
structure ReadAt (start k : Desk) (heard : List Signal) (held : Document) (m : Desk) (later earlier : List Signal) :
    Prop where
  before : Alone start m earlier
  since : Alone m k later
  heard : heard = later ++ earlier
  unheard : .reread ∉ later
  found : m.store.find? held.id = some held
  current : .unread ∉ later → k.store.find? held.id = some held

structure Aged (start k : Desk) (heard : List Signal) (held : Document) : Prop where
  opened : k.session.document = some held
  stored : ∃ d, k.store.find? held.id = some d ∧ held.Continues d
  read : ∃ m later earlier, ReadAt start k heard held m later earlier

variable {start k k' : Desk} {held d : Document} {heard : List Signal} {b : Envelope}

theorem readNow (run : Alone start k heard) (opened : k.session.document = some held)
    (found : k.store.find? held.id = some held) : Aged start k heard held :=
  ⟨opened, ⟨held, found, .refl held⟩, k, [], heard, run, .start, rfl, List.not_mem_nil, found, fun _ => found⟩

theorem Aged.operation (aged : Aged start k heard held) {op : Op} (silent : k.signal op ≠ .reread)
    (opened : (k.perform op).session.document = some held) (touches : k.store.Touches held.id (k.perform op).store)
    (same : k.signal op ≠ .unread → (k.perform op).store.find? held.id = k.store.find? held.id) :
    Aged start (k.perform op) (k.signal op :: heard) held := by
  obtain ⟨d, found, became⟩ := aged.stored
  obtain ⟨d', still, on⟩ := touches.itself d found
  obtain ⟨m, later, earlier, read⟩ := aged.read
  refine ⟨opened, ⟨d', still, became.trans on⟩, m, k.signal op :: later, earlier, read.before, .operation read.since op,
    by rw [read.heard]; rfl, ?_, read.found, fun unheard => ?_⟩
  · intro listed
    rcases List.mem_cons.mp listed with same | listed
    · exact silent same.symm
    · exact read.unheard listed
  · have apart := List.ne_and_not_mem_of_not_mem_cons unheard
    rw [same (Ne.symm apart.1)]
    exact read.current apart.2

theorem openAges (aged : k.session.document = none ∨ ∃ held, Aged start k heard held) (run : Alone start k heard)
    (id : Identifier) : (k.perform (.openCase id)).session.document = none ∨
      ∃ held, Aged start (k.perform (.openCase id)) (k.signal (.openCase id) :: heard) held := by
  have next := run.operation (.openCase id)
  have cases := casesRelease k id
  have form := opening k id
  have along {held : Document} (aged : Aged start k heard held) (silent : k.signal (.openCase id) ≠ .reread) :=
    aged.operation silent
  simp only [perform, signal] at next along ⊢
  generalize k.openCase id = r at form next along ⊢
  cases form with
  | unread =>
    rcases aged with shut | ⟨held, aged⟩
    · exact .inl (by rw [sessionRelease, shut])
    · exact .inr ⟨held, along aged (by simp [Signal.ofAnswer]) (by rw [sessionRelease, aged.opened])
        (.sameCases cases) fun _ => Store.findSame cases held.id⟩
  | @ungated d fault read failed =>
    have found := Store.getFound read
    obtain rfl := (Store.foundStored found).2
    exact .inr ⟨d, readNow next rfl ((Store.findSame cases _).trans found)⟩
  | @loaded d gate read gated =>
    have found := Store.getFound read
    obtain rfl := (Store.foundStored found).2
    exact .inr ⟨d, readNow next rfl ((Store.findSame cases _).trans found)⟩

theorem performAges (aged : Aged start k heard held) (run : Alone start k heard) {op : Op} (stays : op.stays = true) :
    ∃ d, Aged start (k.perform op) (k.signal op :: heard) d := by
  obtain ⟨d, found, _⟩ := aged.stored
  have next := run.operation op
  have along (silent : k.signal op ≠ .reread) := aged.operation silent
  have ends := performEnds aged.opened ⟨d, found⟩ stays
  have touches := performTouches aged.opened stays
  generalize k.signal op = signal at ends next along
  generalize k.perform op = k' at ends next along touches
  cases ends with
  | silent cases session =>
    exact ⟨held, along (by simp) (by rw [session, aged.opened]) touches fun _ => Store.findSame cases held.id⟩
  | kept cases before move session =>
    exact ⟨held, along (by simp) (by rw [session, aged.opened]) touches fun _ => Store.findSame cases held.id⟩
  | reread again =>
    cases again with
    | @loaded d gate found gated document entered =>
      have named := (Store.foundStored found).2
      exact ⟨d, readNow next document (by rw [named]; exact found)⟩
    | @ungated d fault found failed document =>
      have named := (Store.foundStored found).2
      exact ⟨d, readNow next document (by rw [named]; exact found)⟩
    | unread document => exact ⟨held, along (by simp) document touches fun read => absurd rfl read⟩

theorem runAges (shut : start.session.document = none) (run : Alone start k heard) :
    k.session.document = none ∨ ∃ held, Aged start k heard held := by
  induction run with
  | start => exact .inl shut
  | @operation k heard run op ih =>
    cases stays : op.stays with
    | false =>
      cases op with
      | openCase id => exact openAges ih run id
      | _ => contradiction
    | true =>
      rcases ih with shut | ⟨held, aged⟩
      · exact .inl (by rw [closedStays shut stays, shut])
      · exact .inr (performAges aged run stays)
  | @elsewhere k heard s run own ih =>
    rcases ih with shut | ⟨held, aged⟩
    · exact .inl shut
    · obtain ⟨d, found, became⟩ := aged.stored
      obtain ⟨m, later, earlier, read⟩ := aged.read
      have same := own held aged.opened
      exact .inr ⟨held, aged.opened, ⟨d, same.trans found, became⟩, m, later, earlier, read.before,
        .elsewhere read.since own, read.heard, read.unheard, read.found, fun unread => same.trans (read.current unread)⟩

theorem snapshotAge (shut : start.session.document = none) (run : Alone start k heard)
    (captures : k.captures b = true) : ∃ kept m later earlier, (k.perform (.batch b)).slot = some kept ∧
      ReadAt start k heard kept.document m later earlier ∧
      ∀ after c k', ReflTransGen Interlude (k.perform (.batch b)) after → after.undo = (.ok c, k') →
        k'.store.find? kept.document.id = some c ∧ c = { kept.document with updatedAt := c.updatedAt } := by
  rcases runAges shut run with shut | ⟨held, aged⟩
  · simp [Desk.captures, shut] at captures
  · have awaiting := batchAwaits aged.opened captures
    obtain ⟨kept, taken, same⟩ := awaiting.kept
    obtain ⟨m, later, earlier, read⟩ := aged.read
    subst same
    refine ⟨kept, m, later, earlier, taken, read, fun after c k' between returned => ?_⟩
    have awaiting := interludeAwaits awaiting between
    rcases undoEnds awaiting with ⟨c', answer, undone⟩ | ⟨failure, answer, _⟩
    · rw [returned] at answer undone
      cases answer
      obtain ⟨stored, same, _⟩ := undoneRestores awaiting aged.stored undone
      exact ⟨stored, same⟩
    · rw [returned] at answer
      cases answer

def stepOf (activity : String) : Envelope := { commands := [worded "ADD" "STEP" [] [("activity", .text activity)]] }

def unreadable (k : Desk) : Desk := { k with store := { k.store with outage := { reads := true } } }

def readable (k : Desk) : Desk := { k with store := { k.store with outage := {} } }

def behindhand : Desk :=
  readable ((unreadable (atDemo.perform (.batch (stepOf "Load")))).perform (.batch (stepOf "Lift")))

theorem behindhandAlone : Alone unopened behindhand [.unread, .reread, .reread] := by
  have opens : Alone unopened atDemo _ := Alone.start.operation (.openCase (.numbered 1))
  have load := opens.operation (.batch (stepOf "Load"))
  have stops := load.elsewhere (s := (unreadable (atDemo.perform (.batch (stepOf "Load")))).store) fun _ _ => rfl
  have lift := stops.operation (.batch (stepOf "Lift"))
  have told : [(unreadable (atDemo.perform (.batch (stepOf "Load")))).signal (.batch (stepOf "Lift")),
      atDemo.signal (.batch (stepOf "Load")), unopened.signal (.openCase (.numbered 1))] =
      [.unread, .reread, .reread] := by decide +kernel
  exact told ▸ lift.elsewhere (s := behindhand.store) fun _ _ => rfl

theorem snapshotAgeRefreshed : ∃ kept, ((behindhand.perform .refresh).perform (.batch (stepOf "Stack"))).slot =
      some kept ∧ (behindhand.perform .refresh).store.find? kept.document.id = some kept.document ∧
    kept.document.steps.length = 2 := by
  have told : behindhand.signal .refresh = .reread := by decide +kernel
  have run := behindhandAlone.operation .refresh
  rw [told] at run
  obtain ⟨kept, m, later, earlier, taken, read, _⟩ :=
    snapshotAge (b := stepOf "Stack") rfl run (by decide +kernel)
  have steps : ((behindhand.perform .refresh).perform (.batch (stepOf "Stack"))).slot.map (·.document.steps.length) =
      some 2 := by decide +kernel
  rw [taken] at steps
  refine ⟨kept, taken, read.current fun unread => ?_, Option.some.inj steps⟩
  cases later with
  | nil => contradiction
  | cons first rest => exact read.unheard (by rw [(List.cons.inj read.heard).1]; exact List.mem_cons_self)

theorem snapshotStale : Alone unopened behindhand [.unread, .reread, .reread] ∧
    behindhand.captures (stepOf "Stack") = true ∧ ∃ kept stored k',
      (behindhand.perform (.batch (stepOf "Stack"))).slot = some kept ∧
      behindhand.store.find? kept.document.id = some stored ∧ kept.document ≠ stored ∧
      kept.document.steps.length = 1 ∧ stored.steps.length = 2 ∧
      (behindhand.perform (.batch (stepOf "Stack"))).perform .undo = k' ∧
      (k'.store.find? (.numbered 1)).map (·.steps.length) = some 1 := by
  have before : (behindhand.store.find? (.numbered 1)).map (·.steps.length) = some 2 := by decide +kernel
  have slot : (behindhand.perform (.batch (stepOf "Stack"))).slot.map (fun kept =>
      (kept.document.id, kept.document.steps.length)) = some (.numbered 1, 1) := by decide +kernel
  have undone : (((behindhand.perform (.batch (stepOf "Stack"))).perform .undo).store.find? (.numbered 1)).map
      (·.steps.length) = some 1 := by decide +kernel
  obtain ⟨stored, found, two⟩ := Option.map_eq_some_iff.mp before
  obtain ⟨kept, taken, fields⟩ := Option.map_eq_some_iff.mp slot
  obtain ⟨named, one⟩ := Prod.mk.inj fields
  refine ⟨behindhandAlone, by decide +kernel, kept, stored, _, taken, named ▸ found, fun same => ?_, one, two, rfl,
    undone⟩
  rw [same, two] at one
  contradiction

end SafetyCase.Desk
