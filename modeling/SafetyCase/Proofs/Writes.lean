import SafetyCase.Store.Write
/-! What each write of the store can do, said once: it is refused and the store stays as it is, or it goes
through with one changed document. A partial update has a third ending, in which the fields before the
forbidden one stay set. -/
namespace SafetyCase.Store

variable {s : Store} {id entity : Identifier} {t : EntityType}

inductive Creation (s : Store) (id : Identifier) (t : EntityType) (parent : Option Identifier)
    (position : Option Int) (data : List (String × Value)) : Except StoreFault Entity × Store → Prop where
  | refused (fault : StoreFault) : Creation s id t parent position data (.error fault, s)
  | done {d : Document} {e : Entity} (answer : Entity) (found : s.find? id = some d)
      (parented : lacksParent? d t parent = none) (built : Entity.build t s.freshId parent data = .ok e) :
      Creation s id t parent position data (.ok answer, s.issue.save (d.insert t e position))

inductive Update (s : Store) (id : Identifier) (t : EntityType) (entity : Identifier)
    (changes : List (String × Value)) : Except StoreFault Entity × Store → Prop where
  | refused (fault : StoreFault) : Update s id t entity changes (.error fault, s)
  | done {d : Document} {e : Entity} (found : s.find? id = some d) (member : d.find? t entity = some e)
      (patched : (e.patch t changes).2 = .ok ()) :
      Update s id t entity changes
        (.ok (e.patch t changes).1, s.save (d.modifyEntity t entity fun _ => (e.patch t changes).1))
  | partway {d : Document} {e : Entity} {fault : TreeFault} (found : s.find? id = some d)
      (member : d.find? t entity = some e) (stopped : (e.patch t changes).2 = .error fault) :
      Update s id t entity changes
        (.error (.write (.tree fault)), s.put (d.modifyEntity t entity fun _ => (e.patch t changes).1))

inductive Deletion (s : Store) (id : Identifier) (t : EntityType) (entity : Identifier) (policy : DeletePolicy) :
    Except StoreFault Unit × Store → Prop where
  | refused (fault : StoreFault) : Deletion s id t entity policy (.error fault, s)
  | done {d : Document} {out : List Entity × Document} (found : s.find? id = some d)
      (removed : d.remove d.kind t entity policy = .ok out) :
      Deletion s id t entity policy (.ok (), (s.save out.2).note (.deleted id t entity out.1.length))

inductive Reordering (s : Store) (id : Identifier) (t : EntityType) (parent : Option Identifier)
    (ids : List Identifier) : Except StoreFault Unit × Store → Prop where
  | refused (fault : StoreFault) : Reordering s id t parent ids (.error fault, s)
  | done {d d' : Document} (found : s.find? id = some d) (moved : d.reorder t parent ids = .ok d') :
      Reordering s id t parent ids (.ok (), s.save d')

def restored (s : Store) (d current : Document) : Document :=
  { d with createdAt := current.createdAt, updatedAt := s.now }

inductive Replacement (s : Store) (d : Document) : Except StoreFault Document × Store → Prop where
  | refused (fault : StoreFault) : Replacement s d (.error fault, s)
  | done {current : Document} (found : s.find? d.id = some current) (kind : d.kind = current.kind) :
      Replacement s d (.ok (s.restored d current), (s.put (s.restored d current)).note (.replaced d.id))

def atPhase (s : Store) (d : Document) (phase : String) : Document := { d with phase, updatedAt := s.now }

inductive PhaseChange (s : Store) (id : Identifier) (phase : String) : Except StoreFault Document × Store → Prop where
  | refused (fault : StoreFault) : PhaseChange s id phase (.error fault, s)
  | done {d : Document} (found : s.find? id = some d) (known : phase ∈ d.kind.phaseNames) :
      PhaseChange s id phase (.ok (s.atPhase d phase), s.put (s.atPhase d phase))

theorem creation (s : Store) (id : Identifier) (t : EntityType) (parent : Option Identifier) (position : Option Int)
    (data : List (String × Value)) :
    Creation s id t parent position data (s.createEntity id t parent position data) := by
  unfold createEntity onCase
  cases found : s.find? id with
  | none => exact .refused _
  | some d =>
    dsimp only
    split
    · exact .refused _
    · rename_i parented
      split
      · exact .refused _
      · rename_i built
        exact .done _ found parented built

theorem update (s : Store) (id : Identifier) (t : EntityType) (entity : Identifier)
    (changes : List (String × Value)) : Update s id t entity changes (s.updateEntity id t entity changes) := by
  unfold updateEntity onCase
  cases found : s.find? id with
  | none => exact .refused _
  | some d =>
    dsimp only
    split
    · exact .refused _
    · rename_i member
      split
      · rename_i patched
        exact .done found member patched
      · rename_i stopped
        exact .partway found member stopped

theorem deletion (s : Store) (id : Identifier) (t : EntityType) (entity : Identifier) (policy : DeletePolicy) :
    Deletion s id t entity policy (s.deleteEntity id t entity policy) := by
  unfold deleteEntity onCase
  cases found : s.find? id with
  | none => exact .refused _
  | some d =>
    dsimp only
    split
    · exact .refused _
    · rename_i removed
      exact .done found removed

theorem reordering (s : Store) (id : Identifier) (t : EntityType) (parent : Option Identifier)
    (ids : List Identifier) : Reordering s id t parent ids (s.reorderEntities id t parent ids) := by
  unfold reorderEntities onCase
  cases found : s.find? id with
  | none => exact .refused _
  | some d =>
    dsimp only
    split
    · exact .refused _
    · rename_i moved
      exact .done found moved

theorem replacement (s : Store) (d : Document) : Replacement s d (s.replaceCase d) := by
  unfold replaceCase onCase
  split
  · exact .refused _
  · cases found : s.find? d.id with
    | none => exact .refused _
    | some current =>
      dsimp only
      split
      · rename_i kind
        exact .done found kind
      · exact .refused _

theorem phaseChange (s : Store) (id : Identifier) (phase : String) :
    PhaseChange s id phase (s.setPhase id phase) := by
  unfold setPhase onCase
  split
  · exact .refused _
  · cases found : s.find? id with
    | none => exact .refused _
    | some d =>
      dsimp only
      split
      · rename_i known
        exact .done found (List.contains_iff_mem.mp known)
      · exact .refused _

theorem memPutIn {c d : Document} {cs : List Document} (stored : c ∈ putIn d cs) : c = d ∨ c ∈ cs := by
  induction cs with
  | nil => simpa [putIn] using stored
  | cons first rest ih =>
    simp only [putIn] at stored
    split at stored
    · rcases List.mem_cons.mp stored with rfl | later
      · exact .inl rfl
      · exact .inr (List.mem_cons_of_mem _ later)
    · rcases List.mem_cons.mp stored with rfl | later
      · exact .inr List.mem_cons_self
      · exact (ih later).imp_right (List.mem_cons_of_mem _)

theorem everyPut {P : Document → Prop} {d : Document} (every : ∀ c ∈ s.cases, P c) (changed : P d) :
    ∀ c ∈ (s.put d).cases, P c := by
  intro c stored
  rcases memPutIn stored with rfl | old
  · exact changed
  · exact every c old

theorem foundStored {d : Document} (found : s.find? id = some d) : d ∈ s.cases ∧ d.id = id :=
  ⟨List.mem_of_find?_eq_some found, by simpa using List.find?_some found⟩

theorem getFound {d : Document} (read : s.get id = .ok d) : s.find? id = some d := by
  unfold get at read
  split at read
  · contradiction
  · split at read
    · rename_i found
      cases read
      exact found
    · contradiction

theorem getStored {d : Document} (reads : s.outage.reads = false) (found : s.find? id = some d) : s.get id = .ok d := by
  simp [get, reads, found]

end SafetyCase.Store
