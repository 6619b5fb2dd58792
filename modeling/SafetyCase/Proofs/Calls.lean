import SafetyCase.Proofs.Settlement
/-! The writes of the store as values, with any arguments, and what each of them can do. An edit makes one of them or
none, and the document that the editor holds decides which; whether it goes through is left to the store. -/
namespace SafetyCase

def Document.Phased (d : Document) : Prop := d.phase ∈ d.kind.phaseNames

theorem Document.phasedHeader {d d' : Document} (same : d'.header = d.header) : d'.Phased ↔ d.Phased := by
  change d'.header.phase ∈ d'.header.kind.phaseNames ↔ d.header.phase ∈ d.header.kind.phaseNames
  rw [same]

def Entity.settable (t : EntityType) (changes : List (String × Value)) : List (String × Value) :=
  changes.takeWhile fun c => (t.attribute? c.1).isSome

theorem Entity.patchSettable (t : EntityType) (changes : List (String × Value)) (e : Entity) :
    (e.patch t changes).1 = (e.patch t (settable t changes)).1 := by
  induction changes generalizing e with
  | nil => rfl
  | cons c rest ih =>
    obtain ⟨name, v⟩ := c
    cases named : t.attribute? name with
    | none => simp [settable, patch, named]
    | some a =>
      have onward := ih (e.assign a v)
      simpa [settable, patch, named] using onward

inductive Write where
  | create (id : Identifier) (t : EntityType) (parent : Option Identifier) (position : Option Int)
      (data : List (String × Value))
  | update (id : Identifier) (t : EntityType) (entity : Identifier) (changes : List (String × Value))
  | delete (id : Identifier) (t : EntityType) (entity : Identifier) (policy : DeletePolicy)
  | reorder (id : Identifier) (t : EntityType) (parent : Option Identifier) (ids : List Identifier)
  | replace (d : Document)
  | rephase (id : Identifier) (phase : String)
  deriving DecidableEq

namespace Write

def Whole : Write → Prop
  | .update _ t _ changes => ∀ c ∈ changes, (t.attribute? c.1).isSome = true
  | _ => True

def Phased : Write → Prop
  | .replace d => d.Phased
  | _ => True

end Write

namespace Store

def unanswered (r : Except StoreFault α × Store) : Except StoreFault Unit × Store := (r.1.map fun _ => (), r.2)

def write (s : Store) : Write → Except StoreFault Unit × Store
  | .create id t parent position data => unanswered (s.createEntity id t parent position data)
  | .update id t entity changes => unanswered (s.updateEntity id t entity changes)
  | .delete id t entity policy => unanswered (s.deleteEntity id t entity policy)
  | .reorder id t parent ids => unanswered (s.reorderEntities id t parent ids)
  | .replace d => unanswered (s.replaceCase d)
  | .rephase id phase => unanswered (s.setPhase id phase)

structure Begun where
  document : Document
  type : EntityType
  before : Entity
  after : Entity

def Begun.changed (b : Begun) : Document := b.document.modifyEntity b.type b.before.id fun _ => b.after

def begun? (s : Store) : Write → Option Begun
  | .update id t entity changes =>
    (s.find? id).bind fun d =>
      (d.find? t entity).map fun e => ⟨d, t, e, (e.patch t (Entity.settable t changes)).1⟩
  | _ => none

/-- A write is refused as a whole, or it is an update torn at a forbidden field, or one case takes the place of another. -/
inductive Written (s : Store) (w : Write) : Except StoreFault Unit × Store → Prop where
  | refused (fault : StoreFault) (unbegun : s.begun? w = none) : Written s w (.error fault, s)
  | torn {b : Begun} (fault : StoreFault) (begun : s.begun? w = some b) (stored : b.document ∈ s.cases)
      (mixed : ¬w.Whole) : Written s w (.error fault, s.put b.changed)
  | done {c d : Document} {s' : Store} (cases : s'.cases = putIn d s.cases) (outage : s'.outage = s.outage)
      (stored : c ∈ s.cases) (phase : w.Phased → c.Phased → d.Phased) : Written s w (.ok (), s')

theorem rebuiltPhased (d : Document) (t : EntityType) (es : List Entity) : d.Phased → (d.setCollection t es).Phased :=
  (Document.phasedHeader (Document.headerSet d t es)).mpr

theorem updateWritten (s : Store) (id : Identifier) (t : EntityType) (entity : Identifier)
    (changes : List (String × Value)) :
    Written s (.update id t entity changes) (s.write (.update id t entity changes)) := by
  simp only [write, updateEntity, onCase]
  cases found : s.find? id with
  | none => exact .refused _ (by simp [begun?, found])
  | some d =>
    dsimp only
    cases member : d.find? t entity with
    | none => exact .refused _ (by simp [begun?, found, member])
    | some e =>
      dsimp only
      cases ending : (e.patch t changes).2 with
      | ok => exact .done rfl rfl (foundStored found).1 fun _ => rebuiltPhased _ _ _
      | error stop =>
        obtain rfl : e.id = entity := by simpa using List.find?_some member
        have mixed : ¬Write.Whole (.update id t e.id changes) := fun whole => by
          rw [Entity.patchEnds whole] at ending
          contradiction
        have begun : s.begun? (.update id t e.id changes) =
            some ⟨d, t, e, (e.patch t (Entity.settable t changes)).1⟩ := by
          simp [begun?, found, member]
        -- whatever stands behind the field that stopped the update was not looked at
        rw [Entity.patchSettable]
        exact .torn _ begun (foundStored found).1 mixed

theorem written (s : Store) (w : Write) : Written s w (s.write w) := by
  cases w with
  | update id t entity changes => exact updateWritten s id t entity changes
  | create id t parent position data =>
    have call := creation s id t parent position data
    simp only [write]
    generalize s.createEntity id t parent position data = r at call
    cases call with
    | refused fault => exact .refused fault rfl
    | done _ found => exact .done rfl rfl (foundStored found).1 fun _ => rebuiltPhased _ _ _
  | delete id t entity policy =>
    have call := deletion s id t entity policy
    simp only [write]
    generalize s.deleteEntity id t entity policy = r at call
    cases call with
    | refused fault => exact .refused fault rfl
    | done found removed =>
      exact .done rfl rfl (foundStored found).1 fun _ => (Document.phasedHeader (Document.removeHeader removed)).mpr
  | reorder id t parent ids =>
    have call := reordering s id t parent ids
    simp only [write]
    generalize s.reorderEntities id t parent ids = r at call
    cases call with
    | refused fault => exact .refused fault rfl
    | done found moved =>
      exact .done rfl rfl (foundStored found).1 fun _ => (Document.phasedHeader (Document.reorderHeader moved)).mpr
  | replace d =>
    have call := replacement s d
    simp only [write]
    generalize s.replaceCase d = r at call
    cases call with
    | refused fault => exact .refused fault rfl
    | done found => exact .done rfl rfl (foundStored found).1 fun phased _ => phased
  | rephase id phase =>
    have call := phaseChange s id phase
    simp only [write]
    generalize s.setPhase id phase = r at call
    cases call with
    | refused fault => exact .refused fault rfl
    | done found known => exact .done rfl rfl (foundStored found).1 fun _ _ => known

end Store

namespace Edit

def write (held : Document) (e : Edit) : Resolution → Write
  | .placement t parent position => .create held.id t parent position (e.newValues t)
  | .ordering t parent ids => .reorder held.id t parent ids
  | .entity t x =>
    if e.intent = .delete then .delete held.id t x.id (Store.deletePolicy held.kind t)
    else .update held.id t x.id e.values

def rate (held : Document) (e : Edit) (t : EntityType) (x : Entity) (rating : Value) : Write :=
  .update held.id t x.id [((e.slot held).toAttribute.name, rating)]

def write? (held : Document) (e : Edit) : Option Write :=
  match held.resolve e with
  | .error _ => none
  | .ok r =>
    match e.target, r with
    | .assessment, .entity t x => e.newRating?.map (e.rate held t x)
    | _, r => some (e.write held r)

end Edit

namespace Store

variable {s : Store} {held : Document} {e : Edit} {w : Write}

def Alike (r r' : Except StoreFault Unit × Store) : Prop := r.1 = r'.1 ∧ r.2.quiet = r'.2.quiet

theorem onCaseQuiet {f g : Document → Except StoreFault α × Store}
    (each : ∀ d, Alike (unanswered (f d)) (unanswered (g d))) (s : Store) (id : Identifier) :
    Alike (unanswered (s.quiet.onCase id f)) (unanswered (s.onCase id g)) := by
  have same : s.quiet.find? id = s.find? id := rfl
  unfold onCase
  rw [same]
  cases s.find? id with
  | none => exact ⟨rfl, rfl⟩
  | some d => exact each d

theorem writeQuiet (s : Store) (w : Write) : Alike (s.quiet.write w) (s.write w) := by
  have fresh : s.quiet.freshId = s.freshId := rfl
  have outage : s.quiet.outage = s.outage := rfl
  cases w with
  | create id t parent position data =>
    refine onCaseQuiet (fun d => ?_) s id
    rw [fresh]
    repeat' split
    all_goals exact ⟨rfl, rfl⟩
  | update id t entity changes =>
    refine onCaseQuiet (fun d => ?_) s id
    dsimp only
    repeat' split
    all_goals exact ⟨rfl, rfl⟩
  | delete id t entity policy =>
    refine onCaseQuiet (fun d => ?_) s id
    split <;> exact ⟨rfl, rfl⟩
  | reorder id t parent ids =>
    refine onCaseQuiet (fun d => ?_) s id
    split <;> exact ⟨rfl, rfl⟩
  | replace d =>
    simp only [write, replaceCase, outage]
    split
    · exact ⟨rfl, rfl⟩
    · refine onCaseQuiet (fun current => ?_) s d.id
      split <;> exact ⟨rfl, rfl⟩
  | rephase id phase =>
    simp only [write, setPhase, outage]
    split
    · exact ⟨rfl, rfl⟩
    · refine onCaseQuiet (fun d => ?_) s id
      split <;> exact ⟨rfl, rfl⟩

theorem writeAlike {s' : Store} (same : s'.quiet = s.quiet) (w : Write) : Alike (s'.write w) (s.write w) := by
  have one := writeQuiet s' w
  have two := writeQuiet s w
  rw [same] at one
  exact ⟨one.1.symm.trans two.1, one.2.symm.trans two.2⟩

theorem performWrites (s : Store) (held : Document) (e : Edit) (r : Resolution) :
    unanswered (s.perform held e r) = s.write (e.write held r) := by
  cases r with
  | placement t parent position =>
    simp only [perform, Edit.write, write]
    obtain ⟨fault | x, s'⟩ := s.createEntity held.id t parent position (e.newValues t) <;> rfl
  | ordering t parent ids =>
    simp only [perform, Edit.write, write]
    obtain ⟨fault | _, s'⟩ := s.reorderEntities held.id t parent ids <;> rfl
  | entity t x =>
    simp only [perform, Edit.write]
    split
    · simp only [write]
      obtain ⟨fault | _, s'⟩ := s.deleteEntity held.id t x.id (deletePolicy held.kind t) <;> rfl
    · simp only [write]
      obtain ⟨fault | _, s'⟩ := s.updateEntity held.id t x.id e.values <;> rfl

theorem assessWrites (s : Store) (held : Document) (e : Edit) (t : EntityType) (x : Entity) (rating : Value) :
    unanswered (s.assess held e t x rating) = s.write (e.rate held t x rating) := by
  simp only [assess, Edit.rate, write]
  obtain ⟨fault | _, s'⟩ := s.updateEntity held.id t x.id [((e.slot held).toAttribute.name, rating)] <;> rfl

inductive Carried (s : Store) (held : Document) (e : Edit) : Except Abort EditOutcome × Store → Prop where
  | idle {r : Except Abort EditOutcome} {s' : Store} (none : e.write? held = none) (failing : Failing r)
      (same : s'.quiet = s.quiet) : Carried s held e (r, s')
  | refused {w : Write} {fault : StoreFault} {r : Except Abort EditOutcome} {s' : Store}
      (call : e.write? held = some w) (rejected : (s.write w).1 = .error fault) (failing : Failing r)
      (same : s'.quiet = (s.write w).2.quiet) : Carried s held e (r, s')
  | applied {w : Write} {id : Option Identifier} {s' : Store} (call : e.write? held = some w)
      (accepted : (s.write w).1 = .ok ()) (same : s'.quiet = (s.write w).2.quiet) :
      Carried s held e (.ok ⟨e, .ok id⟩, s')

theorem settleCarries {s' : Store} {r : Except StoreFault (Option Identifier) × Store} (same : s'.quiet = s.quiet)
    (call : e.write? held = some w) (calls : unanswered r = s'.write w) : Carried s held e (settle held e r) := by
  obtain ⟨answer, store⟩ := writeAlike same w
  rw [← calls] at answer store
  obtain ⟨fault | id, s''⟩ := r
  · obtain ⟨failing, kept⟩ := settleFailing held e fault s''
    exact .refused call answer.symm failing (kept.trans store)
  · exact .applied call answer.symm store

theorem carried (s : Store) (held : Document) (e : Edit) : Carried s held e (s.applyEdit held e) := by
  have noted : (s.note (.applying held.id e.intent e.target)).quiet = s.quiet := rfl
  -- the journal has been written to already, so the call is made in a store that is alike, not in the same one
  unfold applyEdit
  generalize s.note (.applying held.id e.intent e.target) = s' at noted
  dsimp only
  split
  · rename_i lost
    exact .idle (by simp [Edit.write?, lost]) (failingFault e _) noted
  · rename_i r found
    split
    · rename_i t x rates
      split
      · rename_i unrated
        exact .idle (by simp [Edit.write?, found, rates, unrated]) (failingAbort _) noted
      · rename_i rating rated
        exact settleCarries noted (by simp [Edit.write?, found, rates, rated]) (assessWrites s' held e t x rating)
    · rename_i other
      exact settleCarries noted (by simp only [Edit.write?, found]) (performWrites s' held e _)

end Store
end SafetyCase
