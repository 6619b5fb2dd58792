import Mathlib
import SafetyCase.Proofs.Revisions
/-! Commands that modify. Such a command makes the same revision of a case however often it is repeated and whatever
was modified before it, for it is resolved by the outline of the case alone. Repeating it therefore changes nothing
more, and of two that set no field in common either may come first; reading the case again in between makes no
difference. -/
namespace SafetyCase

namespace Edit

variable {d : Document} {t : EntityType} {e : Edit}

def revision? (d : Document) (e : Edit) : Option Revision :=
  match e.write? d with
  | some (.update _ t x changes) => some ⟨t, x, t.assignments changes⟩
  | _ => none

def fields (d : Document) (e : Edit) : List (EntityType × Identifier × Field) :=
  ((e.revision? d).map Revision.fields).getD []

inductive Modifies (d : Document) : Option Write → Option Revision → Prop where
  | lost : Modifies d none none
  | revises {r : Revision} {changes : List (String × Value)} (formed : r.Formed)
      (known : ∀ c ∈ changes, (r.type.attribute? c.1).isSome = true)
      (inside : ∃ x ∈ d.collection r.type, x.id = r.entity) (assigns : r.assignments = r.type.assignments changes) :
      Modifies d (some (.update d.id r.type r.entity changes)) (some r)

theorem fillsFormed {cs : List (Attribute × Json)} {given : List (String × Json)} {entity : Identifier}
    (read : readForm t.form given = .ok cs) : Revision.Formed ⟨t, entity, cs.map fun c => (c.1, Value.data c.2)⟩ := by
  have once : (t.form.map (·.sets)).Nodup := by cases t <;> decide
  refine ⟨?_, fun c listed => ?_⟩
  · rw [List.map_map]
    exact once.sublist (readFormRow read)
  · obtain ⟨f, inside, rfl⟩ := List.mem_map.mp listed
    refine iff_of_false ?_ (by simp)
    rintro ⟨slot, same⟩
    exact formUnrated t slot f.1 (readFormNames read f inside) (congrArg Attribute.name same)

theorem fillsModifies {x : Entity} {cs : List (Attribute × Json)} {given : List (String × Json)}
    (read : readForm t.form given = .ok cs) (payload : e.payload = some (.fields t cs)) (inside : x ∈ d.collection t) :
    Modifies d (some (.update d.id t x.id e.values)) (some ⟨t, x.id, t.assignments e.values⟩) := by
  have spelt : e.values = (cs.map fun c => (c.1, Value.data c.2)).map fun c => (c.1.name, c.2) := by
    simp [values, changes, payload, Payload.changes, Function.comp_def]
  have known : ∀ c ∈ cs.map (fun c => (c.1, Value.data c.2)), (t.attribute? c.1.name).isSome = true := by
    intro c listed
    obtain ⟨f, member, rfl⟩ := List.mem_map.mp listed
    exact formKnown t f.1 (readFormNames read f member)
  have assigned := EntityType.assignmentsNamed known
  refine .revises (r := ⟨t, x.id, _⟩) ?_ ?_ ⟨x, inside, rfl⟩ rfl
  · rw [spelt, assigned]
    exact fillsFormed read
  · rw [spelt]
    exact List.forall_mem_map.mpr known

theorem ratesModifies {x : Entity} (slot : RatingSlot) (rating : Rating) (inside : x ∈ d.hazards) :
    Modifies d (some (.update d.id .hazard x.id [(slot.toAttribute.name, .rating rating)]))
      (some ⟨.hazard, x.id, EntityType.hazard.assignments [(slot.toAttribute.name, .rating rating)]⟩) := by
  have known : ∀ c ∈ [(slot.toAttribute, Value.rating rating)],
      (EntityType.hazard.attribute? c.1.name).isSome = true := by
    simpa using ratingKnown slot
  have assigned : EntityType.hazard.assignments [(slot.toAttribute.name, .rating rating)] =
      [(slot.toAttribute, .rating rating)] := EntityType.assignmentsNamed known
  refine .revises (r := ⟨.hazard, x.id, _⟩) ?_ ?_ ⟨x, inside, rfl⟩ rfl
  · rw [assigned]
    exact ⟨by simp, by simp⟩
  · simpa using ratingKnown slot

theorem modifies (made : Draft.Made d.kind e) (intent : e.intent = .modify) :
    Modifies d (e.write? d) (e.revision? d) := by
  have fits := Draft.madeFits made
  unfold revision?
  cases done : d.resolve e with
  | error fault =>
    simp only [write?, done]
    exact .lost
  | ok resolution =>
    cases Document.resolved done with
    | placed _ _ other => simp [intent] at other
    | ordered _ _ other => simp [intent] at other
    | @existing t x plain type _ inside =>
      have inside := Document.designatedInside (Document.existingDesignated type inside)
      have call : e.write? d = some (.update d.id t x.id e.values) := by
        rw [Store.callOf plain done, write, if_neg (by simp [intent])]
      rw [call]
      cases fits with
      | rates rates | unrates rates => exact absurd rates plain
      | deletes _ _ other | orders _ _ other => simp [intent] at other
      | fills _ same _ read payload =>
        cases type.symm.trans same
        exact fillsModifies read payload inside
    | @assessed t x rates type inside =>
      obtain rfl := fitHazard fits type rates
      have inside := Document.foundInside inside
      rw [← Document.assessedType rates type] at inside
      cases fits with
      | unrates _ _ other => simp [intent] at other
      | fills plain | deletes plain | orders plain => exact absurd rates plain
      | @rates a _ _ _ payload =>
        have call : e.write? d = some (e.rate d .hazard x (.rating a.rating)) := by
          simp [write?, done, rates, newRating?, intent, payload]
        rw [call]
        exact ratesModifies (e.slot d) a.rating inside

theorem revisionFormed {r : Revision} (made : Draft.Made d.kind e) (intent : e.intent = .modify)
    (revision : e.revision? d = some r) : r.Formed := by
  have form := modifies made intent
  rw [revision] at form
  generalize e.write? d = call at form
  cases form with
  | revises formed => exact formed

theorem revisionOutline (intent : e.intent = .modify) {d d' : Document} (same : d'.outline = d.outline) :
    e.revision? d' = e.revision? d := by
  unfold revision?
  rw [← writeOutline intent d', same, writeOutline intent d]

end Edit

namespace Document

variable {d : Document}

def modified (d : Document) (edits : List Edit) : Document := edits.foldl (fun c e => c.revised (e.revision? c)) d

theorem revisedOutline (d : Document) (r : Option Revision) : (d.revised r).outline = d.outline := by
  cases r with
  | none => rfl
  | some r => exact reviseOutline d r

theorem revisedUndated (d : Document) (r : Option Revision) : (d.revised r).undated = d.undated.revised r := by
  cases r with
  | none => rfl
  | some r =>
    obtain ⟨t, x, cs⟩ := r
    cases t <;> rfl

theorem modifiedOutline (d : Document) (edits : List Edit) : (d.modified edits).outline = d.outline := by
  induction edits generalizing d with
  | nil => rfl
  | cons e rest ih => exact (ih _).trans (revisedOutline d _)

theorem modifiedTwice {e : Edit} (made : Draft.Made d.kind e) (intent : e.intent = .modify) :
    d.modified [e, e] = d.modified [e] := by
  have again := Edit.revisionOutline intent (d.revisedOutline (e.revision? d))
  change (d.revised _).revised _ = d.revised _
  rw [again]
  cases revision : e.revision? d with
  | none => rfl
  | some r => exact reviseTwice (Edit.revisionFormed made intent revision)

theorem modifiedCommute {a b : Edit} (made : Draft.Made d.kind a) (intent : a.intent = .modify)
    (made' : Draft.Made d.kind b) (intent' : b.intent = .modify) (disjoint : (a.fields d).Disjoint (b.fields d)) :
    d.modified [a, b] = d.modified [b, a] := by
  have later := Edit.revisionOutline intent (d.revisedOutline (b.revision? d))
  have later' := Edit.revisionOutline intent' (d.revisedOutline (a.revision? d))
  change (d.revised _).revised _ = (d.revised _).revised _
  rw [later, later']
  unfold Edit.fields at disjoint
  cases one : a.revision? d with
  | none => rfl
  | some r =>
    cases two : b.revision? d with
    | none => rfl
    | some s =>
      rw [one, two] at disjoint
      exact reviseCommute (Edit.revisionFormed made intent one) (Edit.revisionFormed made' intent' two) disjoint

theorem outlineOfUndated {c : Document} (same : c.undated = d.undated) : c.outline = d.outline := by
  change c.undated.outline = d.undated.outline
  rw [same]

theorem modifiedUndated {edits : List Edit} (modify : ∀ e ∈ edits, e.intent = .modify) (d : Document) :
    (d.modified edits).undated = d.undated.modified edits := by
  induction edits generalizing d with
  | nil => rfl
  | cons e rest ih =>
    obtain ⟨intent, later⟩ := List.forall_mem_cons.mp modify
    have same : e.revision? d.undated = e.revision? d := Edit.revisionOutline intent rfl
    simp only [modified, List.foldl_cons] at ih ⊢
    rw [ih later, revisedUndated, same]

end Document

namespace Store

variable {s : Store} {h c : Document} {e : Edit}

theorem reviseLands {r : Revision} {changes : List (String × Value)} (found : s.find? h.id = some c)
    (known : ∀ c ∈ changes, (r.type.attribute? c.1).isSome = true) (inside : ∃ x ∈ c.collection r.type, x.id = r.entity)
    (assigns : r.assignments = r.type.assignments changes) :
    (s.write (.update h.id r.type r.entity changes)).1 = .ok () ∧ ∃ c',
      (s.write (.update h.id r.type r.entity changes)).2.find? h.id = some c' ∧ c'.undated = (c.revise r).undated := by
  obtain ⟨x, inside, named⟩ := inside
  obtain ⟨y, member⟩ := Document.findInside inside
  rw [named] at member
  have goes := (updateGoes found changes).mpr ⟨y, member, Entity.patchEnds known y⟩
  obtain ⟨y', member', lands⟩ := updateLands found goes
  refine ⟨goes, _, lands, ?_⟩
  have same : c.modifyEntity r.type r.entity (fun _ => (y'.patch r.type changes).1) = c.revise r := by
    rw [Entity.patchAssigned, ← assigns, Document.modifyEntity,
      Document.modifyFirstFound (f := fun x => x.assigned r.assignments) member']
    rfl
  rw [same]
  rfl

theorem modifyLands (found : s.find? h.id = some c) (alike : c.outline = h.outline) (made : Draft.Made h.kind e)
    (intent : e.intent = .modify) : ∃ o c', (s.applyEdit h e).1 = .ok o ∧ (s.applyEdit h e).2.find? h.id = some c' ∧
      c'.undated = (c.revised (e.revision? h)).undated := by
  have executable := Draft.madeExecutable made
  obtain ⟨o, done⟩ := (editReturns found e).resolve_right fun ⟨rates, unrated, _⟩ => by
    simpa [unrated] using executable.rates rates
  have call := Edit.modifies made intent
  have form := carried s h e
  generalize s.applyEdit h e = r at done form
  generalize asked : e.write? h = w at call
  generalize e.revision? h = revision at call
  cases call with
  | lost =>
    cases form with
    | idle _ _ same => exact ⟨o, c, done, (findSame (casesOfQuiet same) _).trans found, rfl⟩
    | refused call | applied call => cases asked.symm.trans call
  | @revises r changes formed known inside assigns =>
    have inside : ∃ x ∈ c.collection r.type, x.id = r.entity := by
      obtain ⟨x, inside, named⟩ := inside
      have outline := congrArg (Document.collection · r.type) alike
      simp only [Document.collectionOutline] at outline
      obtain ⟨y, inside, same⟩ := List.mem_map.mp (outline ▸ List.mem_map_of_mem inside)
      exact ⟨y, inside, by rw [← Entity.idOutline, same, Entity.idOutline, named]⟩
    obtain ⟨goes, c', lands, same'⟩ := reviseLands found known inside assigns
    cases form with
    | idle none => cases asked.symm.trans none
    | refused call rejected =>
      cases asked.symm.trans call
      cases goes.symm.trans rejected
    | applied call _ same =>
      cases asked.symm.trans call
      exact ⟨o, c', done, (findSame (casesOfQuiet same) _).trans lands, same'⟩

theorem modifiesRun {edits : List Edit} (modify : ∀ e ∈ edits, Draft.Made h.kind e ∧ e.intent = .modify)
    (found : s.find? h.id = some c) (alike : c.outline = h.outline) :
    ∃ os c', (s.applyEdits h edits).1 = .ok os ∧ (s.applyEdits h edits).2.find? h.id = some c' ∧
      c'.undated = (c.modified edits).undated := by
  induction edits generalizing s c with
  | nil => exact ⟨[], c, rfl, found, rfl⟩
  | cons e rest ih =>
    obtain ⟨⟨made, intent⟩, later⟩ := List.forall_mem_cons.mp modify
    have intents : ∀ e ∈ rest, e.intent = .modify := fun e listed => (later e listed).2
    obtain ⟨o, c₁, done, found₁, same₁⟩ := modifyLands found alike made intent
    rw [← Edit.revisionOutline intent alike] at same₁
    have alike₁ : c₁.outline = h.outline :=
      (Document.outlineOfUndated same₁).trans ((Document.revisedOutline c _).trans alike)
    obtain ⟨os, c₂, rested, found₂, same₂⟩ := ih later found₁ alike₁
    have same : c₂.undated = (c.modified (e :: rest)).undated := by
      rw [same₂, Document.modifiedUndated intents, same₁, ← Document.modifiedUndated intents]
      rfl
    simp only [applyEdits]
    generalize s.applyEdit h e = r at done rested found₂
    obtain ⟨_, s₁⟩ := r
    cases done
    dsimp only at rested found₂ ⊢
    generalize s₁.applyEdits h rest = r at rested found₂
    obtain ⟨_, s₂⟩ := r
    cases rested
    exact ⟨_, c₂, rfl, found₂, same⟩

end Store

namespace Desk

variable {k : Desk} {d h : Document} {b : Envelope}

/-- What an editor has before it: a copy with the outline of the case, and the case itself. -/
structure Shows (k : Desk) (d : Document) : Prop where
  held : ∃ h, k.session.document = some h ∧ h.outline = d.outline
  stored : ∃ c, k.store.find? d.id = some c ∧ c.undated = d.undated

theorem Shows.same (shows : k.Shows d) {k' : Desk} (session : k'.session.document = k.session.document)
    (cases : k'.store.cases = k.store.cases) : k'.Shows d :=
  ⟨session ▸ shows.held, (Store.findSame cases d.id).symm ▸ shows.stored⟩

theorem Shows.reload (shows : k.Shows d) (opened : k.session.document = some h) {c : Document}
    (read : k.store.get h.id = .ok c) {s : Session} (session : s.document = some c) :
    ({ k with session := s } : Desk).Shows d := by
  obtain ⟨h', opened', alike⟩ := shows.held
  cases opened.symm.trans opened'
  obtain ⟨c', found, same⟩ := shows.stored
  have named := Document.idOfOutline alike
  cases found.symm.trans (named ▸ Store.getFound read)
  exact ⟨⟨c, session, Document.outlineOfUndated same⟩, shows.stored⟩

theorem refreshShows (shows : k.Shows d) : k.refresh.2.Shows d := by
  have form := refreshed k
  generalize k.refresh = r at form
  cases form with
  | closed => exact shows
  | unread => exact shows.same rfl rfl
  | ungated opened read | loaded opened read => exact shows.reload opened read rfl

theorem appliedShows {cs : List Command} (opened : k.session.document = some h) (shows : k.Shows d)
    (modify : ∀ e ∈ cs.flatMap Command.leaves, Draft.Made d.kind e ∧ e.intent = .modify)
    (summary : Option String) (rejected : List Rejection) :
    (k.applyAccepted h summary ⟨cs, rejected⟩).2.Shows (d.modified (cs.flatMap Command.leaves)) := by
  obtain ⟨h', opened', alike⟩ := shows.held
  cases opened.symm.trans opened'
  obtain ⟨c, found, same⟩ := shows.stored
  have named := Document.idOfOutline alike
  have captured : (k.capture h summary).store.find? h.id = some c := by
    rw [Store.findSame (casesCapture k h summary), named, found]
  obtain ⟨os, c', done, lands, same'⟩ := Store.modifiesRun (h := h) (by rwa [Document.kindOfOutline alike]) captured
    ((Document.outlineOfUndated same).trans alike.symm)
  rw [Store.commandsAsEdits] at done lands
  obtain ⟨outcomes, applied, -⟩ := okOfMap done
  have after (s : Store) (lands : s.find? h.id = some c') :
      Shows { k.capture h summary with store := s } (d.modified (cs.flatMap Command.leaves)) := by
    refine ⟨⟨h, by simpa using opened, alike.trans (Document.modifiedOutline d _).symm⟩, c', ?_, ?_⟩
    · rw [Document.idOfOutline (Document.modifiedOutline d _), ← named]
      exact lands
    · have intents : ∀ e ∈ cs.flatMap Command.leaves, e.intent = .modify := fun e listed => (modify e listed).2
      rw [same', Document.modifiedUndated intents, same, Document.modifiedUndated intents]
  unfold applyAccepted
  dsimp only at lands applied ⊢
  generalize (k.capture h summary).store.applyCommands h cs = r at lands applied
  obtain ⟨_, s⟩ := r
  cases applied
  have again := refreshShows (after s lands)
  unfold afterRefresh
  dsimp only
  generalize Desk.refresh _ = r at again
  obtain ⟨failure | fresh, k'⟩ := r
  · exact again
  · exact again.same rfl rfl

theorem pathLimit {k' : Desk} (path : Path k k') : k'.session.limit = k.session.limit := by
  induction path with
  | refl => rfl
  | tail _ last ih =>
    rcases last with stage | shift
    · cases stage <;> exact ih
    · cases shift with
      | captured => simpa using ih
      | cleared | turned => exact ih

theorem batchShows (shows : k.Shows d) {raws : List Json} {cs : List Command}
    (accepted : (validateBatch d.kind k.session.limit raws).accepted = cs)
    (modify : ∀ c ∈ cs, c.intent = .modify ∧ c.target ≠ .multiple) :
    (k.perform (.batch { commands := raws })).Shows (d.modified (cs.map (·.toEdit))) := by
  obtain ⟨h, opened, alike⟩ := shows.held
  have leaves : cs.flatMap Command.leaves = cs.map (·.toEdit) := by
    rw [List.map_eq_flatMap]
    exact List.flatMap_congr fun c listed => by simp [Command.leaves, (modify c listed).2]
  have check : (k.check h { commands := raws }).accepted = cs := by
    rw [Desk.check, Document.kindOfOutline alike, accepted]
  have tells : asksBack { commands := raws } (k.check h { commands := raws }) = false := by
    simp only [asksBack, check, Bool.false_or, List.any_eq_false]
    exact fun c listed => by simp [Command.isClarification, (modify c listed).1]
  have form := batch k { commands := raws }
  simp only [perform]
  generalize k.applyBatch { commands := raws } = r at form
  cases form with
  | closed shut => simp [opened] at shut
  | idle n here _ idles =>
    cases opened.symm.trans here
    have none : cs = [] := by simpa [captures, opened, tells, check] using idles
    subst none
    exact shows.same rfl rfl
  | applied here =>
    cases opened.symm.trans here
    have made : ∀ e ∈ cs.flatMap Command.leaves, Draft.Made d.kind e := by
      rw [← check, ← Document.kindOfOutline alike]
      exact batchMade tells
    generalize k.check h { commands := raws } = verdict at check
    obtain ⟨kept, rejected⟩ := verdict
    obtain rfl : kept = cs := check
    rw [← leaves]
    refine appliedShows opened shows (fun e listed => ⟨made e listed, ?_⟩) none rejected
    rw [leaves] at listed
    obtain ⟨c, inside, rfl⟩ := List.mem_map.mp listed
    exact (modify c inside).1

end Desk

structure Modification (k : Kind) (raw : Json) (c : Command) : Prop where
  valid : validate k raw = .ok c
  intent : c.intent = .modify
  single : c.target ≠ .multiple

theorem Modification.made {k : Kind} {raw : Json} {c : Command} (m : Modification k raw c) : Draft.Made k c.toEdit :=
  validatedMade m.valid (by simp [Command.isClarification, m.intent]) _ (by simp [Command.leaves, m.single])

namespace BatchCheck

theorem roomy {limit : Option Int} {n m : Nat} (room : isFull limit n = false) (le : m ≤ n) :
    isFull limit m = false := by
  cases limit with
  | none => rfl
  | some most =>
    simp only [isFull, decide_eq_false_iff_not] at room ⊢
    omega

def kept (limit : Option Int) : Nat → List α → List α
  | _, [] => []
  | count, a :: rest => if isFull limit count then [] else a :: kept limit (count + 1) rest

theorem keptFull {limit : Option Int} {count : Nat} (full : isFull limit count = true) (batch : List α) :
    kept limit count batch = [] := by
  cases batch <;> simp [kept, full]

theorem scannedKept {k : Kind} {limit : Option Int} (index count : Nat) {batch : List (Json × Command)}
    (valid : ∀ p ∈ batch, validate k p.1 = .ok p.2) :
    (scan k limit index count (batch.map (·.1))).accepted = (kept limit count batch).map (·.2) := by
  induction batch generalizing index count with
  | nil => rfl
  | cons p rest ih =>
    obtain ⟨valid, others⟩ := List.forall_mem_cons.mp valid
    cases full : isFull limit count with
    | true => simp [scan, full, ih (index + 1) count others, keptFull full]
    | false => simp [scan, kept, full, valid, ih (index + 1) (count + 1) others]

theorem keptSubset {limit : Option Int} {count : Nat} {batch : List α} {p : α} (listed : p ∈ kept limit count batch) :
    p ∈ batch := by
  induction batch generalizing count with
  | nil => exact listed
  | cons first rest ih =>
    simp only [kept] at listed
    split at listed
    · contradiction
    · rcases List.mem_cons.mp listed with rfl | later
      · exact List.mem_cons_self
      · exact List.mem_cons_of_mem _ (ih later)

end BatchCheck

namespace Office

variable {o : Office} {session slot : Nat} {d : Document}

def batched (o : Office) (session slot : Nat) (batches : List (List Json)) : Office :=
  batches.foldl (fun o raws => o.step (.turn session slot (.batch { commands := raws }))) o

/-- A case as it is stored then, but for the moment of its last change. -/
def content (o : Office) (session slot : Nat) (d : Document) (batches : List (List Json)) : Option Document :=
  ((o.batched session slot batches).store.find? d.id).map Document.undated

theorem deskTurned (op : Desk.Op) : (o.step (.turn session slot op)).desk session slot =
    (o.desk session slot).perform op := by
  simp [step, settle, desk]

theorem batchedContent {sent : List (List (Json × Command))} (shows : (o.desk session slot).Shows d)
    (modify : ∀ batch ∈ sent, ∀ p ∈ batch, Modification d.kind p.1 p.2) :
    o.content session slot d (sent.map (·.map (·.1))) =
      some (d.modified ((sent.flatMap (BatchCheck.kept (o.sessions session).limit 0)).map (·.2.toEdit))).undated := by
  induction sent generalizing o d with
  | nil =>
    obtain ⟨c, found, same⟩ := shows.stored
    change ((o.desk session slot).store.find? d.id).map Document.undated = some d.undated
    rw [found, Option.map_some, same]
  | cons batch rest ih =>
    obtain ⟨first, others⟩ := List.forall_mem_cons.mp modify
    have accepted : (validateBatch d.kind (o.sessions session).limit (batch.map (·.1))).accepted =
        (BatchCheck.kept (o.sessions session).limit 0 batch).map (·.2) :=
      BatchCheck.scannedKept 0 0 fun p listed => (first p listed).valid
    have modifies : ∀ c ∈ (BatchCheck.kept (o.sessions session).limit 0 batch).map (·.2),
        c.intent = .modify ∧ c.target ≠ .multiple :=
      List.forall_mem_map.mpr fun p listed =>
        ⟨(first p (BatchCheck.keptSubset listed)).intent, (first p (BatchCheck.keptSubset listed)).single⟩
    have shown := Desk.batchShows shows accepted modifies
    rw [← deskTurned] at shown
    have outline := Document.modifiedOutline d
      (((BatchCheck.kept (o.sessions session).limit 0 batch).map (·.2)).map (·.toEdit))
    have limit : ((o.step (.turn session slot (.batch { commands := batch.map (·.1) }))).sessions session).limit =
        (o.sessions session).limit := by
      have kept := Desk.pathLimit (Desk.performPath (o.desk session slot) (.batch { commands := batch.map (·.1) })).2
      rw [← deskTurned] at kept
      exact kept
    have next := ih shown (by rwa [Document.kindOfOutline outline])
    rw [content, Document.idOfOutline outline, limit] at next
    rw [List.map_map] at next
    rw [List.flatMap_cons, List.map_append, Document.modified, List.foldl_append]
    exact next

theorem modifyLaws (current : o.Current session d) (slot : Nat) {first second : Json} {a b : Command}
    (one : Modification d.kind first a) (two : Modification d.kind second b) :
    (∃ c, o.content session slot d [[first]] = some c ∧ o.content session slot d [[first, first]] = some c ∧
      o.content session slot d [[first], [first]] = some c) ∧
    ((a.toEdit.fields d).Disjoint (b.toEdit.fields d) → ∃ c,
      o.content session slot d [[first], [second]] = some c ∧ o.content session slot d [[second], [first]] = some c ∧
      (BatchCheck.isFull (o.sessions session).limit 1 = false →
        o.content session slot d [[first, second]] = some c ∧
        o.content session slot d [[second, first]] = some c)) := by
  have shows : (o.desk session slot).Shows d := ⟨⟨d, current.cached, rfl⟩, d, current.stored, rfl⟩
  have run (sent : List (List (Json × Command)))
      (own : ∀ batch ∈ sent, ∀ p ∈ batch, p = (first, a) ∨ p = (second, b)) :
      o.content session slot d (sent.map (·.map (·.1))) =
        some (d.modified ((sent.flatMap (BatchCheck.kept (o.sessions session).limit 0)).map (·.2.toEdit))).undated :=
    batchedContent shows fun batch listed p member => by rcases own batch listed p member with rfl | rfl <;> assumption
  generalize (o.sessions session).limit = limit at run ⊢
  have again := congrArg (fun c => some c.undated) (Document.modifiedTwice one.made one.intent)
  have swapped (disjoint : (a.toEdit.fields d).Disjoint (b.toEdit.fields d)) := congrArg (fun c => some c.undated)
    (Document.modifiedCommute two.made two.intent one.made one.intent disjoint.symm)
  cases full : BatchCheck.isFull limit 0 with
  | true =>
    -- nothing is let through at all
    have none (batches : List (List (Json × Command))) : batches.flatMap (BatchCheck.kept limit 0) = [] := by
      simp [BatchCheck.keptFull full]
    refine ⟨⟨_, run [[(first, a)]] (by simp), ?_, ?_⟩, fun _ =>
      ⟨_, run [[(first, a)], [(second, b)]] (by simp), ?_, ?_⟩⟩
    · exact (run [[(first, a), (first, a)]] (by simp)).trans (by rw [none, none])
    · exact (run [[(first, a)], [(first, a)]] (by simp)).trans (by rw [none, none])
    · exact (run [[(second, b)], [(first, a)]] (by simp)).trans (by rw [none, none])
    · intro room
      cases full.symm.trans (BatchCheck.roomy room (Nat.zero_le 1))
  | false =>
    refine ⟨⟨_, run [[(first, a)]] (by simp), (run [[(first, a), (first, a)]] (by simp)).trans ?_, ?_⟩, fun disjoint =>
      ⟨_, run [[(first, a)], [(second, b)]] (by simp), ?_, fun room => ⟨?_, ?_⟩⟩⟩
    · cases narrow : BatchCheck.isFull limit 1 with
      | true => simp [BatchCheck.kept, full, narrow]
      | false => simpa [BatchCheck.kept, full, narrow] using again
    · exact (run [[(first, a)], [(first, a)]] (by simp)).trans (by simpa [BatchCheck.kept, full] using again)
    · exact (run [[(second, b)], [(first, a)]] (by simp)).trans
        (by simpa [BatchCheck.kept, full] using swapped disjoint)
    · exact (run [[(first, a), (second, b)]] (by simp)).trans (by simp [BatchCheck.kept, full, room])
    · exact (run [[(second, b), (first, a)]] (by simp [or_comm])).trans
        (by simpa [BatchCheck.kept, full, room] using swapped disjoint)

def severityRaw : Json :=
  worded "MODIFY" "ASSESSMENT" [("hazardIndex", .int 0), ("stepIndex", .int 0)] [("severity", .text "A")]

def likelihoodRaw : Json :=
  worded "UPDATE" "ASSESSMENT" [("hazardIndex", .int 0), ("stepIndex", .int 0)] [("likelihood", .text "1")]

def rated (a : Assessment) : Command :=
  .single { intent := .modify, target := .assessment, location := { hazardIndex := some 0, stepIndex := some 0 },
            payload := some (.assessment a) }

theorem modifyLawsAxes : ∃ d c, assessed.Current 0 d ∧
    Modification d.kind severityRaw (rated { severity := some .A }) ∧
    Modification d.kind likelihoodRaw (rated { likelihood := some .certain }) ∧
    assessed.content 0 0 d [[severityRaw, likelihoodRaw]] = some c ∧
    assessed.content 0 0 d [[likelihoodRaw], [severityRaw]] = some c ∧
    c.hazards.map (·.rating? .baseline) = [some ⟨some .A, some .certain, some .extreme⟩] := by
  obtain ⟨d, current, found, kind, -⟩ := currentAssessed
  have one : Modification d.kind severityRaw (rated { severity := some .A }) :=
    ⟨by rw [kind]; decide +kernel, rfl, by decide⟩
  have two : Modification d.kind likelihoodRaw (rated { likelihood := some .certain }) :=
    ⟨by rw [kind]; decide +kernel, rfl, by decide⟩
  have fields : (assessed.store.find? (.numbered 1)).map (fun d => ((rated { severity := some .A }).toEdit.fields d,
      (rated { likelihood := some .certain }).toEdit.fields d)) = some ([(.hazard, .numbered 3, .severity .baseline)],
      [(.hazard, .numbered 3, .likelihood .baseline)]) := by cbv
  have ratings : (assessed.store.find? (.numbered 1)).bind (fun d =>
      (assessed.content 0 0 d [[severityRaw, likelihoodRaw]]).map fun c => c.hazards.map (·.rating? .baseline)) =
      some [some ⟨some .A, some .certain, some .extreme⟩] := by cbv
  simp only [found, Option.map_some, Option.some.injEq, Prod.mk.injEq, Option.bind_some] at fields ratings
  obtain ⟨c, -, apart, batched⟩ := (modifyLaws current 0 one two).2 (by simp [fields])
  obtain ⟨together, -⟩ := batched (by cbv)
  rw [together, Option.map_some, Option.some.injEq] at ratings
  exact ⟨d, c, current, one, two, together, apart, ratings⟩

end Office
end SafetyCase
