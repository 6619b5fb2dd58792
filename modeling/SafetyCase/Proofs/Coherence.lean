import SafetyCase.Proofs.Endings
import SafetyCase.Proofs.Office
import SafetyCase.Web.Service
/-! Sessions of the service and the stored cases. For every session one listens to what its operations tell since
its case was last read. As long as none of them failed to read it, the session's document is the stored one,
and its gate stands at the stored phase unless a move was kept by the gate alone. Parts of the store go out of order, or
come back, between any two requests and within each of them. Once a case has been reached, an operation asks at most
once for a replacement or for a phase, and at most once, at its end, for the case again; so any moment at which a
call may fail is met by an outage that changes once, when the case has been reached. -/
namespace SafetyCase

theorem Registry.lookupOther {id other : Identifier} (session : Session) (entries : List (Identifier × Session))
    (apart : other ≠ id) : (file id session entries).lookup other = entries.lookup other := by
  have differs : (other == id) = false := by simpa using apart
  induction entries with
  | nil => simp [file, List.lookup_cons, differs]
  | cons entry rest ih =>
    obtain ⟨key, held⟩ := entry
    simp only [file]
    split
    · rename_i same
      cases same
      simp [List.lookup_cons, differs]
    · rw [List.lookup_cons, List.lookup_cons, ih]

theorem Store.Sound.gated {kinds : Identifier → Kind} {s : Store} {id : Identifier} {d : Document} {fault : GateFault}
    (sound : s.Sound kinds) (found : s.find? id = some d) : PhaseGate.forDocument d ≠ .error fault := by
  obtain ⟨gate, opens⟩ := PhaseGate.opens (sound d (foundStored found).1).phase
  simp [opens]

namespace Web

def Call.visit? : Call → Option (Identifier × Option Desk.Op)
  | .applyBatch id envelope => some (id, some (.batch envelope))
  | .applyCommand id raw => some (id, some (.batch { commands := [raw] }))
  | .undo id => some (id, some .undo)
  | .reorder id target ids location => some (id, some (.reorder target ids location))
  | .advance id => some (id, some .advance)
  | .jump id phase => some (id, some (.jump phase))
  | .undoStatus id | .phases id => some (id, none)
  | .health | .createCase _ _ | .listCases | .getCase _ => none

def Request.call? (r : Request) : Option Call := do
  let route ← Route.ofPath? (pathOf r.target)
  let endpoint ← route.endpoint? r.method
  (endpoint.call (route.id?.getD "") r.body).toOption

def Request.visited? (r : Request) : Option Identifier := (r.call?.bind Call.visit?).map (·.1)

namespace Service

def work (k : Desk) : Option Desk.Op → Desk
  | none => k
  | some op => k.perform op

def visit (v : Service) (id : Identifier) (op : Option Desk.Op) : Service :=
  match v.registry.reach v.store id with
  | (.error _, registry, store) => { v with registry, store }
  | (.ok k, registry, _) => { v with store := (work k op).store, registry := registry.settle id (work k op) }

/-- The service when the case has been reached, and other parts of its store are out of order from now on. -/
def interrupt (v : Service) (id : Identifier) (parts : Outage) : Service :=
  match v.registry.reach v.store id with
  | (.error _, _) => v
  | (.ok k, registry, _) => { v with store := { k.store with outage := parts }, registry := registry.settle id k }

def answerAmid (v : Service) (r : Request) (amid : Outage) : Response × Service :=
  match r.visited? with
  | none => v.answer r
  | some id => (v.interrupt id amid).answer r

def since (k : Desk) (heard : List Signal) : Option Desk.Op → List Signal
  | none => heard
  | some op => if k.signal op = .reread then [] else k.signal op :: heard

def hear (v : Service) (id : Identifier) (op : Option Desk.Op) (heard : List Signal) : List Signal :=
  match v.registry.reach v.store id with
  | (.error _, _) => heard
  | (.ok k, _) => since k (if (v.registry.session? id).isSome then heard else []) op

variable {v : Service}

theorem onCaseVisits {id : Identifier} {op : Option Desk.Op} {run : Desk → Except Failure Json × Desk}
    (runs : ∀ k, (run k).2 = work k op) : (v.onCase id run).2 = v.visit id op := by
  unfold onCase visit
  obtain ⟨failure | k, registry, store⟩ := v.registry.reach v.store id
  · rfl
  · dsimp only
    rw [runs]

theorem reorderShown (k : Desk) (target : Target) (ids : List String) (location : Location) :
    (reorderAndShow k target ids location).2 = (k.reorder target ids location).2 := by
  unfold reorderAndShow
  split
  · rename_i same
    rw [same]
  · rename_i same
    rw [same]
    split <;> rfl

theorem serveVisits {call : Call} {id : Identifier} {op : Option Desk.Op} (visits : call.visit? = some (id, op)) :
    (v.serve call).2 = v.visit id op := by
  cases call <;> cases visits <;> refine onCaseVisits fun k => ?_
  case reorder target ids location => exact reorderShown k target ids location
  all_goals rfl

theorem serveStays {call : Call} (stays : call.visit? = none) :
    (v.serve call).2 = v ∨ ∃ kind title n, (v.serve call).2 =
      { v with store := (v.store.createCase kind title).2.note n } := by
  cases call with
  | createCase kind title =>
    simp only [serve, Store.startCase]
    split
    · rename_i same
      split at same <;> cases same
      exact .inl rfl
    · rename_i same
      split at same <;> cases same
      exact .inr ⟨_, _, _, rfl⟩
  | getCase id =>
    simp only [serve]
    split <;> exact .inl rfl
  | health => exact .inl rfl
  | listCases => exact .inl rfl
  | _ => contradiction

theorem answerServes (v : Service) (r : Request) :
    (v.answer r).2 = match r.call? with
      | none => v
      | some call => (v.serve call).2 := by
  unfold answer Request.call?
  dsimp only
  cases Route.ofPath? (pathOf r.target) with
  | none => rfl
  | some route =>
    dsimp only
    cases found : route.endpoint? r.method with
    | none => simp [found]
    | some endpoint =>
      cases read : endpoint.call (route.id?.getD "") r.body <;> simp [found, read, Except.toOption]

theorem answerStays {r : Request} (stays : r.call?.bind Call.visit? = none) :
    (v.answer r).2 = v ∨ ∃ kind title n, (v.answer r).2 =
      { v with store := (v.store.createCase kind title).2.note n } := by
  rw [answerServes]
  cases read : r.call? with
  | none => exact .inl rfl
  | some call =>
    rw [read, Option.bind_some] at stays
    exact serveStays stays

theorem answerVisits {r : Request} {id : Identifier} {op : Option Desk.Op}
    (visits : r.call?.bind Call.visit? = some (id, op)) : (v.answer r).2 = v.visit id op := by
  obtain ⟨call, read, visits⟩ := Option.bind_eq_some_iff.mp visits
  rw [answerServes, read]
  exact serveVisits visits

theorem interruptForm (v : Service) (id : Identifier) (parts : Outage) :
    (v.interrupt id parts = v ∧ ∀ heard, v.hear id none heard = heard) ∨
      v.interrupt id parts = { v.visit id none with store := { (v.visit id none).store with outage := parts } } := by
  unfold interrupt visit hear
  obtain ⟨failure | k, registry, store⟩ := v.registry.reach v.store id
  · exact .inl ⟨rfl, fun _ => rfl⟩
  · exact .inr rfl

theorem visitStays {call : Call} {id : Identifier} {op : Desk.Op} (visits : call.visit? = some (id, some op)) :
    op.stays = true := by
  cases call <;> cases visits <;> rfl

theorem requestStays {r : Request} {id : Identifier} {op : Option Desk.Op}
    (visits : r.call?.bind Call.visit? = some (id, op)) : ∀ o, op = some o → o.stays = true := by
  rintro o rfl
  obtain ⟨call, _, visits⟩ := Option.bind_eq_some_iff.mp visits
  exact visitStays visits

end Service

structure Watch where
  service : Service
  heard : Identifier → List Signal

namespace Watch

inductive Event where
  | request (r : Request) (amid : Outage)
  | clock (now : Moment)
  | outage (parts : Outage)

def step (w : Watch) : Event → Watch
  | .request r amid =>
    let service := (w.service.answerAmid r amid).2
    match r.call?.bind Call.visit? with
    | none => { w with service }
    | some (id, op) =>
      let reached := w.service.hear id none (w.heard id)
      ⟨service, Function.update w.heard id ((w.service.interrupt id amid).hear id op reached)⟩
  | .clock now => { w with service := { w.service with store := { w.service.store with now } } }
  | .outage parts => { w with service := { w.service with store := { w.service.store with outage := parts } } }

def run (w : Watch) (events : List Event) : Watch := events.foldl step w

def fresh (settings : Settings) (now : Moment) : Watch := ⟨(Service.start settings now).startup, fun _ => []⟩

/-- The session holds the case of its identifier: as it is stored, unless reading it failed, and with the gate at its
phase, unless the phase was kept from the store. -/
structure Follows (s : Store) (id : Identifier) (heard : List Signal) (session : Session) (held : Document) :
    Prop where
  opened : session.document = some held
  named : held.id = id
  current : .unread ∉ heard → s.find? id = some held
  gated : .unread ∉ heard → .kept ∉ heard → ∃ gate, session.gate = some gate ∧ gate.current = held.phase

structure Coherent (kinds : Identifier → Kind) (w : Watch) : Prop where
  stored : w.service.store.Sound kinds
  kept : ∀ held, w.service.registry.slot = some held → held.document.Sound kinds w.service.store.issued
  present : ∀ id session, w.service.registry.session? id = some session → ∃ d, w.service.store.find? id = some d
  follows : ∀ id session, w.service.registry.session? id = some session →
    ∃ held, held.Sound kinds w.service.store.issued ∧ Follows w.service.store id (w.heard id) session held

variable {kinds : Identifier → Kind} {w : Watch} {k : Desk} {id : Identifier} {heard : List Signal} {held : Document}

theorem loadedFollows {s : Store} {session : Session} {gate : PhaseGate} (sound : held.Sound kinds s.issued)
    (found : s.find? id = some held) (gated : PhaseGate.forDocument held = .ok gate)
    (opened : session.document = some held) (entered : session.gate = some gate) : Follows s id [] session held := by
  refine ⟨opened, (Store.foundStored found).2, fun _ => found, fun _ _ => ⟨gate, entered, ?_⟩⟩
  have named : held.phase ≠ "" := by
    intro blank
    have known := sound.phase
    rw [blank] at known
    revert known
    cases held.kind <;> decide
  rw [(PhaseGate.startForm gated).2, if_neg named]

theorem workFollows (sound : k.Sound kinds) (follows : Follows k.store id heard k.session held)
    (stored : ∃ d, k.store.find? id = some d) {op : Desk.Op} (stays : op.stays = true) :
    ∃ d, Follows (k.perform op).store id (Service.since k heard (some op)) (k.perform op).session d := by
  obtain ⟨opened, rfl, current, gated⟩ := follows
  obtain ⟨done, -⟩ := Desk.pathSound sound (Desk.performPath k op).2
  have touches := Desk.performTouches opened stays
  have ends := Desk.performEnds opened stored stays
  unfold Service.since
  dsimp only
  generalize k.signal op = signal at ends
  generalize k.perform op = k' at done touches ends
  cases ends with
  | silent cases session =>
    refine ⟨held, ⟨by rw [session, opened], rfl, fun heard => ?_, fun read moved => ?_⟩⟩
    · rw [Store.findSame cases]
      exact current (by simpa using heard)
    · rw [session]
      exact gated (by simpa using read) (by simpa using moved)
  | kept cases before move session =>
    refine ⟨held, ⟨by rw [session, opened], rfl, fun heard => ?_, fun _ moved => by simp at moved⟩⟩
    rw [Store.findSame cases]
    exact current (by simpa using heard)
  | reread again =>
    cases again with
    | loaded found gated document entered =>
      obtain ⟨listed, named⟩ := Store.foundStored found
      exact ⟨_, loadedFollows (done.stored _ listed) found gated document entered⟩
    | ungated found failed document => exact absurd failed (done.stored.gated found)
    | unread document => exact ⟨held, document, rfl, fun read => by simp at read, fun read => by simp at read⟩

theorem Follows.beside {s s' : Store} {session : Session} (follows : Follows s id heard session held)
    (same : s'.find? id = s.find? id) : Follows s' id heard session held :=
  ⟨follows.opened, follows.named, fun read => same.trans (follows.current read), follows.gated⟩

theorem settleCoherent {registry : Registry} (coherent : w.Coherent kinds) (sound : k.Sound kinds)
    (le : w.service.store.issued ≤ k.store.issued) (touches : w.service.store.Touches id k.store)
    (stored : ∃ d, k.store.find? id = some d) (follows : Follows k.store id heard k.session held)
    (others : ∀ other, other ≠ id → registry.session? other = w.service.registry.session? other) :
    Coherent kinds ⟨{ w.service with store := k.store, registry := registry.settle id k },
      Function.update w.heard id heard⟩ := by
  have own {session : Session} (filed : (registry.settle id k).session? id = some session) : session = k.session := by
    rw [Registry.session?, Registry.settle, Registry.lookupFile] at filed
    exact (Option.some.inj filed).symm
  have other {i : Identifier} {session : Session} (apart : i ≠ id)
      (filed : (registry.settle id k).session? i = some session) : w.service.registry.session? i = some session := by
    rw [← others i apart, Registry.session?, ← Registry.lookupOther k.session _ apart]
    exact filed
  refine ⟨sound.stored, sound.kept, fun i session filed => ?_, fun i session filed => ?_⟩
  · by_cases same : i = id
    · rw [same]
      exact stored
    · rw [show k.store.find? i = w.service.store.find? i from touches.others i same]
      exact coherent.present i session (other same filed)
  · by_cases same : i = id
    · subst same
      dsimp only
      rw [own filed, Function.update_self]
      exact ⟨held, sound.cached held follows.opened, follows⟩
    · dsimp only
      rw [Function.update_of_ne same]
      obtain ⟨d, before, follows⟩ := coherent.follows i session (other same filed)
      exact ⟨d, before.mono le, follows.beside (touches.others i same)⟩

theorem workCoherent {registry : Registry} {op : Option Desk.Op} (coherent : w.Coherent kinds) (sound : k.Sound kinds)
    (le : w.service.store.issued ≤ k.store.issued) (touches : w.service.store.Touches id k.store)
    (stored : ∃ d, k.store.find? id = some d) (follows : Follows k.store id heard k.session held)
    (others : ∀ other, other ≠ id → registry.session? other = w.service.registry.session? other)
    (stays : ∀ o, op = some o → o.stays = true) :
    Coherent kinds ⟨{ w.service with
      store := (Service.work k op).store, registry := registry.settle id (Service.work k op) },
      Function.update w.heard id (Service.since k heard op)⟩ := by
  cases op with
  | none => exact settleCoherent coherent sound le touches stored follows others
  | some op =>
    have stays := stays op rfl
    obtain ⟨done, further⟩ := Desk.pathSound sound (Desk.performPath k op).2
    have onward := Desk.performTouches follows.opened stays
    rw [follows.named] at onward
    obtain ⟨c, found⟩ := stored
    obtain ⟨d, still, _⟩ := onward.itself c found
    obtain ⟨d', follows⟩ := workFollows sound follows ⟨c, found⟩ stays
    exact settleCoherent coherent done (Nat.le_trans le further) (touches.trans onward) ⟨d, still⟩ follows others

theorem Coherent.onward {s : Store} {registry : Registry} (coherent : w.Coherent kinds)
    (cases : s.cases = w.service.store.cases) (le : w.service.store.issued ≤ s.issued) (stored : s.Sound kinds)
    (kept : ∀ held, registry.slot = some held → held.document.Sound kinds s.issued)
    (sessions : registry.sessions = w.service.registry.sessions) :
    Coherent kinds { w with service := { w.service with store := s, registry } } := by
  have same {id : Identifier} {session : Session} (filed : registry.session? id = some session) :
      w.service.registry.session? id = some session := by
    rwa [Registry.session?, ← sessions]
  refine ⟨stored, kept, fun id session filed => ?_, fun id session filed => ?_⟩
  · obtain ⟨d, found⟩ := coherent.present id session (same filed)
    exact ⟨d, (Store.findSame cases id).trans found⟩
  · obtain ⟨d, before, follows⟩ := coherent.follows id session (same filed)
    exact ⟨d, before.mono le, follows.beside (Store.findSame cases id)⟩

theorem visitCoherent {op : Option Desk.Op} (coherent : w.Coherent kinds) (id : Identifier)
    (stays : ∀ o, op = some o → o.stays = true) :
    Coherent kinds ⟨w.service.visit id op, Function.update w.heard id (w.service.hear id op (w.heard id))⟩ := by
  unfold Service.visit Service.hear Registry.reach
  cases registered : w.service.registry.session? id with
  | some session =>
    obtain ⟨held, sound, follows⟩ := coherent.follows id session registered
    let k : Desk := w.service.registry.desk w.service.store session
    have start : k.Sound kinds := by
      refine ⟨coherent.stored, fun d opened => ?_, coherent.kept⟩
      cases opened.symm.trans follows.opened
      exact sound
    obtain ⟨released, le⟩ := Desk.pathSound start (Desk.releasePath k id)
    have cases := Desk.casesRelease k id
    obtain ⟨c, found⟩ := coherent.present id session registered
    have along : Follows (k.release id).store id (w.heard id) (k.release id).session held := by
      rw [Desk.sessionRelease]
      exact follows.beside (Store.findSame cases id)
    exact workCoherent coherent released le (.sameCases cases) ⟨c, (Store.findSame cases id).trans found⟩ along
      (fun _ _ => rfl) stays
  | none =>
    let k : Desk := w.service.registry.desk w.service.store { limit := w.service.registry.limit }
    have start : k.Sound kinds := ⟨coherent.stored, fun d opened => by contradiction, coherent.kept⟩
    obtain ⟨done, le⟩ := Desk.pathSound start (Desk.openPath k id)
    have cases : (k.release id).store.cases = w.service.store.cases := Desk.casesRelease k id
    have form := Desk.opening k id
    dsimp only [k] at done le cases form ⊢
    generalize Desk.openCase _ id = r at done le form ⊢
    cases form with
    | unread =>
      rw [Function.update_eq_self]
      exact coherent.onward cases le done.stored done.kept rfl
    | ungated read failed => exact absurd failed (coherent.stored.gated (Store.getFound read))
    | @loaded d gate read gated =>
      have still := (Store.findSame cases id).trans (Store.getFound read)
      let session : Session := { document := some d, gate := some gate, limit := w.service.registry.limit }
      have follows : Follows (k.release id).store id [] session d :=
        loadedFollows (done.stored d (Store.foundStored still).1) still gated rfl rfl
      exact workCoherent coherent done le (.sameCases cases) ⟨d, still⟩ follows
        (fun other apart => Registry.lookupOther _ _ apart) stays

theorem interruptCoherent (coherent : w.Coherent kinds) (id : Identifier) (parts : Outage) :
    Coherent kinds ⟨w.service.interrupt id parts, Function.update w.heard id (w.service.hear id none (w.heard id))⟩ := by
  rcases w.service.interruptForm id parts with ⟨same, silent⟩ | same
  · rw [same, silent, Function.update_eq_self]
    exact coherent
  · have visited := visitCoherent coherent id (show ∀ o : Desk.Op, none = some o → o.stays = true from nofun)
    rw [same]
    exact visited.onward rfl (Nat.le_refl _) visited.stored visited.kept rfl

theorem createCoherent (coherent : w.Coherent kinds) (kind : Kind) (title : String) (n : Notice) :
    Coherent (Function.update kinds w.service.store.freshId kind)
      { w with service := { w.service with store := (w.service.store.createCase kind title).2.note n } } := by
  have same {id : Identifier} {session : Session} (filed : w.service.registry.session? id = some session) :
      ((w.service.store.createCase kind title).2.note n).find? id = w.service.store.find? id := by
    obtain ⟨held, sound, follows⟩ := coherent.follows id session filed
    exact Store.findPutOther w.service.store.issue _ (follows.named ▸ sound.older)
  refine ⟨coherent.stored.create kind title, fun held taken => (coherent.kept held taken).beside kind,
    fun id session filed => ?_, fun id session filed => ?_⟩
  · obtain ⟨d, found⟩ := coherent.present id session filed
    exact ⟨d, (same filed).trans found⟩
  · obtain ⟨held, sound, follows⟩ := coherent.follows id session filed
    exact ⟨held, sound.beside kind, follows.beside (same filed)⟩

theorem stepCoherent (coherent : ∃ kinds, w.Coherent kinds) (event : Event) : ∃ kinds, (w.step event).Coherent kinds := by
  obtain ⟨kinds, coherent⟩ := coherent
  cases event with
  | clock now => exact ⟨kinds, coherent.onward rfl (Nat.le_refl _) coherent.stored coherent.kept rfl⟩
  | outage parts => exact ⟨kinds, coherent.onward rfl (Nat.le_refl _) coherent.stored coherent.kept rfl⟩
  | request r amid =>
    unfold step Service.answerAmid Request.visited?
    dsimp only
    cases visits : r.call?.bind Call.visit? with
    | none =>
      dsimp only [Option.map_none]
      rcases Service.answerStays (v := w.service) visits with same | ⟨kind, title, n, same⟩
      · rw [same]
        exact ⟨kinds, coherent⟩
      · rw [same]
        exact ⟨_, createCoherent coherent kind title n⟩
    | some visit =>
      obtain ⟨id, op⟩ := visit
      dsimp only [Option.map_some]
      rw [Service.answerVisits visits]
      -- the case is reached with the store as it is, and the operation goes on with the outage that has come since
      have reached := interruptCoherent coherent id amid
      have visited := visitCoherent reached id (Service.requestStays visits)
      dsimp only at visited
      rw [Function.update_self, Function.update_idem] at visited
      exact ⟨kinds, visited⟩

theorem runCoherent (coherent : ∃ kinds, w.Coherent kinds) (events : List Event) :
    ∃ kinds, (w.run events).Coherent kinds := by
  induction events generalizing w with
  | nil => exact coherent
  | cons event rest ih => exact ih (stepCoherent coherent event)

theorem seedSound {s : Store} (sound : s.Sound kinds) : ∃ kinds, s.seed.Sound kinds := by
  have demoStep : Entity.NoRatings Store.demoStep := by
    intro c listed slot
    rcases List.mem_pair.mp listed with rfl | rfl <;> cases slot <;> decide
  have demoHazard : Entity.NoRatings Store.demoHazard := by
    intro c listed slot
    rcases List.mem_pair.mp listed with rfl | rfl <;> cases slot <;> decide
  unfold Store.seed
  split
  · have made := sound.create .riskAssessment Store.demoTitle
    have kind : Function.update kinds s.freshId .riskAssessment s.freshId = .riskAssessment := Function.update_self ..
    have call := Store.creation (s.createCase .riskAssessment Store.demoTitle).2 s.freshId .step none none Store.demoStep
    have stepped := Store.creationSound made call (by rw [kind]; decide) demoStep
    dsimp only [Store.createCase, Store.newCase] at stepped ⊢
    split
    · rename_i same
      rw [same] at stepped
      exact ⟨_, stepped⟩
    · rename_i step s' same
      rw [same] at stepped
      have call := Store.creation s' s.freshId .hazard (some step.id) none Store.demoHazard
      exact ⟨_, Store.creationSound stepped call (by rw [kind]; decide) demoHazard⟩
  · exact ⟨kinds, sound⟩

theorem freshCoherent (settings : Settings) (now : Moment) : ∃ kinds, (fresh settings now).Coherent kinds := by
  have seeded : ∃ kinds, (fresh settings now).service.store.Sound kinds := by
    have none : Store.Sound (fun _ => .riskAssessment) { now } := fun d stored => by contradiction
    unfold fresh Service.startup
    dsimp only
    split
    · exact seedSound none
    · exact ⟨_, none⟩
  obtain ⟨kinds, sound⟩ := seeded
  have registry : (fresh settings now).service.registry = { limit := settings.maxBatchCommands } := by
    unfold fresh Service.startup
    dsimp only
    split <;> rfl
  refine ⟨kinds, sound, fun held taken => ?_, fun id session filed => ?_, fun id session filed => ?_⟩
  · rw [registry] at taken
    contradiction
  · rw [registry] at filed
    contradiction
  · rw [registry] at filed
    contradiction

theorem sessionsCoherent (settings : Settings) (now : Moment) (events : List Event) {id : Identifier}
    {session : Session} (registered : ((fresh settings now).run events).service.registry.session? id = some session) :
    ∃ held, Follows ((fresh settings now).run events).service.store id (((fresh settings now).run events).heard id)
      session held := by
  obtain ⟨kinds, coherent⟩ := runCoherent (freshCoherent settings now) events
  obtain ⟨held, _, follows⟩ := coherent.follows id session registered
  exact ⟨held, follows⟩

def onDemo (method tail : String) (body : Body) (amid : Outage) : Event :=
  .request ⟨method, "/api/v1/cases/00000000-0000-4000-8000-000000000001/" ++ tail, body⟩ amid

/-- The case is opened and a step is stored in it, but not read again, all in one request. An undo takes the step back;
a phase is kept from the store and then left. -/
def restless : List Event :=
  [onDemo "POST" "commands" (.value (worded "ADD" "STEP" [] [("activity", .text "Load")])) { reads := true },
    onDemo "POST" "contextual-update/undo" .absent {}, onDemo "POST" "advance-phase" .absent { phaseMoves := true },
    .outage {}, onDemo "POST" "phase" (.value (.object [("phase", .text "PROCESS_STEPS")])) {}]

theorem restlessCoherent : ((fresh {} ⟨0⟩).run (restless.take 1)).heard (.numbered 1) = [.unread] ∧
    ((fresh {} ⟨0⟩).run (restless.take 3)).heard (.numbered 1) = [.kept] ∧ ∃ session held gate,
      ((fresh {} ⟨0⟩).run restless).service.registry.session? (.numbered 1) = some session ∧
      session.document = some held ∧ held.steps.length = 1 ∧
      ((fresh {} ⟨0⟩).run restless).service.store.find? (.numbered 1) = some held ∧
      session.gate = some gate ∧ gate.current = held.phase := by
  refine ⟨by decide +kernel, by decide +kernel, ?_⟩
  have heard : ((fresh {} ⟨0⟩).run restless).heard (.numbered 1) = [] := by decide +kernel
  have steps : (((fresh {} ⟨0⟩).run restless).service.registry.session? (.numbered 1)).map (fun s =>
      s.document.map (·.steps.length)) = some (some 1) := by decide +kernel
  obtain ⟨session, registered, one⟩ := Option.map_eq_some_iff.mp steps
  obtain ⟨held, follows⟩ := sessionsCoherent {} ⟨0⟩ restless registered
  rw [heard] at follows
  obtain ⟨gate, entered, phase⟩ := follows.gated (by simp) (by simp)
  have one : held.steps.length = 1 := by simpa [follows.opened] using one
  exact ⟨session, held, gate, registered, follows.opened, one, follows.current (by simp), entered, phase⟩

end Watch
end Web
end SafetyCase
