import SafetyCase.Proofs.Stages
/-! The operations of one editor with the case that it has open, and the stores that each of them passes
through. Only a batch writes more than once. -/
namespace SafetyCase.Desk

inductive Op where
  | openCase (id : Identifier)
  | refresh
  | batch (b : Envelope)
  | undo
  | reorder (target : Target) (ids : List String) (location : Location)
  | advance
  | jump (phase : String)

def perform (k : Desk) : Op → Desk
  | .openCase id => (k.openCase id).2
  | .refresh => k.refresh.2
  | .batch b => (k.applyBatch b).2
  | .undo => k.undo.2
  | .reorder target ids location => (k.reorder target ids location).2
  | .advance => k.advance.2
  | .jump phase => (k.jump phase).2

def check (k : Desk) (d : Document) (b : Envelope) : BatchCheck := validateBatch d.kind k.session.limit b.commands

def captures (k : Desk) (b : Envelope) : Bool :=
  match k.session.document with
  | none => false
  | some d => !asksBack b (k.check d b) && !(k.check d b).accepted.isEmpty

def edits (k : Desk) (d : Document) (b : Envelope) : List Edit := (k.check d b).accepted.flatMap Command.leaves

def passing (k : Desk) : Op → List Store
  | .batch b =>
    match k.session.document with
    | none => []
    | some d => if k.captures b then (k.capture d b.summary).store.passing d (k.edits d b) else []
  | _ => []

variable {k : Desk} {b : Envelope}

theorem returnsOfMap {call : Except Failure α × Desk} {f : α → β} {x : β} (answer : call.1.toOption.map f = some x) :
    ∃ a k', call = (.ok a, k') ∧ f a = x := by
  obtain ⟨failure | a, k'⟩ := call
  · contradiction
  · exact ⟨a, k', rfl, Option.some.inj answer⟩

@[simp] theorem sessionCapture (k : Desk) (d : Document) (summary : Option String) :
    (k.capture d summary).session = k.session := by
  unfold capture
  dsimp only
  split <;> rfl

@[simp] theorem casesCapture (k : Desk) (d : Document) (summary : Option String) :
    (k.capture d summary).store.cases = k.store.cases := by
  unfold capture
  dsimp only
  split <;> rfl

@[simp] theorem nowCapture (k : Desk) (d : Document) (summary : Option String) :
    (k.capture d summary).store.now = k.store.now := by
  unfold capture
  dsimp only
  split <;> rfl

@[simp] theorem issuedCapture (k : Desk) (d : Document) (summary : Option String) :
    (k.capture d summary).store.issued = k.store.issued := by
  unfold capture
  dsimp only
  split <;> rfl

inductive Batch (k : Desk) (b : Envelope) : Except Failure BatchResult × Desk → Prop where
  | closed (shut : k.session.document = none) : Batch k b (.error .noCaseOpen, k)
  | idle {d : Document} {r : BatchResult} (n : Notice) (opened : k.session.document = some d)
      (empty : r.outcomes = []) (idles : k.captures b = false) : Batch k b (.ok r, k.note n)
  | applied {d : Document} (opened : k.session.document = some d) (tells : asksBack b (k.check d b) = false)
      (captures : k.captures b = true) : Batch k b (k.applyAccepted d b.summary (k.check d b))

theorem batch (k : Desk) (b : Envelope) : Batch k b (k.applyBatch b) := by
  unfold applyBatch
  split
  · rename_i shut
    exact .closed shut
  · rename_i d opened
    dsimp only
    split
    · rename_i asks
      exact .idle _ opened rfl (by simp [captures, opened, check, asks])
    · rename_i tells
      split
      · rename_i none
        exact .idle _ opened rfl (by simp [captures, opened, check, none])
      · rename_i some
        exact .applied opened (by simpa [check] using tells) (by simp_all [captures, check])

theorem batchSuits {d : Document} (tells : asksBack b (k.check d b) = false) : ∀ e ∈ k.edits d b, e.Suits d :=
  fun e listed => Edit.fitSuits (batchFits tells e listed)

theorem applyAcceptedStages {d : Document} (opened : k.session.document = some d)
    (tells : asksBack b (k.check d b) = false) :
    (∀ s ∈ (k.capture d b.summary).store.passing d (k.edits d b),
      Stages (k.capture d b.summary) { k.capture d b.summary with store := s }) ∧
    Stages (k.capture d b.summary) (k.applyAccepted d b.summary (k.check d b)).2 := by
  obtain ⟨along, edited⟩ := editsStages (k := k.capture d b.summary) (by rwa [sessionCapture]) (batchSuits tells)
  refine ⟨along, ?_⟩
  rw [edits, Store.commandsAsEdits] at edited
  unfold applyAccepted
  dsimp only at edited ⊢
  generalize (k.capture d b.summary).store.applyCommands d (k.check d b).accepted = r at edited
  obtain ⟨abort | outcomes, s⟩ := r
  · exact edited
  · exact edited.trans (afterRefreshStages (fun _ _ => .single (.noted _)) _)

theorem batchPath (k : Desk) (b : Envelope) :
    (∀ s ∈ k.passing (.batch b), ∃ k', Path k k' ∧ k'.store = s) ∧ Path k (k.applyBatch b).2 := by
  have form := batch k b
  generalize k.applyBatch b = r at form
  cases form with
  | closed shut => exact ⟨by simp [passing, shut], .refl⟩
  | idle n opened _ idles => exact ⟨by simp [passing, opened, idles], (Stages.path (.single (.noted n)))⟩
  | applied opened tells captures =>
    obtain ⟨along, edited⟩ := applyAcceptedStages opened tells
    have captured := (Shift.captured opened b.summary).path
    refine ⟨fun s passed => ?_, captured.trans edited.path⟩
    simp only [passing, opened, captures, if_true] at passed
    exact ⟨_, captured.trans (along s passed).path, rfl⟩

theorem releasePath (k : Desk) (id : Identifier) : Path k (k.release id) := by
  unfold release
  split
  · exact .refl
  · split
    · exact .refl
    · exact (Stages.path (.single (.noted _))).trans Shift.cleared.path

theorem openPath (k : Desk) (id : Identifier) : Path k (k.openCase id).2 := by
  have released := releasePath k id
  unfold openCase
  dsimp only
  split
  · exact released
  · rename_i read
    exact (released.trans (Shift.turned read).path).trans (loadStages _ _).path

theorem undoPath (k : Desk) : Path k k.undo.2 := by
  unfold undo
  split
  · exact .refl
  · rename_i kept taken
    split
    · exact .refl
    · rename_i opened
      split
      · rename_i own
        have restored : Path k _ := (Stages.path (.single (.restored opened taken own)))
        unfold restore
        generalize k.store.replaceCase kept.document = r at restored
        obtain ⟨fault | _, s⟩ := r
        · exact restored.tail (.inl (.noted _))
        · exact restored.trans (afterRefreshAlong Stages.path (fun first second => first.trans second)
            (fun _ _ => Shift.cleared.path.tail (.inl (.noted _))) _)
      · exact Shift.cleared.path

theorem performPath (k : Desk) (op : Op) :
    (∀ s ∈ k.passing op, ∃ k', Path k k' ∧ k'.store = s) ∧ Path k (k.perform op) := by
  cases op with
  | batch b => exact batchPath k b
  | openCase id => exact ⟨by simp [passing], openPath k id⟩
  | refresh => exact ⟨by simp [passing], (refreshStages k).path⟩
  | undo => exact ⟨by simp [passing], undoPath k⟩
  | reorder target ids location => exact ⟨by simp [passing], (reorderStages k target ids location).path⟩
  | advance => exact ⟨by simp [passing], (moveStages k _).path⟩
  | jump phase => exact ⟨by simp [passing], (moveStages k _).path⟩

def blankCase : Document :=
  { id := .numbered 1, kind := .riskAssessment, title := "Demo", phase := "PROCESS_STEPS", createdAt := ⟨0⟩,
    updatedAt := ⟨0⟩ }

def blank : Desk :=
  { store := { cases := [blankCase], issued := 1, now := ⟨1⟩ }, session := { document := some blankCase } }

def partly : Envelope :=
  { commands := [worded "ADD" "MULTIPLE" [] [("commands", .list [worded "ADD" "STEP" [] [("activity", .text "Load")],
      worded "ADD" "HAZARD" [("stepIndex", .int 7)] [("label", .text "Crushing")]])]] }

end SafetyCase.Desk
