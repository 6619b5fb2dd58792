import SafetyCase.Proofs.Accounts
import SafetyCase.Proofs.Storable
/-! Compound commands in line. A batch does what the edits in it do, one after the other; whether they come bundled matters only
for how commands are counted. So a compound command may be replaced by the commands that it lists: the store, the
editor's copy and the snapshot are the same afterwards, and each edit ends as before. -/
namespace SafetyCase

variable {kind : Kind}

theorem partSingle {raw : Json} {e : Edit} (part : part? kind raw = some e) : (Command.single e).leaves = [e] := by
  have single : e.target ≠ .multiple := fun compound => by
    have type := (Draft.madeExecutable (Draft.partMade part)).type
    simp [compound, Target.entityType?] at type
  exact if_neg single

def Plain (kind : Kind) (raws : List Json) : Prop :=
  ∀ raw ∈ raws, ∀ c, validate kind raw = .ok c → c.isClarification = false ∧ c.target ≠ .multiple

instance (kind : Kind) (raws : List Json) : Decidable (Plain kind raws) :=
  decidable_of_iff (∀ raw ∈ raws, ∀ c ∈ (validate kind raw).toOption, c.isClarification = false ∧ c.target ≠ .multiple) <|
    forall₂_congr fun raw _ => by cases validate kind raw <;> simp [Except.toOption]

theorem plainLeaves {raws : List Json} (plain : Plain kind raws) :
    (raws.filterMap fun raw => (validate kind raw).toOption).flatMap Command.leaves = raws.filterMap (part? kind) := by
  have apart : ∀ raw ∈ raws, (validate kind raw).toOption = (part? kind raw).map Command.single := by
    intro raw listed
    rw [← partAlone, alone?]
    cases valid : validate kind raw with
    | error refusal => rfl
    | ok c =>
      obtain ⟨tells, single⟩ := plain raw listed c valid
      simp [tells, single, Except.toOption]
  rw [List.filterMap_congr apart]
  clear plain apart
  induction raws with
  | nil => rfl
  | cons raw rest ih =>
    cases part : part? kind raw with
    | none => simpa [part] using ih
    | some e => simpa [part, partSingle part] using ih

theorem compoundLeaves {raw : Json} {d : Draft} {items : List Json} (read : readDraft raw = .ok d)
    (tells : d.intent ≠ .clarify) (compound : d.target = .multiple)
    (lists : d.given.lookup "commands" = some (.list items)) (objects : ∀ j ∈ items, j.isObject = true) :
    (validate kind raw).toOption.toList.flatMap Command.leaves = items.filterMap (part? kind) := by
  rw [compoundRead read tells compound lists, Intake.strangersNone.mpr objects]
  by_cases empty : items = []
  · simp [empty, Except.toOption]
  · by_cases useless : items.filterMap (part? kind) = []
    · simp [empty, useless, Except.toOption]
    · simp [empty, useless, Except.toOption, Command.leaves, Draft.edit, compound]

theorem compoundTells {raw : Json} {d : Draft} (read : readDraft raw = .ok d) (tells : d.intent ≠ .clarify)
    (compound : d.target = .multiple) : ¬Asks kind raw := by
  rintro ⟨c, valid, asks⟩
  simp only [validate, read, if_neg tells, if_pos compound, Draft.compound] at valid
  split at valid
  · contradiction
  · split at valid
    · contradiction
    · cases valid
      exact tells (of_decide_eq_true asks)

theorem plainTells {raws : List Json} (plain : Plain kind raws) : ∀ raw ∈ raws, ¬Asks kind raw := by
  rintro raw listed ⟨c, valid, asks⟩
  rw [(plain raw listed c valid).1] at asks
  contradiction

theorem triesSome {raw : Json} {c : Command} (valid : validate kind raw = .ok c) (tells : c.isClarification = false) :
    c.leaves ≠ [] := by
  unfold Command.leaves
  split
  · rename_i compound
    exact (validatedParts valid tells compound).1
  · simp

namespace Desk

variable {k : Desk} {d : Document} {b b' : Envelope}

/-- Two batches end alike: only what they say of commands as wholes, and the journal, may differ. -/
structure EndsAlike (a a' : Except Failure BatchResult × Desk) : Prop where
  store : a.2.store.quiet = a'.2.store.quiet
  session : a.2.session = a'.2.session
  slot : a.2.slot = a'.2.slot
  edits : a.1.map (·.outcomes.flatMap Outcome.tried) = a'.1.map (·.outcomes.flatMap Outcome.tried)

theorem EndsAlike.refl (a : Except Failure BatchResult × Desk) : EndsAlike a a := ⟨rfl, rfl, rfl, rfl⟩

theorem acceptedAlike (k : Desk) (d : Document) (summary : Option String) {check check' : BatchCheck}
    (same : check.accepted.flatMap Command.leaves = check'.accepted.flatMap Command.leaves) :
    EndsAlike (k.applyAccepted d summary check) (k.applyAccepted d summary check') := by
  have run := Store.commandsAsEdits (k.capture d summary).store d check.accepted
  rw [same, Store.commandsAsEdits] at run
  obtain ⟨tried, left⟩ := Prod.mk.inj run
  unfold applyAccepted
  dsimp only
  generalize (k.capture d summary).store.applyCommands d check.accepted = r at tried left
  generalize (k.capture d summary).store.applyCommands d check'.accepted = r' at tried left
  obtain ⟨answer, store⟩ := r
  obtain ⟨answer', store'⟩ := r'
  cases left
  cases answer with
  | error abort =>
    cases answer' with
    | error abort' =>
      cases tried
      exact .refl _
    | ok outcomes' => cases tried
  | ok outcomes =>
    cases answer' with
    | error abort' => cases tried
    | ok outcomes' =>
      -- both read the case again from one store, and write their own counts into the journal after that
      unfold afterRefresh
      dsimp only
      generalize Desk.refresh _ = fresh
      obtain ⟨failure | c, k₁⟩ := fresh
      · exact .refl _
      · exact ⟨rfl, rfl, rfl, congrArg Except.ok (Except.ok.inj tried).symm⟩

theorem batchAlike (opened : k.session.document = some d) (summaries : b.summary = b'.summary)
    (tells : asksBack b (k.check d b) = false) (tells' : asksBack b' (k.check d b') = false)
    (same : k.edits d b = k.edits d b') : EndsAlike (k.applyBatch b) (k.applyBatch b') := by
  have idle {b : Envelope} (tells : asksBack b (k.check d b) = false) :
      (k.check d b).accepted.isEmpty = (k.edits d b).isEmpty := by
    have tries : ∀ c ∈ (k.check d b).accepted, c.leaves ≠ [] := by
      intro c kept
      obtain ⟨_, raw, _, _, valid, _⟩ := scannedAt.mp kept
      have none := (Bool.or_eq_false_iff.mp tells).2
      exact triesSome valid (by simpa using List.any_eq_false.mp none c kept)
    rw [Bool.eq_iff_iff, List.isEmpty_iff, List.isEmpty_iff, edits, List.flatMap_eq_nil_iff]
    constructor
    · intro none c kept
      simp [none] at kept
    · intro none
      exact List.eq_nil_iff_forall_not_mem.mpr fun c kept => tries c kept (none c kept)
  have empty := idle tells
  have empty' := idle tells'
  rw [← same, ← empty] at empty'
  simp only [check] at tells tells' empty empty'
  simp only [applyBatch, opened, tells, tells', empty', if_false, Bool.false_eq_true]
  split
  · exact ⟨rfl, rfl, rfl, rfl⟩
  · rw [summaries]
    exact acceptedAlike k d b'.summary same

theorem tellsAll {raws : List Json} {summary prompt : Option String} (unlimited : k.session.limit = none)
    (calm : ∀ raw ∈ raws, ¬Asks d.kind raw) :
    asksBack { commands := raws, summary, clarificationPrompt := prompt }
      (k.check d { commands := raws, summary, clarificationPrompt := prompt }) = false := by
  rw [Bool.eq_false_iff, ne_eq, asksBackWhen, unlimited]
  rintro (flagged | ⟨before, raw, after, split, asks, _⟩)
  · contradiction
  · dsimp only at split
    exact calm raw (by simp [split]) asks

theorem bundleInline {m : Json} {draft : Draft} {before items after : List Json} {summary prompt : Option String}
    (unlimited : k.session.limit = none) (opened : ∀ d, k.session.document = some d → d.kind = kind)
    (read : readDraft m = .ok draft) (tells : draft.intent ≠ .clarify) (compound : draft.target = .multiple)
    (lists : draft.given.lookup "commands" = some (.list items)) (objects : ∀ j ∈ items, j.isObject = true)
    (plain : Plain kind items) (calm : ∀ raw ∈ before ++ after, ¬Asks kind raw) :
    EndsAlike (k.applyBatch { commands := before ++ [m] ++ after, summary, clarificationPrompt := prompt })
      (k.applyBatch { commands := before ++ items ++ after, summary, clarificationPrompt := prompt }) := by
  cases held : k.session.document with
  | none =>
    simp only [applyBatch, held]
    exact .refl _
  | some d =>
    obtain rfl := opened d held
    obtain ⟨calmBefore, calmAfter⟩ := List.forall_mem_append.mp calm
    have bundled : ∀ raw ∈ before ++ [m] ++ after, ¬Asks d.kind raw :=
      List.forall_mem_append.mpr ⟨List.forall_mem_append.mpr ⟨calmBefore,
        List.forall_mem_singleton.mpr (compoundTells read tells compound)⟩, calmAfter⟩
    have inline : ∀ raw ∈ before ++ items ++ after, ¬Asks d.kind raw :=
      List.forall_mem_append.mpr ⟨List.forall_mem_append.mpr ⟨calmBefore, plainTells plain⟩, calmAfter⟩
    refine batchAlike held rfl (tellsAll unlimited bundled) (tellsAll unlimited inline) ?_
    simp only [edits, check, validateBatch, unlimited, BatchCheck.unlimitedAccepts, List.filterMap_append,
      List.flatMap_append, plainLeaves plain]
    rw [← compoundLeaves read tells compound lists objects]
    cases valid : validate d.kind m <;> simp [valid, Except.toOption]

def loads : List Json := [addition, worded "ADD" "HAZARD" [("stepIndex", .int 7)] [("label", .text "Crushing")]]

theorem bundleInlineLoads : Plain .riskAssessment loads ∧
    EndsAlike (blank.applyBatch { commands := [addition] ++ [gathered loads] ++ [addition] })
      (blank.applyBatch { commands := [addition] ++ loads ++ [addition] }) ∧
    ((blank.applyBatch { commands := [addition] ++ [gathered loads] ++ [addition] }).2.store.find?
      (.numbered 1)).map (·.steps.length) = some 3 := by
  obtain ⟨draft, read, intent, target, lists⟩ := gatheredRead loads
  have plain : Plain .riskAssessment loads := by decide +kernel
  have calm : Plain .riskAssessment ([addition] ++ [addition]) := by decide +kernel
  exact ⟨plain, bundleInline (k := blank) rfl (by rintro d ⟨⟩; rfl) read (by rw [intent]; decide) target lists
    (by decide) plain (plainTells calm), by cbv⟩

end Desk
end SafetyCase
