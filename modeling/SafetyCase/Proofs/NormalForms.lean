import SafetyCase.Proofs.Bundles
import SafetyCase.Proofs.Rereading
/-! Accepted commands, written out. A command that was accepted can be written out again, with names for its intent and its
target and the values of its fields as they were read. What is written is accepted as the very same command. -/
namespace SafetyCase
open Intake (Checked)

theorem Intent.keyword (i : Intent) : Text.keyword i.name = i.name := by cases i <;> decide +kernel

theorem Target.keyword (t : Target) : Text.keyword t.name = t.name := by cases t <;> decide +kernel

def Edit.written (e : Edit) (data : List (String × Json)) : Json :=
  .object [("intent", .text e.intent.name), ("target", .text e.target.name), ("location", .object e.location.fields),
    ("data", .object data), ("explanation", .text e.explanation)]

def Edit.encoded (e : Edit) : Json := e.written e.changes

/-- A command written out. If it has parts, they are its data; a question has none, whatever it is about. -/
def Command.encoded (c : Command) : Json :=
  c.written (if c.parts = [] then c.changes else [("commands", .list (c.parts.map Edit.encoded))])

theorem Command.encodedSingle (e : Edit) : (Command.single e).encoded = e.encoded := rfl

theorem writtenRead {e : Edit} (filled : ∀ r ∈ e.location.references, r ≠ some "") (data : List (String × Json)) :
    readDraft (e.written data) = .ok ⟨e.intent, e.target, some e.location, some data, e.explanation⟩ := by
  have intent : Intake.member Intent.names Intent.ofWord? (Intake.asKeyword (.text e.intent.name)) = .ok e.intent := by
    simp [Intake.member, Intake.asKeyword, Intent.keyword, Intent.wordRead]
  have target : Intake.member Target.names Target.ofName? (Intake.asKeyword (.text e.target.name)) = .ok e.target := by
    simp [Intake.member, Intake.asKeyword, Target.keyword, Target.nameRead]
  have read : Draft.read (e.written data) = .ok ⟨e.intent, e.target, some e.location, some data, e.explanation⟩ := by
    rw [Edit.written, Draft.read]
    simp [Draft.ofFields, Intake.required, Intake.optional, Intake.Key.find?, List.lookup_cons, intent, target,
      Location.readAgain filled, Intake.nullable, Intake.object, Draft.readExplanation, Intake.text, Checked.under,
      Checked.both]
  rw [readDraft, read]

namespace Draft

variable {k : Kind} {raw : Json} {d : Draft} {e : Edit} {c : Command}

theorem placeFilled (read : readDraft raw = .ok d) : ∀ r ∈ d.place.references, r ≠ some "" := by
  unfold readDraft at read
  split at read
  · rename_i found
    cases read
    cases raw with
    | object fields =>
      simp only [Draft.read, ofFields, Checked.bothOkIff] at found
      obtain ⟨_, _, _, ⟨location, _, placed, _, rfl⟩, rfl⟩ := found
      exact Location.placeFilled placed
    | _ => contradiction
  · contradiction

def again (d : Draft) (data : List (String × Json)) : Draft := { d with location := some d.place, data := some data }

theorem encodedRead (read : readDraft raw = .ok d) {payload : Option Payload} (same : d.edit payload = e)
    (data : List (String × Json)) : readDraft (e.written data) = .ok (d.again data) := by
  subst same
  exact writtenRead (placeFilled read) data

theorem obstacleAgain (free : d.obstacle? k = none) (data : List (String × Json)) : (d.again data).obstacle? k = none := by
  obtain ⟨supported, assessable, refers⟩ := unhindered free
  have names : (d.intent.needsReference && !d.place.hasReference) = false := by simpa using refers
  have placed : (d.again data).place = d.place := rfl
  simp only [obstacle?, placed]
  simp [again, supported, names]
  exact fun rates => assessable (of_decide_eq_true rates)

theorem toEditAgain (done : d.toEdit k = .ok e) : (d.again e.changes).toEdit k = .ok e := by
  obtain ⟨free, read, whole, same⟩ := accepted done
  have payload : Payload.read k (d.again e.changes).intent (d.again e.changes).target (d.again e.changes).given =
    .ok e.payload := Payload.readAgain read
  have kept : (d.again e.changes).shortfall? e.payload = none := whole
  rw [toEdit, obstacleAgain free]
  dsimp only
  rw [payload]
  dsimp only
  rw [kept]
  exact congrArg Except.ok same

theorem questionGiven (d : Draft) : ∃ q, d.question = d.edit (some (.question q)) := by
  unfold question
  split <;> exact ⟨_, rfl⟩

theorem questionAgain (d : Draft) : (d.again d.question.changes).question = d.question := by
  obtain ⟨q, asked⟩ := d.questionGiven
  have read : Question.read (d.again d.question.changes).given = .ok q := by
    rw [asked]
    exact Question.readAgain q
  rw [question, read, asked]
  rfl

theorem compoundForm (done : d.compound k = .ok c) :
    c = { d.edit none with parts := c.parts } ∧ c.parts ≠ [] ∧ ∀ e ∈ c.parts, ∃ raw, part? k raw = some e := by
  unfold compound at done
  split at done
  · contradiction
  · split at done
    · contradiction
    · rename_i some
      cases done
      exact ⟨rfl, some, fun e listed => (List.mem_filterMap.mp listed).imp fun raw given => given.2⟩

end Draft

theorem partAgain {k : Kind} {raw : Json} {e : Edit} (part : part? k raw = some e) : part? k e.encoded = some e := by
  unfold part? at part
  split at part
  · contradiction
  · rename_i d read
    split at part
    · contradiction
    · rename_i simple
      split at part
      · rename_i done
        cases part
        have accepted := Draft.accepted done
        rw [part?, Edit.encoded, Draft.encodedRead read accepted.same]
        dsimp only
        rw [Draft.toEditAgain done]
        exact if_neg simple
      · contradiction

theorem partsAgain {k : Kind} {parts : List Edit} (each : ∀ e ∈ parts, ∃ raw, part? k raw = some e) :
    (parts.map Edit.encoded).filterMap (part? k) = parts := by
  have same : ∀ e ∈ parts, part? k e.encoded = some e := by
    intro e listed
    obtain ⟨raw, part⟩ := each e listed
    exact partAgain part
  rw [List.filterMap_map, Function.comp_def, List.filterMap_congr same, List.filterMap_some]

section
variable {k : Kind} {raw : Json} {d : Draft}

theorem questionNormal (read : readDraft raw = .ok d) (asks : d.intent = .clarify) :
    validate k (Command.single d.question).encoded = .ok (.single d.question) := by
  obtain ⟨q, asked⟩ := d.questionGiven
  have again : readDraft (Command.single d.question).encoded = .ok (d.again d.question.changes) := by
    rw [Command.encodedSingle]
    exact Draft.encodedRead read asked.symm _
  have asking : (d.again d.question.changes).intent = .clarify := asks
  simp only [validate, again, if_pos asking, d.questionAgain]

theorem compoundNormal {c : Command} (read : readDraft raw = .ok d) (tells : d.intent ≠ .clarify)
    (compound : d.target = .multiple) (done : d.compound k = .ok c) : validate k c.encoded = .ok c := by
  obtain ⟨form, filled, parts⟩ := Draft.compoundForm done
  have again : readDraft c.encoded = .ok (d.again [("commands", .list (c.parts.map Edit.encoded))]) := by
    rw [Command.encoded, if_neg filled]
    exact Draft.encodedRead read (congrArg Command.toEdit form).symm _
  have objects : Intake.strangers 0 (c.parts.map Edit.encoded) = [] :=
    Intake.strangersNone.mpr (List.forall_mem_map.mpr fun _ _ => rfl)
  rw [compoundRead again tells compound rfl, partsAgain parts, objects]
  simp only [List.map_eq_nil_iff, filled, ne_eq, not_true_eq_false, or_self, if_false]
  exact congrArg Except.ok form.symm

theorem singleNormal {e : Edit} (read : readDraft raw = .ok d) (tells : d.intent ≠ .clarify)
    (single : d.target ≠ .multiple) (done : d.toEdit k = .ok e) :
    validate k (Command.single e).encoded = .ok (.single e) := by
  have again : readDraft (Command.single e).encoded = .ok (d.again e.changes) := by
    rw [Command.encodedSingle]
    exact Draft.encodedRead read (Draft.accepted done).same _
  have telling : (d.again e.changes).intent ≠ .clarify := tells
  have plain : (d.again e.changes).target ≠ .multiple := single
  simp only [validate, again, if_neg telling, if_neg plain, Draft.toEditAgain done]

end

theorem normalForm {k : Kind} {raw : Json} {c : Command} (valid : validate k raw = .ok c) :
    validate k c.encoded = .ok c := by
  unfold validate at valid
  split at valid
  · contradiction
  · rename_i d read
    split at valid
    · rename_i asks
      cases valid
      exact questionNormal read asks
    · rename_i tells
      split at valid
      · rename_i compound
        exact compoundNormal read tells compound valid
      · rename_i single
        split at valid
        · rename_i e done
          cases valid
          exact singleNormal read tells single done
        · contradiction

/-- A compound command as a careless client might word it: an intent by its synonym, a list as one text, a rating in words, a
number for a reference and a text for a position, and a date in seconds. -/
def careless : Json :=
  .object [("intent", .text " add"), ("target", .text "multiple"), ("data", .object [("commands", .list [
    .object [("intent", .text "update"), ("target", .text "hazard"), ("location", .object [("hazard_index", .text " 0 ")]),
      ("data", .object [("existing_controls", .text "Guard,\n Curtain,")])],
    .object [("intent", .text "Modify"), ("target", .text "assessment"), ("location", .object [("hazard_id", .int 7)]),
      ("data", .object [("severity", .text "catastrophic"), ("likelihood", .text "almost certain"),
        ("assessmentType", .text "Residual ")])],
    .object [("intent", .text "ADD"), ("target", .text "action"), ("explanation", .null),
      ("data", .object [("description", .text "Train"), ("dueDate", .int 1704067200), ("status", .text "in progress")])]])])]

def tidy : Json :=
  .object [("intent", .text "ADD"), ("target", .text "MULTIPLE"), ("location", .object []), ("data", .object [("commands",
    .list [
      .object [("intent", .text "MODIFY"), ("target", .text "HAZARD"), ("location", .object [("hazardIndex", .int 0)]),
        ("data", .object [("existing_controls", .list [.text "Guard", .text "Curtain"])]), ("explanation", .text "")],
      .object [("intent", .text "MODIFY"), ("target", .text "ASSESSMENT"), ("location", .object [("hazardId", .text "7")]),
        ("data", .object [("severity", .text "A"), ("likelihood", .text "1"), ("assessment_type", .text "residual")]),
        ("explanation", .text "")],
      .object [("intent", .text "ADD"), ("target", .text "ACTION"), ("location", .object []),
        ("data", .object [("description", .text "Train"), ("due_date", .text "2024-01-01"),
          ("status", .text "IN_PROGRESS")]), ("explanation", .text "")]])]), ("explanation", .text "")]

theorem normalFormTidy : ∃ c, validate .riskAssessment careless = .ok c ∧ c.parts.length = 3 ∧ c.encoded = tidy ∧
    validate .riskAssessment tidy = .ok c := by
  have told : (validate .riskAssessment careless).toOption.map (fun c => (c.parts.length, c.encoded)) =
      some (3, tidy) := by decide +kernel
  cases valid : validate .riskAssessment careless with
  | error refusal =>
    rw [valid] at told
    contradiction
  | ok c =>
    rw [valid] at told
    obtain ⟨size, written⟩ := Prod.mk.inj (Option.some.inj told)
    have again := normalForm valid
    rw [written] at again
    exact ⟨c, rfl, size, written, again⟩

end SafetyCase
