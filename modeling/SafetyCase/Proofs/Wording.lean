import Mathlib.Data.Option.Basic
import Mathlib.Logic.Relation
import SafetyCase.Proofs.Bundles
import SafetyCase.Proofs.Fields
/-! The wording of a command. Of two commands that say the same under other spellings of their keys, or with keys that nobody
reads, either both are accepted, and as the same command, or neither is. This holds at every level: for the command, its
location, its data, and the commands that a compound command lists, however deep. -/
namespace SafetyCase
open Intake (Checked Key Agree Apart lookupApart valueOnce valueApart)
open Relation (ReflTransGen)

/-- One change of wording: a known key takes its other spelling, or a key is added that is not looked up. -/
inductive Reworded (keys : List Key) : List (String × Json) → List (String × Json) → Prop where
  | snake (key : Key) (before after : List (String × Json)) {v : Json} (known : key ∈ keys)
      (once : ∀ f ∈ before ++ after, f.1 ≠ key.camel ∧ f.1 ≠ key.snake) :
      Reworded keys (before ++ (key.camel, v) :: after) (before ++ (key.snake, v) :: after)
  | camel (key : Key) (before after : List (String × Json)) {v : Json} (known : key ∈ keys)
      (once : ∀ f ∈ before ++ after, f.1 ≠ key.camel ∧ f.1 ≠ key.snake) :
      Reworded keys (before ++ (key.snake, v) :: after) (before ++ (key.camel, v) :: after)
  | added {name : String} (before after : List (String × Json)) {v : Json}
      (unread : ∀ key ∈ keys, name ≠ key.camel ∧ name ≠ key.snake) :
      Reworded keys (before ++ after) (before ++ (name, v) :: after)

theorem rewordedAgree {keys : List Key} {fields fields' : List (String × Json)} (apart : Apart keys)
    (step : Reworded keys fields fields') : Agree keys fields fields' := by
  intro key known
  cases step with
  | snake used before after among once =>
    by_cases own : key = used
    · subst own
      rw [valueOnce _ (.inl rfl) once, valueOnce _ (.inr rfl) once]
    · obtain ⟨camels, camelSnake, snakeCamel, snakes⟩ := apart key known used among own
      rw [valueApart _ camels snakeCamel, valueApart _ camelSnake snakes]
  | camel used before after among once =>
    by_cases own : key = used
    · subst own
      rw [valueOnce _ (.inr rfl) once, valueOnce _ (.inl rfl) once]
    · obtain ⟨camels, camelSnake, snakeCamel, snakes⟩ := apart key known used among own
      rw [valueApart _ camelSnake snakes, valueApart _ camels snakeCamel]
  | added before after unread =>
    obtain ⟨camel, snake⟩ := unread key known
    exact (valueApart _ camel.symm snake.symm).symm

structure Same (kind : Kind) (raw raw' : Json) : Prop where
  verdict : (validate kind raw).toOption = (validate kind raw').toOption
  object : raw.isObject = raw'.isObject

namespace Same

variable {kind : Kind} {raw raw' raw'' : Json}

theorem refl (kind : Kind) (raw : Json) : Same kind raw raw := ⟨rfl, rfl⟩

theorem trans (first : Same kind raw raw') (second : Same kind raw' raw'') : Same kind raw raw'' :=
  ⟨first.verdict.trans second.verdict, first.object.trans second.object⟩

theorem part (same : Same kind raw raw') : part? kind raw = part? kind raw' := by
  have alone : alone? kind raw = alone? kind raw' := by
    have verdict := same.verdict
    unfold alone?
    cases left : validate kind raw <;> cases right : validate kind raw' <;> simp_all [Except.toOption]
  rw [partAlone, partAlone] at alone
  exact Option.map_injective (fun e e' edits => congrArg Command.toEdit edits) alone

end Same

namespace Draft

variable {kind : Kind}

inductive SameItems (kind : Kind) : Option Json → Option Json → Prop where
  | equal (found : Option Json) : SameItems kind found found
  | listed {items items' : List Json} (each : List.Forall₂ (Same kind) items items') :
      SameItems kind (some (.list items)) (some (.list items'))

inductive SameData (kind : Kind) (i : Intent) (t : Target) (fields fields' : List (String × Json)) : Prop where
  | agree (agree : Agree (Payload.keys kind i t) fields fields') : SameData kind i t fields fields'
  | listed (compound : t = .multiple) (tells : i ≠ .clarify)
      (items : SameItems kind (fields.lookup "commands") (fields'.lookup "commands")) : SameData kind i t fields fields'

def partsOf (kind : Kind) (found : Option Json) : Option (List Edit) :=
  (found.bind fun j => (Intake.filledObjects j).toOption).map (·.filterMap (part? kind))

theorem sameParts {found found' : Option Json} (items : SameItems kind found found') :
    partsOf kind found = partsOf kind found' := by
  cases items with
  | equal => rfl
  | @listed items items' each =>
    have empty : items = [] ↔ items' = [] := by cases each <;> simp
    have objects : Intake.strangers 0 items = [] ↔ Intake.strangers 0 items' = [] := by
      rw [Intake.strangersNone, Intake.strangersNone]
      clear empty
      induction each with
      | nil => rfl
      | cons same _ ih => simp [same.object, ih]
    have parts : items.filterMap (part? kind) = items'.filterMap (part? kind) := by
      clear empty objects
      induction each with
      | nil => rfl
      | cons same _ ih => simp only [List.filterMap_cons, same.part, ih]
    simp only [partsOf, Option.bind_some, Intake.filledObjectItems, empty, objects]
    split
    · rfl
    · split
      · exact congrArg some parts
      · rfl

theorem compoundRead (kind : Kind) (d : Draft) :
    (d.compound kind).toOption = (partsOf kind (d.given.lookup "commands")).bind fun parts =>
      if parts = [] then none else some { d.edit none with parts } := by
  have read := Intake.requiredValue ⟨"commands", "commands"⟩ d.given Intake.filledObjects
  rw [Intake.valueWord] at read
  unfold compound partsOf
  rw [← read]
  cases Intake.required ⟨"commands", "commands"⟩ d.given Intake.filledObjects with
  | error issues => rfl
  | ok raws =>
    simp only [Except.toOption, Option.map_some, Option.bind_some]
    cases raws.filterMap (part? kind) <;> simp

theorem questionRead (d : Draft) :
    d.question = d.edit (some (.question ((Question.read d.given).toOption.getD {}))) := by
  unfold question
  cases Question.read d.given <;> rfl

theorem toEditRead (kind : Kind) (d : Draft) :
    (d.toEdit kind).toOption = if d.obstacle? kind = none then
      (Payload.read kind d.intent d.target d.given).toOption.bind fun payload =>
        if d.shortfall? payload = none then some (d.edit payload) else none
    else none := by
  unfold toEdit
  cases d.obstacle? kind with
  | some refusal => rfl
  | none =>
    cases Payload.read kind d.intent d.target d.given with
    | error issues => rfl
    | ok payload =>
      simp only [Except.toOption, Option.bind_some, if_true]
      cases d.shortfall? payload <;> rfl

def verdict? (kind : Kind) (d : Draft) : Option Command :=
  if d.intent = .clarify then some (.single d.question)
  else if d.target = .multiple then (d.compound kind).toOption
  else (d.toEdit kind).toOption.map .single

theorem verdictSame (d : Draft) (data : Option (List (String × Json))) (given : d.data.isNone = data.isNone)
    (same : SameData kind d.intent d.target d.given (data.getD [])) :
    d.verdict? kind = { d with data }.verdict? kind := by
  unfold verdict?
  split
  · rename_i asks
    cases same with
    | agree agree =>
      rw [asks] at agree
      rw [questionRead, questionRead, Question.readAgree agree]
      rfl
    | listed _ tells => exact absurd asks tells
  · split
    · rename_i tells compound
      rw [compoundRead, compoundRead]
      have items : SameItems kind (d.given.lookup "commands") ((data.getD []).lookup "commands") := by
        cases same with
        | agree agree =>
          have named := agree ⟨"commands", "commands"⟩ (by
            rw [compound]
            cases i : d.intent <;> first | exact absurd i tells | exact List.mem_singleton_self _)
          rw [Intake.valueWord, Intake.valueWord] at named
          rw [named]
          exact .equal _
        | listed _ _ items => exact items
      rw [sameParts items]
      rfl
    · rename_i single
      cases same with
      | agree agree =>
        have free : obstacle? kind { d with data } = d.obstacle? kind := by
          simp only [obstacle?, given, place]
          rfl
        rw [toEditRead, toEditRead, free, Payload.readAgree single agree]
        rfl
      | listed compound => exact absurd compound single

variable {fields fields' : List (String × Json)}

def aim? (fields : List (String × Json)) : Option (Intent × Target) :=
  (Checked.both Prod.mk
    (Intake.required ⟨"intent", "intent"⟩ fields fun j => Intake.member Intent.names Intent.ofWord? (Intake.asKeyword j))
    (Intake.required ⟨"target", "target"⟩ fields fun j =>
      Intake.member Target.names Target.ofName? (Intake.asKeyword j))).toOption

def place? (fields : List (String × Json)) : Option (Option Location) :=
  (Intake.optional ⟨"location", "location"⟩ fields none
    (Intake.nullable (Location.read (.notRecord "Location")))).toOption

def data? (fields : List (String × Json)) : Option (Option (List (String × Json))) :=
  (Intake.optional ⟨"data", "data"⟩ fields none (Intake.nullable Intake.object)).toOption

def explanation? (fields : List (String × Json)) : Option String :=
  (Intake.optional ⟨"explanation", "explanation"⟩ fields "" readExplanation).toOption

theorem fieldsRead (fields : List (String × Json)) :
    (ofFields fields).toOption = (aim? fields).bind fun aim => (place? fields).bind fun location =>
      (data? fields).bind fun data => (explanation? fields).map fun told => ⟨aim.1, aim.2, location, data, told⟩ := by
  simp only [ofFields, aim?, place?, data?, explanation?, Checked.bothRead, Option.map_bind, Option.bind_assoc,
    Option.bind_map, Option.map_map, Function.comp_def]

theorem validateRead (kind : Kind) (fields : List (String × Json)) :
    (validate kind (.object fields)).toOption = (ofFields fields).toOption.bind (verdict? kind) := by
  cases drafted : ofFields fields with
  | error issues => simp [validate, readDraft, read, drafted, Except.toOption]
  | ok d =>
    have read : readDraft (.object fields) = .ok d := by simp [readDraft, read, drafted]
    by_cases asks : d.intent = .clarify
    · simp [validate, read, verdict?, asks, Except.toOption]
    by_cases compound : d.target = .multiple
    · simp [validate, read, verdict?, asks, compound, Except.toOption]
    · cases made : d.toEdit kind <;> simp [validate, read, verdict?, asks, compound, made, Except.toOption]

def dataKeys (kind : Kind) (fields : List (String × Json)) : List Key :=
  match aim? fields with
  | some (i, t) => Payload.keys kind i t
  | none => []

theorem recordSame (aim : aim? fields = aim? fields') (location : place? fields = place? fields')
    (told : explanation? fields = explanation? fields')
    (data : ∀ i t, aim? fields = some (i, t) →
      Option.Rel (Option.Rel (SameData kind i t)) (data? fields) (data? fields')) :
    Same kind (.object fields) (.object fields') := by
  refine ⟨?_, rfl⟩
  rw [validateRead, validateRead, fieldsRead, fieldsRead, ← aim, ← location, ← told]
  cases read : aim? fields with
  | none => rfl
  | some aim =>
    obtain ⟨i, t⟩ := aim
    cases place? fields with
    | none => rfl
    | some location =>
      have related := data i t read
      generalize data? fields = left at related ⊢
      generalize data? fields' = right at related ⊢
      cases related with
      | none => rfl
      | some given =>
        cases explanation? fields with
        | none => cases given <;> rfl
        | some told =>
          simp only [Option.bind_some, Option.map_some]
          cases given with
          | none => rfl
          | some same => exact verdictSame ⟨i, t, location, some _, told⟩ (some _) rfl same

theorem sameDataRefl (i : Intent) (t : Target) (data : Option (Option (List (String × Json)))) :
    Option.Rel (Option.Rel (SameData kind i t)) data data := by
  rcases data with _ | _ | given
  · exact .none
  · exact .some .none
  · exact .some (.some (.agree (.refl _ _)))

theorem lookupHere (before after : List (String × Json)) (name : String) (v : Json) :
    (before ++ (name, v) :: after).lookup name = (before.lookup name).or (some v) := by
  simp [List.lookup_append]

theorem aimAgree (intent : fields.lookup "intent" = fields'.lookup "intent")
    (target : fields.lookup "target" = fields'.lookup "target") : aim? fields = aim? fields' := by
  simp only [aim?, Checked.bothRead, Intake.requiredValue, Intake.valueWord, intent, target]

theorem placeAgree (same : fields.lookup "location" = fields'.lookup "location") : place? fields = place? fields' := by
  simp only [place?, Intake.optionalValue, Intake.valueWord, same]

theorem dataAgree (same : fields.lookup "data" = fields'.lookup "data") : data? fields = data? fields' := by
  simp only [data?, Intake.optionalValue, Intake.valueWord, same]

theorem explanationAgree (same : fields.lookup "explanation" = fields'.lookup "explanation") :
    explanation? fields = explanation? fields' := by
  simp only [explanation?, Intake.optionalValue, Intake.valueWord, same]

theorem topSame (step : Reworded keys fields fields') : Same kind (.object fields) (.object fields') := by
  have agree := rewordedAgree (by decide) step
  have word (name : String) (known : (⟨name, name⟩ : Key) ∈ keys) : fields.lookup name = fields'.lookup name := by
    have same := agree ⟨name, name⟩ known
    rwa [Intake.valueWord, Intake.valueWord] at same
  refine recordSame (aimAgree (word _ (by decide)) (word _ (by decide))) (placeAgree (word _ (by decide)))
    (explanationAgree (word _ (by decide))) fun i t _ => ?_
  rw [dataAgree (word _ (by decide))]
  exact sameDataRefl i t _

section
variable {before after : List (String × Json)}

theorem lookupBeside (before after : List (String × Json)) {name other : String} (v v' : Json) (apart : other ≠ name) :
    (before ++ (name, v) :: after).lookup other = (before ++ (name, v') :: after).lookup other := by
  rw [lookupApart v apart, lookupApart v' apart]

theorem locationSame {given given' : List (String × Json)} (agree : Agree Location.keys given given') :
    Same kind (.object (before ++ ("location", .object given) :: after))
      (.object (before ++ ("location", .object given') :: after)) := by
  have beside (name : String) (apart : name ≠ "location") :=
    lookupBeside before after (.object given) (.object given') apart
  refine recordSame (aimAgree (beside _ (by decide)) (beside _ (by decide))) ?_
    (explanationAgree (beside _ (by decide))) fun i t _ => ?_
  · simp only [place?, Intake.optionalValue, Intake.valueWord, lookupHere]
    cases before.lookup "location" with
    | some j => rfl
    | none =>
      simp only [Option.none_or, Intake.nullableValue, Location.readAgree agree, reduceCtorEq, if_false]
  · rw [dataAgree (beside _ (by decide))]
    exact sameDataRefl i t _

theorem dataSame {given given' : List (String × Json)}
    (same : ∀ i t, aim? (before ++ ("data", .object given) :: after) = some (i, t) → SameData kind i t given given') :
    Same kind (.object (before ++ ("data", .object given) :: after))
      (.object (before ++ ("data", .object given') :: after)) := by
  have beside (name : String) (apart : name ≠ "data") :=
    lookupBeside before after (.object given) (.object given') apart
  refine recordSame (aimAgree (beside _ (by decide)) (beside _ (by decide))) (placeAgree (beside _ (by decide)))
    (explanationAgree (beside _ (by decide))) fun i t aim => ?_
  simp only [data?, Intake.optionalValue, Intake.valueWord, lookupHere]
  cases before.lookup "data" with
  | some j => exact sameDataRefl i t _
  | none => exact .some (.some (same i t aim))

end

theorem commandsApart {i : Intent} {t : Target} (simple : i = .clarify ∨ t ≠ .multiple) :
    ∀ key ∈ Payload.keys kind i t, key.camel ≠ "commands" ∧ key.snake ≠ "commands" := by
  revert simple
  cases kind <;> cases i <;> cases t <;> decide

theorem partSame {front left right back : _} {j j' : Json} (same : Same kind j j') (i : Intent) (t : Target) :
    SameData kind i t (front ++ ("commands", .list (left ++ j :: right)) :: back)
      (front ++ ("commands", .list (left ++ j' :: right)) :: back) := by
  by_cases simple : i = .clarify ∨ t ≠ .multiple
  · refine .agree fun key known => ?_
    obtain ⟨camel, snake⟩ := commandsApart simple key known
    rw [Intake.valueLookup, Intake.valueLookup, lookupBeside _ _ _ _ camel, lookupBeside _ _ _ _ snake]
  · obtain ⟨tells, compound⟩ := not_or.mp simple
    refine .listed (not_not.mp compound) tells ?_
    rw [lookupHere, lookupHere]
    cases front.lookup "commands" with
    | some found => exact .equal _
    | none =>
      have kept (items : List Json) : List.Forall₂ (Same kind) items items := List.forall₂_same.mpr fun j _ => .refl kind j
      exact .listed (List.rel_append (kept left) (.cons same (kept right)))

end Draft

/-- One change of wording in a command, at any level. -/
inductive Restyled (kind : Kind) : Json → Json → Prop where
  | top {fields fields' : List (String × Json)} (step : Reworded Draft.keys fields fields') :
      Restyled kind (.object fields) (.object fields')
  | location (before after : List (String × Json)) {given given' : List (String × Json)}
      (step : Reworded Location.keys given given') :
      Restyled kind (.object (before ++ ("location", .object given) :: after))
        (.object (before ++ ("location", .object given') :: after))
  | data (before after : List (String × Json)) {given given' : List (String × Json)}
      (step : Reworded (Draft.dataKeys kind (before ++ ("data", .object given) :: after)) given given') :
      Restyled kind (.object (before ++ ("data", .object given) :: after))
        (.object (before ++ ("data", .object given') :: after))
  | part (before after front back : List (String × Json)) (left right : List Json) {j j' : Json}
      (step : Restyled kind j j') :
      Restyled kind
        (.object (before ++ ("data", .object (front ++ ("commands", .list (left ++ j :: right)) :: back)) :: after))
        (.object (before ++ ("data", .object (front ++ ("commands", .list (left ++ j' :: right)) :: back)) :: after))

theorem restyledSame {kind : Kind} {raw raw' : Json} (step : Restyled kind raw raw') : Same kind raw raw' := by
  induction step with
  | top step => exact Draft.topSame step
  | location before after step => exact Draft.locationSame (rewordedAgree (by decide) step)
  | data before after step =>
    refine Draft.dataSame fun i t aim => .agree ?_
    rw [Draft.dataKeys, aim] at step
    exact rewordedAgree (keysApart kind i t) step
  | part before after front back left right _ ih => exact Draft.dataSame fun i t _ => Draft.partSame ih i t

theorem wordingIdle {kind : Kind} {raw raw' : Json} (restyled : ReflTransGen (Restyled kind) raw raw') :
    (∀ c, validate kind raw = .ok c ↔ validate kind raw' = .ok c) ∧
      ((∃ refusal, validate kind raw = .error refusal) ↔ ∃ refusal, validate kind raw' = .error refusal) := by
  have same : Same kind raw raw' := by
    induction restyled with
    | refl => exact .refl kind raw
    | tail _ step ih => exact ih.trans (restyledSame step)
  have verdict := same.verdict
  cases left : validate kind raw <;> cases right : validate kind raw' <;> simp_all [Except.toOption]

def classified (place category : String) (more : List (String × Json)) : Json :=
  gathered [.object ([("intent", .text "ADD"), ("target", .text "HAZARD"), ("location", .object [(place, .int 0)]),
    ("data", .object [("label", .text "Crushing"), (category, .text "FALLS")])] ++ more)]

theorem wordingIdleClassified :
    (∃ c, validate .riskAssessment (classified "step_index" "category_code" [("Step", .int 3)]) = .ok c ∧
      c.parts.length = 1 ∧ validate .riskAssessment (classified "stepIndex" "categoryCode" []) = .ok c) := by
  have apart {P : String × Json → Prop} {f : String × Json} (kept : P f) : ∀ x ∈ [f], P x :=
    List.forall_mem_singleton.mpr kept
  have inside {j j' : Json} (step : Restyled .riskAssessment j j') :
      Restyled .riskAssessment (gathered [j]) (gathered [j']) :=
    .part [_, _, _] [] [] [] [] [] step
  have placed : Restyled .riskAssessment (classified "stepIndex" "categoryCode" [])
      (classified "step_index" "categoryCode" []) :=
    inside (.location [_, _] [_] (.snake ⟨"stepIndex", "step_index"⟩ [] [] (by decide) (by decide)))
  have spelt : Restyled .riskAssessment (classified "step_index" "categoryCode" [])
      (classified "step_index" "category_code" []) :=
    inside (.data [_, _, _] [] (.snake ⟨"categoryCode", "category_code"⟩ [_] [] (by decide) (apart (by decide))))
  have added : Restyled .riskAssessment (classified "step_index" "category_code" [])
      (classified "step_index" "category_code" [("Step", .int 3)]) :=
    inside (.top (.added [_, _, _, _] [] (by decide)))
  have same := (wordingIdle (.tail (.tail (.single placed) spelt) added)).1
  have size : ((validate .riskAssessment (classified "step_index" "category_code" [("Step", .int 3)])).toOption.map
      (·.parts.length)) = some 1 := by decide +kernel
  cases valid : validate .riskAssessment (classified "step_index" "category_code" [("Step", .int 3)]) with
  | error refusal =>
    rw [valid] at size
    contradiction
  | ok c =>
    rw [valid] at size
    exact ⟨c, rfl, Option.some.inj size, (same c).mpr valid⟩

end SafetyCase
