import SafetyCase.Proofs.Returns
import SafetyCase.Proofs.Settlement
/-! What an accepted command promises to the store. The forms in which its data is read and the types that entities are
built from are written apart from each other; for every kind of document they agree, so that no accepted
change is turned down for its fields. -/
namespace SafetyCase

namespace EntityType

variable {t : EntityType}

def Settable (t : EntityType) (name : String) : Prop :=
  name ∈ t.fieldNames ∧ name ≠ "id" ∧ name ≠ "order_index" ∧ t.parentKey ≠ some name

instance (t : EntityType) (name : String) : Decidable (t.Settable name) := by unfold Settable; infer_instance

theorem formSettable (t : EntityType) : ∀ a ∈ t.form.map (·.sets), t.Settable a.name := by
  cases t <;> decide

theorem newTextSettable (t : EntityType) : t.Settable t.newText.1.name := by
  cases t <;> decide

theorem settableKnown {name : String} (settable : t.Settable name) : (t.attribute? name).isSome = true := by
  obtain ⟨named, apart, unplaced, below⟩ := settable
  have among : name ∈ t.attributes.map (·.1.name) := by
    rcases List.mem_append.mp named with front | rest
    · rcases List.mem_cons.mp front with rfl | key
      · exact absurd rfl apart
      · exact absurd (Option.mem_toList.mp key) below
    · exact (List.mem_cons.mp rest).resolve_left unplaced
  obtain ⟨f, listed, rfl⟩ := List.mem_map.mp among
  rw [attribute?, List.find?_isSome]
  exact ⟨f.1, List.mem_map_of_mem listed, by simp⟩

end EntityType

theorem Entity.buildReturns {t : EntityType} {parent : Option Identifier} {data : List (String × Value)}
    (settable : ∀ c ∈ data, t.Settable c.1) (parented : t.isTop = true ∨ parent.isSome = true) (id : Identifier) :
    ∃ x, build t id parent data = .ok x := by
  have known : (data.map (·.1)).filter (fun name => !t.fieldNames.contains name) = [] := by
    simp only [List.filter_eq_nil_iff, List.mem_map]
    rintro _ ⟨c, listed, rfl⟩
    simp [(settable c listed).1]
  have under : (!t.isTop && parent.isNone) = false := by
    rcases parented with given | given <;> simp [given]
  rw [build, known]
  simp [under]

structure Edit.Storable (t : EntityType) (e : Edit) : Prop where
  fields : e.intent.needsData = true → e.target ≠ .assessment → ∀ c ∈ e.changes, t.Settable c.1
  rates : e.intent.needsData = true → e.target = .assessment →
    ∃ a, e.payload = some (.assessment a) ∧ a.rates = true
  changes : e.intent = .modify → e.changes ≠ []
  refers : e.intent = .modify ∨ e.intent = .delete → e.location.hasReference = true
  orders : e.intent = .reorder → ∃ first rest, e.payload = some (.order (first :: rest))
  builds : e.intent.needsData = true → e.target ≠ .assessment → ∀ id parent,
    (∃ x, Entity.build t id (some parent) e.values = .ok x) ∧
      ∃ x, Entity.build t id (some parent) (e.newValues t) = .ok x
  patches : e.intent.needsData = true → e.target ≠ .assessment → ∀ x : Entity, (x.patch t e.values).2 = .ok ()
  -- an assessment is not written with its own fields, but as the rating that they make
  rerates : e.target = .assessment → ∀ (slot : RatingSlot) (rating : Value) (x : Entity),
    (x.patch t [(slot.toAttribute.name, rating)]).2 = .ok ()

namespace Edit

variable {k : Kind} {t : EntityType} {e : Edit}

theorem fitSettable (fits : e.Fits k) (type : e.target.entityType? k = some t) (fills : e.intent.needsData = true)
    (plain : e.target ≠ .assessment) : ∀ c ∈ e.changes, t.Settable c.1 := by
  cases fits with
  | rates target => exact absurd target plain
  | unrates target => exact absurd target plain
  | deletes _ _ intent => simp [intent, Intent.needsData] at fills
  | orders _ _ intent => simp [intent, Intent.needsData] at fills
  | fills _ same _ read payload =>
    cases type.symm.trans same
    intro c listed
    simp only [changes, payload, Payload.changes, Option.map_some, Option.getD_some] at listed
    obtain ⟨f, inside, rfl⟩ := List.mem_map.mp listed
    exact EntityType.formSettable t f.1 (readFormNames read f inside)

theorem fitHazard (fits : e.Fits k) (type : e.target.entityType? k = some t) (rates : e.target = .assessment) :
    t = .hazard := by
  have supported : k.supportsAssessment = true := by
    cases fits with
    | rates _ supported => exact supported
    | unrates _ supported => exact supported
    | fills plain | deletes plain | orders plain => exact absurd rates plain
  cases k <;> simp_all [Target.entityType?, Kind.supportsAssessment, Kind.secondLevel]

end Edit

namespace Draft

variable {k : Kind} {t : EntityType} {e : Edit} {d : Draft}

theorem changesGiven {payload : Option Payload} (modifies : d.intent = .modify)
    (whole : d.shortfall? payload = none) : (payload.map (·.changes)).getD [] ≠ [] := by
  intro none
  simp [shortfall?, modifies, none] at whole

theorem madeStorable (made : Made k e) (type : e.target.entityType? k = some t) : e.Storable t := by
  have fits := madeFits made
  obtain ⟨d, done, -, -⟩ := made
  have accepted := accepted done
  have settable (fills : e.intent.needsData = true) (plain : e.target ≠ .assessment) :
      ∀ c ∈ e.values, t.Settable c.1 := by
    intro c listed
    obtain ⟨c, inside, rfl⟩ := List.mem_map.mp listed
    exact Edit.fitSettable fits type fills plain c inside
  refine ⟨Edit.fitSettable fits type, fun fills rates => ?_, fun modifies => ?_, fun refers => ?_, orderFilled done,
    fun fills plain id parent => ⟨?_, ?_⟩, fun fills plain x => ?_, fun rates slot rating x => ?_⟩
  · cases fits with
    | rates _ _ _ payload axes => exact ⟨_, payload, axes⟩
    | unrates _ _ intent => simp [intent, Intent.needsData] at fills
    | fills plain | deletes plain | orders plain => exact absurd rates plain
  · exact changesGiven (accepted.intent.symm.trans modifies) accepted.whole
  · rw [accepted.location]
    refine (unhindered accepted.free).2.2 ?_
    rw [← accepted.intent]
    rcases refers with intent | intent <;> rw [intent] <;> rfl
  · exact Entity.buildReturns (settable fills plain) (.inr rfl) id
  · refine Entity.buildReturns (fun c listed => ?_) (.inr rfl) id
    rcases List.mem_append.mp listed with given | new
    · exact settable fills plain c given
    · rw [List.mem_singleton.mp new]
      exact EntityType.newTextSettable t
  · exact Entity.patchEnds (fun c listed => EntityType.settableKnown (settable fills plain c listed)) x
  · refine Entity.patchEnds (fun c listed => ?_) x
    rw [List.mem_singleton.mp listed, Edit.fitHazard fits type rates]
    exact Edit.ratingKnown slot

end Draft

theorem validatedParts {k : Kind} {raw : Json} {c : Command} (done : validate k raw = .ok c)
    (tells : c.isClarification = false) (compound : c.target = .multiple) :
    c.parts ≠ [] ∧ ∀ e ∈ c.parts, Draft.Made k e := by
  unfold validate at done
  split at done
  · contradiction
  · split at done
    · rename_i asks
      cases done
      simp [Command.isClarification, Command.single, (Draft.questionForm asks).1] at tells
    · split at done
      · exact (Draft.compoundParts done).2
      · rename_i single
        split at done
        · rename_i accepted
          cases done
          exact absurd ((Draft.accepted accepted).target.symm.trans compound) single
        · contradiction

theorem validatedStorable {k : Kind} {raw : Json} {c : Command} (done : validate k raw = .ok c)
    (tells : c.isClarification = false) :
    (c.target = .multiple → c.parts ≠ [] ∧ ∀ e ∈ c.parts, e.target ≠ .multiple ∧ e.intent ≠ .clarify) ∧
      ∀ e ∈ c.leaves, ∃ t, e.target.entityType? k = some t ∧ k.Uses t ∧ e.Storable t := by
  have made := validatedMade done tells
  refine ⟨fun compound => ?_, fun e listed => ?_⟩
  · obtain ⟨filled, parts⟩ := validatedParts done tells compound
    refine ⟨filled, fun e listed => ⟨fun nested => ?_, (Draft.madeExecutable (parts e listed)).tells⟩⟩
    have type := (Draft.madeExecutable (parts e listed)).type
    simp [nested, Target.entityType?] at type
  · have executable := Draft.madeExecutable (made e listed)
    obtain ⟨t, type⟩ := Option.isSome_iff_exists.mp executable.type
    exact ⟨t, type, Target.typeUsed type, Draft.madeStorable (made e listed) type⟩

def bundled : Json :=
  worded "ADD" "MULTIPLE" [] [("commands", .list [worded "ADD" "STEP" [] [("activity", .text "Load")],
    worded "MODIFY" "ASSESSMENT" [("hazardIndex", .int 0)] [("severity", .text "Major")],
    worded "CLARIFY" "STEP" [] [], worded "ADD" "MULTIPLE" [] [("commands", .list [worded "ADD" "STEP" [] []])],
    worded "REORDER" "STEP" [] [("orderedIds", .list [.text "1"])]])]

theorem validatedStorableBundled : ∃ c, validate .riskAssessment bundled = .ok c ∧ c.target = .multiple ∧
    c.parts.map (fun e => (e.intent, e.target)) = [(.add, .step), (.modify, .assessment), (.reorder, .step)] ∧
    ∀ e ∈ c.leaves, ∃ t, e.target.entityType? .riskAssessment = some t ∧ Kind.Uses .riskAssessment t ∧
      e.Storable t := by
  have accepted : ((validate .riskAssessment bundled).toOption.map fun c => (c.isClarification, c.target,
      c.parts.map fun e => (e.intent, e.target))) =
      some (false, .multiple, [(.add, .step), (.modify, .assessment), (.reorder, .step)]) := by decide +kernel
  cases done : validate .riskAssessment bundled with
  | error refusal =>
    rw [done] at accepted
    contradiction
  | ok c =>
    rw [done] at accepted
    obtain ⟨tells, rest⟩ := Prod.mk.inj (Option.some.inj accepted)
    obtain ⟨target, parts⟩ := Prod.mk.inj rest
    exact ⟨c, rfl, target, parts, (validatedStorable done tells).2⟩

end SafetyCase
