import Mathlib
import SafetyCase.Document.View
import SafetyCase.Proofs.Dates
import SafetyCase.Proofs.Naming
/-! What each field of an entity is declared to hold, and that what is shown of an entity tells all of it: no two values
of one declaration are shown alike, be they texts, choices, dates or ratings, nor are two entities of one type. -/
namespace SafetyCase

inductive Content where
  | text | texts | flag | date | rating
  | choice (options : List String)

inductive Declaration where
  | always (c : Content)
  | maybe (c : Content)

namespace Content

def Held : Content → Type
  | text => String
  | texts => List String
  | flag => Bool
  | date => { d : Date // d.Valid }
  | rating => Rating
  | choice options => { s : String // s ∈ options }

def write : (c : Content) → c.Held → Value
  | text, s => .data (.text s)
  | texts, items => .data (.list (items.map .text))
  | flag, b => .data (.bool b)
  | date, d => .data (.text d.1.text)
  | rating, r => .rating r
  | choice _, s => .data (.text s.1)

end Content

namespace Declaration

def Held : Declaration → Type
  | always c => c.Held
  | maybe c => Option c.Held

def write : (f : Declaration) → f.Held → Value
  | always c, x => c.write x
  | maybe c, x => x.elim .absent c.write

end Declaration

def EntityType.declared : EntityType → List (Attribute × Declaration)
  | .step =>
    [(.activity, .always .text), (.equipment, .always .texts), (.substances, .always .texts), (.description, .maybe .text)]
  | .hazard =>
    [(.label, .always .text), (.description, .maybe .text), (.categoryCode, .maybe .text), (.consequence, .maybe .text),
      (.existingControls, .always .texts), (.baseline, .maybe .rating), (.residual, .maybe .rating)]
  | .control =>
    [(.description, .always .text),
      (.hierarchy, .maybe (.choice ["SUBSTITUTION", "TECHNICAL", "ORGANIZATIONAL", "PPE"]))]
  | .action =>
    [(.description, .always .text), (.owner, .maybe .text), (.dueDate, .maybe .date),
      (.status, .always (.choice ["OPEN", "IN_PROGRESS", "COMPLETE"]))]
  | .timelineEvent =>
    [(.text, .always .text), (.timeLabel, .maybe .text),
      (.confidence, .always (.choice ["CONFIRMED", "LIKELY", "UNCLEAR"]))]
  | .cause => [(.statement, .always .text), (.isRootCause, .always .flag)]

def Conforms (f : Attribute × Value) (g : Attribute × Declaration) : Prop :=
  f.1 = g.1 ∧ ∃ x : g.2.Held, f.2 = g.2.write x

structure Entity.Declared (t : EntityType) (e : Entity) : Prop where
  parent : e.parent.isSome = !t.isTop
  fields : List.Forall₂ Conforms e.attributes t.declared

theorem EntityType.defaultsConform (t : EntityType) : List.Forall₂ Conforms t.attributes t.declared := by
  have text (s : String) : ∃ x : (Declaration.always .text).Held, Value.data (.text s) = Declaration.write _ x := ⟨s, rfl⟩
  have empty (c : Content) : ∃ x : (Declaration.maybe c).Held, Value.absent = Declaration.write _ x := ⟨none, rfl⟩
  have texts : ∃ x : (Declaration.always .texts).Held, Value.data (.list []) = Declaration.write _ x := ⟨[], rfl⟩
  have choice {options : List String} {s : String} (listed : s ∈ options) :
      ∃ x : (Declaration.always (.choice options)).Held, Value.data (.text s) = Declaration.write _ x := ⟨⟨s, listed⟩, rfl⟩
  cases t with
  | step => exact .cons ⟨rfl, text ""⟩ (.cons ⟨rfl, texts⟩ (.cons ⟨rfl, texts⟩ (.cons ⟨rfl, empty _⟩ .nil)))
  | hazard =>
    exact .cons ⟨rfl, text ""⟩ (.cons ⟨rfl, empty _⟩ (.cons ⟨rfl, empty _⟩ (.cons ⟨rfl, empty _⟩ (.cons ⟨rfl, texts⟩
      (.cons ⟨rfl, empty _⟩ (.cons ⟨rfl, empty _⟩ .nil))))))
  | control => exact .cons ⟨rfl, text ""⟩ (.cons ⟨rfl, empty _⟩ .nil)
  | action =>
    exact .cons ⟨rfl, text ""⟩ (.cons ⟨rfl, empty _⟩ (.cons ⟨rfl, empty _⟩ (.cons ⟨rfl, choice (by decide)⟩ .nil)))
  | timelineEvent => exact .cons ⟨rfl, text ""⟩ (.cons ⟨rfl, empty _⟩ (.cons ⟨rfl, choice (by decide)⟩ .nil))
  | cause => exact .cons ⟨rfl, text ""⟩ (.cons ⟨rfl, ⟨false, rfl⟩⟩ .nil)

theorem Json.ofOptionApart {write : α → Json} (shown : ∀ a, write a ≠ .null)
    (apart : ∀ a b, write a = write b → a = b) {x y : Option α} (same : ofOption write x = ofOption write y) : x = y := by
  cases x with
  | none =>
    cases y with
    | none => rfl
    | some b => exact absurd same.symm (shown b)
  | some a =>
    cases y with
    | none => exact absurd same (shown a)
    | some b => rw [apart a b same]

theorem Rating.shownApart {r r' : Rating} (same : r.toJson = r'.toJson) : r = r' := by
  obtain ⟨s, l, b⟩ := r
  obtain ⟨s', l', b'⟩ := r'
  simp only [toJson, Json.object.injEq, List.cons.injEq, Prod.mk.injEq, true_and, and_true] at same
  obtain ⟨severity, likelihood, band⟩ := same
  have coded {α : Type} {code : α → String} {read : String → Option α} (back : ∀ a, read (code a) = some a)
      {x y : Option α} (equal : Json.ofOption (.text <| code ·) x = Json.ofOption (.text <| code ·) y) : x = y := by
    refine Json.ofOptionApart ?_ (fun a a' same => ?_) equal
    · exact fun _ => nofun
    · exact Option.some.inj ((back a).symm.trans ((congrArg read (Json.text.inj same)).trans (back a')))
  rw [coded Severity.codeRead severity, coded Likelihood.codeRead likelihood, coded Band.codeRead band]

theorem Date.textInjective {d d' : Date} (valid : d.Valid) (valid' : d'.Valid) (same : d.text = d'.text) : d = d' := by
  have read := textRead valid
  rw [same, textRead valid'] at read
  exact (Except.ok.inj read).symm

namespace Content

theorem shown (c : Content) (x : c.Held) : (c.write x).toJson ≠ .null := by
  cases c <;> exact nofun

theorem shownApart (c : Content) (x y : c.Held) (same : (c.write x).toJson = (c.write y).toJson) : x = y := by
  cases c with
  | text => exact Json.text.inj same
  | texts => exact (List.map_injective_iff.mpr fun _ _ => Json.text.inj) (Json.list.inj same)
  | flag => exact Json.bool.inj same
  | date => exact Subtype.ext (Date.textInjective x.2 y.2 (Json.text.inj same))
  | rating => exact Rating.shownApart same
  | choice options => exact Subtype.ext (Json.text.inj same)

end Content

theorem Declaration.shownApart (f : Declaration) (x y : f.Held) (same : (f.write x).toJson = (f.write y).toJson) : x = y := by
  cases f with
  | always c => exact c.shownApart x y same
  | maybe c =>
    have option (z : Option c.Held) : ((maybe c).write z).toJson = Json.ofOption (fun a => (c.write a).toJson) z := by
      cases z <;> rfl
    exact Json.ofOptionApart c.shown c.shownApart ((option x).symm.trans (same.trans (option y)))

namespace Entity

variable {t : EntityType} {a b : Entity}

theorem fieldsApart {fs fs' : List (Attribute × Value)} {gs : List (Attribute × Declaration)}
    (conform : List.Forall₂ Conforms fs gs) (conform' : List.Forall₂ Conforms fs' gs)
    (same : fs.map (fun f => (f.1.name, f.2.toJson)) = fs'.map fun f => (f.1.name, f.2.toJson)) : fs = fs' := by
  induction conform generalizing fs' with
  | nil =>
    cases conform'
    rfl
  | cons first _ ih =>
    cases conform' with
    | cons first' rest' =>
      obtain ⟨named, x, held⟩ := first
      obtain ⟨named', y, held'⟩ := first'
      obtain ⟨here, later⟩ := List.cons.inj same
      have value := (Prod.mk.inj here).2
      rw [held, held'] at value
      rw [ih rest' later, Prod.ext (named.trans named'.symm) (by rw [held, held', Declaration.shownApart _ x y value])]

theorem shownApart (declared : a.Declared t) (declared' : b.Declared t) (same : a.toJson t = b.toJson t) : a = b := by
  have identifier (i j : Identifier) (equal : i.toJson = j.toJson) : i = j :=
    Identifier.textInjective (Json.text.inj equal)
  obtain ⟨front, rest⟩ := List.append_inj (Json.object.inj same) (by simp [parentField])
  obtain ⟨id, parent⟩ := List.cons.inj front
  obtain ⟨order, fields⟩ := List.cons.inj rest
  have parents : a.parent = b.parent := by
    cases top : t.parentKey with
    | none =>
      have none (e : Entity) (declared : e.Declared t) : e.parent = none := by
        simpa [EntityType.isTop, top] using declared.parent
      rw [none a declared, none b declared']
    | some key =>
      simp only [parentField, top, Option.toList_some, List.map_cons, List.map_nil, List.cons.injEq, Prod.mk.injEq,
        true_and, and_true] at parent
      have shown (i : Identifier) : i.toJson ≠ .null := nofun
      exact Json.ofOptionApart shown identifier parent
  have ids := identifier _ _ (Prod.mk.inj id).2
  have orders := Json.int.inj (Prod.mk.inj order).2
  have attributes := fieldsApart declared.fields declared'.fields fields
  cases a
  cases b
  simp_all

end Entity
end SafetyCase
