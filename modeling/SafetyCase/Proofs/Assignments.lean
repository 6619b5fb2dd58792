import SafetyCase.Proofs.Wholeness
/-! Partial updates as assignments. A value is put in the place of the one before it, while a rating is merged
into it and takes only the axes that it has. Assignments to different attributes can be exchanged, and so can
two ratings of one attribute that have no axis in common; an assignment that is made twice is made once. -/
namespace SafetyCase

namespace Rating

variable {r : Option Rating} {first second : Rating}

def take (r : Option Rating) (given : Rating) : Rating := merge r given.severity given.likelihood

theorem takeTwice (r : Option Rating) (given : Rating) : take (some (take r given)) given = take r given := by
  obtain ⟨severity, likelihood, band⟩ := given
  cases severity <;> cases likelihood <;> rfl

def Apart (first second : Rating) : Prop :=
  (first.severity = none ∨ second.severity = none) ∧ (first.likelihood = none ∨ second.likelihood = none)

theorem takeApart (apart : Apart first second) :
    take (some (take r first)) second = take (some (take r second)) first := by
  obtain ⟨severity, likelihood, band⟩ := first
  obtain ⟨severity', likelihood', band'⟩ := second
  obtain ⟨one, two⟩ := apart
  dsimp only at one two
  rcases one with rfl | rfl <;> rcases two with rfl | rfl <;> cases r <;> simp [take, merge, ofAxes]

end Rating

namespace Entity

variable {x : Entity} {a b : Attribute} {v w : Value}

theorem setTwice (x : Entity) (a : Attribute) (v w : Value) : (x.set a v).set a w = x.set a w := by
  simp only [set, List.map_map]
  congr 1
  refine List.map_congr_left fun f _ => ?_
  by_cases own : f.1 = a <;> simp [own]

theorem setApart (apart : a ≠ b) (x : Entity) (v w : Value) : (x.set a v).set b w = (x.set b w).set a v := by
  simp only [set, List.map_map]
  congr 1
  refine List.map_congr_left fun f _ => ?_
  by_cases own : f.1 = a
  · simp [own, apart]
  · by_cases other : f.1 = b
    · simp [other, apart.symm]
    · simp [own, other]

theorem ratingBeside (apart : a ≠ b) (x : Entity) (v : Value) : (x.set a v).rating? b = x.rating? b := by
  rw [rating?, getSet, rating?]
  simp [apart.symm]

theorem setMissing (missing : x.get? a = none) (v : Value) : x.set a v = x := by
  have other : ∀ f ∈ x.attributes, f.1 ≠ a := by
    intro f listed same
    rw [get?, List.lookup_eq_none_iff] at missing
    simpa [same] using missing f listed
  have kept : x.attributes.map (fun f => if f.1 = a then (a, v) else f) = x.attributes.map fun f => f :=
    List.map_congr_left fun f listed => if_neg (other f listed)
  rw [set, kept, List.map_id']

theorem ratingSet (held : x.get? a = some v) (r : Rating) : (x.set a (.rating r)).rating? a = some r := by
  rw [rating?, getSet, held]
  simp [Value.rating?]

theorem assignRating (x : Entity) (a : Attribute) (r : Rating) :
    x.assign a (.rating r) = x.set a (.rating (Rating.take (x.rating? a) r)) := rfl

theorem assignMissing (missing : x.get? a = none) (v : Value) : x.assign a v = x := by
  cases v <;> exact setMissing missing _

theorem assignTwice (x : Entity) (a : Attribute) (v : Value) : (x.assign a v).assign a v = x.assign a v := by
  cases held : x.get? a with
  | none => rw [assignMissing held, assignMissing held]
  | some old =>
    cases v with
    | data j => exact setTwice x a _ _
    | rating r => rw [assignRating, assignRating, ratingSet held, Rating.takeTwice, setTwice]

inductive Separate : Attribute × Value → Attribute × Value → Prop where
  | elsewhere {a b : Attribute} {v w : Value} (other : a ≠ b) : Separate (a, v) (b, w)
  | axes {a : Attribute} {first second : Rating} (apart : first.Apart second) :
      Separate (a, .rating first) (a, .rating second)

theorem assignSeparate {c c' : Attribute × Value} (separate : Separate c c') (x : Entity) :
    (x.assign c.1 c.2).assign c'.1 c'.2 = (x.assign c'.1 c'.2).assign c.1 c.2 := by
  cases separate with
  | @elsewhere a b v w other =>
    cases v <;> cases w <;> simp only [assign]
    · exact setApart other x _ _
    · rw [ratingBeside other, setApart other]
    · rw [ratingBeside other.symm, setApart other]
    · rw [ratingBeside other, ratingBeside other.symm, setApart other]
  | @axes a first second apart =>
    cases held : x.get? a with
    | none => simp only [assignMissing held]
    | some old => simp only [assignRating, ratingSet held, setTwice, Rating.takeApart apart]

def assigned (x : Entity) (cs : List (Attribute × Value)) : Entity := cs.foldl (fun x c => x.assign c.1 c.2) x

theorem assignedBeside {c : Attribute × Value} {cs : List (Attribute × Value)} (separate : ∀ c' ∈ cs, Separate c c')
    (x : Entity) : (x.assign c.1 c.2).assigned cs = (x.assigned cs).assign c.1 c.2 := by
  induction cs generalizing x with
  | nil => rfl
  | cons c' rest ih =>
    obtain ⟨here, later⟩ := List.forall_mem_cons.mp separate
    simp only [assigned, List.foldl_cons] at ih ⊢
    rw [assignSeparate here, ih later]

theorem assignedSeparate {cs cs' : List (Attribute × Value)} (separate : ∀ c ∈ cs, ∀ c' ∈ cs', Separate c c')
    (x : Entity) : (x.assigned cs).assigned cs' = (x.assigned cs').assigned cs := by
  induction cs generalizing x with
  | nil => rfl
  | cons c rest ih =>
    obtain ⟨here, later⟩ := List.forall_mem_cons.mp separate
    calc ((x.assign c.1 c.2).assigned rest).assigned cs'
        = ((x.assign c.1 c.2).assigned cs').assigned rest := ih later _
      _ = ((x.assigned cs').assign c.1 c.2).assigned rest := by rw [assignedBeside here]

theorem assignedTwice {cs : List (Attribute × Value)} (once : (cs.map (·.1)).Nodup) (x : Entity) :
    (x.assigned cs).assigned cs = x.assigned cs := by
  induction cs generalizing x with
  | nil => rfl
  | cons c rest ih =>
    obtain ⟨absent, once⟩ := List.nodup_cons.mp once
    have beside : ∀ c' ∈ rest, Separate c c' := fun c' listed =>
      .elsewhere fun same => absent (List.mem_map.mpr ⟨c', listed, same.symm⟩)
    calc (((x.assign c.1 c.2).assigned rest).assign c.1 c.2).assigned rest
        = (((x.assign c.1 c.2).assign c.1 c.2).assigned rest).assigned rest := by rw [← assignedBeside beside]
      _ = (x.assign c.1 c.2).assigned rest := by rw [assignTwice, ih once]

end Entity
end SafetyCase
