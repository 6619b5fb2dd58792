import Mathlib.Data.List.Induction
import SafetyCase.Proofs.Assignments
import SafetyCase.Proofs.Soundness
/-! What assessments leave of a rating. Each of them clears the rating or gives it axes, and only what came after the
last clearing counts: per axis the last value that was given, or else the one from before. -/
namespace SafetyCase

inductive Mark where
  | cleared
  | given (severity : Option Severity) (likelihood : Option Likelihood)
  deriving DecidableEq

namespace Mark

def severity : Mark → Option Severity
  | cleared => none
  | given s _ => s

def likelihood : Mark → Option Likelihood
  | cleared => none
  | given _ l => l

def apply (v : Value) : Mark → Value
  | cleared => .absent
  | given s l => .rating (Rating.merge v.rating? s l)

/-- The marks since the rating was last cleared, the latest first. -/
def since (marks : List Mark) : List Mark := marks.reverse.takeWhile (· ≠ cleared)

def base (initial : Value) (marks : List Mark) : Value := if cleared ∈ marks then .absent else initial

structure Follows (initial : Value) (marks : List Mark) (final : Value) : Prop where
  absent : final = .absent ↔ base initial marks = .absent ∧ since marks = []
  rated : final ≠ .absent → ∃ r : Rating, final = .rating r ∧
    r.severity = ((since marks).findSome? severity <|> (base initial marks).rating?.bind (·.severity)) ∧
    r.likelihood = ((since marks).findSome? likelihood <|> (base initial marks).rating?.bind (·.likelihood)) ∧
    r.band = Rating.bandOf r.severity r.likelihood

def Sane (v : Value) : Prop := v = .absent ∨ ∃ r : Rating, v = .rating r ∧ r.Consistent

theorem sinceCleared (marks : List Mark) : since (marks ++ [cleared]) = [] := by simp [since]

theorem sinceGiven (marks : List Mark) (s : Option Severity) (l : Option Likelihood) :
    since (marks ++ [given s l]) = given s l :: since marks := by simp [since]

theorem baseCleared (initial : Value) (marks : List Mark) : base initial (marks ++ [cleared]) = .absent := by
  simp [base]

theorem baseGiven (initial : Value) (marks : List Mark) (s : Option Severity) (l : Option Likelihood) :
    base initial (marks ++ [given s l]) = base initial marks := by simp [base]

theorem Follows.axes {initial v : Value} {marks : List Mark} (follows : Follows initial marks v) :
    v.rating?.bind (·.severity) =
        ((since marks).findSome? severity <|> (base initial marks).rating?.bind (·.severity)) ∧
      v.rating?.bind (·.likelihood) =
        ((since marks).findSome? likelihood <|> (base initial marks).rating?.bind (·.likelihood)) := by
  by_cases left : v = .absent
  · obtain ⟨cleared, none⟩ := follows.absent.mp left
    rw [left, cleared, none]
    exact ⟨rfl, rfl⟩
  · obtain ⟨r, rfl, severity, likelihood, -⟩ := follows.rated left
    exact ⟨severity, likelihood⟩

theorem followsStep {initial v : Value} {marks : List Mark} (follows : Follows initial marks v) (m : Mark) :
    Follows initial (marks ++ [m]) (apply v m) := by
  cases m with
  | cleared => exact ⟨by simp [apply, baseCleared, sinceCleared], fun left => absurd rfl left⟩
  | given s l =>
    have present : Value.rating (Rating.merge v.rating? s l) ≠ .absent := by simp [Value.absent]
    obtain ⟨severity, likelihood⟩ := follows.axes
    refine ⟨by simp [apply, sinceGiven, present], fun _ => ⟨_, rfl, ?_, ?_, rfl⟩⟩
    · simp only [Rating.merge, Rating.ofAxes, severity, sinceGiven, baseGiven, List.findSome?_cons]
      cases s <;> rfl
    · simp only [Rating.merge, Rating.ofAxes, likelihood, sinceGiven, baseGiven, List.findSome?_cons]
      cases l <;> rfl

theorem follows {initial : Value} (sane : Sane initial) (marks : List Mark) :
    Follows initial marks (marks.foldl apply initial) := by
  induction marks using List.reverseRecOn with
  | nil =>
    refine ⟨by simp [base, since], fun left => ?_⟩
    obtain ⟨r, rfl, consistent⟩ := sane.resolve_left left
    exact ⟨r, rfl, by simp [since, base, Value.rating?], by simp [since, base, Value.rating?], consistent⟩
  | append_singleton marks m ih =>
    rw [List.foldl_append]
    exact followsStep ih m

theorem Follows.unique {initial v w : Value} {marks : List Mark} (one : Follows initial marks v)
    (two : Follows initial marks w) : v = w := by
  by_cases left : base initial marks = .absent ∧ since marks = []
  · rw [one.absent.mpr left, two.absent.mpr left]
  · obtain ⟨r, rfl, severity, likelihood, band⟩ := one.rated fun absent => left (one.absent.mp absent)
    obtain ⟨q, rfl, severity', likelihood', band'⟩ := two.rated fun absent => left (two.absent.mp absent)
    have axes : r.severity = q.severity ∧ r.likelihood = q.likelihood :=
      ⟨severity.trans severity'.symm, likelihood.trans likelihood'.symm⟩
    rw [Value.rating.injEq, Rating.mk.injEq, band, band', axes.1, axes.2]
    exact ⟨rfl, rfl, rfl⟩

end Mark
end SafetyCase
