import Mathlib
import SafetyCase.Proofs.Arrangement
import SafetyCase.Reference
/-! Identifiers are told apart by their texts, so a reference names at most one entity where identifiers are distinct.
Those of the usual width are ordered as their texts are. -/
namespace SafetyCase

theorem Text.hexDigitsInjective {width m n : Nat} (same : Text.hexDigits width m = Text.hexDigits width n) :
    m % 16 ^ width = n % 16 ^ width := by
  induction width generalizing m n with
  | zero => simp [Nat.mod_one]
  | succ width ih =>
    obtain ⟨front, last⟩ := List.append_inj' (show Text.hexDigits width (m / 16) ++ _ = Text.hexDigits width (n / 16) ++ _
      from same) rfl
    have digit : ∀ a < 16, ∀ b < 16, Nat.digitChar a = Nat.digitChar b → a = b := by decide
    have units := digit _ (Nat.mod_lt m (by decide)) _ (Nat.mod_lt n (by decide)) (List.singleton_inj.mp last)
    rw [Nat.pow_succ', Nat.mod_mul, Nat.mod_mul, units, ih front]

theorem Text.hexDigitsSame {width m n : Nat} (same : m % 16 ^ width = n % 16 ^ width) :
    Text.hexDigits width m = Text.hexDigits width n := by
  induction width generalizing m n with
  | zero => rfl
  | succ width ih =>
    rw [Nat.pow_succ', Nat.mod_mul, Nat.mod_mul] at same
    rw [hexDigits, hexDigits, ih (by omega : m / 16 % 16 ^ width = n / 16 % 16 ^ width),
      (by omega : m % 16 = n % 16)]

theorem Text.hexDigitsRise {width m n : Nat} (lt : m % 16 ^ width < n % 16 ^ width) (xs ys : List Char) :
    Text.hexDigits width m ++ xs < Text.hexDigits width n ++ ys := by
  induction width generalizing m n xs ys with
  | zero => simp [Nat.mod_one] at lt
  | succ width ih =>
    have digit : ∀ a < 16, ∀ b < 16, a < b → Nat.digitChar a < Nat.digitChar b := by decide
    rw [Nat.pow_succ', Nat.mod_mul, Nat.mod_mul] at lt
    simp only [hexDigits, List.append_assoc, List.singleton_append]
    rcases Nat.lt_trichotomy (m / 16 % 16 ^ width) (n / 16 % 16 ^ width) with below | same | above
    · exact ih below _ _
    · rw [hexDigitsSame same]
      exact List.append_left_lt (List.cons_lt_cons_iff.mpr
        (.inl (digit _ (Nat.mod_lt m (by decide)) _ (Nat.mod_lt n (by decide)) (by omega))))
    · omega

namespace Identifier

theorem leadingFits (n : Nat) : n < 16 ^ leadingWidth n :=
  calc
    n < 2 ^ (Nat.log2 n + 1) := Nat.lt_log2_self
    _ ≤ 2 ^ (4 * leadingWidth n) := Nat.pow_le_pow_right (by decide) (by unfold leadingWidth; omega)
    _ = 16 ^ leadingWidth n := Nat.pow_mul 2 4 _

theorem leadingInjective {m n : Nat}
    (same : Text.hexDigits (leadingWidth m) m = Text.hexDigits (leadingWidth n) n) : m = n := by
  have width : leadingWidth m = leadingWidth n := by
    simpa [Text.lengthHexDigits] using congrArg List.length same
  have fits := leadingFits m
  rw [width] at same fits
  have equal := Text.hexDigitsInjective same
  rwa [Nat.mod_eq_of_lt fits, Nat.mod_eq_of_lt (leadingFits n)] at equal

theorem textInjective {i j : Identifier} (same : i.text = j.text) : i = j := by
  obtain ⟨m⟩ := i
  obtain ⟨n⟩ := j
  have chars : ['-'].intercalate (digitGroups m) = ['-'].intercalate (digitGroups n) := by
    simpa [text] using congrArg String.toList same
  simp only [digitGroups, List.intercalate, List.intersperse, List.flatten_cons, List.flatten_nil,
    List.append_nil] at chars
  -- all groups but the first have a fixed width
  obtain ⟨first, rest⟩ := List.append_inj' chars (by simp [Text.lengthHexDigits])
  obtain ⟨second, rest⟩ := List.append_inj (List.append_inj_right rest rfl) (by simp [Text.lengthHexDigits])
  obtain ⟨third, rest⟩ := List.append_inj (List.append_inj_right rest rfl) (by simp [Text.lengthHexDigits])
  obtain ⟨fourth, rest⟩ := List.append_inj (List.append_inj_right rest rfl) (by simp [Text.lengthHexDigits])
  have fifth := List.append_inj_right rest rfl
  have leading := leadingInjective first
  have groups := And.intro (Text.hexDigitsInjective second) (And.intro (Text.hexDigitsInjective third)
    (And.intro (Text.hexDigitsInjective fourth) (Text.hexDigitsInjective fifth)))
  simp only [Nat.shiftRight_eq_div_pow, Nat.reducePow] at leading groups
  rw [Identifier.mk.injEq]
  omega

theorem leadingUsual {n : Nat} (usual : n < 2 ^ 32) : leadingWidth n = 8 := by
  have bits : Nat.log2 n < 32 := by
    rcases Nat.eq_zero_or_pos n with rfl | positive
    · decide
    · exact (Nat.log2_lt positive.ne').mpr usual
  unfold leadingWidth
  omega

theorem textRises {i j : Identifier} (usual : j.value < 2 ^ 128) (lt : i.value < j.value) : i.text < j.text := by
  obtain ⟨m⟩ := i
  obtain ⟨n⟩ := j
  change n < 2 ^ 128 at usual
  change m < n at lt
  have next {width a b : Nat} {xs ys : List Char} (le : a % 16 ^ width ≤ b % 16 ^ width)
      (later : a % 16 ^ width = b % 16 ^ width → xs < ys) :
      Text.hexDigits width a ++ '-' :: xs < Text.hexDigits width b ++ '-' :: ys := by
    rcases Nat.lt_or_eq_of_le le with less | same
    · exact Text.hexDigitsRise less _ _
    · rw [Text.hexDigitsSame same]
      exact List.append_left_lt (List.cons_lt_cons_iff.mpr (.inr ⟨rfl, later same⟩))
  rw [text, text, String.lt_iff_toList_lt, String.toList_ofList, String.toList_ofList]
  simp only [Nat.shiftRight_eq_div_pow, digitGroups, List.intercalate, List.intersperse, List.flatten_cons,
    List.flatten_nil, List.append_nil, List.singleton_append]
  rw [leadingUsual (n := m / 2 ^ 96) (by omega), leadingUsual (n := n / 2 ^ 96) (by omega)]
  -- each group is compared where all before it are the same
  refine next (by omega) fun first => next (by omega) fun second => next (by omega) fun third => next (by omega)
    fun fourth => ?_
  have last : m % 16 ^ 12 < n % 16 ^ 12 := by omega
  simpa using Text.hexDigitsRise last [] []

end Identifier

namespace Document

def Names (d : Document) (t : EntityType) (ref : Option String) (x : Entity) : Prop :=
  x ∈ d.collection t ∧ ref = some x.id.text

variable {d : Document} {t : EntityType} {ref : Option String} {x y : Entity}

theorem namesFound (found : d.named? t ref = some x) : d.Names t ref x := by
  obtain ⟨s, given, found⟩ := Option.bind_eq_some_iff.mp found
  have same : x.id.text = s := by simpa using List.find?_some found
  exact ⟨List.mem_of_find?_eq_some found, by rw [given, same]⟩

theorem namedLike (names : d.Names t ref x) : ∃ y, d.named? t ref = some y ∧ y.id = x.id := by
  obtain ⟨inside, rfl⟩ := names
  obtain ⟨y, found⟩ : ∃ y, d.named? t (some x.id.text) = some y :=
    Option.isSome_iff_exists.mp (List.find?_isSome.mpr ⟨x, inside, by simp⟩)
  exact ⟨y, found, Identifier.textInjective (Option.some.inj (namesFound found).2).symm⟩

theorem namedNone : d.named? t ref = none ↔ ∀ x, ¬d.Names t ref x := by
  constructor
  · intro missing x names
    obtain ⟨y, found, _⟩ := namedLike names
    rw [missing] at found
    contradiction
  · intro none
    exact Option.eq_none_iff_forall_not_mem.mpr fun x found => none x (namesFound found)

end Document
end SafetyCase
