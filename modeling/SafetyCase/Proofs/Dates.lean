import Mathlib.Data.Nat.Init
import Mathlib.Tactic.IntervalCases
import SafetyCase.Calendar.Reading
/-! Dates that are read are dates. However a date is given, as text or as a count of seconds, the date that is read exists in the
calendar and has a year of four digits; and the text of such a date is read as that date again. -/
namespace SafetyCase.Date
open Decimal (isDigit numberOf digitsOf padded)

structure Valid (d : Date) : Prop where
  year : 1 ≤ d.year ∧ d.year ≤ 9999
  month : 1 ≤ d.month ∧ d.month ≤ 12
  day : 1 ≤ d.day ∧ d.day ≤ daysInMonth d.year d.month

/-! Years of an era of four hundred are counted from March; a day of the era belongs to the year that has begun last. -/

def yearOfEra (day : Nat) : Nat := (day - day / 1460 + day / 36524 - day / 146096) / 365

def yearStart (year : Nat) : Nat := 365 * year + year / 4 - year / 100

theorem eraDaysRise {a b : Nat} (le : a ≤ b) :
    a - a / 1460 + a / 36524 - a / 146096 ≤ b - b / 1460 + b / 36524 - b / 146096 := by
  induction le with
  | refl => exact Nat.le_refl _
  | @step n _ ih =>
    -- what the eras take away falls on a day where the centuries give one
    have era (m : Nat) : m / 146096 = m / 36524 / 4 := by rw [Nat.div_div_eq_div_mul]
    have quad : (n + 1) / 1460 ≤ n / 1460 + 1 ∧ n / 1460 ≤ n := by omega
    have century : n / 36524 ≤ (n + 1) / 36524 ∧ (n + 1) / 36524 ≤ n / 36524 + 1 := by omega
    refine Nat.le_trans ih ?_
    rw [era, era]
    generalize n / 1460 = g at quad ⊢
    generalize (n + 1) / 1460 = g' at quad ⊢
    generalize n / 36524 = c at century ⊢
    generalize (n + 1) / 36524 = c' at century ⊢
    omega

theorem yearStarts : ∀ year < 400, yearOfEra (yearStart year) = year ∧ yearOfEra (yearStart (year + 1) - 1) = year := by
  decide +kernel

theorem yearOfEraRises {a b : Nat} (le : a ≤ b) : yearOfEra a ≤ yearOfEra b := Nat.div_le_div_right (eraDaysRise le)

theorem yearOfEraBound {day : Nat} (inside : day ≤ 146096) : yearOfEra day ≤ 399 := by
  have rises := yearOfEraRises inside
  have last : yearOfEra 146096 = 399 := by decide +kernel
  omega

theorem yearBegun {day : Nat} (inside : day ≤ 146096) :
    yearStart (yearOfEra day) ≤ day ∧ (day < yearStart (yearOfEra day + 1) ∨ yearOfEra day = 399) := by
  have bound := yearOfEraBound inside
  generalize year : yearOfEra day = y at bound ⊢
  refine ⟨?_, ?_⟩
  · by_contra early
    cases y with
    | zero => simp [yearStart] at early
    | succ y =>
      have before := (yearStarts y (by omega)).2
      have rises := yearOfEraRises (show day ≤ yearStart (y + 1) - 1 by omega)
      omega
  · by_contra late
    obtain ⟨begun, other⟩ := not_or.mp late
    have next := (yearStarts (y + 1) (by omega)).1
    have rises := yearOfEraRises (Nat.le_of_not_lt begun)
    omega

theorem dayOfYear {day : Nat} (inside : day ≤ 146096) :
    day - yearStart (yearOfEra day) ≤ 365 ∧ (day - yearStart (yearOfEra day) = 365 →
      (yearOfEra day + 1) % 4 = 0 ∧ ((yearOfEra day + 1) % 100 ≠ 0 ∨ (yearOfEra day + 1) % 400 = 0)) := by
  obtain ⟨begun, next⟩ := yearBegun inside
  generalize yearOfEra day = y at begun next ⊢
  rcases next with soon | rfl
  · have fourth : (y + 1) / 4 = y / 4 ∨ (y + 1) / 4 = y / 4 + 1 ∧ (y + 1) % 4 = 0 := by omega
    have hundredth : (y + 1) / 100 = y / 100 ∧ (y + 1) % 100 ≠ 0 ∨ (y + 1) / 100 = y / 100 + 1 := by omega
    have centuries : y / 100 ≤ y / 4 := by omega
    unfold yearStart at *
    generalize (y + 1) / 4 = q' at *
    generalize (y + 1) / 100 = c' at *
    generalize y / 4 = q at *
    generalize y / 100 = c at *
    omega
  · exact ⟨by unfold yearStart; omega, fun _ => by decide⟩

/-- The date of a day of an era, where both are counted from a first of March. -/
def ofEra (era : Int) (day : Nat) : Date :=
  let dayOfYear := day - yearStart (yearOfEra day)
  let marchMonth := (5 * dayOfYear + 2) / 153
  let month := if marchMonth < 10 then marchMonth + 3 else marchMonth - 9
  let year : Int := yearOfEra day + era * 400 + (if month ≤ 2 then 1 else 0)
  ⟨year.toNat, month, dayOfYear - (153 * marchMonth + 2) / 5 + 1⟩

theorem ofDaysEra (days : Int) : ofDays days =
    ofEra ((days + 719468).fdiv 146097) (days + 719468 - (days + 719468).fdiv 146097 * 146097).toNat := rfl

theorem monthStarts (year : Nat) : ∀ m < 11, (153 * (m + 1) + 2) / 5 =
    (153 * m + 2) / 5 + daysInMonth year (if m < 10 then m + 3 else m - 9) := by
  intro m early
  interval_cases m <;> rfl

theorem ofEraValid {era : Int} {day : Nat} (inside : day ≤ 146096) (late : era * 146097 + day ≤ 3652364)
    (counted : (ofEra era day).year ≠ 0) : (ofEra era day).Valid := by
  obtain ⟨length, leap⟩ := dayOfYear inside
  obtain ⟨begun, -⟩ := yearBegun inside
  have bound := yearOfEraBound inside
  unfold ofEra at counted ⊢
  dsimp only at counted ⊢
  have last : day = yearStart (yearOfEra day) + (day - yearStart (yearOfEra day)) := by omega
  generalize day - yearStart (yearOfEra day) = n at *
  generalize yearOfEra day = y at *
  have month : (5 * n + 2) / 153 ≤ 11 := by omega
  have started : (153 * ((5 * n + 2) / 153) + 2) / 5 ≤ n ∧ n < (153 * ((5 * n + 2) / 153 + 1) + 2) / 5 := by omega
  generalize (5 * n + 2) / 153 = m at *
  generalize year : (y + era * 400 + if (if m < 10 then m + 3 else m - 9) ≤ 2 then 1 else 0 : Int) = Y at counted ⊢
  refine ⟨?_, ?_, ?_⟩
  · unfold yearStart at *
    dsimp only
    split at year <;> split at year <;> omega
  · dsimp only
    split <;> omega
  · dsimp only
    refine ⟨by omega, ?_⟩
    by_cases early : m < 11
    · have next := monthStarts Y.toNat m early
      omega
    · obtain rfl : m = 11 := by omega
      have february : daysInMonth Y.toNat 2 = if isLeap Y.toNat then 29 else 28 := rfl
      simp only [Nat.reduceLT, Nat.reduceLeDiff, Nat.reduceSub, if_true, if_false] at year ⊢
      rw [february]
      by_cases final : n = 365
      · obtain ⟨fourth, hundredth⟩ := leap final
        have leaps : isLeap Y.toNat = true := by
          simp only [isLeap, Bool.and_eq_true, Bool.or_eq_true, decide_eq_true_eq]
          omega
        rw [leaps, if_pos rfl]
        omega
      · split <;> omega

theorem acceptValid {d e : Date} {midnight : Bool} (valid : d.year ≠ 0 → d.Valid) (done : accept d midnight = .ok e) :
    e.Valid := by
  unfold accept at done
  split at done
  · contradiction
  · split at done
    · contradiction
    · rename_i counted
      cases done
      exact valid counted

theorem ofDaysValid {days : Int} (late : days ≤ 2932896) (counted : (ofDays days).year ≠ 0) : (ofDays days).Valid := by
  rw [ofDaysEra] at counted ⊢
  have era : (days + 719468).fdiv 146097 = (days + 719468) / 146097 := Int.fdiv_eq_ediv_of_nonneg _ (by decide)
  rw [era] at counted ⊢
  exact ofEraValid (by omega) (by omega) counted

theorem ofSecondsValid {whole : Int} {millionths : Nat} {d : Date} (done : ofSeconds whole millionths = .ok d) :
    d.Valid := by
  unfold ofSeconds at done
  dsimp only at done
  split at done
  · contradiction
  · split at done
    · contradiction
    · rename_i _ late
      refine acceptValid (ofDaysValid ?_) done
      rw [Int.fdiv_eq_ediv_of_nonneg _ (by decide)]
      omega

theorem twoDigitsBound {why : Reason} {a b : Char} {n : Nat} (done : twoDigits why a b = .ok n) : n ≤ 99 := by
  unfold twoDigits at done
  split at done
  · rename_i digits
    cases done
    simp only [isDigit, Bool.and_eq_true, decide_eq_true_eq, Char.le_def, UInt32.le_iff_toNat_le] at digits
    simp only [numberOf, List.foldl_cons, List.foldl_nil, Char.toNat]
    have nine : ('9' : Char).val.toNat = 57 := rfl
    omega
  · contradiction

theorem ofUnitsValid {us : List Char} {d : Date} (done : ofUnits us = .ok d) (counted : d.year ≠ 0) : d.Valid := by
  unfold ofUnits at done
  split at done
  · simp only [bind, Except.bind, throw, throwThe, MonadExceptOf.throw, pure, Except.pure] at done
    repeat' split at done
    all_goals try contradiction
    rename_i century first _ year second _ _ month _ _ _ day _ months days
    cases done
    have early := twoDigitsBound first
    have late := twoDigitsBound second
    simp only [Bool.or_eq_true, decide_eq_true_eq, not_or, not_lt] at months days
    dsimp only at counted
    exact ⟨⟨Nat.one_le_iff_ne_zero.mpr counted, by dsimp only; omega⟩, months, days⟩
  · contradiction

theorem ofWrittenValid {us : List Char} {d : Date} {midnight : Bool} (done : ofWritten us = .ok (d, midnight))
    (counted : d.year ≠ 0) : d.Valid := by
  unfold ofWritten at done
  cases read : ofUnits us with
  | error why =>
    rw [read] at done
    contradiction
  | ok date =>
    have same : date = d := by
      simp only [read, bind, Except.bind, throw, throwThe, MonadExceptOf.throw, pure, Except.pure] at done
      repeat' split at done
      all_goals first | contradiction | exact congrArg Prod.fst (Except.ok.inj done)
    exact ofUnitsValid (same ▸ read) counted

theorem ofCountValid {count : Int} {millionths : Nat} {d : Date} (done : ofCount count millionths = .ok d) :
    d.Valid := by
  unfold ofCount at done
  split at done
  · exact ofSecondsValid done
  · exact ofSecondsValid done

theorem ofWrittenCountValid {count : Count} {d : Date} (done : ofWrittenCount count = .ok d) : d.Valid := by
  unfold ofWrittenCount at done
  split at done
  · exact ofSecondsValid done
  · split at done
    · exact ofSecondsValid done
    · contradiction

theorem ofTextValid {s : String} {d : Date} (done : ofText s = .ok d) : d.Valid := by
  unfold ofText at done
  dsimp only at done
  split at done
  · rename_i written
    exact acceptValid (ofWrittenValid written) done
  · split at done
    · exact ofWrittenCountValid done
    · contradiction

theorem readValid {j : Json} {d : Date} (done : ofJson j = .ok d) : d.Valid := by
  unfold ofJson at done
  split at done
  · exact ofTextValid done
  · split at done
    · exact ofCountValid done
    · contradiction
  · exact ofCountValid done
  · contradiction

/-! The text of a date has ten characters, and all of them are what a written date needs at their places. -/

def fixedDigits : Nat → Nat → List Char
  | 0, _ => []
  | width + 1, n => fixedDigits width (n / 10) ++ [Nat.digitChar (n % 10)]

theorem fixedZeros (width : Nat) : fixedDigits width 0 = List.replicate width '0' := by
  induction width with
  | zero => rfl
  | succ width ih => rw [fixedDigits, Nat.zero_div, ih, List.replicate_succ']; rfl

theorem paddedDigits {width n : Nat} (some : 0 < width) (fits : n < 10 ^ width) :
    padded width (digitsOf n) = fixedDigits width n := by
  induction width generalizing n with
  | zero => contradiction
  | succ width ih =>
    unfold digitsOf padded
    by_cases single : n < 10
    · rw [Nat.toDigits_of_lt_base single, fixedDigits, Nat.div_eq_of_lt single, Nat.mod_eq_of_lt single, fixedZeros]
      rfl
    · have filled : 0 < width := by
        rcases Nat.eq_zero_or_pos width with rfl | filled
        · omega
        · exact filled
      have onward := ih filled (Nat.div_lt_of_lt_mul (by rwa [Nat.pow_succ'] at fits))
      rw [Nat.toDigits_of_base_le (by decide) (not_lt.mp single), fixedDigits, ← onward, List.length_append,
        List.length_singleton, Nat.add_sub_add_right, ← List.append_assoc]
      rfl

theorem fixedText {width n : Nat} (some : 0 < width) (fits : n < 10 ^ width) :
    (fixed width n).toList = fixedDigits width n := by
  rw [fixed, String.toList_ofList, paddedDigits some fits]

theorem digitPlain : ∀ n < 10, isDigit (Nat.digitChar n) = true ∧ (Nat.digitChar n).toNat = 48 + n ∧
    (Nat.digitChar n).utf8Size = 1 := by decide

theorem digitsRead (why : Reason) {a b : Nat} (first : a < 10) (second : b < 10) :
    twoDigits why (Nat.digitChar a) (Nat.digitChar b) = .ok (10 * a + b) := by
  obtain ⟨digit, code, -⟩ := digitPlain a first
  obtain ⟨digit', code', -⟩ := digitPlain b second
  simp [twoDigits, digit, digit', numberOf, code, code']

theorem fixedPlain (width n : Nat) : ∀ c ∈ fixedDigits width n, c.utf8Size = 1 := by
  induction width generalizing n with
  | zero => exact List.forall_mem_nil _
  | succ width ih =>
    refine List.forall_mem_append.mpr ⟨ih (n / 10), List.forall_mem_singleton.mpr ?_⟩
    exact (digitPlain _ (Nat.mod_lt n (by decide))).2.2

theorem plainUnits {s : String} (plain : ∀ c ∈ s.toList, c.utf8Size = 1) : units s = s.toList := by
  unfold units
  generalize s.toList = cs at plain ⊢
  induction cs with
  | nil => rfl
  | cons c rest ih =>
    obtain ⟨single, others⟩ := List.forall_mem_cons.mp plain
    rw [List.flatMap_cons, ih others, single]
    rfl

theorem lengthBound (year month : Nat) : daysInMonth year month ≤ 31 := by
  unfold daysInMonth
  repeat' split
  all_goals decide

theorem textRead {d : Date} (valid : d.Valid) : ofText d.text = .ok d := by
  obtain ⟨year, month, day⟩ := d
  obtain ⟨⟨counted, years⟩, ⟨months, twelve⟩, days, length⟩ := valid
  dsimp only at counted years months twelve days length
  have bound := lengthBound year month
  have written : (text ⟨year, month, day⟩).toList =
      fixedDigits 4 year ++ ['-'] ++ fixedDigits 2 month ++ ['-'] ++ fixedDigits 2 day := by
    simp only [text, String.toList_append, fixedText (show 0 < 4 by decide) (show year < 10 ^ 4 by omega),
      fixedText (show 0 < 2 by decide) (show month < 10 ^ 2 by omega),
      fixedText (show 0 < 2 by decide) (show day < 10 ^ 2 by omega)]
    rfl
  have same : units (text ⟨year, month, day⟩) = _ := plainUnits (by
    rw [written]
    simp only [List.forall_mem_append, List.forall_mem_singleton]
    exact ⟨⟨⟨⟨fixedPlain 4 year, rfl⟩, fixedPlain 2 month⟩, rfl⟩, fixedPlain 2 day⟩)
  have decimal (n : Nat) : n % 10 < 10 := Nat.mod_lt n (by decide)
  have read : ofWritten (units (text ⟨year, month, day⟩)) = .ok (⟨year, month, day⟩, true) := by
    rw [same, written]
    have century : 10 * (year / 10 / 10 / 10 % 10) + year / 10 / 10 % 10 = year / 100 := by omega
    have ending : 10 * (year / 10 % 10) + year % 10 = year % 100 := by omega
    have whole : 100 * (year / 100) + year % 100 = year := by omega
    have monthly : 10 * (month / 10 % 10) + month % 10 = month := by omega
    have daily : 10 * (day / 10 % 10) + day % 10 = day := by omega
    have inYear : ¬ (month = 0 ∨ 12 < month) := by omega
    have inMonth : ¬ (day = 0 ∨ daysInMonth year month < day) := by omega
    simp only [fixedDigits, List.nil_append, List.cons_append, ofWritten, ofUnits, digitsRead _ (decimal _) (decimal _),
      century, ending, whole, monthly, daily, bind, Except.bind, pure, Except.pure]
    simp [inYear, inMonth]
  unfold ofText
  dsimp only
  rw [read]
  simp [accept, Nat.one_le_iff_ne_zero.mp counted]

end SafetyCase.Date
