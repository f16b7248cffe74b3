import Laic.Lib.DoubleRounding
import Laic.Lib.Text
import Mathlib.Data.Nat.Prime.Basic

/-! # Decimal text of floating-point values

The shortest decimal that rounds to a given value, its positional text without an
exponent, and the reading of such a text as the nearest value of a format.  What is
written from a value reads back as that value. -/

namespace DecimalText

open FloatFormat

/-- A number `digits * 10 ^ exponent`. -/
structure Decimal where
  digits : ℕ
  exponent : ℤ
  deriving DecidableEq, Repr

def Decimal.value (d : Decimal) : ℚ := d.digits * 10 ^ d.exponent

/-! ## Shortest decimals -/

/-- The exponent at which the magnitude has this many digits before the point. -/
def scaleOf (magnitude : ℚ) (count : ℕ) : ℤ := Int.log 10 magnitude + 1 - count

/-- The largest decimal of this many digits that is not above the magnitude. -/
def below (magnitude : ℚ) (count : ℕ) : Decimal :=
  ⟨⌊magnitude / 10 ^ scaleOf magnitude count⌋₊, scaleOf magnitude count⟩

/-- The smallest decimal of this many digits that is above the magnitude. -/
def above (magnitude : ℚ) (count : ℕ) : Decimal :=
  let digits := ⌊magnitude / 10 ^ scaleOf magnitude count⌋₊ + 1
  -- the next power of ten has one digit
  if digits = 10 ^ count then ⟨1, scaleOf magnitude count + count⟩
  else ⟨digits, scaleOf magnitude count⟩

/-- Of the two decimals around the magnitude the one that rounds to it; where both do, the
nearer one, and the larger where both are as near. -/
def neighbour? (format : FloatFormat) (magnitude : ℚ) (count : ℕ) : Option Decimal :=
  let low := below magnitude count
  let high := above magnitude count
  if format.roundMagnitude low.value = magnitude ∧
      (format.roundMagnitude high.value ≠ magnitude ∨
        magnitude - low.value < high.value - magnitude) then some low
  else if format.roundMagnitude high.value = magnitude then some high
  else none

/-- The decimal of a magnitude whose denominator is a power of two. -/
def exact (magnitude : ℚ) : Decimal :=
  ⟨magnitude.num.natAbs * 5 ^ Nat.log 2 magnitude.den, -(Nat.log 2 magnitude.den : ℤ)⟩

/-- The first decimal of `count` digits or more that rounds to the magnitude. -/
def shortestFrom (format : FloatFormat) (magnitude : ℚ) : (tries count : ℕ) → Decimal
  | 0, _ => exact magnitude
  | tries + 1, count =>
    (neighbour? format magnitude count).getD (shortestFrom format magnitude tries (count + 1))

/-- The shortest decimal that rounds to the magnitude, and of those the nearest.  Seventeen
digits are enough for 64 bits. -/
def shortest (format : FloatFormat) (magnitude : ℚ) : Decimal :=
  if magnitude = 0 then ⟨0, 0⟩ else shortestFrom format magnitude 17 1

/-- The decimal rounds to the magnitude, no decimal of fewer digits does, and of those with as
many it is the nearest. -/
def IsShortest (format : FloatFormat) (magnitude : ℚ) (d : Decimal) : Prop :=
  format.roundMagnitude d.value = magnitude ∧
    ∃ count, d.digits < 10 ^ count ∧
      (∀ other : Decimal, other.digits < 10 ^ (count - 1) →
        format.roundMagnitude other.value ≠ magnitude) ∧
      ∀ other : Decimal, other.digits < 10 ^ count → format.roundMagnitude other.value = magnitude →
        |magnitude - d.value| ≤ |magnitude - other.value|

/-- The denominator of a representable magnitude is a power of two. -/
theorem den_of_representable {format : FloatFormat} {magnitude : ℚ}
    (representable : format.Representable magnitude) :
    magnitude.den = 2 ^ Nat.log 2 magnitude.den := by
  obtain ⟨⟨significand, exponent, -, -, equal⟩, -⟩ := representable
  have divides : ∃ k, magnitude.den ∣ 2 ^ k := by
    by_cases negative : exponent < 0
    · refine ⟨exponent.natAbs, ?_⟩
      have quotient : magnitude = (significand : ℤ) / ((2 ^ exponent.natAbs : ℕ) : ℤ) := by
        have power : (2 : ℚ) ^ exponent = ((2 : ℚ) ^ exponent.natAbs)⁻¹ := by
          rw [← zpow_natCast, ← zpow_neg]
          congr 1
          omega
        rw [equal, power]
        push_cast
        exact (div_eq_mul_inv _ _).symm
      rw [quotient]
      exact_mod_cast Rat.den_dvd (significand : ℤ) ((2 ^ exponent.natAbs : ℕ) : ℤ)
    · refine ⟨0, ?_⟩
      have integer : magnitude = ((significand * 2 ^ exponent.toNat : ℕ) : ℚ) := by
        have power : (2 : ℚ) ^ exponent = (2 : ℚ) ^ exponent.toNat := by
          rw [← zpow_natCast]
          congr 1
          omega
        rw [equal, power]
        push_cast
        rfl
      rw [integer, Rat.den_natCast, Nat.pow_zero]
  obtain ⟨k, divides⟩ := divides
  obtain ⟨j, -, same⟩ := (Nat.dvd_prime_pow Nat.prime_two).mp divides
  rw [same, Nat.log_pow (by decide)]

theorem exact_value {magnitude : ℚ} (nonnegative : 0 ≤ magnitude)
    (power : magnitude.den = 2 ^ Nat.log 2 magnitude.den) : (exact magnitude).value = magnitude := by
  have num : ((magnitude.num.natAbs : ℕ) : ℚ) = magnitude.num := by
    rw [Nat.cast_natAbs, abs_of_nonneg (Rat.num_nonneg.mpr nonnegative)]
  have ten : (10 : ℚ) ^ (-(Nat.log 2 magnitude.den : ℤ)) =
      (5 ^ Nat.log 2 magnitude.den)⁻¹ * (magnitude.den : ℚ)⁻¹ := by
    have den : (magnitude.den : ℚ) = 2 ^ Nat.log 2 magnitude.den := mod_cast power
    rw [den, zpow_neg, zpow_natCast, ← mul_inv, ← mul_pow]
    norm_num
  have five : (5 : ℚ) ^ Nat.log 2 magnitude.den ≠ 0 := by positivity
  calc (exact magnitude).value
      = magnitude.num * 5 ^ Nat.log 2 magnitude.den *
          ((5 ^ Nat.log 2 magnitude.den)⁻¹ * (magnitude.den : ℚ)⁻¹) := by
        rw [Decimal.value, exact, ten]
        push_cast
        rw [num]
    _ = magnitude.num * (magnitude.den : ℚ)⁻¹ := by field_simp
    _ = magnitude := by rw [← div_eq_mul_inv, Rat.num_div_den]

theorem neighbour?_cases {format : FloatFormat} {magnitude : ℚ} {count : ℕ} {d : Decimal}
    (found : neighbour? format magnitude count = some d) :
    (d = below magnitude count ∨ d = above magnitude count) ∧
      format.roundMagnitude d.value = magnitude := by
  unfold neighbour? at found
  dsimp only at found
  split at found
  · rename_i low
    cases found
    exact ⟨.inl rfl, low.1⟩
  · split at found
    · rename_i high
      cases found
      exact ⟨.inr rfl, high⟩
    · cases found

theorem shortestFrom_rounds {format : FloatFormat} {magnitude : ℚ} (nonnegative : 0 ≤ magnitude)
    (representable : format.Representable magnitude) (tries count : ℕ) :
    format.roundMagnitude (shortestFrom format magnitude tries count).value = magnitude := by
  induction tries generalizing count with
  | zero =>
    rw [shortestFrom, exact_value nonnegative (den_of_representable representable)]
    exact format.roundMagnitude_of_representable representable
  | succ tries ih =>
    rw [shortestFrom]
    cases found : neighbour? format magnitude count with
    | some d => exact (neighbour?_cases found).2
    | none => exact ih (count + 1)

/-- The shortest decimal rounds to what it was made from. -/
theorem shortest_rounds {format : FloatFormat} {magnitude : ℚ} (nonnegative : 0 ≤ magnitude)
    (representable : format.Representable magnitude) :
    format.roundMagnitude (shortest format magnitude).value = magnitude := by
  by_cases zero : magnitude = 0
  · simp [shortest, zero, Decimal.value]
  · rw [shortest, if_neg zero]
    exact shortestFrom_rounds nonnegative representable 17 1

/-! ## No decimal is shorter, none as short is nearer -/

section Shortest

variable {format : FloatFormat} {magnitude : ℚ} {count : ℕ} {d : Decimal}

theorem ten_zpow_pos (exponent : ℤ) : (0 : ℚ) < 10 ^ exponent := zpow_pos (by norm_num) exponent

theorem above_value (magnitude : ℚ) (count : ℕ) : (above magnitude count).value =
    (⌊magnitude / 10 ^ scaleOf magnitude count⌋₊ + 1 : ℕ) * 10 ^ scaleOf magnitude count := by
  unfold above Decimal.value
  dsimp only
  split
  · rename_i full
    rw [full, zpow_add₀ (by norm_num), zpow_natCast]
    push_cast
    ring
  · rfl

theorem below_value_le (nonnegative : 0 ≤ magnitude) : (below magnitude count).value ≤ magnitude := by
  have floor := Nat.floor_le (div_nonneg nonnegative (ten_zpow_pos (scaleOf magnitude count)).le)
  rwa [le_div_iff₀ (ten_zpow_pos _)] at floor

theorem lt_above_value (magnitude : ℚ) (count : ℕ) : magnitude < (above magnitude count).value := by
  have floor := Nat.lt_floor_add_one (magnitude / 10 ^ scaleOf magnitude count)
  rw [div_lt_iff₀ (ten_zpow_pos _)] at floor
  rw [above_value]
  exact_mod_cast floor

/-- A decimal on a finer scale has too few digits to reach the magnitude's power of ten. -/
theorem value_lt_of_exponent_lt (few : d.digits < 10 ^ count)
    (finer : d.exponent < scaleOf magnitude count) : d.value < 10 ^ Int.log 10 magnitude := by
  have digits : (d.digits : ℚ) < 10 ^ (count : ℤ) := by
    rw [zpow_natCast]
    exact_mod_cast few
  calc d.value < 10 ^ (count : ℤ) * 10 ^ d.exponent :=
        mul_lt_mul_of_pos_right digits (ten_zpow_pos _)
    _ = 10 ^ (count + d.exponent) := (zpow_add₀ (by norm_num) _ _).symm
    _ ≤ 10 ^ Int.log 10 magnitude := by
        apply zpow_le_zpow_right₀ (by norm_num)
        unfold scaleOf at finer
        omega

/-- A decimal on a coarser scale is a multiple of the scale. -/
theorem exists_multiple {scale : ℤ} (coarser : scale ≤ d.exponent) :
    ∃ n : ℕ, d.value = n * 10 ^ scale := by
  refine ⟨d.digits * 10 ^ (d.exponent - scale).toNat, ?_⟩
  have split : d.exponent = ((d.exponent - scale).toNat : ℤ) + scale := by omega
  rw [Decimal.value]
  conv_lhs => rw [split, zpow_add₀ (by norm_num), zpow_natCast]
  push_cast
  ring

theorem le_below (positive : 0 < magnitude) (digits : 0 < count) (few : d.digits < 10 ^ count)
    (le : d.value ≤ magnitude) : d.value ≤ (below magnitude count).value := by
  by_cases finer : d.exponent < scaleOf magnitude count
  · -- the power of ten below the magnitude is on the scale
    refine (value_lt_of_exponent_lt few finer).le.trans ?_
    have split : Int.log 10 magnitude = ((count - 1 : ℕ) : ℤ) + scaleOf magnitude count := by
      unfold scaleOf
      omega
    have reached : (10 : ℚ) ^ Int.log 10 magnitude ≤ magnitude :=
      mod_cast Int.zpow_log_le_self (b := 10) (by decide) positive
    have floor : 10 ^ (count - 1) ≤ ⌊magnitude / 10 ^ scaleOf magnitude count⌋₊ := by
      apply Nat.le_floor
      rw [le_div_iff₀ (ten_zpow_pos _)]
      rw [split, zpow_add₀ (by norm_num), zpow_natCast] at reached
      exact_mod_cast reached
    rw [split, zpow_add₀ (by norm_num), zpow_natCast]
    exact mul_le_mul_of_nonneg_right (mod_cast floor) (ten_zpow_pos _).le
  · obtain ⟨n, multiple⟩ := exists_multiple (not_lt.mp finer)
    rw [multiple] at le ⊢
    have floor : n ≤ ⌊magnitude / 10 ^ scaleOf magnitude count⌋₊ :=
      Nat.le_floor ((le_div_iff₀ (ten_zpow_pos _)).mpr le)
    exact mul_le_mul_of_nonneg_right (mod_cast floor) (ten_zpow_pos _).le

theorem above_le (positive : 0 < magnitude) (few : d.digits < 10 ^ count)
    (lt : magnitude < d.value) : (above magnitude count).value ≤ d.value := by
  by_cases finer : d.exponent < scaleOf magnitude count
  · have reached : (10 : ℚ) ^ Int.log 10 magnitude ≤ magnitude :=
      mod_cast Int.zpow_log_le_self (b := 10) (by decide) positive
    exact absurd (value_lt_of_exponent_lt few finer) (not_lt.mpr (reached.trans lt.le))
  · obtain ⟨n, multiple⟩ := exists_multiple (not_lt.mp finer)
    rw [multiple] at lt ⊢
    have floor : ⌊magnitude / 10 ^ scaleOf magnitude count⌋₊ < n := by
      rw [Nat.floor_lt (div_nonneg positive.le (ten_zpow_pos _).le), div_lt_iff₀ (ten_zpow_pos _)]
      exact lt
    rw [above_value]
    exact mul_le_mul_of_nonneg_right (mod_cast floor) (ten_zpow_pos _).le

/-- Rounding is constant between two numbers it takes to the same magnitude. -/
theorem rounds_between {x y : ℚ} (positive : 0 < magnitude)
    (representable : format.Representable magnitude) (rounds : format.roundMagnitude x = magnitude)
    (nonnegative : 0 ≤ x) (between : x ≤ y ∧ y ≤ magnitude ∨ magnitude ≤ y ∧ y ≤ x) :
    format.roundMagnitude y = magnitude := by
  have self := format.roundMagnitude_of_representable representable
  have xPositive : 0 < x := by
    obtain less | equal := nonnegative.lt_or_eq
    · exact less
    · rw [← equal, format.roundMagnitude_zero] at rounds
      exact absurd rounds positive.ne
  obtain ⟨left, right⟩ | ⟨left, right⟩ := between
  · have lower := format.roundMagnitude_mono xPositive left
    have upper := format.roundMagnitude_mono (xPositive.trans_le left) right
    rw [rounds] at lower
    rw [self] at upper
    exact le_antisymm upper lower
  · have lower := format.roundMagnitude_mono positive left
    have upper := format.roundMagnitude_mono (positive.trans_le left) right
    rw [self] at lower
    rw [rounds] at upper
    exact le_antisymm upper lower

theorem Decimal.value_nonneg (d : Decimal) : 0 ≤ d.value :=
  mul_nonneg (Nat.cast_nonneg _) (ten_zpow_pos _).le

/-- Where a decimal of so many digits rounds to the magnitude one is found, and it is as near. -/
theorem neighbour?_of_rounds (positive : 0 < magnitude) (representable : format.Representable magnitude)
    (digits : 0 < count) (few : d.digits < 10 ^ count)
    (rounds : format.roundMagnitude d.value = magnitude) :
    ∃ found, neighbour? format magnitude count = some found ∧
      |magnitude - found.value| ≤ |magnitude - d.value| := by
  have low : (below magnitude count).value ≤ magnitude := below_value_le positive.le
  have high := lt_above_value magnitude count
  have lowDistance : |magnitude - (below magnitude count).value| =
      magnitude - (below magnitude count).value := abs_of_nonneg (by linarith)
  have highDistance : |magnitude - (above magnitude count).value| =
      (above magnitude count).value - magnitude := by
    rw [abs_sub_comm]
    exact abs_of_nonneg (by linarith)
  obtain le | lt := le_or_gt d.value magnitude
  · have reached := le_below positive digits few le
    have lowRounds := rounds_between positive representable rounds d.value_nonneg (.inl ⟨reached, low⟩)
    have distance : |magnitude - d.value| = magnitude - d.value := abs_of_nonneg (by linarith)
    by_cases nearer : format.roundMagnitude (above magnitude count).value ≠ magnitude ∨
        magnitude - (below magnitude count).value < (above magnitude count).value - magnitude
    · refine ⟨_, if_pos ⟨lowRounds, nearer⟩, ?_⟩
      rw [lowDistance, distance]
      linarith
    · obtain ⟨highRounds, near⟩ := not_or.mp nearer
      refine ⟨_, (if_neg (by simp [nearer])).trans (if_pos (not_not.mp highRounds)), ?_⟩
      rw [highDistance, distance]
      linarith
  · have reached := above_le positive few lt
    have highRounds :=
      rounds_between positive representable rounds d.value_nonneg (.inr ⟨high.le, reached⟩)
    have distance : |magnitude - d.value| = d.value - magnitude := by
      rw [abs_sub_comm]
      exact abs_of_nonneg (by linarith)
    by_cases lower : format.roundMagnitude (below magnitude count).value = magnitude ∧
        (format.roundMagnitude (above magnitude count).value ≠ magnitude ∨
          magnitude - (below magnitude count).value < (above magnitude count).value - magnitude)
    · refine ⟨_, if_pos lower, ?_⟩
      have near := lower.2.resolve_left (not_not.mpr highRounds)
      rw [lowDistance, distance]
      linarith
    · refine ⟨_, (if_neg lower).trans (if_pos highRounds), ?_⟩
      rw [highDistance, distance]
      linarith

theorem digits_of_neighbour? (positive : 0 < magnitude) (digits : 0 < count)
    (found : neighbour? format magnitude count = some d) : d.digits < 10 ^ count := by
  have quotient : magnitude / 10 ^ scaleOf magnitude count < (10 ^ count : ℕ) := by
    have upper : magnitude < (10 : ℚ) ^ (Int.log 10 magnitude + 1) :=
      mod_cast Int.lt_zpow_succ_log_self (b := 10) (by decide) magnitude
    have split : Int.log 10 magnitude + 1 = (count : ℤ) + scaleOf magnitude count := by
      unfold scaleOf
      omega
    rw [split, zpow_add₀ (by norm_num), zpow_natCast] at upper
    rw [div_lt_iff₀ (ten_zpow_pos _)]
    exact_mod_cast upper
  have floor : ⌊magnitude / 10 ^ scaleOf magnitude count⌋₊ < 10 ^ count :=
    (Nat.floor_lt (div_nonneg positive.le (ten_zpow_pos _).le)).mpr quotient
  obtain ⟨rfl | rfl, -⟩ := neighbour?_cases found
  · exact floor
  · unfold above
    dsimp only
    split
    · exact Nat.one_lt_pow digits.ne' (by decide)
    · rename_i notFull
      exact lt_of_le_of_ne floor notFull

/-- Where some decimal of `count + tries - 1` digits rounds to the magnitude and none of fewer
than `count` does, a decimal of fewest digits is found, the nearest of those. -/
theorem shortestFrom_spec (positive : 0 < magnitude) (representable : format.Representable magnitude)
    (tries : ℕ) (digits : 0 < count) (few : d.digits < 10 ^ (count + tries - 1))
    (rounds : format.roundMagnitude d.value = magnitude)
    (none : ∀ other : Decimal, other.digits < 10 ^ (count - 1) →
      format.roundMagnitude other.value ≠ magnitude) :
    IsShortest format magnitude (shortestFrom format magnitude tries count) := by
  induction tries generalizing count with
  | zero => exact absurd rounds (none d (by simpa using few))
  | succ tries ih =>
    rw [shortestFrom]
    cases found : neighbour? format magnitude count with
    | some first =>
      refine ⟨(neighbour?_cases found).2, count, digits_of_neighbour? positive digits found, none, ?_⟩
      intro other short rounds
      obtain ⟨same, equal, near⟩ := neighbour?_of_rounds positive representable digits short rounds
      rw [found, Option.some.injEq] at equal
      rwa [← equal] at near
    | none =>
      apply ih count.succ_pos
      · rwa [show count + 1 + tries - 1 = count + (tries + 1) - 1 by omega]
      · intro other short rounds
        obtain ⟨same, equal, -⟩ := neighbour?_of_rounds positive representable digits short rounds
        rw [found] at equal
        cases equal

/-- The shortest decimal is one, where seventeen digits are enough. -/
theorem isShortest_shortest (positive : 0 < magnitude) (representable : format.Representable magnitude)
    (few : d.digits < 10 ^ 17) (rounds : format.roundMagnitude d.value = magnitude) :
    IsShortest format magnitude (shortest format magnitude) := by
  rw [shortest, if_neg positive.ne']
  apply shortestFrom_spec positive representable 17 Nat.one_pos few rounds
  intro other empty
  have zero : other.value = 0 := by
    have none : other.digits = 0 := by simpa using empty
    simp [Decimal.value, none]
  rw [zero, format.roundMagnitude_zero]
  exact positive.ne

end Shortest

/-! ## Positional text -/

/-- The digits of a fraction with this many places. -/
def fractionDigits (places n : ℕ) : List Char :=
  List.replicate (places - (Text.decimal n).length) '0' ++ Text.decimal n

/-- The text without an exponent; a whole number has no point. -/
def Decimal.text (d : Decimal) : List Char :=
  if 0 ≤ d.exponent then Text.decimal (d.digits * 10 ^ d.exponent.toNat)
  else
    let places := (-d.exponent).toNat
    Text.decimal (d.digits / 10 ^ places) ++ '.' :: fractionDigits places (d.digits % 10 ^ places)

/-- The text with a point in it. -/
def withPoint (text : List Char) : List Char :=
  if '.' ∈ text then text else text ++ ['.', '0']

/-- The number a text `digits.digits` stands for. -/
def readDecimal (text : List Char) : Option ℚ :=
  match Text.splitOn '.' text with
  | [whole, fraction] =>
    if whole ≠ [] ∧ fraction ≠ [] ∧ whole.all Char.isDigit ∧ fraction.all Char.isDigit then
      some ((Text.digitsValue (whole ++ fraction) 0 : ℚ) / 10 ^ fraction.length)
    else none
  | _ => none

theorem point_notMem_of_isDigit {text : List Char} (digits : text.all Char.isDigit = true) :
    '.' ∉ text := by
  intro member
  exact absurd (List.all_eq_true.mp digits '.' member) (by decide)

theorem readDecimal_digits {whole fraction : List Char} (wholeNonempty : whole ≠ [])
    (fractionNonempty : fraction ≠ []) (wholeDigits : whole.all Char.isDigit = true)
    (fractionDigits : fraction.all Char.isDigit = true) :
    readDecimal (whole ++ '.' :: fraction) =
      some ((Text.digitsValue (whole ++ fraction) 0 : ℚ) / 10 ^ fraction.length) := by
  have parts : Text.splitOn '.' (whole ++ '.' :: fraction) = [whole, fraction] := by
    rw [Text.splitOn_append (point_notMem_of_isDigit wholeDigits),
      Text.splitOn_of_notMem (point_notMem_of_isDigit fractionDigits)]
  simp [readDecimal, parts, wholeNonempty, fractionNonempty, wholeDigits, fractionDigits]

/-- What reads as a decimal has digits, a point and digits. -/
theorem parts_of_readDecimal {text : List Char} {value : ℚ} (read : readDecimal text = some value) :
    ∃ whole fraction, text = whole ++ '.' :: fraction ∧ whole ≠ [] ∧ fraction ≠ [] ∧
      whole.all Char.isDigit = true ∧ fraction.all Char.isDigit = true := by
  obtain ⟨absent, parts⟩ | ⟨whole, rest, joined, parts⟩ := Text.splitOn_cases '.' text
  · simp [readDecimal, parts] at read
  · obtain ⟨absent, others⟩ | ⟨fraction, more, -, others⟩ := Text.splitOn_cases '.' rest
    · rw [others] at parts
      simp only [readDecimal, parts, Option.ite_none_right_eq_some] at read
      exact ⟨whole, rest, joined, read.1⟩
    · obtain ⟨-, last⟩ | ⟨_, _, -, last⟩ := Text.splitOn_cases '.' more <;>
        simp [readDecimal, parts, others, last] at read

theorem all_isDigit_decimal (n : ℕ) : (Text.decimal n).all Char.isDigit = true :=
  List.all_eq_true.mpr fun _ member => Text.isDigit_of_mem_decimal member

theorem all_isDigit_fractionDigits (places n : ℕ) :
    (fractionDigits places n).all Char.isDigit = true := by
  rw [fractionDigits, List.all_append, all_isDigit_decimal, Bool.and_true, List.all_eq_true]
  intro c member
  rw [List.eq_of_mem_replicate member]
  rfl

theorem fractionDigits_ne_nil (places n : ℕ) : fractionDigits places n ≠ [] := by
  simp [fractionDigits, Text.decimal_ne_nil]

theorem length_fractionDigits {places n : ℕ} (positive : 0 < places) (fits : n < 10 ^ places) :
    (fractionDigits places n).length = places := by
  have short : (Text.decimal n).length ≤ places :=
    (Nat.length_toDigits_le_iff (by decide) positive).mpr fits
  simp only [fractionDigits, List.length_append, List.length_replicate]
  omega

/-- The digits of a whole part and of a fraction stand for one number. -/
theorem digitsValue_fraction {places whole n : ℕ} (positive : 0 < places)
    (fits : n < 10 ^ places) :
    Text.digitsValue (Text.decimal whole ++ fractionDigits places n) 0 =
      10 ^ places * whole + n := by
  have length := length_fractionDigits positive fits
  have fraction : Nat.ofDigitChars 10 (fractionDigits places n) 0 = n := by
    rw [fractionDigits, Nat.ofDigitChars_append, Nat.ofDigitChars_replicate_zero, Nat.mul_zero]
    exact Nat.ofDigitChars_ten_toDigits
  rw [Text.digitsValue, Nat.ofDigitChars_append, Nat.ofDigitChars_eq_ofDigitChars_zero, length,
    fraction]
  congr 2
  exact Nat.ofDigitChars_ten_toDigits

/-- The text of a decimal, with a point, reads as its value. -/
theorem readDecimal_text (d : Decimal) : readDecimal (withPoint d.text) = some d.value := by
  by_cases whole : 0 ≤ d.exponent
  · have text : withPoint d.text =
        Text.decimal (d.digits * 10 ^ d.exponent.toNat) ++ '.' :: ['0'] := by
      rw [Decimal.text, if_pos whole, withPoint,
        if_neg (point_notMem_of_isDigit (all_isDigit_decimal _))]
    have digits : Text.digitsValue
        (Text.decimal (d.digits * 10 ^ d.exponent.toNat) ++ ['0']) 0 =
          10 * (d.digits * 10 ^ d.exponent.toNat) := by
      rw [Text.digitsValue, Nat.ofDigitChars_append]
      have inner : Nat.ofDigitChars 10 (Text.decimal (d.digits * 10 ^ d.exponent.toNat)) 0 =
        d.digits * 10 ^ d.exponent.toNat := Nat.ofDigitChars_ten_toDigits
      rw [inner]
      exact Nat.ofDigitChars_cons
    rw [text, readDecimal_digits (Text.decimal_ne_nil _) (by simp) (all_isDigit_decimal _)
      (by decide), digits]
    have power : (10 : ℚ) ^ d.exponent = 10 ^ d.exponent.toNat := by
      rw [← zpow_natCast]
      congr 1
      omega
    rw [Decimal.value, power]
    congr 1
    push_cast
    simp only [List.length_cons, List.length_nil, Nat.zero_add, pow_one]
    field_simp
  · have positive : 0 < (-d.exponent).toNat := by omega
    have fits := Nat.mod_lt d.digits (Nat.pow_pos (n := (-d.exponent).toNat) (by decide : 0 < 10))
    have text : withPoint d.text = Text.decimal (d.digits / 10 ^ (-d.exponent).toNat) ++ '.' ::
        fractionDigits (-d.exponent).toNat (d.digits % 10 ^ (-d.exponent).toNat) := by
      rw [Decimal.text, if_neg whole, withPoint]
      simp
    rw [text, readDecimal_digits (Text.decimal_ne_nil _) (fractionDigits_ne_nil _ _)
      (all_isDigit_decimal _) (all_isDigit_fractionDigits _ _),
      digitsValue_fraction positive fits, length_fractionDigits positive fits,
      Nat.div_add_mod, Decimal.value]
    have power : (10 : ℚ) ^ d.exponent = (10 ^ (-d.exponent).toNat)⁻¹ := by
      rw [← zpow_natCast, ← zpow_neg]
      congr 1
      omega
    rw [power, div_eq_mul_inv]

/-! ## Signed text -/

variable {format target : FloatFormat}

/-- A value as text: the shortest decimal, or a word where there is none. -/
def displayFloat : FloatValue format → List Char
  | .nan => "NaN".toList
  | .infinite negative => if negative then "-inf".toList else "inf".toList
  | .finite negative magnitude =>
    let text := (shortest format magnitude.1).text
    if negative then '-' :: text else text

/-- A sign and what stands after it. -/
def splitSign : List Char → Bool × List Char
  | '-' :: rest => (true, rest)
  | text => (false, text)

/-- The nearest value of a number written with a point. -/
def readFloat (format : FloatFormat) (text : List Char) : Option (FloatValue format) :=
  (readDecimal (splitSign text).2).map (FloatValue.round format (splitSign text).1)

/-- A whole number in digits. -/
def readInteger (text : List Char) : Option ℤ :=
  let (negative, digits) := splitSign text
  if digits ≠ [] ∧ digits.all Char.isDigit then
    some (if negative then -(Text.digitsValue digits 0 : ℤ) else Text.digitsValue digits 0)
  else none

/-- A whole number as text. -/
def displayInteger (n : ℤ) : List Char :=
  if n < 0 then '-' :: Text.decimal n.natAbs else Text.decimal n.natAbs

theorem splitSign_of_isDigit {c : Char} {text : List Char} (digit : c.isDigit = true) :
    splitSign (c :: text) = (false, c :: text) := by
  have notMinus : c ≠ '-' := by
    rintro rfl
    exact absurd digit (by decide)
  rw [splitSign]
  exact fun rest equal => notMinus (List.cons.inj equal).1

theorem splitSign_decimal (n : ℕ) (text : List Char) :
    splitSign (Text.decimal n ++ text) = (false, Text.decimal n ++ text) := by
  cases digits : Text.decimal n with
  | nil => exact absurd digits (Text.decimal_ne_nil n)
  | cons c more =>
    have digit : c.isDigit = true :=
      Text.isDigit_of_mem_decimal (n := n) (by rw [digits]; exact List.mem_cons_self)
    exact splitSign_of_isDigit digit

/-- What is written reads back. -/
theorem readInteger_displayInteger (n : ℤ) : readInteger (displayInteger n) = some n := by
  have value (m : ℕ) : Text.digitsValue (Text.decimal m) 0 = m := Text.digitsValue_decimal m
  by_cases negative : n < 0
  · rw [displayInteger, if_pos negative]
    simp only [readInteger, splitSign, Text.decimal_ne_nil, ne_eq, not_false_eq_true,
      all_isDigit_decimal, and_self, if_true, value]
    congr 1
    omega
  · have unsigned : splitSign (Text.decimal n.natAbs) = (false, Text.decimal n.natAbs) := by
      simpa using splitSign_decimal n.natAbs []
    rw [displayInteger, if_neg negative]
    simp only [readInteger, unsigned, Text.decimal_ne_nil, ne_eq, not_false_eq_true,
      all_isDigit_decimal, and_self, if_true, value, Bool.false_eq_true, if_false]
    congr 1
    omega

theorem decimal_text_head (d : Decimal) : ∃ n more, d.text = Text.decimal n ++ more := by
  rw [Decimal.text]
  split
  · exact ⟨_, [], (List.append_nil _).symm⟩
  · exact ⟨_, _, rfl⟩

theorem withPoint_cons {c : Char} (notPoint : c ≠ '.') (text : List Char) :
    withPoint (c :: text) = c :: withPoint text := by
  have same : '.' ∈ c :: text ↔ '.' ∈ text := by
    simp [notPoint.symm]
  by_cases member : '.' ∈ text
  · simp [withPoint, member]
  · rw [withPoint, withPoint, if_neg (mt same.mp member), if_neg member]
    rfl

theorem splitSign_withPoint (d : Decimal) :
    splitSign (withPoint d.text) = (false, withPoint d.text) := by
  obtain ⟨n, more, text⟩ := decimal_text_head d
  rw [text, withPoint]
  split
  · exact splitSign_decimal n more
  · rw [List.append_assoc]
    exact splitSign_decimal n _

/-- The text of a finite value, read in any format, is its shortest decimal rounded there. -/
theorem readFloat_displayFloat (negative : Bool) (magnitude : {q : ℚ // format.Representable q}) :
    readFloat target (withPoint (displayFloat (.finite negative magnitude))) =
      some (.round target negative (shortest format magnitude.1).value) := by
  cases negative with
  | true =>
    have text : withPoint (displayFloat (.finite true magnitude)) =
        '-' :: withPoint (shortest format magnitude.1).text :=
      withPoint_cons (by decide) _
    rw [text]
    simp only [readFloat, splitSign, readDecimal_text, Option.map_some]
  | false =>
    have text : withPoint (displayFloat (.finite false magnitude)) =
        withPoint (shortest format magnitude.1).text := rfl
    rw [text]
    simp only [readFloat, splitSign_withPoint, readDecimal_text, Option.map_some]

/-- The text of a finite value reads back in its own format. -/
theorem readFloat_displayFloat_self {negative : Bool}
    {magnitude : {q : ℚ // format.Representable q}} (nonnegative : 0 ≤ magnitude.1) :
    readFloat format (withPoint (displayFloat (.finite negative magnitude))) =
      some (.finite negative magnitude) := by
  have rounds := shortest_rounds nonnegative magnitude.2
  rw [readFloat_displayFloat]
  simp only [FloatValue.round, rounds, dif_pos magnitude.2.2]

/-- A representable magnitude is not negative. -/
theorem nonneg_of_representable {magnitude : ℚ} (representable : format.Representable magnitude) :
    0 ≤ magnitude := by
  obtain ⟨⟨significand, exponent, -, -, equal⟩, -⟩ := representable
  rw [equal]
  exact mul_nonneg (Nat.cast_nonneg significand) (two_zpow_pos exponent).le

end DecimalText
