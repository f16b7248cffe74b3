import Mathlib.Data.Int.Log
import Mathlib.Data.Rat.Floor
import Mathlib.Tactic.FieldSimp
import Mathlib.Tactic.Linarith
import Mathlib.Tactic.Positivity
import Mathlib.Tactic.Ring

/-! # Binary floating-point formats

The values of a binary format as exact rationals, rounding to nearest with ties to
even, and conversion between formats.  A value carries the proof that its magnitude
is one of the format's, so a value of one format cannot be mistaken for one of
another.  There is one NaN: payloads are not part of a value. -/

/-- A binary format: significands below `2 ^ precision`, exponents from `minExponent`
on, magnitudes below `2 ^ maxExponent`. -/
structure FloatFormat where
  precision : Nat
  minExponent : Int
  maxExponent : Int
  precision_pos : 0 < precision
  deriving DecidableEq

namespace FloatFormat

def binary32 : FloatFormat := ⟨24, -149, 128, by decide⟩

def binary64 : FloatFormat := ⟨53, -1074, 1024, by decide⟩

variable (format : FloatFormat)

/-- A magnitude the format holds exactly. -/
def Representable (magnitude : ℚ) : Prop :=
  (∃ significand : ℕ, ∃ exponent : ℤ, significand < 2 ^ format.precision ∧
    format.minExponent ≤ exponent ∧ magnitude = significand * 2 ^ exponent) ∧
  magnitude < 2 ^ format.maxExponent

/-- Every value of the first format is one of the second. -/
def Embeds (narrow wide : FloatFormat) : Prop :=
  narrow.precision ≤ wide.precision ∧ wide.minExponent ≤ narrow.minExponent ∧
    narrow.maxExponent ≤ wide.maxExponent

theorem binary32_embeds_binary64 : Embeds binary32 binary64 := by
  refine ⟨?_, ?_, ?_⟩ <;> decide

variable {format} in
theorem Representable.embed {wide : FloatFormat} {magnitude : ℚ} (embeds : Embeds format wide)
    (representable : format.Representable magnitude) : wide.Representable magnitude := by
  obtain ⟨⟨significand, exponent, fits, above, equal⟩, below⟩ := representable
  refine ⟨⟨significand, exponent, ?_, embeds.2.1.trans above, equal⟩, ?_⟩
  · exact fits.trans_le (Nat.pow_le_pow_right (by decide) embeds.1)
  · exact below.trans_le (zpow_le_zpow_right₀ (by norm_num) embeds.2.2)

/-! ## Rounding to nearest, ties to even -/

theorem two_zpow_pos (exponent : ℤ) : (0 : ℚ) < 2 ^ exponent := zpow_pos (by norm_num) exponent

/-- The nearest natural number, the even one of two that are equally near. -/
def halfEven (q : ℚ) : ℕ :=
  if q - ⌊q⌋₊ < 1 / 2 then ⌊q⌋₊
  else if 1 / 2 < q - ⌊q⌋₊ then ⌊q⌋₊ + 1
  else ⌊q⌋₊ + ⌊q⌋₊ % 2

@[simp] theorem halfEven_natCast (n : ℕ) : halfEven n = n := by
  simp [halfEven]

theorem halfEven_le {q : ℚ} {n : ℕ} (below : q < n) : halfEven q ≤ n := by
  by_cases empty : n = 0
  · subst empty
    have negative : q < 0 := by simpa using below
    have floor : ⌊q⌋₊ = 0 := Nat.floor_of_nonpos negative.le
    have small : q - (0 : ℕ) < 1 / 2 := by push_cast; linarith
    rw [halfEven, floor, if_pos small]
  · have floor : ⌊q⌋₊ < n := (Nat.floor_lt' empty).mpr below
    unfold halfEven
    split
    · omega
    · split <;> omega

/-- The exponent of the last place at this magnitude. -/
def lastPlace (magnitude : ℚ) : ℤ :=
  max format.minExponent (Int.log 2 magnitude + 1 - format.precision)

/-- The nearest magnitude, its exponent not bounded above. -/
def roundMagnitude (magnitude : ℚ) : ℚ :=
  halfEven (magnitude / 2 ^ format.lastPlace magnitude) * 2 ^ format.lastPlace magnitude

theorem div_lastPlace_lt (magnitude : ℚ) :
    magnitude / 2 ^ format.lastPlace magnitude < (2 ^ format.precision : ℕ) := by
  have upper : magnitude < (2 : ℚ) ^ (Int.log 2 magnitude + 1) :=
    mod_cast Int.lt_zpow_succ_log_self (b := 2) (by decide) magnitude
  have place : Int.log 2 magnitude + 1 ≤ format.precision + format.lastPlace magnitude := by
    unfold lastPlace
    omega
  rw [div_lt_iff₀ (two_zpow_pos _)]
  calc magnitude < (2 : ℚ) ^ (Int.log 2 magnitude + 1) := upper
    _ ≤ 2 ^ ((format.precision : ℤ) + format.lastPlace magnitude) :=
        zpow_le_zpow_right₀ (by norm_num) place
    _ = (2 ^ format.precision : ℕ) * 2 ^ format.lastPlace magnitude := by
        rw [zpow_add₀ (by norm_num), zpow_natCast]
        push_cast
        rfl

theorem roundMagnitude_representable {magnitude : ℚ}
    (below : format.roundMagnitude magnitude < 2 ^ format.maxExponent) :
    format.Representable (format.roundMagnitude magnitude) := by
  refine ⟨?_, below⟩
  have bounded := halfEven_le (format.div_lastPlace_lt magnitude)
  have above : format.minExponent ≤ format.lastPlace magnitude := le_max_left _ _
  obtain less | full := Nat.lt_or_eq_of_le bounded
  · exact ⟨_, _, less, above, rfl⟩
  · -- the significand rounded up to the next power of two
    refine ⟨1, format.lastPlace magnitude + format.precision, ?_, by omega, ?_⟩
    · exact Nat.one_lt_two_pow format.precision_pos.ne'
    · rw [roundMagnitude, full, zpow_add₀ (by norm_num), zpow_natCast]
      push_cast
      ring

/-- Rounding keeps a multiple of the last place. -/
theorem roundMagnitude_eq_self {magnitude : ℚ} {multiple : ℕ}
    (isMultiple : magnitude = multiple * 2 ^ format.lastPlace magnitude) :
    format.roundMagnitude magnitude = magnitude := by
  have quotient : magnitude / 2 ^ format.lastPlace magnitude = multiple := by
    rw [div_eq_iff (two_zpow_pos _).ne']
    exact isMultiple
  rw [roundMagnitude, quotient, halfEven_natCast]
  exact isMultiple.symm

/-- Rounding keeps what has few enough digits, however large it is. -/
theorem roundMagnitude_mul_zpow {significand : ℕ} {exponent : ℤ}
    (fits : significand < 2 ^ format.precision) (above : format.minExponent ≤ exponent) :
    format.roundMagnitude (significand * 2 ^ exponent) = significand * 2 ^ exponent := by
  generalize equal : (significand : ℚ) * 2 ^ exponent = magnitude
  by_cases empty : significand = 0
  · have isMultiple : magnitude = (0 : ℕ) * 2 ^ format.lastPlace magnitude := by
      rw [← equal, empty]
      simp
    exact format.roundMagnitude_eq_self isMultiple
  · have positive : 0 < magnitude := by
      rw [← equal]
      exact mul_pos (mod_cast Nat.pos_of_ne_zero empty) (two_zpow_pos _)
    have upper : magnitude < (2 : ℕ) ^ ((format.precision : ℤ) + exponent) := by
      rw [← equal, zpow_add₀ (by norm_num), zpow_natCast]
      have fits' : (significand : ℚ) < 2 ^ format.precision := mod_cast fits
      push_cast
      exact mul_lt_mul_of_pos_right fits' (two_zpow_pos _)
    have log : Int.log 2 magnitude < format.precision + exponent :=
      (Int.lt_zpow_iff_log_lt (by decide) positive).mp upper
    have place : format.lastPlace magnitude ≤ exponent := by
      unfold lastPlace
      omega
    have split : exponent =
        ((exponent - format.lastPlace magnitude).toNat : ℤ) + format.lastPlace magnitude := by
      omega
    have isMultiple : magnitude =
        (significand * 2 ^ (exponent - format.lastPlace magnitude).toNat : ℕ) *
          2 ^ format.lastPlace magnitude := by
      conv_lhs => rw [← equal, split, zpow_add₀ (by norm_num), zpow_natCast]
      push_cast
      ring
    exact format.roundMagnitude_eq_self isMultiple

theorem roundMagnitude_of_representable {magnitude : ℚ}
    (representable : format.Representable magnitude) :
    format.roundMagnitude magnitude = magnitude := by
  obtain ⟨⟨significand, exponent, fits, above, equal⟩, -⟩ := representable
  rw [equal]
  exact format.roundMagnitude_mul_zpow fits above

@[simp] theorem roundMagnitude_zero : format.roundMagnitude 0 = 0 := by
  have isMultiple : (0 : ℚ) = (0 : ℕ) * 2 ^ format.lastPlace 0 := by simp
  exact format.roundMagnitude_eq_self isMultiple

/-- A natural number below `2 ^ precision` is representable. -/
theorem representable_natCast {n : ℕ} (fits : n < 2 ^ format.precision)
    (unit : format.minExponent ≤ 0) (room : (format.precision : ℤ) ≤ format.maxExponent) :
    format.Representable n := by
  refine ⟨⟨n, 0, fits, unit, by simp⟩, ?_⟩
  calc (n : ℚ) < 2 ^ format.precision := mod_cast fits
    _ = 2 ^ (format.precision : ℤ) := (zpow_natCast _ _).symm
    _ ≤ 2 ^ format.maxExponent := zpow_le_zpow_right₀ (by norm_num) room

end FloatFormat

/-- A value of a format: NaN, a signed infinity, or a signed representable magnitude. -/
inductive FloatValue (format : FloatFormat) where
  | nan
  | infinite (negative : Bool)
  | finite (negative : Bool) (magnitude : {q : ℚ // format.Representable q})
  deriving DecidableEq

namespace FloatValue

variable {format narrow wide : FloatFormat}

/-- The value nearest to the given sign and magnitude; a rounded magnitude that is too
large becomes infinity. -/
def round (format : FloatFormat) (negative : Bool) (magnitude : ℚ) : FloatValue format :=
  if below : format.roundMagnitude magnitude < 2 ^ format.maxExponent then
    .finite negative ⟨_, format.roundMagnitude_representable below⟩
  else .infinite negative

theorem round_of_representable {magnitude : ℚ} (negative : Bool)
    (representable : format.Representable magnitude) :
    round format negative magnitude = .finite negative ⟨magnitude, representable⟩ := by
  have same := format.roundMagnitude_of_representable representable
  simp only [round, same, dif_pos representable.2]

/-- Conversion to another format. -/
def convert (target : FloatFormat) : FloatValue format → FloatValue target
  | .nan => .nan
  | .infinite negative => .infinite negative
  | .finite negative magnitude => round target negative magnitude

/-- Converting to a wider format loses nothing. -/
theorem convert_convert (embeds : FloatFormat.Embeds narrow wide) (value : FloatValue narrow) :
    convert narrow (convert wide value) = value := by
  cases value with
  | nan => rfl
  | infinite negative => rfl
  | finite negative magnitude =>
    have widened := round_of_representable negative (magnitude.2.embed embeds)
    have narrowed := round_of_representable negative magnitude.2
    simp only [convert, widened, narrowed]

/-! ## Integers -/

/-- The value nearest to an integer. -/
def ofInt (format : FloatFormat) (n : ℤ) : FloatValue format :=
  round format (n < 0) n.natAbs

/-- The integer part, zero where there is none. -/
def toInt : FloatValue format → ℤ
  | .nan | .infinite _ => 0
  | .finite negative magnitude => if negative then -⌊magnitude.1⌋ else ⌊magnitude.1⌋

/-- Small integers survive the conversion. -/
theorem toInt_ofInt {n : ℤ} (representable : format.Representable n.natAbs) :
    (ofInt format n).toInt = n := by
  rw [ofInt, round_of_representable _ representable]
  by_cases negative : n < 0
  · simp only [toInt, negative, decide_true, if_true, Int.floor_natCast]
    omega
  · simp only [toInt, negative, decide_false, Bool.false_eq_true, if_false, Int.floor_natCast]
    omega

def isInfinite : FloatValue format → Bool
  | .infinite _ => true
  | .nan | .finite _ _ => false

/-- Equality of numbers: NaN is unequal to itself, the two zeros are equal. -/
def numericEq : FloatValue format → FloatValue format → Bool
  | .nan, _ | _, .nan => false
  | .infinite left, .infinite right => left == right
  | .infinite _, .finite _ _ | .finite _ _, .infinite _ => false
  | .finite left magnitude, .finite right magnitude' =>
    magnitude.1 == magnitude'.1 && (left == right || magnitude.1 == 0)

/-- Two whole numbers, the second not too large, are equal as floats if they round alike. -/
theorem numericEq_ofInt_natCast {m n : ℕ}
    (below : format.roundMagnitude n < 2 ^ format.maxExponent) :
    (ofInt format m).numericEq (ofInt format n) = true ↔
      format.roundMagnitude m = format.roundMagnitude n := by
  have sign (k : ℕ) : decide ((k : ℤ) < 0) = false := by simp
  simp only [ofInt, sign, Int.natAbs_natCast, round, dif_pos below]
  by_cases below' : format.roundMagnitude m < 2 ^ format.maxExponent
  · simp [numericEq, below']
  · have different : format.roundMagnitude m ≠ format.roundMagnitude n := fun same =>
      below' (same ▸ below)
    simp [numericEq, below', different]

end FloatValue
