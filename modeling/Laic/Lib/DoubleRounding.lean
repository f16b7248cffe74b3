import Laic.Lib.FloatFormat

/-! # Rounding a decimal once and rounding it twice

A number `d` that a wide format rounds to `m` lies on the same side of every other value of
the wide format as `m` does.  The midpoints between neighbours of a narrow format are such
values, so the narrow format rounds `d` and `m` to the same neighbour, unless `m` is a
midpoint itself: then `d` decides the side, and the tie rule need not agree with it. -/

namespace FloatFormat

variable {format narrow wide : FloatFormat}

/-! ## The nearest natural number -/

theorem halfEven_eq {q : ℚ} {n : ℕ} (lower : (n : ℚ) - 1 / 2 < q) (upper : q < n + 1 / 2) :
    halfEven q = n := by
  by_cases reached : (n : ℚ) ≤ q
  · have floor : ⌊q⌋₊ = n := by
      rw [Nat.floor_eq_iff ((Nat.cast_nonneg n).trans reached)]
      constructor <;> linarith
    rw [halfEven, floor, if_pos (by linarith)]
  · cases n with
    | zero =>
      have floor : ⌊q⌋₊ = 0 := Nat.floor_of_nonpos (by simpa using (not_le.mp reached).le)
      rw [halfEven, floor, if_pos (by push_cast at upper ⊢; linarith)]
    | succ n =>
      have below : q < n + 1 := by simpa using reached
      have above : (n : ℚ) + 1 / 2 < q := by push_cast at lower; linarith
      have floor : ⌊q⌋₊ = n := by
        rw [Nat.floor_eq_iff (by linarith [Nat.cast_nonneg (α := ℚ) n])]
        constructor <;> linarith
      rw [halfEven, floor, if_neg (by linarith), if_pos (by linarith)]

theorem halfEven_tie {q : ℚ} (tie : q - ⌊q⌋₊ = 1 / 2) : halfEven q = ⌊q⌋₊ + ⌊q⌋₊ % 2 := by
  rw [halfEven, if_neg (by linarith), if_neg (by linarith)]

/-- Away from a tie the result is nearer than one half. -/
theorem halfEven_near {q : ℚ} (nonnegative : 0 ≤ q) (noTie : q - ⌊q⌋₊ ≠ 1 / 2) :
    (halfEven q : ℚ) - 1 / 2 < q ∧ q < halfEven q + 1 / 2 := by
  have below := Nat.floor_le nonnegative
  have above := Nat.lt_floor_add_one q
  rw [halfEven]
  split
  · constructor <;> linarith
  next notLess =>
    have more : 1 / 2 < q - ⌊q⌋₊ := lt_of_le_of_ne (not_lt.mp notLess) noTie.symm
    rw [if_pos more]
    push_cast
    constructor <;> linarith

theorem floor_le_halfEven (q : ℚ) : ⌊q⌋₊ ≤ halfEven q := by
  unfold halfEven
  split
  · exact le_rfl
  · split <;> omega

theorem halfEven_le_floor (q : ℚ) : halfEven q ≤ ⌊q⌋₊ + 1 := by
  unfold halfEven
  split
  · omega
  · split <;> omega

theorem halfEven_mono {q r : ℚ} (le : q ≤ r) : halfEven q ≤ halfEven r := by
  have floors := Nat.floor_mono le
  by_cases same : ⌊q⌋₊ = ⌊r⌋₊
  · -- the fractions are in the same order
    unfold halfEven
    rw [same]
    split_ifs <;> first | omega | linarith
  · have apart : ⌊q⌋₊ + 1 ≤ ⌊r⌋₊ := by omega
    exact (halfEven_le_floor q).trans (apart.trans (floor_le_halfEven r))

/-! ## Rounding is monotone -/

/-- The magnitude lies below the power of two behind its last place's largest multiple. -/
theorem roundMagnitude_le (format : FloatFormat) (magnitude : ℚ) :
    format.roundMagnitude magnitude ≤ 2 ^ (format.precision + format.lastPlace magnitude : ℤ) := by
  have bounded : (halfEven (magnitude / 2 ^ format.lastPlace magnitude) : ℚ) ≤ 2 ^ format.precision :=
    mod_cast halfEven_le (format.div_lastPlace_lt magnitude)
  rw [roundMagnitude, zpow_add₀ (by norm_num), zpow_natCast]
  exact mul_le_mul_of_nonneg_right bounded (two_zpow_pos _).le

/-- Above the least place a magnitude reaches the power of two its place stands for. -/
theorem le_of_lastPlace (format : FloatFormat) {magnitude : ℚ} (positive : 0 < magnitude)
    (above : format.minExponent < format.lastPlace magnitude) :
    (2 : ℚ) ^ (format.precision + format.lastPlace magnitude - 1 : ℤ) ≤ magnitude := by
  have place : format.lastPlace magnitude = Int.log 2 magnitude + 1 - format.precision := by
    unfold lastPlace at above ⊢
    omega
  have exponent : (format.precision + format.lastPlace magnitude - 1 : ℤ) = Int.log 2 magnitude := by
    omega
  rw [exponent]
  exact_mod_cast Int.zpow_log_le_self (by decide) positive

theorem lt_of_lastPlace (format : FloatFormat) (magnitude : ℚ) :
    magnitude < 2 ^ (format.precision + format.lastPlace magnitude : ℤ) := by
  have quotient := format.div_lastPlace_lt magnitude
  rw [div_lt_iff₀ (two_zpow_pos _)] at quotient
  rw [zpow_add₀ (by norm_num), zpow_natCast]
  exact_mod_cast quotient

theorem roundMagnitude_mono (format : FloatFormat) {x y : ℚ} (positive : 0 < x) (le : x ≤ y) :
    format.roundMagnitude x ≤ format.roundMagnitude y := by
  have logs : Int.log 2 x ≤ Int.log 2 y := Int.log_mono_right positive le
  by_cases same : format.lastPlace x = format.lastPlace y
  · rw [roundMagnitude, roundMagnitude, same]
    apply mul_le_mul_of_nonneg_right _ (two_zpow_pos _).le
    have quotients : x / 2 ^ format.lastPlace y ≤ y / 2 ^ format.lastPlace y :=
      div_le_div_of_nonneg_right le (two_zpow_pos _).le
    exact_mod_cast halfEven_mono quotients
  · -- a power of two stands between the two
    have places : format.lastPlace x < format.lastPlace y := by
      unfold lastPlace at same ⊢
      omega
    have above : format.minExponent < format.lastPlace y :=
      lt_of_le_of_lt (le_max_left _ _) places
    have reached := format.le_of_lastPlace (positive.trans_le le) above
    have kept : (2 : ℚ) ^ (format.precision + format.lastPlace y - 1 : ℤ) ≤
        format.roundMagnitude y := by
      have split : (format.precision + format.lastPlace y - 1 : ℤ) =
          ((format.precision - 1 : ℕ) : ℤ) + format.lastPlace y := by
        have := format.precision_pos
        omega
      rw [split, zpow_add₀ (by norm_num), zpow_natCast] at reached ⊢
      apply mul_le_mul_of_nonneg_right _ (two_zpow_pos _).le
      have quotient : ((2 ^ (format.precision - 1) : ℕ) : ℚ) ≤ y / 2 ^ format.lastPlace y := by
        rw [le_div_iff₀ (two_zpow_pos _)]
        exact_mod_cast reached
      have least := halfEven_mono quotient
      rw [halfEven_natCast] at least
      exact_mod_cast least
    refine le_trans (format.roundMagnitude_le x) (le_trans ?_ kept)
    apply zpow_le_zpow_right₀ (by norm_num)
    omega

/-! ## Two formats -/

/-- The wide format has two digits more and two exponents more below: it holds the
midpoints between neighbours of the narrow format. -/
def Separates (wide narrow : FloatFormat) : Prop :=
  narrow.precision + 2 ≤ wide.precision ∧ wide.minExponent + 2 ≤ narrow.minExponent

theorem binary64_separates_binary32 : Separates binary64 binary32 := by
  constructor <;> decide

/-- Where the magnitude is midway between two neighbours of the format, `decimal` is the
magnitude itself or lies on the side of the even neighbour. -/
def TieSafe (narrow : FloatFormat) (magnitude decimal : ℚ) : Prop :=
  let quotient := magnitude / 2 ^ narrow.lastPlace magnitude
  quotient - ⌊quotient⌋₊ = 1 / 2 →
    decimal = magnitude ∨ (magnitude < decimal ↔ ⌊quotient⌋₊ % 2 = 1)

instance (magnitude decimal : ℚ) : Decidable (TieSafe narrow magnitude decimal) := by
  unfold TieSafe
  infer_instance

variable {m d : ℚ}

/-- A value of the wide format that is not above `d` is not above what `d` rounds to. -/
theorem le_of_le_rounded (rounds : wide.roundMagnitude d = m) {significand : ℕ} {exponent : ℤ}
    (fits : significand < 2 ^ wide.precision) (least : wide.minExponent ≤ exponent)
    (le : significand * 2 ^ exponent ≤ d) : significand * 2 ^ exponent ≤ m := by
  by_cases empty : significand = 0
  · subst empty
    have nonnegative : 0 ≤ wide.roundMagnitude d :=
      mul_nonneg (Nat.cast_nonneg _) (two_zpow_pos _).le
    rw [← rounds]
    simpa using nonnegative
  · have value : (0 : ℚ) < significand * 2 ^ exponent :=
      mul_pos (mod_cast Nat.pos_of_ne_zero empty) (two_zpow_pos _)
    have monotone := wide.roundMagnitude_mono value le
    rwa [wide.roundMagnitude_mul_zpow fits least, rounds] at monotone

/-- A value of the wide format that is not below `d` is not below what `d` rounds to. -/
theorem ge_of_ge_rounded (rounds : wide.roundMagnitude d = m) (positive : 0 < d) {significand : ℕ}
    {exponent : ℤ} (fits : significand < 2 ^ wide.precision) (least : wide.minExponent ≤ exponent)
    (le : d ≤ significand * 2 ^ exponent) : m ≤ significand * 2 ^ exponent := by
  have monotone := wide.roundMagnitude_mono positive le
  rwa [wide.roundMagnitude_mul_zpow fits least, rounds] at monotone

/-- A midpoint between multiples of a place, as a multiple of half the place. -/
theorem midpoint_eq (n : ℕ) (place : ℤ) :
    ((2 * n + 1 : ℕ) : ℚ) * 2 ^ (place - 1) = (n + 1 / 2) * 2 ^ place := by
  rw [zpow_sub_one₀ (by norm_num)]
  push_cast
  ring

/-- Of a midpoint of the wide format `d` is on the side on which its rounding is. -/
theorem quotient_lt (rounds : wide.roundMagnitude d = m) {n : ℕ} {place : ℤ}
    (fits : 2 * n + 1 < 2 ^ wide.precision) (least : wide.minExponent ≤ place - 1)
    (below : m / 2 ^ place < n + 1 / 2) : d / 2 ^ place < n + 1 / 2 := by
  rw [div_lt_iff₀ (two_zpow_pos _)] at below ⊢
  by_contra reached
  have value := le_of_le_rounded rounds fits least
  rw [midpoint_eq] at value
  exact absurd (value (not_lt.mp reached)) (not_le.mpr below)

theorem lt_quotient (rounds : wide.roundMagnitude d = m) (positive : 0 < d) {n : ℕ} {place : ℤ}
    (fits : 2 * n + 1 < 2 ^ wide.precision) (least : wide.minExponent ≤ place - 1)
    (above : (n : ℚ) + 1 / 2 < m / 2 ^ place) : (n : ℚ) + 1 / 2 < d / 2 ^ place := by
  rw [lt_div_iff₀ (two_zpow_pos _)] at above ⊢
  by_contra reached
  have value := ge_of_ge_rounded rounds positive fits least
  rw [midpoint_eq] at value
  exact absurd (value (not_lt.mp reached)) (not_le.mpr above)

/-- Below one half more than `n`, and above one half less, if that is a midpoint. -/
theorem halfEven_quotient (rounds : wide.roundMagnitude d = m) (positive : 0 < d) {n : ℕ} {place : ℤ}
    (fits : 2 * n + 1 < 2 ^ wide.precision) (least : wide.minExponent ≤ place - 1)
    (lower : (n : ℚ) - 1 / 2 < m / 2 ^ place) (upper : d / 2 ^ place < n + 1 / 2) :
    halfEven (d / 2 ^ place) = n := by
  apply halfEven_eq _ upper
  cases n with
  | zero =>
    have quotient : 0 < d / 2 ^ place := div_pos positive (two_zpow_pos _)
    push_cast
    linarith
  | succ n =>
    have midpoint : ((n + 1 : ℕ) : ℚ) - 1 / 2 = n + 1 / 2 := by
      push_cast
      ring
    rw [midpoint] at lower ⊢
    exact lt_quotient rounds positive (by omega) least lower

/-! ## The narrow format at one place -/

/-- Midpoints up to the largest multiple of a place are values of the wide format. -/
theorem Separates.fits (separates : Separates wide narrow) {n : ℕ} (small : n ≤ 2 ^ narrow.precision) :
    2 * n + 3 < 2 ^ wide.precision := by
  have digits : 2 ^ narrow.precision * 4 ≤ 2 ^ wide.precision := by
    calc 2 ^ narrow.precision * 4 = 2 ^ (narrow.precision + 2) := by ring
      _ ≤ 2 ^ wide.precision := Nat.pow_le_pow_right (by decide) separates.1
  have two : 2 ≤ 2 ^ narrow.precision := Nat.le_self_pow narrow.precision_pos.ne' 2
  omega

theorem Separates.least (separates : Separates wide narrow) (magnitude : ℚ) :
    wide.minExponent + 2 ≤ narrow.lastPlace magnitude :=
  separates.2.trans (le_max_left _ _)

/-- At the place of `m`, `d` goes to the same multiple exactly when no tie is decided
against the even neighbour. -/
theorem halfEven_eq_iff (separates : Separates wide narrow) (rounds : wide.roundMagnitude d = m)
    (positive : 0 < d) (nonnegative : 0 ≤ m) :
    halfEven (d / 2 ^ narrow.lastPlace m) = halfEven (m / 2 ^ narrow.lastPlace m) ↔
      TieSafe narrow m d := by
  have least := separates.least m
  have bounded : m / 2 ^ narrow.lastPlace m < (2 ^ narrow.precision : ℕ) := narrow.div_lastPlace_lt m
  have quotient : 0 ≤ m / 2 ^ narrow.lastPlace m := div_nonneg nonnegative (two_zpow_pos _).le
  unfold TieSafe
  generalize narrow.lastPlace m = place at *
  by_cases tie : m / 2 ^ place - ⌊m / 2 ^ place⌋₊ = 1 / 2
  · simp only [tie, forall_const]
    have even := halfEven_tie tie
    have small : ⌊m / 2 ^ place⌋₊ ≤ 2 ^ narrow.precision :=
      (Nat.floor_lt quotient).mpr bounded |>.le
    have fits := separates.fits small
    generalize ⌊m / 2 ^ place⌋₊ = n at *
    have midpoint : m / 2 ^ place = n + 1 / 2 := by linarith
    rw [even]
    obtain less | equal | more := lt_trichotomy d m
    · -- below the midpoint: down to `n`
      have below : d / 2 ^ place < n + 1 / 2 := by
        rw [← midpoint]
        exact div_lt_div_of_pos_right less (two_zpow_pos _)
      have down : halfEven (d / 2 ^ place) = n := by
        apply halfEven_quotient rounds positive (by omega) (by omega) _ below
        linarith
      rw [down]
      simp only [less.ne, not_lt.mpr less.le, false_or, false_iff]
      omega
    · rw [equal, even]
      simp
    · -- above the midpoint: up to `n + 1`
      have above : (n : ℚ) + 1 / 2 < d / 2 ^ place := by
        rw [← midpoint]
        exact div_lt_div_of_pos_right more (two_zpow_pos _)
      have up : halfEven (d / 2 ^ place) = n + 1 := by
        have next : d / 2 ^ place < ((n + 1 : ℕ) : ℚ) + 1 / 2 := by
          apply quotient_lt rounds (by omega) (by omega)
          rw [midpoint]
          push_cast
          linarith
        apply halfEven_eq _ next
        push_cast
        linarith
      rw [up]
      simp only [more.ne', more, false_or, true_iff]
      omega
  · simp only [tie, false_implies, iff_true]
    obtain ⟨lower, upper⟩ := halfEven_near quotient tie
    have small : halfEven (m / 2 ^ place) ≤ 2 ^ narrow.precision := halfEven_le bounded
    have fits := separates.fits small
    have below := quotient_lt rounds (by omega) (by omega) upper
    exact halfEven_quotient rounds positive (by omega) (by omega) lower below

/-! ## The narrow format at two places -/

/-- The place of `d` is that of `m`, or `m` is the least magnitude at its place. -/
theorem place_of_rounded (separates : Separates wide narrow) (rounds : wide.roundMagnitude d = m)
    (positive : 0 < d) (nonzero : 0 < m) :
    narrow.lastPlace d = narrow.lastPlace m ∨
      narrow.lastPlace d < narrow.lastPlace m ∧
        m = 2 ^ (narrow.precision + narrow.lastPlace m - 1 : ℤ) := by
  have one : 1 < 2 ^ wide.precision := Nat.one_lt_two_pow wide.precision_pos.ne'
  obtain less | equal | more := lt_trichotomy (narrow.lastPlace d) (narrow.lastPlace m)
  · right
    refine ⟨less, le_antisymm ?_ ?_⟩
    · -- `d` is below the power of two that `m` reaches, so `m` is not above it
      have below : d ≤ ((1 : ℕ) : ℚ) * 2 ^ (narrow.precision + narrow.lastPlace m - 1 : ℤ) := by
        rw [Nat.cast_one, one_mul]
        refine (narrow.lt_of_lastPlace d).le.trans (zpow_le_zpow_right₀ (by norm_num) ?_)
        omega
      have least := separates.least m
      have upper := ge_of_ge_rounded rounds positive one (by omega) below
      rwa [Nat.cast_one, one_mul] at upper
    · exact narrow.le_of_lastPlace nonzero (lt_of_le_of_lt (le_max_left _ _) less)
  · exact .inl equal
  · -- the power of two that `d` reaches is not above `m`
    exfalso
    have reached : ((1 : ℕ) : ℚ) * 2 ^ (narrow.precision + narrow.lastPlace d - 1 : ℤ) ≤ d := by
      rw [Nat.cast_one, one_mul]
      exact narrow.le_of_lastPlace positive (lt_of_le_of_lt (le_max_left _ _) more)
    have least := separates.least d
    have lower := le_of_le_rounded rounds one (by omega) reached
    rw [Nat.cast_one, one_mul] at lower
    refine absurd (lower.trans_lt (narrow.lt_of_lastPlace m)) (not_lt.mpr ?_)
    apply zpow_le_zpow_right₀ (by norm_num)
    omega

/-- Just below a power of two `d` is rounded up to it. -/
theorem roundMagnitude_of_place_lt (separates : Separates wide narrow)
    (rounds : wide.roundMagnitude d = m) (positive : 0 < d)
    (less : narrow.lastPlace d < narrow.lastPlace m)
    (power : m = 2 ^ (narrow.precision + narrow.lastPlace m - 1 : ℤ)) :
    narrow.roundMagnitude d = m := by
  have least := separates.least d
  have digits := separates.fits (le_refl (2 ^ narrow.precision))
  have one : 1 ≤ 2 ^ narrow.precision := Nat.one_le_two_pow
  have upper := narrow.lt_of_lastPlace d
  -- the place under that of `m`
  obtain ⟨place, under⟩ : ∃ place, place = narrow.lastPlace m - 1 := ⟨_, rfl⟩
  have multiple : m = (2 ^ narrow.precision : ℕ) * 2 ^ place := by
    rw [power, under, add_sub_assoc, zpow_add₀ (by norm_num), zpow_natCast]
    push_cast
    rfl
  have quotient : m / 2 ^ place = (2 ^ narrow.precision : ℕ) := by
    rw [multiple, mul_div_cancel_right₀ _ (two_zpow_pos place).ne']
  have above : ((2 ^ narrow.precision - 1 : ℕ) : ℚ) + 1 / 2 < d / 2 ^ place := by
    apply lt_quotient rounds positive (by omega) (by omega)
    rw [quotient, Nat.cast_sub one]
    push_cast
    linarith
  rw [Nat.cast_sub one, Nat.cast_one] at above
  have same : narrow.lastPlace d = place := by
    by_contra different
    -- `d` would be below half of `m`
    have half : d < ((2 ^ narrow.precision : ℕ) : ℚ) / 2 * 2 ^ place := by
      have bound : (2 : ℚ) ^ (narrow.precision + narrow.lastPlace d : ℤ) ≤
          2 ^ (narrow.precision + (place - 1) : ℤ) :=
        zpow_le_zpow_right₀ (by norm_num) (by omega)
      rw [zpow_add₀ (by norm_num) _ (place - 1), zpow_natCast, zpow_sub_one₀ (by norm_num)] at bound
      refine upper.trans_le (bound.trans (le_of_eq ?_))
      push_cast
      ring
    rw [← div_lt_iff₀ (two_zpow_pos place)] at half
    have oneCast : (1 : ℚ) ≤ (2 ^ narrow.precision : ℕ) := mod_cast one
    linarith
  have below : d / 2 ^ place < (2 ^ narrow.precision : ℕ) := by
    rw [← same]
    exact narrow.div_lastPlace_lt d
  have nearest : halfEven (d / 2 ^ place) = 2 ^ narrow.precision :=
    halfEven_eq (by linarith) (by linarith)
  rw [roundMagnitude, same, nearest, multiple]

/-- The narrow format rounds `d` as it rounds `m` exactly where no tie is decided against
the even neighbour. -/
theorem roundMagnitude_eq_iff (separates : Separates wide narrow)
    (rounds : wide.roundMagnitude d = m) (positive : 0 < d) (nonzero : 0 < m) :
    narrow.roundMagnitude d = narrow.roundMagnitude m ↔ TieSafe narrow m d := by
  obtain same | ⟨less, power⟩ := place_of_rounded separates rounds positive nonzero
  · rw [← halfEven_eq_iff separates rounds positive nonzero.le, roundMagnitude, roundMagnitude, same,
      mul_left_inj' (two_zpow_pos _).ne', Nat.cast_inj]
  · -- `m` is a value of the narrow format
    obtain ⟨n, multiple⟩ : ∃ n : ℕ, m = n * 2 ^ narrow.lastPlace m := by
      refine ⟨2 ^ (narrow.precision - 1), ?_⟩
      have split : (narrow.precision + narrow.lastPlace m - 1 : ℤ) =
          ((narrow.precision - 1 : ℕ) : ℤ) + narrow.lastPlace m := by
        have := narrow.precision_pos
        omega
      conv_lhs => rw [power, split, zpow_add₀ (by norm_num), zpow_natCast]
      push_cast
      rfl
    have kept : narrow.roundMagnitude m = m := narrow.roundMagnitude_eq_self multiple
    have noTie : TieSafe narrow m d := by
      have quotient : m / 2 ^ narrow.lastPlace m = n := by
        rw [div_eq_iff (two_zpow_pos _).ne']
        exact multiple
      simp [TieSafe, quotient]
    rw [kept, roundMagnitude_of_place_lt separates rounds positive less power]
    exact iff_of_true rfl noTie

/-! ## What rounds below a bound -/

/-- Rounding stays below an even number up to the midpoint in front of it. -/
theorem halfEven_lt_iff {q : ℚ} {n : ℕ} (even : n % 2 = 0) (positive : 0 < n) :
    halfEven q < n ↔ q < n - 1 / 2 := by
  obtain ⟨k, rfl⟩ : ∃ k, n = k + 1 := ⟨n - 1, by omega⟩
  apply Iff.intro
  · intro less
    by_contra reached
    have floor : ⌊((k : ℚ) + 1 / 2)⌋₊ = k := by
      rw [Nat.floor_eq_iff (by positivity)]
      exact ⟨by linarith, by linarith⟩
    have tie : halfEven ((k : ℚ) + 1 / 2) = k + 1 := by
      rw [halfEven_tie (by rw [floor]; ring), floor]
      omega
    have above : (k : ℚ) + 1 / 2 ≤ q := by
      push_cast at reached
      linarith
    have least := halfEven_mono above
    omega
  · intro below
    push_cast at below
    obtain small | near := le_or_gt q k
    · have most := halfEven_mono small
      rw [halfEven_natCast] at most
      omega
    · rw [halfEven_eq (n := k) (by linarith) (by linarith)]
      omega

theorem roundMagnitude_zpow (format : FloatFormat) {exponent : ℤ}
    (above : format.minExponent ≤ exponent) :
    format.roundMagnitude (2 ^ exponent) = 2 ^ exponent := by
  have fits : 1 < 2 ^ format.precision := Nat.one_lt_two_pow format.precision_pos.ne'
  have one := format.roundMagnitude_mul_zpow fits above
  simpa using one

/-- The last place of the magnitudes between two powers of two. -/
theorem lastPlace_of_binade (format : FloatFormat) {x : ℚ} {place : ℤ}
    (above : format.minExponent ≤ place)
    (lower : 2 ^ (format.precision + place - 1) ≤ x) (upper : x < 2 ^ (format.precision + place)) :
    format.lastPlace x = place := by
  have positive : 0 < x := (two_zpow_pos _).trans_le lower
  have log : Int.log 2 x = format.precision + place - 1 := by
    apply le_antisymm
    · have := (Int.lt_zpow_iff_log_lt (b := 2) (by decide) positive).mp (by exact_mod_cast upper)
      omega
    · exact (Int.zpow_le_iff_le_log (b := 2) (by decide) positive).mp (by exact_mod_cast lower)
  unfold lastPlace
  omega

/-- The magnitudes that round below an even multiple of the last place of their binade. -/
theorem roundMagnitude_lt_iff (format : FloatFormat) {x : ℚ} (nonnegative : 0 ≤ x) (n : ℕ) (place : ℤ)
    (above : format.minExponent ≤ place) (even : n % 2 = 0)
    (most : n ≤ 2 ^ format.precision) (least : 2 ^ (format.precision - 1) < n) :
    format.roundMagnitude x < n * 2 ^ place ↔ x < (n - 1 / 2) * 2 ^ place := by
  have unit := two_zpow_pos place
  have lowerPower : (2 : ℚ) ^ (format.precision + place - 1) =
      (2 ^ (format.precision - 1) : ℕ) * 2 ^ place := by
    have split : (format.precision + place - 1 : ℤ) = ((format.precision - 1 : ℕ) : ℤ) + place := by
      have := format.precision_pos
      omega
    rw [split, zpow_add₀ (by norm_num), zpow_natCast]
    push_cast
    rfl
  have upperPower : (2 : ℚ) ^ (format.precision + place) = (2 ^ format.precision : ℕ) * 2 ^ place := by
    rw [zpow_add₀ (by norm_num), zpow_natCast]
    push_cast
    rfl
  have least' : ((2 ^ (format.precision - 1) : ℕ) : ℚ) + 1 ≤ n := mod_cast least
  have most' : (n : ℚ) ≤ (2 ^ format.precision : ℕ) := mod_cast most
  obtain small | lower := lt_or_ge x (2 ^ (format.precision + place - 1))
  · -- below the binade rounding does not enter it
    have kept : format.roundMagnitude x ≤ 2 ^ (format.precision + place - 1) := by
      obtain positive | zero := nonnegative.lt_or_eq
      · have bounded := roundMagnitude_mono format positive small.le
        rwa [format.roundMagnitude_zpow (by have := format.precision_pos; omega)] at bounded
      · rw [← zero, roundMagnitude_zero]
        exact (two_zpow_pos _).le
    rw [lowerPower] at kept small
    apply iff_of_true
    · apply kept.trans_lt
      exact mul_lt_mul_of_pos_right (by linarith) unit
    · apply small.trans_le
      exact mul_le_mul_of_nonneg_right (by linarith) unit.le
  · obtain upper | large := lt_or_ge x (2 ^ (format.precision + place))
    · have same := format.lastPlace_of_binade above lower upper
      have rounded := halfEven_lt_iff (q := x / 2 ^ place) even (Nat.zero_lt_of_lt least)
      rw [roundMagnitude, same, mul_lt_mul_iff_left₀ unit, Nat.cast_lt, rounded, div_lt_iff₀ unit]
    · have reached := roundMagnitude_mono format (two_zpow_pos _) large
      rw [format.roundMagnitude_zpow (by omega), upperPower] at reached
      rw [upperPower] at large
      apply iff_of_false
      · apply not_lt.mpr
        exact (mul_le_mul_of_nonneg_right most' unit.le).trans reached
      · apply not_lt.mpr
        exact (mul_le_mul_of_nonneg_right (by linarith) unit.le).trans large

/-- The magnitudes that round to a finite one: below the midpoint behind the largest. -/
theorem roundMagnitude_finite_iff (format : FloatFormat) {x : ℚ} (nonnegative : 0 ≤ x)
    (room : format.minExponent ≤ format.maxExponent - format.precision) :
    format.roundMagnitude x < 2 ^ format.maxExponent ↔
      x < 2 ^ format.maxExponent - 2 ^ (format.maxExponent - format.precision - 1) := by
  have precision := format.precision_pos
  have even : 2 ^ format.precision % 2 = 0 :=
    Nat.mod_eq_zero_of_dvd (dvd_pow_self 2 precision.ne')
  have least : 2 ^ (format.precision - 1) < 2 ^ format.precision :=
    Nat.pow_lt_pow_right (by decide) (by omega)
  have limit : ((2 ^ format.precision : ℕ) : ℚ) * 2 ^ (format.maxExponent - format.precision) =
      2 ^ format.maxExponent := by
    have split : format.maxExponent = format.precision + (format.maxExponent - format.precision) := by
      omega
    conv_rhs => rw [split, zpow_add₀ (by norm_num), zpow_natCast]
    push_cast
    rfl
  have half : (1 / 2 : ℚ) * 2 ^ (format.maxExponent - format.precision) =
      2 ^ (format.maxExponent - format.precision - 1) := by
    rw [zpow_sub_one₀ (by norm_num)]
    ring
  have bound := format.roundMagnitude_lt_iff nonnegative _ _ room even le_rfl least
  rwa [limit, sub_mul, limit, half] at bound

/-! ## Whole numbers with a float of their own -/

/-- Behind an even multiple of a last place above the first the next number rounds back. -/
theorem halfEven_add_one {k e : ℕ} (positive : 0 < e) (even : e = 1 → k % 2 = 0) :
    halfEven ((k : ℚ) + 1 / 2 ^ e) = k := by
  obtain one | more := Nat.eq_or_lt_of_le positive
  · have floor : ⌊((k : ℚ) + 1 / 2 ^ e)⌋₊ = k := by
      rw [← one, Nat.floor_eq_iff (by positivity)]
      norm_num
    rw [halfEven_tie (by rw [floor, ← one]; norm_num), floor, even one.symm]
    rfl
  · have power : (4 : ℚ) ≤ 2 ^ e := by
      calc (4 : ℚ) = 2 ^ 2 := by norm_num
        _ ≤ 2 ^ e := pow_le_pow_right₀ (by norm_num) more
    have small : 1 / (2 : ℚ) ^ e < 1 / 2 := by
      apply one_div_lt_one_div_of_lt (by norm_num)
      linarith
    have nonnegative : 0 ≤ 1 / (2 : ℚ) ^ e := by positivity
    exact halfEven_eq (by linarith) (by linarith)

/-- A whole number in the binade `e` behind the exact ones. -/
theorem roundMagnitude_natCast (format : FloatFormat) (whole : format.minExponent ≤ 0) {n e : ℕ}
    (positive : 0 < e) (lower : 2 ^ (format.precision + e - 1) ≤ n) (upper : n < 2 ^ (format.precision + e)) :
    format.roundMagnitude n = (halfEven ((n : ℚ) / 2 ^ e) * 2 ^ e : ℕ) := by
  have place : format.lastPlace n = e := by
    apply format.lastPlace_of_binade (by omega)
    · have exponent : ((format.precision : ℤ) + e - 1) = ((format.precision + e - 1 : ℕ) : ℤ) := by omega
      rw [exponent, zpow_natCast]
      exact_mod_cast lower
    · rw [← Nat.cast_add, zpow_natCast]
      exact_mod_cast upper
  rw [roundMagnitude, place, zpow_natCast]
  push_cast
  rfl

/-- A multiple of a power of two with few enough digits is kept. -/
theorem roundMagnitude_mul_pow (format : FloatFormat) (whole : format.minExponent ≤ 0) {k : ℕ}
    (fits : k ≤ 2 ^ format.precision) (e : ℕ) : format.roundMagnitude (k * 2 ^ e : ℕ) = (k * 2 ^ e : ℕ) := by
  have above : format.minExponent ≤ (e : ℤ) := by omega
  obtain less | full := Nat.lt_or_eq_of_le fits
  · have kept := format.roundMagnitude_mul_zpow less above
    rw [zpow_natCast] at kept
    exact_mod_cast kept
  · have reached : format.minExponent ≤ ((format.precision + e : ℕ) : ℤ) := by omega
    have kept := format.roundMagnitude_zpow reached
    rw [zpow_natCast, pow_add] at kept
    rw [full]
    exact_mod_cast kept

theorem roundMagnitude_natCast_mono (format : FloatFormat) {m n : ℕ} (le : m ≤ n) :
    format.roundMagnitude m ≤ format.roundMagnitude n := by
  obtain rfl | positive := Nat.eq_zero_or_pos m
  · rw [Nat.cast_zero, roundMagnitude_zero]
    exact mul_nonneg (Nat.cast_nonneg _) (two_zpow_pos _).le
  · exact format.roundMagnitude_mono (mod_cast positive) (mod_cast le)

/-- The whole numbers that no other one rounds to: those with few enough digits, and in the first
binade behind these the odd multiples of two. -/
theorem roundMagnitude_unique_iff (format : FloatFormat) (digits : 2 ≤ format.precision)
    (whole : format.minExponent ≤ 0) (n : ℕ) :
    (∀ m : ℕ, format.roundMagnitude m = format.roundMagnitude n → m = n) ↔
      n < 2 ^ format.precision ∨
        2 ^ format.precision < n ∧ n < 2 ^ (format.precision + 1) ∧ n % 4 = 2 := by
  have limit : format.roundMagnitude (2 ^ format.precision : ℕ) = (2 ^ format.precision : ℕ) := by
    simpa using format.roundMagnitude_mul_pow whole le_rfl 0
  have limit' : format.roundMagnitude (2 ^ (format.precision + 1) : ℕ) = (2 ^ (format.precision + 1) : ℕ) := by
    rw [pow_succ]
    simpa using format.roundMagnitude_mul_pow whole le_rfl 1
  constructor
  · intro alone
    by_contra other
    have large : 2 ^ format.precision ≤ n := by omega
    have nonzero : n ≠ 0 := (Nat.two_pow_pos _).trans_le large |>.ne'
    -- the binade of `n`
    have logLower := Nat.pow_log_le_self 2 nonzero
    have logUpper := Nat.lt_pow_succ_log_self (b := 2) (by decide) n
    have log : format.precision ≤ Nat.log 2 n := Nat.le_log_of_pow_le (by decide) large
    obtain ⟨e, binade⟩ : ∃ e, Nat.log 2 n + 1 = format.precision + e :=
      ⟨Nat.log 2 n + 1 - format.precision, by omega⟩
    have positive : 0 < e := by omega
    have lower : 2 ^ (format.precision + e - 1) ≤ n := by
      rwa [show format.precision + e - 1 = Nat.log 2 n by omega]
    have upper : n < 2 ^ (format.precision + e) := by rwa [← binade]
    -- `n` is what it rounds to
    have rounded := format.roundMagnitude_natCast whole positive lower upper
    have fits : halfEven ((n : ℚ) / 2 ^ e) ≤ 2 ^ format.precision := by
      apply halfEven_le
      rw [div_lt_iff₀ (by positivity)]
      have power : ((2 ^ format.precision : ℕ) : ℚ) * 2 ^ e = (2 ^ (format.precision + e) : ℕ) := by
        rw [pow_add]
        push_cast
        rfl
      rw [power]
      exact_mod_cast upper
    generalize halfEven ((n : ℚ) / 2 ^ e) = k at rounded fits
    have same : k * 2 ^ e = n := by
      apply alone
      rw [format.roundMagnitude_mul_pow whole fits, rounded]
    -- and so does the next number
    obtain ⟨half, halves⟩ : ∃ half, 2 ^ e = 2 * half := by
      obtain ⟨e, rfl⟩ : ∃ e', e = e' + 1 := ⟨e - 1, by omega⟩
      exact ⟨2 ^ e, by ring⟩
    have evenBinade : 2 ^ (format.precision + e) = 2 * (2 ^ format.precision * half) := by
      rw [pow_add, halves]
      ring
    have evenSelf : n = 2 * (k * half) := by
      rw [← same, halves]
      ring
    have even : e = 1 → k % 2 = 0 := by
      rintro rfl
      have four : 2 ^ format.precision % 4 = 0 :=
        Nat.mod_eq_zero_of_dvd (pow_dvd_pow 2 digits)
      omega
    have next := format.roundMagnitude_natCast whole positive (n := n + 1) (by omega) (by omega)
    have quotient : ((n + 1 : ℕ) : ℚ) / 2 ^ e = k + 1 / 2 ^ e := by
      rw [← same]
      push_cast
      rw [add_div, mul_div_assoc, div_self (by positivity), mul_one]
    rw [quotient, halfEven_add_one positive even, same] at next
    have kept : format.roundMagnitude n = n := by
      rw [rounded, same]
    have impossible := alone (n + 1) (by rw [next, kept])
    omega
  · rintro (small | ⟨above, below, mod⟩) m same
    · have exact {j : ℕ} (fits : j < 2 ^ format.precision) : format.roundMagnitude j = j := by
        simpa using format.roundMagnitude_mul_pow whole fits.le 0
      rw [exact small] at same
      obtain fits | large := lt_or_ge m (2 ^ format.precision)
      · rw [exact fits] at same
        exact_mod_cast same
      · have reached := format.roundMagnitude_natCast_mono large
        rw [limit, same] at reached
        exact absurd small (not_lt.mpr (mod_cast reached))
    · have power : 2 ^ (format.precision + 1) = 2 * 2 ^ format.precision := pow_succ' 2 format.precision
      obtain ⟨j, rfl⟩ : ∃ j, n = j * 2 ^ 1 := ⟨n / 2, by omega⟩
      rw [format.roundMagnitude_mul_pow whole (by omega)] at same
      have notBelow : 2 ^ format.precision < m := by
        by_contra reached
        have most := format.roundMagnitude_natCast_mono (not_lt.mp reached)
        rw [limit, same] at most
        exact absurd above (not_lt.mpr (mod_cast most))
      have notAbove : m < 2 ^ (format.precision + 1) := by
        by_contra reached
        have least := format.roundMagnitude_natCast_mono (not_lt.mp reached)
        rw [limit', same] at least
        exact absurd below (not_lt.mpr (mod_cast least))
      rw [format.roundMagnitude_natCast whole Nat.one_pos (by simpa using notBelow.le) notAbove,
        Nat.cast_inj] at same
      obtain ⟨i, rfl | rfl⟩ := Nat.even_or_odd' m
      · have quotient : ((2 * i : ℕ) : ℚ) / 2 ^ 1 = i := by
          push_cast
          ring
        rw [quotient, halfEven_natCast] at same
        omega
      · -- a tie, which goes to an even multiple of two
        have floor : ⌊((2 * i + 1 : ℕ) : ℚ) / 2 ^ 1⌋₊ = i := by
          rw [Nat.floor_eq_iff (by positivity)]
          push_cast
          constructor <;> linarith
        have tie : halfEven (((2 * i + 1 : ℕ) : ℚ) / 2 ^ 1) = i + i % 2 := by
          rw [halfEven_tie, floor]
          rw [floor]
          push_cast
          ring
        rw [tie] at same
        omega

end FloatFormat
