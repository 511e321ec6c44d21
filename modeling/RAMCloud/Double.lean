import Mathlib.Algebra.Order.Field.Basic
import Mathlib.Algebra.Order.Field.Rat
import Mathlib.Tactic.Positivity
import RAMCloud.Machine

/-! # `double` arithmetic

    Two computations of the benchmark are in `double`: `main` takes the
    number of keys as `static_cast<uint64_t>(loadFactor *
    static_cast<double>(totalEntries))`, and the chaining histogram prints
    `static_cast<double>(histogram[i]) * 100.0 / static_cast<double>(nlines)`
    with `%.4f`. Each operation rounds, so this file models IEEE 754 binary64
    as the machine computes it, rounding to nearest with ties to even:

    - a finite `double` is a sign and a magnitude counted in units of
      `2 ^ -1074`, the least subnormal; the magnitudes are the multiples
      `m * 2 ^ q` of a 53-bit significand `m`, up to the largest finite one
      (`FiniteDouble`);
    - an operation computes its exact result as a ratio `n / d` of units and
      rounds it once (`roundMagnitude`): to the nearest unit below `2 ^ 53`
      units, and above to the 53 leading bits; past the largest finite
      magnitude it overflows to an infinity;
    - the conversions `static_cast<double>` of a `uint64_t` and
      `static_cast<uint64_t>` of a `double`, decimal literals (as the
      compiler and the option parser read them), and `printf("%.4f")`.

    The sign of a zero is not kept: the benchmark computes no negative zero
    whose sign a later step could see. Every definition evaluates, so that
    `decide` and `rfl` compute a `double` result on a concrete input; the bit
    length of a quotient is therefore a binary search over shifts rather
    than `Nat.log2`.
-/

namespace RAMCloud

/-! ## Section 1: Rounding -/

/-- `n / d` rounded to the nearest natural, ties to the even one. -/
def roundNearestEven (n d : Nat) : Nat :=
  if d < 2 * (n % d) ∨ (2 * (n % d) = d ∧ n / d % 2 = 1) then n / d + 1 else n / d

theorem roundNearestEven_le (n d : Nat) : roundNearestEven n d ≤ n / d + 1 := by
  unfold roundNearestEven
  split <;> omega

/-- A multiple of `d` is its own rounding. -/
theorem roundNearestEven_of_dvd {n d : Nat} (hd : 0 < d) (h : n % d = 0) :
    roundNearestEven n d = n / d := by
  unfold roundNearestEven
  rw [if_neg (by omega)]

theorem shiftRight_eq_zero_iff (n k : Nat) : n >>> k = 0 ↔ n < 2 ^ k := by
  rw [Nat.shiftRight_eq_div_pow]
  exact Nat.div_eq_zero_iff (Nat.two_pow_pos k)

/-- A 53-bit significand shifted by `q` has fewer than `53 + q` digits. -/
theorem shiftLeft_lt_two_pow {m q b : Nat} (hm : m < 2 ^ 53) (hb : 53 + q ≤ b) :
    m <<< q < 2 ^ b := by
  rw [Nat.shiftLeft_eq]
  calc m * 2 ^ q < 2 ^ 53 * 2 ^ q := Nat.mul_lt_mul_of_pos_right hm (Nat.two_pow_pos q)
    _ = 2 ^ (53 + q) := (Nat.pow_add ..).symm
    _ ≤ 2 ^ b := Nat.pow_le_pow_right (by decide) hb

/-- The number of binary digits of `n < 2 ^ 2 ^ k`, found by halving the
    range of digits `k` times. -/
def bitLengthBelow : Nat → Nat → Nat
  | 0, n => n
  | k + 1, n =>
    if n >>> 2 ^ k = 0 then bitLengthBelow k n else 2 ^ k + bitLengthBelow k (n >>> 2 ^ k)

theorem two_pow_two_pow_succ (k : Nat) : 2 ^ 2 ^ (k + 1) = 2 ^ 2 ^ k * 2 ^ 2 ^ k := by
  rw [Nat.pow_succ, Nat.pow_mul, Nat.pow_two]

theorem lt_two_pow_bitLengthBelow : ∀ k n : Nat, n < 2 ^ 2 ^ k → n < 2 ^ bitLengthBelow k n
  | 0, n, h => by
    rcases (show n = 0 ∨ n = 1 by simp at h; omega) with rfl | rfl <;> decide
  | k + 1, n, h => by
    rw [bitLengthBelow, Nat.shiftRight_eq_div_pow]
    split_ifs with hz
    · exact lt_two_pow_bitLengthBelow k n (by rwa [Nat.div_eq_zero_iff (Nat.two_pow_pos _)] at hz)
    · have hq : n / 2 ^ 2 ^ k < 2 ^ 2 ^ k :=
        (Nat.div_lt_iff_lt_mul (Nat.two_pow_pos _)).mpr (two_pow_two_pow_succ k ▸ h)
      have := lt_two_pow_bitLengthBelow k _ hq
      rw [Nat.div_lt_iff_lt_mul (Nat.two_pow_pos _)] at this
      rwa [Nat.pow_add, Nat.mul_comm]

theorem two_pow_bitLengthBelow_le :
    ∀ k n : Nat, n < 2 ^ 2 ^ k → n ≠ 0 → 2 ^ (bitLengthBelow k n - 1) ≤ n
  | 0, n, h, h0 => by
    rw [show n = 1 by simp at h; omega]
    decide
  | k + 1, n, h, h0 => by
    rw [bitLengthBelow, Nat.shiftRight_eq_div_pow]
    split_ifs with hz
    · exact two_pow_bitLengthBelow_le k n
        (by rwa [Nat.div_eq_zero_iff (Nat.two_pow_pos _)] at hz) h0
    · have hq : n / 2 ^ 2 ^ k < 2 ^ 2 ^ k :=
        (Nat.div_lt_iff_lt_mul (Nat.two_pow_pos _)).mpr (two_pow_two_pow_succ k ▸ h)
      have hle := (Nat.le_div_iff_mul_le (Nat.two_pow_pos _)).mp
        (two_pow_bitLengthBelow_le k _ hq hz)
      have hlt := lt_two_pow_bitLengthBelow k _ hq
      generalize n / 2 ^ 2 ^ k = q at hz hle hlt
      generalize bitLengthBelow k q = b at hle hlt
      generalize 2 ^ k = x at hle
      -- the quotient is not zero, so it has a digit
      have hb : 1 ≤ b := Nat.one_le_iff_ne_zero.mpr fun hb0 => by
        rw [hb0, Nat.pow_zero] at hlt
        omega
      rwa [show x + b - 1 = b - 1 + x by omega, Nat.pow_add]

/-! ## Section 2: Finite doubles -/

/-- The largest finite magnitude, `(2 ^ 53 - 1) * 2 ^ 971`, in units of
    `2 ^ -1074`. -/
def maxMagnitude : Nat := (2 ^ 53 - 1) <<< 2045

/-- A magnitude with a 53-bit significand. -/
def HasSignificand (magnitude : Nat) : Prop := ∃ m q, m < 2 ^ 53 ∧ magnitude = m <<< q

/-- A finite `double`: a sign, and a magnitude in units of `2 ^ -1074` that a
    binary64 significand and exponent hold. -/
structure FiniteDouble where
  negative : Bool
  magnitude : Nat
  significand : HasSignificand magnitude
  le_max : magnitude ≤ maxMagnitude

/-- A `double`: finite, an infinity, or NaN. -/
inductive Double where
  | finite (x : FiniteDouble)
  | infinity (negative : Bool)
  | nan

/-- The value of a finite `double`. -/
def FiniteDouble.toRat (x : FiniteDouble) : ℚ :=
  (if x.negative then -(x.magnitude : ℚ) else x.magnitude) / 2 ^ 1074

/-- The magnitude nearest to `n / d` units, ties to an even significand:
    magnitudes are one unit apart below `2 ^ 53` units, and `2 ^ (b - 53)`
    units apart for a quotient of `b` binary digits. Exact for quotients
    below `2 ^ 2 ^ 13` units, far past every finite `double`. -/
def roundMagnitude (n d : Nat) : Nat :=
  let s := bitLengthBelow 13 (n / d) - 53
  roundNearestEven n (d <<< s) <<< s

theorem roundMagnitude_significand {n d : Nat} (h : n / d < 2 ^ 2 ^ 13) :
    HasSignificand (roundMagnitude n d) := by
  have hb := lt_two_pow_bitLengthBelow 13 _ h
  generalize hs : bitLengthBelow 13 (n / d) - 53 = s
  have hq : n / (d <<< s) < 2 ^ 53 := by
    rw [Nat.shiftLeft_eq, ← Nat.div_div_eq_div_mul, Nat.div_lt_iff_lt_mul (Nat.two_pow_pos _),
      ← Nat.pow_add]
    exact hb.trans_le (Nat.pow_le_pow_right (by decide) (by omega))
  have hr := roundNearestEven_le n (d <<< s)
  simp only [roundMagnitude, hs]
  by_cases hlt : roundNearestEven n (d <<< s) < 2 ^ 53
  · exact ⟨_, s, hlt, rfl⟩
  · -- the carry past the last bit: `2 ^ 53 * 2 ^ s = 2 ^ 52 * 2 ^ (s + 1)`
    refine ⟨2 ^ 52, s + 1, by decide, ?_⟩
    rw [show roundNearestEven n (d <<< s) = 2 ^ 52 * 2 by omega, Nat.shiftLeft_eq,
      Nat.shiftLeft_eq, Nat.pow_add, Nat.pow_one]
    ac_rfl

/-- Rounding leaves a magnitude with a 53-bit significand as it is. -/
theorem roundMagnitude_of_significand {n : Nat} (h : HasSignificand n) (hn : n < 2 ^ 2 ^ 13) :
    roundMagnitude n 1 = n := by
  obtain ⟨m, q, hm, rfl⟩ := h
  simp only [roundMagnitude, Nat.div_one, Nat.one_shiftLeft]
  rcases Nat.eq_zero_or_pos m with rfl | hm0
  · simp [roundNearestEven]
  -- the spacing `2 ^ s` at `m * 2 ^ q` divides it: `s ≤ q`
  have hlow := two_pow_bitLengthBelow_le 13 _ hn
    (Nat.ne_of_gt (by rw [Nat.shiftLeft_eq]; exact Nat.mul_pos hm0 (Nat.two_pow_pos q)))
  have hs : bitLengthBelow 13 (m <<< q) - 53 ≤ q := by
    have := (Nat.pow_lt_pow_iff_right (by decide : 1 < 2)).mp
      (hlow.trans_lt (shiftLeft_lt_two_pow hm le_rfl))
    omega
  generalize bitLengthBelow 13 (m <<< q) - 53 = s at hs
  have hdvd : m <<< q = m * 2 ^ (q - s) * 2 ^ s := by
    rw [Nat.shiftLeft_eq, Nat.mul_assoc, ← Nat.pow_add, Nat.sub_add_cancel hs]
  rw [roundNearestEven_of_dvd (Nat.two_pow_pos s) (by rw [hdvd]; exact Nat.mul_mod_left _ _),
    Nat.shiftLeft_eq _ s, Nat.div_mul_cancel ⟨_, hdvd.trans (Nat.mul_comm _ _)⟩]

namespace Double

/-- The `double` nearest to `n / d` units, with the given sign; an infinity
    once the rounded magnitude passes the largest finite one. -/
def round (negative : Bool) (n d : Nat) : Double :=
  if h : (n / d) >>> 2 ^ 13 = 0 then
    if hmax : roundMagnitude n d ≤ maxMagnitude then
      .finite ⟨negative, roundMagnitude n d, roundMagnitude_significand
        ((shiftRight_eq_zero_iff _ _).mp h), hmax⟩
    else .infinity negative
  else .infinity negative

/-- `0.0`. -/
def zero : Double := .finite ⟨false, 0, ⟨0, 0, by decide, rfl⟩, Nat.zero_le _⟩

/-- `static_cast<double>(n)` for a `uint64_t` `n`. -/
def ofUInt64 (n : UInt64) : Double := round false (n.toNat <<< 1074) 1

/-- A decimal literal `m * 10 ^ e` or `m * 10 ^ -e`, read as the nearest
    `double`: the compiler reads `100.0` so, and the option parser the text
    of `LoadFactor`. -/
def ofScientific (m : Nat) (negativeExponent : Bool) (e : Nat) : Double :=
  if negativeExponent then round false (m <<< 1074) (10 ^ e)
  else round false ((m * 10 ^ e) <<< 1074) 1

instance : OfScientific Double := ⟨ofScientific⟩

/-- `a * b`. -/
def mul : Double → Double → Double
  | .finite a, .finite b =>
    round (a.negative != b.negative) (a.magnitude * b.magnitude) (1 <<< 1074)
  | .finite a, .infinity s | .infinity s, .finite a =>
    if a.magnitude = 0 then .nan else .infinity (a.negative != s)
  | .infinity s, .infinity t => .infinity (s != t)
  | .nan, _ | _, .nan => .nan

/-- `a / b`. -/
def div : Double → Double → Double
  | .finite a, .finite b =>
    if b.magnitude = 0 then
      if a.magnitude = 0 then .nan else .infinity (a.negative != b.negative)
    else round (a.negative != b.negative) (a.magnitude <<< 1074) b.magnitude
  | .finite _, .infinity _ => zero
  | .infinity s, .finite b => .infinity (s != b.negative)
  | .infinity _, .infinity _ | .nan, _ | _, .nan => .nan

/-- `static_cast<double>` is exact on the integers below `2 ^ 53`. -/
theorem ofUInt64_exact {n : UInt64} (h : n.toNat < 2 ^ 53) :
    ∃ x, ofUInt64 n = .finite x ∧ x.toRat = n.toNat := by
  have hsig : HasSignificand (n.toNat <<< 1074) := ⟨n.toNat, 1074, h, rfl⟩
  have hfit : n.toNat <<< 1074 < 2 ^ 2 ^ 13 := shiftLeft_lt_two_pow h (by decide)
  have hround := roundMagnitude_of_significand hsig hfit
  have hmax : n.toNat <<< 1074 ≤ maxMagnitude := by
    rw [maxMagnitude, Nat.shiftLeft_eq, Nat.shiftLeft_eq]
    calc n.toNat * 2 ^ 1074 ≤ (2 ^ 53 - 1) * 2 ^ 1074 := Nat.mul_le_mul_right _ (by omega)
      _ ≤ (2 ^ 53 - 1) * 2 ^ 2045 := Nat.mul_le_mul_left _ (Nat.pow_le_pow_right (by decide) (by decide))
  refine ⟨⟨false, n.toNat <<< 1074, hsig, hmax⟩, ?_, ?_⟩
  · unfold ofUInt64 round
    rw [dif_pos ((shiftRight_eq_zero_iff _ _).mpr ((Nat.div_one _).trans_lt hfit))]
    simp only [hround, hmax, dif_pos]
  · simp [FiniteDouble.toRat, Nat.shiftLeft_eq]

end Double

/-! ## Section 3: Conversions and printing -/

/-- `static_cast<uint64_t>(x)`: `x` truncated toward zero, undefined unless
    the truncated value fits a `uint64_t`. -/
def castToUInt64 : Double → Except Fault UInt64
  | .finite x =>
    let t := x.magnitude >>> 1074
    if (x.negative = false ∨ t = 0) ∧ t < 2 ^ 64 then .ok (UInt64.ofNat t)
    else .error .invalidConversion
  | _ => .error .invalidConversion

/-- The value of a finite `double` is below one exactly when it is negative
    or its magnitude is below `2 ^ 1074` units. -/
theorem FiniteDouble.toRat_lt_one_iff (x : FiniteDouble) :
    x.toRat < 1 ↔ x.negative = true ∨ x.magnitude < 2 ^ 1074 := by
  have h2 : (0 : ℚ) < 2 ^ 1074 := by positivity
  unfold FiniteDouble.toRat
  cases x.negative
  · have hcast : ((2 ^ 1074 : ℕ) : ℚ) = 2 ^ 1074 := by rw [Nat.cast_pow, Nat.cast_ofNat]
    simp only [Bool.false_eq_true, if_false, false_or]
    rw [div_lt_one h2, ← hcast, Nat.cast_lt]
  · simp only [if_true, true_or, iff_true]
    exact (div_nonpos_of_nonpos_of_nonneg (by simp) h2.le).trans_lt one_pos

/-- A conversion to `uint64_t` that is defined gives 0 exactly for a finite
    value below one. -/
theorem castToUInt64_eq_zero_iff {d : Double} {v : UInt64} (h : castToUInt64 d = .ok v) :
    v = 0 ↔ ∃ x, d = .finite x ∧ x.toRat < 1 := by
  cases d with
  | finite x =>
    simp only [castToUInt64] at h
    split_ifs at h with hfit
    cases h
    have hv : UInt64.ofNat (x.magnitude >>> 1074) = 0 ↔ x.magnitude >>> 1074 = 0 :=
      ⟨fun hv => by simpa [toNat_ofNat_of_lt64 hfit.2] using congrArg UInt64.toNat hv,
        fun hv => by rw [hv]; rfl⟩
    have hshift := shiftRight_eq_zero_iff x.magnitude 1074
    simp only [Double.finite.injEq, exists_eq_left', FiniteDouble.toRat_lt_one_iff, hv, hshift]
    rcases hfit.1 with hneg | hzero
    · simp only [hneg, Bool.false_eq_true, false_or]
    · simp only [hshift.mp hzero, or_true]
  | infinity _ => cases h
  | nan => cases h

/-- What `printf("%.4f")` prints: a decimal with four digits after the
    point, given in ten-thousandths, or `inf`, `-inf` or `nan`. -/
inductive Fixed4 where
  | decimal (tenThousandths : Int)
  | infinity (negative : Bool)
  | nan
  deriving DecidableEq, Repr

/-- `printf("%.4f", x)`: the value rounded to the nearest ten-thousandth, an
    exact tie to the even one, as glibc rounds. A negative value that rounds
    to zero prints `-0.0000`, here 0: the benchmark prints no negative
    value. -/
def Double.printFixed4 : Double → Fixed4
  | .finite x =>
    let t : Int := roundNearestEven (x.magnitude * 10000) (1 <<< 1074)
    .decimal (if x.negative then -t else t)
  | .infinity s => .infinity s
  | .nan => .nan

end RAMCloud
