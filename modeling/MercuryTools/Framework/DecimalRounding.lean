import MercuryTools.Framework.Decimals
import Mathlib.Algebra.Order.BigOperators.Group.List
import Mathlib.Algebra.Order.Floor.Ring
import Mathlib.Data.Rat.Floor
import Mathlib.Tactic.GCongr
import Mathlib.Tactic.Linarith
import Mathlib.Tactic.Push
import Mathlib.Tactic.Ring

/-!
# Rounding decimal numbers

The numbers with a given number of places are closed under sums and products, and rounding to places
leaves them as they are (`roundHalfUp_of_hasPlaces`).  Rounding to significant digits leaves the
numbers with few digits as they are (`roundSignificant_of_fewDigits`), keeps the places, and crosses
no power of ten (`le_roundSignificant`).

To round a number to significant digits and then half up to places is to round it once, unless its
digits lie at a half of the last place (`halves_roundSignificant_iff`).
-/

namespace Decimals

/-- Multiples of `10 ^ -places`. -/
def HasPlaces (places : ℕ) (q : ℚ) : Prop :=
  ∃ n : ℤ, q = n / 10 ^ places

variable {places digits : ℕ} {q r : ℚ}

lemma ten_pow_pos (places : ℕ) : (0 : ℚ) < 10 ^ places := by
  positivity

/-! ## Places -/

namespace HasPlaces

lemma intCast (places : ℕ) (n : ℤ) : HasPlaces places n :=
  ⟨n * 10 ^ places, by push_cast; field_simp⟩

lemma zero (places : ℕ) : HasPlaces places 0 :=
  ⟨0, by simp⟩

variable {more : ℕ}

lemma mono (h : HasPlaces places q) (hle : places ≤ more) : HasPlaces more q := by
  obtain ⟨n, rfl⟩ := h
  obtain ⟨k, rfl⟩ := Nat.exists_eq_add_of_le hle
  refine ⟨n * 10 ^ k, ?_⟩
  push_cast
  rw [pow_add]
  field_simp

lemma add (hq : HasPlaces places q) (hr : HasPlaces places r) : HasPlaces places (q + r) := by
  obtain ⟨n, rfl⟩ := hq
  obtain ⟨k, rfl⟩ := hr
  exact ⟨n + k, by push_cast; ring⟩

lemma sub (hq : HasPlaces places q) (hr : HasPlaces places r) : HasPlaces places (q - r) := by
  obtain ⟨n, rfl⟩ := hq
  obtain ⟨k, rfl⟩ := hr
  exact ⟨n - k, by push_cast; ring⟩

lemma mul (hq : HasPlaces places q) (hr : HasPlaces more r) :
    HasPlaces (places + more) (q * r) := by
  obtain ⟨n, rfl⟩ := hq
  obtain ⟨k, rfl⟩ := hr
  refine ⟨n * k, ?_⟩
  push_cast
  rw [pow_add]
  field_simp

lemma div_hundred (h : HasPlaces places q) : HasPlaces (places + 2) (q / 100) := by
  obtain ⟨n, rfl⟩ := h
  refine ⟨n, ?_⟩
  rw [pow_add]
  field_simp
  norm_num

lemma sum {qs : List ℚ} (h : ∀ q ∈ qs, HasPlaces places q) : HasPlaces places qs.sum := by
  induction qs with
  | nil => exact zero places
  | cons q qs ih =>
    rw [List.sum_cons]
    exact (h q List.mem_cons_self).add (ih fun r hr => h r (List.mem_cons_of_mem _ hr))

/-- The coefficient. -/
lemma num_eq {n : ℤ} (h : q = n / 10 ^ places) : (q * 10 ^ places).num = n := by
  rw [h, div_mul_cancel₀ _ (ten_pow_pos places).ne', Rat.num_intCast]

end HasPlaces

lemma Decimal.hasPlaces_value {d : Decimal} (h : -(places : ℤ) ≤ d.exponent) :
    HasPlaces places d.value := by
  obtain ⟨k, hk⟩ := Int.eq_ofNat_of_zero_le (by omega : 0 ≤ d.exponent + places)
  have hexponent : d.exponent = (k : ℤ) - places := by omega
  refine ⟨(if d.negative then -1 else 1) * d.coefficient * 10 ^ k, ?_⟩
  rw [Decimal.value, hexponent, zpow_sub₀ (by norm_num), zpow_natCast, zpow_natCast]
  split_ifs <;> push_cast <;> ring

/-! ## The nearest integer -/

lemma nearestUp_intCast (n : ℤ) : nearestUp n = n := by
  rw [nearestUp]
  split_ifs
  · rw [Int.floor_intCast_add]
    norm_num
  · rw [← Int.cast_neg, Int.floor_intCast_add]
    norm_num

lemma nearestUp_of_nonneg (h : 0 ≤ q) : nearestUp q = ⌊q + 1 / 2⌋ :=
  if_pos h

lemma nearestUp_nonneg (h : 0 ≤ q) : 0 ≤ nearestUp q := by
  rw [nearestUp_of_nonneg h, Int.floor_nonneg]
  linarith

lemma nearestUp_mono (hq : 0 ≤ q) (h : q ≤ r) : nearestUp q ≤ nearestUp r := by
  rw [nearestUp_of_nonneg hq, nearestUp_of_nonneg (hq.trans h)]
  exact Int.floor_le_floor (by linarith)

lemma nearestUp_neg (q : ℚ) : nearestUp (-q) = -nearestUp q := by
  rcases lt_trichotomy q 0 with hq | rfl | hq
  · rw [nearestUp, nearestUp, if_pos (by linarith), if_neg (not_le.2 hq), neg_neg]
  · rw [neg_zero, ← Int.cast_zero, nearestUp_intCast, neg_zero]
  · rw [nearestUp, nearestUp, if_neg (by linarith), if_pos hq.le, neg_neg]

lemma nearestEven_intCast (n : ℤ) : nearestEven n = n := by
  rw [nearestEven, Int.floor_intCast, sub_self, if_pos (by norm_num)]

variable {n : ℤ} {k m : ℕ}

/-- No integer is crossed. -/
lemma le_nearestEven (h : (n : ℚ) ≤ q) : n ≤ nearestEven q := by
  have hfloor : n ≤ ⌊q⌋ := Int.le_floor.2 h
  unfold nearestEven
  split_ifs <;> omega

lemma nearestEven_le (h : q ≤ n) : nearestEven q ≤ n := by
  have hfloor : ⌊q⌋ ≤ n := Int.cast_le.1 ((Int.floor_le q).trans h)
  unfold nearestEven
  split_ifs with h1 h2 h3
  · exact hfloor
  all_goals
    by_contra hlt
    have heq : ⌊q⌋ = n := by omega
    rw [heq] at h1
    linarith

/-! ## Rounding to places -/

lemma hasPlaces_roundHalfUp (places : ℕ) (q : ℚ) : HasPlaces places (roundHalfUp places q) :=
  ⟨_, rfl⟩

lemma roundHalfUp_of_hasPlaces (h : HasPlaces places q) : roundHalfUp places q = q := by
  obtain ⟨n, rfl⟩ := h
  rw [roundHalfUp, div_mul_cancel₀ _ (ten_pow_pos places).ne', nearestUp_intCast]

lemma roundHalfUp_nonneg (h : 0 ≤ q) : 0 ≤ roundHalfUp places q := by
  have hnearest := nearestUp_nonneg (mul_nonneg h (ten_pow_pos places).le)
  exact div_nonneg (Int.cast_nonneg hnearest) (ten_pow_pos places).le

lemma abs_roundHalfUp (places : ℕ) (q : ℚ) :
    |roundHalfUp places q| = roundHalfUp places |q| := by
  rcases le_or_gt 0 q with hq | hq
  · rw [abs_of_nonneg hq, abs_of_nonneg (roundHalfUp_nonneg hq)]
  · have hneg : roundHalfUp places (-q) = -roundHalfUp places q := by
      rw [roundHalfUp, roundHalfUp, neg_mul, nearestUp_neg, Int.cast_neg, neg_div]
    have hnonneg : 0 ≤ roundHalfUp places (-q) := roundHalfUp_nonneg (by linarith)
    rw [abs_of_neg hq, hneg, abs_of_nonpos (by linarith)]

lemma roundHalfUp_mono (hq : 0 ≤ q) (h : q ≤ r) :
    roundHalfUp places q ≤ roundHalfUp places r := by
  have hpos := ten_pow_pos places
  have hnearest : nearestUp (q * 10 ^ places) ≤ nearestUp (r * 10 ^ places) :=
    nearestUp_mono (by positivity) (by gcongr)
  unfold roundHalfUp
  gcongr

/-- A number with the places is not crossed. -/
lemma roundHalfUp_le (hq : 0 ≤ q) (hr : HasPlaces places r) (h : q ≤ r) :
    roundHalfUp places q ≤ r :=
  (roundHalfUp_mono hq h).trans (roundHalfUp_of_hasPlaces hr).le

lemma le_roundHalfUp (hr : 0 ≤ r) (hplaces : HasPlaces places r) (h : r ≤ q) :
    r ≤ roundHalfUp places q :=
  (roundHalfUp_of_hasPlaces hplaces).ge.trans (roundHalfUp_mono hr h)

/-- Two numbers are rounded to the same one where no half lies between them. -/
lemma roundHalfUp_eq_iff (hq : 0 ≤ q) (hr : 0 ≤ r) :
    roundHalfUp places q = roundHalfUp places r ↔
      ∀ k : ℕ, (k + 1 / 2 ≤ q * 10 ^ places ↔ k + 1 / 2 ≤ r * 10 ^ places) := by
  have hpos := ten_pow_pos places
  have hhalf : ∀ {s : ℚ} (k : ℕ), 0 ≤ s →
      ((k : ℚ) + 1 / 2 ≤ s * 10 ^ places ↔ (k : ℤ) + 1 ≤ nearestUp (s * 10 ^ places)) := by
    intro s k hs
    rw [nearestUp_of_nonneg (by positivity), Int.le_floor]
    push_cast
    constructor <;> intro h <;> linarith
  simp only [hhalf _ hq, hhalf _ hr]
  rw [roundHalfUp, roundHalfUp, div_left_inj' hpos.ne', Int.cast_inj]
  constructor
  · intro h k
    rw [h]
  · intro h
    have hq0 := nearestUp_nonneg (mul_nonneg hq hpos.le)
    have hr0 := nearestUp_nonneg (mul_nonneg hr hpos.le)
    generalize nearestUp (q * 10 ^ places) = a at h hq0
    generalize nearestUp (r * 10 ^ places) = b at h hr0
    obtain ⟨a, rfl⟩ := Int.eq_ofNat_of_zero_le hq0
    obtain ⟨b, rfl⟩ := Int.eq_ofNat_of_zero_le hr0
    rcases Nat.lt_trichotomy a b with hlt | rfl | hlt
    · have := h a
      omega
    · rfl
    · have := h b
      omega

/-! ## Rounding to significant digits -/

/-- The number of digits of the coefficient, where the number has so many places. -/
def coefficientLength (places : ℕ) (q : ℚ) : ℕ :=
  (Nat.toDigits 10 (q * 10 ^ places).num.natAbs).length

lemma coefficientLength_le_iff (hq : q = n / 10 ^ places) (hk : 0 < k) :
    coefficientLength places q ≤ k ↔ n.natAbs < 10 ^ k := by
  rw [coefficientLength, HasPlaces.num_eq hq]
  exact Nat.length_toDigits_le_iff (by norm_num) hk

lemma roundSignificant_of_short (h : coefficientLength places q ≤ digits) :
    roundSignificant digits places q = q :=
  if_pos h

/-- The surplus digits are rounded away. -/
lemma roundSignificant_of_long (hq : q = n / 10 ^ places) (h : digits < coefficientLength places q) :
    roundSignificant digits places q =
      nearestEven (n / 10 ^ (coefficientLength places q - digits)) *
        10 ^ (coefficientLength places q - digits) / 10 ^ places := by
  have hcoefficient : q * 10 ^ places = n := by
    rw [hq, div_mul_cancel₀ _ (ten_pow_pos places).ne']
  unfold roundSignificant
  rw [← hcoefficient]
  exact if_neg (Nat.not_le.2 h)

/-- Numbers with at most so many significant digits. -/
def FewDigits (digits places : ℕ) (q : ℚ) : Prop :=
  ∃ (n : ℤ) (k : ℕ), n.natAbs < 10 ^ digits ∧ q = n * 10 ^ k / 10 ^ places

theorem roundSignificant_of_fewDigits (hdigits : 0 < digits) (h : FewDigits digits places q) :
    roundSignificant digits places q = q := by
  obtain ⟨n, k, hn, hq⟩ := h
  have hq' : q = ((n * 10 ^ k : ℤ) : ℚ) / 10 ^ places := by
    rw [hq]
    push_cast
    rfl
  rcases Nat.lt_or_ge digits (coefficientLength places q) with hlong | hshort
  · have hlength : coefficientLength places q ≤ digits + k := by
      rw [coefficientLength_le_iff hq' (by omega), Int.natAbs_mul, Int.natAbs_pow, pow_add]
      exact Nat.mul_lt_mul_of_pos_right hn (by positivity)
    obtain ⟨j, hj⟩ := Nat.exists_eq_add_of_le
      (show coefficientLength places q - digits ≤ k by omega)
    have hcut : ((n * 10 ^ k : ℤ) : ℚ) / 10 ^ (coefficientLength places q - digits) =
        ((n * 10 ^ j : ℤ) : ℚ) := by
      rw [div_eq_iff (ten_pow_pos _).ne', hj]
      push_cast
      rw [pow_add]
      ring
    rw [roundSignificant_of_long hq' hlong, hcut, nearestEven_intCast, ← hcut,
      div_mul_cancel₀ _ (ten_pow_pos _).ne', ← hq']
  · exact roundSignificant_of_short hshort

lemma FewDigits.of_hasPlaces (hplaces : m ≤ places) (h : HasPlaces m q)
    (hlt : |q| * 10 ^ m < 10 ^ digits) : FewDigits digits places q := by
  obtain ⟨n, rfl⟩ := h
  obtain ⟨k, rfl⟩ := Nat.exists_eq_add_of_le hplaces
  refine ⟨n, k, ?_, ?_⟩
  · rw [abs_div, abs_of_pos (ten_pow_pos m), div_mul_cancel₀ _ (ten_pow_pos m).ne',
      ← Int.cast_abs, Int.abs_eq_natAbs] at hlt
    exact_mod_cast hlt
  · rw [pow_add]
    field_simp

/-- What is rounded has few digits. -/
theorem fewDigits_roundSignificant (hdigits : 0 < digits) (h : HasPlaces places q) :
    FewDigits digits places (roundSignificant digits places q) := by
  obtain ⟨n, hq⟩ := h
  rcases Nat.lt_or_ge digits (coefficientLength places q) with hlong | hshort
  · rw [roundSignificant_of_long hq hlong]
    set surplus := coefficientLength places q - digits with hsurplus
    have hn : n.natAbs < 10 ^ digits * 10 ^ surplus := by
      rw [← pow_add]
      exact (coefficientLength_le_iff hq (by omega)).1 (by omega)
    have hbounds : |(n : ℚ) / 10 ^ surplus| ≤ 10 ^ digits := by
      rw [abs_div, abs_of_pos (ten_pow_pos surplus), div_le_iff₀ (ten_pow_pos surplus),
        ← Int.cast_abs, Int.abs_eq_natAbs]
      exact_mod_cast hn.le
    obtain ⟨hlow, hhigh⟩ := abs_le.1 hbounds
    have hlow' : -(10 ^ digits : ℤ) ≤ nearestEven (n / 10 ^ surplus) :=
      le_nearestEven (by push_cast; exact hlow)
    have hhigh' : nearestEven (n / 10 ^ surplus) ≤ (10 ^ digits : ℤ) :=
      nearestEven_le (by push_cast; exact hhigh)
    generalize nearestEven ((n : ℚ) / 10 ^ surplus) = rounded at hlow' hhigh'
    by_cases hpower : rounded.natAbs = 10 ^ digits
    · -- the coefficient is a power of ten: one digit and zeros
      obtain ⟨d, rfl⟩ := Nat.exists_eq_add_of_lt hdigits
      refine ⟨rounded.sign, d + 1 + surplus, ?_, ?_⟩
      · have hne : rounded ≠ 0 := by
          rintro rfl
          exact absurd hpower.symm (by positivity)
        rw [Int.natAbs_sign_of_ne_zero hne]
        exact Nat.one_lt_pow (by omega) (by norm_num)
      · have hrounded : rounded = rounded.sign * 10 ^ (0 + d + 1) := by
          conv_lhs => rw [← Int.sign_mul_natAbs rounded, hpower]
          push_cast
          rfl
        have hcast : (rounded : ℚ) = rounded.sign * 10 ^ (0 + d + 1) := by exact_mod_cast hrounded
        rw [hcast, zero_add, pow_add]
        ring
    · refine ⟨rounded, surplus, ?_, rfl⟩
      have hle : rounded.natAbs ≤ 10 ^ digits := by
        have := abs_le.2 ⟨hlow', hhigh'⟩
        rw [Int.abs_eq_natAbs] at this
        exact_mod_cast this
      omega
  · rw [roundSignificant_of_short hshort]
    exact ⟨n, 0, (coefficientLength_le_iff hq hdigits).1 hshort, by rw [pow_zero, mul_one]; exact hq⟩

/-- A long coefficient is at least the power of ten with as many digits. -/
lemma pow_le_of_coefficientLength (hq : q = n / 10 ^ places) (hk : 0 < k)
    (h : k < coefficientLength places q) : 10 ^ k ≤ n.natAbs := by
  by_contra hlt
  exact absurd ((coefficientLength_le_iff hq hk).2 (not_le.1 hlt)) (Nat.not_le.2 h)

/-- No power of ten is crossed. -/
theorem le_roundSignificant (hdigits : 0 < digits) (h : HasPlaces places q)
    (hk : 10 ^ k ≤ q * 10 ^ places) : 10 ^ k ≤ roundSignificant digits places q * 10 ^ places := by
  obtain ⟨n, hq⟩ := h
  have hn : (10 ^ k : ℤ) ≤ n := by
    rw [hq, div_mul_cancel₀ _ (ten_pow_pos places).ne'] at hk
    exact_mod_cast hk
  have hpos : 0 ≤ n := le_trans (by positivity) hn
  rcases Nat.lt_or_ge digits (coefficientLength places q) with hlong | hshort
  · rw [roundSignificant_of_long hq hlong, div_mul_cancel₀ _ (ten_pow_pos places).ne']
    have hlength : coefficientLength places q =
        coefficientLength places q - digits + (digits - 1) + 1 := by omega
    have hlow := pow_le_of_coefficientLength hq
      (by omega : 0 < coefficientLength places q - digits + (digits - 1)) (by omega)
    have hhigh := (coefficientLength_le_iff hq (by omega)).1 hlength.le
    generalize coefficientLength places q - digits = surplus at hlow hhigh
    have hlow' : (10 ^ surplus * 10 ^ (digits - 1) : ℚ) ≤ n := by
      rw [← pow_add]
      zify at hlow
      rw [abs_of_nonneg hpos] at hlow
      exact_mod_cast hlow
    have hle : k ≤ surplus + (digits - 1) := by
      have hlt : 10 ^ k < 10 ^ (surplus + (digits - 1) + 1) := by
        refine lt_of_le_of_lt ?_ hhigh
        zify
        rwa [abs_of_nonneg hpos]
      exact Nat.lt_succ_iff.1 ((Nat.pow_lt_pow_iff_right (by norm_num)).1 hlt)
    have hnearest : (10 ^ (digits - 1) : ℤ) ≤ nearestEven (n / 10 ^ surplus) := by
      refine le_nearestEven ?_
      push_cast
      rw [le_div_iff₀ (ten_pow_pos surplus), mul_comm]
      exact hlow'
    have hnearest' : (10 ^ (digits - 1) : ℚ) ≤ nearestEven (n / 10 ^ surplus) := by
      exact_mod_cast hnearest
    calc (10 ^ k : ℚ) ≤ 10 ^ (surplus + (digits - 1)) := pow_le_pow_right₀ (by norm_num) hle
      _ = 10 ^ (digits - 1) * 10 ^ surplus := by rw [pow_add, mul_comm]
      _ ≤ nearestEven (n / 10 ^ surplus) * 10 ^ surplus := by gcongr
  · rw [roundSignificant_of_short hshort]
    exact hk

lemma roundSignificant_nonneg (h : 0 ≤ q) : 0 ≤ roundSignificant digits places q := by
  unfold roundSignificant
  simp only
  split_ifs
  · exact h
  · have hnearest : 0 ≤ nearestEven (q * 10 ^ places /
        10 ^ (coefficientLength places q - digits)) :=
      le_nearestEven (by rw [Int.cast_zero]; positivity)
    have hcast := Int.cast_nonneg (R := ℚ) hnearest
    unfold coefficientLength at hcast
    positivity

/-- The places are kept. -/
lemma hasPlaces_roundSignificant (hplaces : m ≤ places) (h : HasPlaces m q) :
    HasPlaces m (roundSignificant digits places q) := by
  rcases Nat.lt_or_ge digits (coefficientLength places q) with hlong | hshort
  · obtain ⟨k, rfl⟩ := Nat.exists_eq_add_of_le hplaces
    obtain ⟨n, hq⟩ := h
    have hq' : q = ((n * 10 ^ k : ℤ) : ℚ) / 10 ^ (m + k) := by
      rw [hq, pow_add]
      push_cast
      field_simp
    rw [roundSignificant_of_long hq' hlong]
    generalize coefficientLength (m + k) q - digits = surplus
    rcases Nat.le_total surplus k with hle | hge
    · obtain ⟨j, rfl⟩ := Nat.exists_eq_add_of_le hle
      have hcut : ((n * 10 ^ (surplus + j) : ℤ) : ℚ) / 10 ^ surplus = ((n * 10 ^ j : ℤ) : ℚ) := by
        rw [div_eq_iff (ten_pow_pos _).ne']
        push_cast
        rw [pow_add]
        ring
      refine ⟨n, ?_⟩
      rw [hcut, nearestEven_intCast, pow_add, pow_add]
      push_cast
      field_simp
    · obtain ⟨j, rfl⟩ := Nat.exists_eq_add_of_le hge
      refine ⟨nearestEven (((n * 10 ^ k : ℤ) : ℚ) / 10 ^ (k + j)) * 10 ^ j, ?_⟩
      push_cast
      rw [pow_add, pow_add]
      field_simp
  · rwa [roundSignificant_of_short hshort]

/-- Zeros behind the last place do not matter. -/
lemma roundSignificant_add_places (hdigits : 0 < digits) (more : ℕ) (h : HasPlaces places q) :
    roundSignificant digits (places + more) q = roundSignificant digits places q := by
  obtain ⟨n, hq⟩ := h
  have hq' : q = ((n * 10 ^ more : ℤ) : ℚ) / 10 ^ (places + more) := by
    rw [hq, pow_add]
    push_cast
    field_simp
  rcases eq_or_ne n 0 with rfl | hn
  · have hzero : q = 0 := by rw [hq, Int.cast_zero, zero_div]
    have hfew : ∀ places, FewDigits digits places q := fun places =>
      ⟨0, 0, by positivity, by rw [hzero]; simp⟩
    rw [roundSignificant_of_fewDigits hdigits (hfew _),
      roundSignificant_of_fewDigits hdigits (hfew _)]
  have hlength : coefficientLength (places + more) q = coefficientLength places q + more := by
    rw [coefficientLength, coefficientLength, HasPlaces.num_eq hq, HasPlaces.num_eq hq',
      Int.natAbs_mul, Int.natAbs_pow, show Int.natAbs 10 = 10 from rfl,
      Numerals.toDigits_mul_pow (Int.natAbs_pos.2 hn), List.length_append, List.length_replicate]
  rcases Nat.lt_or_ge digits (coefficientLength places q) with hlong | hshort
  · rw [roundSignificant_of_long hq hlong, roundSignificant_of_long hq' (by omega), hlength,
      show coefficientLength places q + more - digits =
        coefficientLength places q - digits + more by omega]
    generalize coefficientLength places q - digits = surplus
    have hcut : ((n * 10 ^ more : ℤ) : ℚ) / 10 ^ (surplus + more) = n / 10 ^ surplus := by
      push_cast
      rw [pow_add]
      field_simp
    rw [hcut, pow_add, pow_add]
    field_simp
  · have hfew : FewDigits digits (places + more) q := by
      refine ⟨n, more, (coefficientLength_le_iff hq hdigits).1 hshort, ?_⟩
      rw [hq']
      push_cast
      rfl
    rw [roundSignificant_of_short hshort, roundSignificant_of_fewDigits hdigits hfew]

/-- A division by one hundred moves the point. -/
lemma roundSignificant_div_hundred (hdigits : 0 < digits) (h : HasPlaces places q) :
    roundSignificant digits (places + 2) (q / 100) =
      roundSignificant digits (places + 2) q / 100 := by
  have hmove : q / 100 * 10 ^ (places + 2) = q * 10 ^ places := by
    rw [pow_add]
    norm_num
    ring
  rw [roundSignificant_add_places hdigits 2 h]
  unfold roundSignificant
  simp only [hmove]
  split_ifs
  · rfl
  · rw [pow_add]
    norm_num
    ring

/-! ## Rounding twice -/

/-- The quotient, rounded to the nearest integer, ties to the even one. -/
def divNearestEven (n cut : ℕ) : ℕ :=
  if 2 * (n % cut) < cut ∨ 2 * (n % cut) = cut ∧ n / cut % 2 = 0 then n / cut else n / cut + 1

lemma nearestEven_natCast_div (n : ℕ) {cut : ℕ} (hcut : 0 < cut) :
    nearestEven ((n : ℚ) / cut) = divNearestEven n cut := by
  have hpos : (0 : ℚ) < cut := Nat.cast_pos.2 hcut
  have hfloor : ⌊(n : ℚ) / cut⌋ = ((n / cut : ℕ) : ℤ) := Rat.floor_natCast_div_natCast n cut
  have hfract : (n : ℚ) / cut - (n / cut : ℕ) = (n % cut : ℕ) / cut := by
    rw [eq_div_iff hpos.ne', sub_mul, div_mul_cancel₀ _ hpos.ne', sub_eq_iff_eq_add']
    exact_mod_cast (Nat.div_add_mod' n cut).symm
  have hlt : (n : ℚ) / cut - ((n / cut : ℕ) : ℤ) < 1 / 2 ↔ 2 * (n % cut) < cut := by
    rw [Int.cast_natCast, hfract, div_lt_div_iff₀ hpos two_pos, one_mul, mul_comm]
    exact_mod_cast Iff.rfl
  have hgt : 1 / 2 < (n : ℚ) / cut - ((n / cut : ℕ) : ℤ) ↔ cut < 2 * (n % cut) := by
    rw [Int.cast_natCast, hfract, div_lt_div_iff₀ two_pos hpos, one_mul, mul_comm _ (2 : ℚ)]
    exact_mod_cast Iff.rfl
  rw [nearestEven, divNearestEven, hfloor]
  simp only [hlt, hgt]
  split_ifs <;> omega

/-- Halves that are multiples of what is cut off: they are reached from below. -/
lemma halves_iff_of_dvd {n c cut : ℕ} (hc : 0 < c) (hcut : 0 < cut) :
    (∀ k, (2 * k + 1) * (2 * c * cut) ≤ 2 * n ↔
        (2 * k + 1) * (2 * c * cut) ≤ 2 * (divNearestEven n cut * cut)) ↔
      ¬ (2 * (n % (2 * c * cut)) < 2 * c * cut ∧ (2 * c * cut < 2 * (n % (2 * c * cut)) + cut ∨
        2 * c * cut = 2 * (n % (2 * c * cut)) + cut ∧ c % 2 = 0)) := by
  have hle : ∀ k, (2 * k + 1) * (2 * c * cut) ≤ 2 * n ↔ (2 * k + 1) * c ≤ n / cut := by
    intro k
    have hscale : (2 * k + 1) * (2 * c * cut) = 2 * ((2 * k + 1) * c * cut) := by ring
    rw [Nat.le_div_iff_mul_le hcut]
    omega
  have hle' : ∀ k e, (2 * k + 1) * (2 * c * cut) ≤ 2 * (e * cut) ↔ (2 * k + 1) * c ≤ e := by
    intro k e
    have hscale : (2 * k + 1) * (2 * c * cut) = 2 * ((2 * k + 1) * c * cut) := by ring
    have hcancel : (2 * k + 1) * c * cut ≤ e * cut ↔ (2 * k + 1) * c ≤ e :=
      Nat.mul_le_mul_right_iff hcut
    omega
  have hmod : n % (2 * c * cut) = n % cut + cut * (n / cut % (2 * c)) := by
    rw [Nat.mul_comm (2 * c)]
    exact Nat.mod_mul
  have ht := Nat.mod_lt n hcut
  have hw := Nat.mod_lt (n / cut) (show 0 < 2 * c by omega)
  have hq := Nat.div_add_mod (n / cut) (2 * c)
  simp only [hle, hle', hmod, divNearestEven]
  generalize n % cut = t at *
  generalize n / cut = q at *
  generalize hD : q / (2 * c) = d at *
  generalize hW : q % (2 * c) = w at *
  have hwindow : (2 * (t + cut * w) < 2 * c * cut ∧ (2 * c * cut < 2 * (t + cut * w) + cut ∨
      2 * c * cut = 2 * (t + cut * w) + cut ∧ c % 2 = 0)) ↔
        w + 1 = c ∧ (cut < 2 * t ∨ cut = 2 * t ∧ c % 2 = 0) := by
    have hexpand : w + 1 = c → 2 * c * cut = 2 * (cut * w) + 2 * cut := by
      rintro rfl
      ring
    constructor
    · rintro ⟨hlt, hwithin⟩
      have hbound : 2 * c * cut ≤ 2 * (t + cut * w) + cut := by omega
      have hlast : w + 1 = c := by
        rcases Nat.lt_trichotomy (w + 1) c with hless | heq | hmore
        · have : 2 * (w + 2) * cut ≤ 2 * c * cut := by gcongr; omega
          nlinarith
        · exact heq
        · have : 2 * c * cut ≤ 2 * w * cut := by gcongr; omega
          nlinarith
      have := hexpand hlast
      exact ⟨hlast, by omega⟩
    · rintro ⟨hlast, hhalf⟩
      have := hexpand hlast
      exact ⟨by omega, by omega⟩
  have hhit : (∃ k, (2 * k + 1) * c = q + 1) ↔ w + 1 = c := by
    constructor
    · rintro ⟨k, hk⟩
      have hsplit : q = c - 1 + 2 * c * k := by
        have : (2 * k + 1) * c = 2 * c * k + c := by ring
        omega
      rw [hsplit, Nat.add_mul_mod_self_left, Nat.mod_eq_of_lt (by omega)] at hW
      omega
    · intro hlast
      refine ⟨d, ?_⟩
      have : (2 * d + 1) * c = 2 * c * d + c := by ring
      omega
  have hparity : w + 1 = c → (q % 2 = 0 ↔ ¬ c % 2 = 0) := by
    have : 2 * c * d = 2 * (c * d) := by ring
    omega
  rw [hwindow, ← not_iff_not, not_not]
  constructor
  · intro hall
    obtain ⟨k, hk⟩ := not_forall.1 hall
    split_ifs at hk with hdown
    · exact absurd Iff.rfl hk
    · have hlast : w + 1 = c := hhit.1 ⟨k, by omega⟩
      have := hparity hlast
      exact ⟨hlast, by omega⟩
  · rintro ⟨hlast, hhalf⟩ hall
    obtain ⟨k, hk⟩ := hhit.2 hlast
    have := hparity hlast
    rw [if_neg (by omega)] at hall
    have := hall k
    omega

/-- Halves of what is cut off: they are left where the quotient is even. -/
lemma halves_iff_of_eq {n cut : ℕ} (hcut : 0 < cut) :
    (∀ k, (2 * k + 1) * cut ≤ 2 * n ↔ (2 * k + 1) * cut ≤ 2 * (divNearestEven n cut * cut)) ↔
      ¬ (2 * (n % cut) = cut ∧ n / cut % 2 = 0) := by
  have hle : ∀ k, (2 * k + 1) * cut ≤ 2 * n ↔
      k < n / cut ∨ k = n / cut ∧ cut ≤ 2 * (n % cut) := by
    intro k
    have hn := Nat.div_add_mod' n cut
    have ht := Nat.mod_lt n hcut
    have hscale : (2 * k + 1) * cut = 2 * (k * cut) + cut := by ring
    rcases Nat.lt_trichotomy k (n / cut) with hlt | heq | hgt
    · have : (k + 1) * cut ≤ n / cut * cut := by gcongr; omega
      have : (k + 1) * cut = k * cut + cut := by ring
      omega
    · rw [← heq] at hn
      omega
    · have : (n / cut + 1) * cut ≤ k * cut := by gcongr; omega
      have : (n / cut + 1) * cut = n / cut * cut + cut := by ring
      omega
  have hle' : ∀ k e, (2 * k + 1) * cut ≤ 2 * (e * cut) ↔ k < e := by
    intro k e
    have hscale : 2 * (e * cut) = 2 * e * cut := by ring
    rw [hscale, Nat.mul_le_mul_right_iff hcut]
    omega
  simp only [hle, hle', divNearestEven]
  constructor
  · rintro hall ⟨htie, heven⟩
    have := hall (n / cut)
    rw [if_pos (.inr ⟨htie, heven⟩)] at this
    omega
  · intro hnot k
    split_ifs with hdown <;> omega

/-- The digits of a coefficient that are not kept. -/
def surplus (digits n : ℕ) : ℕ :=
  (Nat.toDigits 10 n).length - digits

/-- Of a number with the coefficient `n`, the digits behind the place `m` are such that rounding to
significant digits moves it over half a unit of that place: it is less than half of what is cut off
below that half (or exactly so much, where the half is even in the last digit that is kept), or it
is that half, and the last digit that is kept is the even one before it. -/
def CrossesHalf (digits places m n : ℕ) : Prop :=
  let s := surplus digits n
  let unit := 10 ^ (places - m)
  let rest := n % unit
  0 < s ∧
    ((s + m < places ∧ 2 * rest < unit ∧
      (unit < 2 * rest + 10 ^ s ∨ unit = 2 * rest + 10 ^ s ∧ s + m + 1 < places)) ∨
    (s + m = places ∧ 2 * rest = unit ∧ n / unit % 2 = 0))

instance (digits places m n : ℕ) : Decidable (CrossesHalf digits places m n) := by
  unfold CrossesHalf
  infer_instance

/-- A half, in units of the last place. -/
lemma half_le_iff (hm : m ≤ places) (k x : ℕ) :
    (k : ℚ) + 1 / 2 ≤ (x : ℚ) / 10 ^ places * 10 ^ m ↔
      (2 * k + 1) * 10 ^ (places - m) ≤ 2 * x := by
  have hpos := ten_pow_pos (places - m)
  have hscale : (x : ℚ) / 10 ^ places * 10 ^ m = x / 10 ^ (places - m) := by
    have hpow : (10 : ℚ) ^ places = 10 ^ (places - m) * 10 ^ m := by
      rw [← pow_add, Nat.sub_add_cancel hm]
    rw [hpow, ← div_div, div_mul_cancel₀ _ (ten_pow_pos m).ne']
  rw [hscale, le_div_iff₀ hpos, ← Nat.cast_le (α := ℚ)]
  push_cast
  constructor <;> intro h <;> linarith

/-- **Where rounding twice is rounding once**, in the digits of the number. -/
theorem halves_roundSignificant_iff {n : ℕ} (hm : m < places)
    (hbound : surplus digits n + m ≤ places) :
    (∀ k : ℕ, k + 1 / 2 ≤ (n : ℚ) / 10 ^ places * 10 ^ m ↔
        k + 1 / 2 ≤ roundSignificant digits places (n / 10 ^ places) * 10 ^ m) ↔
      ¬ CrossesHalf digits places m n := by
  have hq : (n : ℚ) / 10 ^ places = ((n : ℤ) : ℚ) / 10 ^ places := by rw [Int.cast_natCast]
  have hlength : coefficientLength places ((n : ℚ) / 10 ^ places) - digits = surplus digits n := by
    rw [coefficientLength, HasPlaces.num_eq hq, Int.natAbs_natCast, surplus]
  rcases Nat.eq_zero_or_pos (surplus digits n) with hs | hs
  · rw [roundSignificant_of_short (by omega)]
    exact iff_of_true (fun k => Iff.rfl) fun hcross => absurd hcross.1 (by omega)
  have hround : roundSignificant digits places ((n : ℚ) / 10 ^ places) =
      ((divNearestEven n (10 ^ surplus digits n) * 10 ^ surplus digits n : ℕ) : ℚ) /
        10 ^ places := by
    have hnearest := nearestEven_natCast_div n (show 0 < 10 ^ surplus digits n by positivity)
    push_cast at hnearest
    rw [roundSignificant_of_long hq (by omega), hlength, Int.cast_natCast, hnearest]
    push_cast
    rfl
  simp only [hround, half_le_iff hm.le, CrossesHalf, hs, true_and]
  have hcut : 0 < 10 ^ surplus digits n := by positivity
  rcases Nat.lt_or_eq_of_le hbound with hlt | heq
  · obtain ⟨j, hj⟩ := Nat.exists_eq_add_of_lt hlt
    have hunit : 10 ^ (places - m) = 2 * (5 * 10 ^ j) * 10 ^ surplus digits n := by
      rw [show places - m = 1 + j + surplus digits n by omega, pow_add, pow_add]
      ring
    have heven : 5 * 10 ^ j % 2 = 0 ↔ surplus digits n + m + 1 < places := by
      cases j with
      | zero => omega
      | succ j => rw [pow_succ]; omega
    rw [hunit, halves_iff_of_dvd (by positivity) hcut, heven]
    simp only [hlt, hlt.ne, true_and, false_and, or_false]
  · have hunit : 10 ^ (places - m) = 10 ^ surplus digits n := by
      rw [show places - m = surplus digits n by omega]
    rw [hunit, halves_iff_of_eq hcut]
    simp only [heq, lt_irrefl, false_and, true_and, false_or]

end Decimals
