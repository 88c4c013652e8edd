import Mathlib
import Reckon.Proofs.Double

/-!
Rounding. A quotient is taken to more places than a double has and then shifted to the right, where
two bits keep what is lost: whether it is nothing, less than half a unit, half a unit or more. Main
statement: a rational that is cut off fine enough is rounded to the mantissa and the exponent that
it rounds to, be they those of a zero or beyond the range of doubles (`OnGrid.round`).
-/

namespace Reckon
open Float.Model Float.Model.UnpackedFloat

/-! ## Residual bits -/

/-- A mantissa and its residual bits stand for a rational: what the rational is above the mantissa
is nothing, less than a half, a half or more. -/
def StandsFor (em : ExtendedMantissa) (r : ℚ) : Prop :=
  match em.roundBit, em.stickyBit with
  | false, false => r = em.mantissa
  | false, true => em.mantissa < r ∧ r < em.mantissa + 1 / 2
  | true, false => r = em.mantissa + 1 / 2
  | true, true => em.mantissa + 1 / 2 < r ∧ r < em.mantissa + 1

namespace StandsFor
variable {em : ExtendedMantissa} {r : ℚ}

theorem exact (m : ℕ) : StandsFor (.ofMantissaAndAccuracy m .exact) m := rfl

theorem between (h : StandsFor em r) : em.mantissa ≤ r ∧ r < em.mantissa + 1 := by
  obtain ⟨m, round, sticky⟩ := em
  cases round <;> cases sticky <;> simp only [StandsFor] at h ⊢ <;> constructor <;> linarith

/-- A shift halves the rational. The bit that falls off the mantissa is the new first residual bit,
and the other one says whether there was anything behind it. -/
theorem half (h : StandsFor em r) : StandsFor em.shiftRightOne (r / 2) := by
  obtain ⟨m, round, sticky⟩ := em
  have parts : (m : ℚ) = 2 * (m / 2 : ℕ) + (m % 2 : ℕ) := by
    exact_mod_cast (Nat.div_add_mod m 2).symm
  rcases Nat.mod_two_eq_zero_or_one m with even | odd
  · have shifted : (ExtendedMantissa.mk m round sticky).shiftRightOne =
        ⟨m / 2, false, round || sticky⟩ := by
      rw [ExtendedMantissa.shiftRightOne, even]
      rfl
    rw [shifted]
    rw [even, Nat.cast_zero] at parts
    cases round <;> cases sticky <;> simp only [StandsFor, Bool.or_true, Bool.or_false] at h ⊢ <;>
      first | linarith | (constructor <;> linarith)
  · have shifted : (ExtendedMantissa.mk m round sticky).shiftRightOne =
        ⟨m / 2, true, round || sticky⟩ := by
      rw [ExtendedMantissa.shiftRightOne, odd]
      rfl
    rw [shifted]
    rw [odd, Nat.cast_one] at parts
    cases round <;> cases sticky <;> simp only [StandsFor, Bool.or_true, Bool.or_false] at h ⊢ <;>
      first | linarith | (constructor <;> linarith)

theorem shifted (h : StandsFor em r) (n : ℕ) : StandsFor (em >>> n) (r / 2 ^ n) := by
  show StandsFor (n.repeat ExtendedMantissa.shiftRightOne em) _
  induction n with
  | zero =>
    rw [pow_zero, div_one]
    exact h
  | succ n ih =>
    rw [pow_succ, ← div_div]
    exact ih.half

/-- A rational is rounded to a whole number that is no farther from it than a half, and from an odd
one less. -/
theorem rounded (h : StandsFor em r) {n : ℕ} (low : n - 1 / 2 ≤ r) (high : r ≤ n + 1 / 2)
    (inside : n % 2 = 1 → n - 1 / 2 < r ∧ r < n + 1 / 2) : em.roundedMantissa = n := by
  obtain ⟨m, round, sticky⟩ := em
  cases round <;> cases sticky <;> simp only [StandsFor] at h
  case false.false =>
    show m = n
    have above : n < m + 1 := by exact_mod_cast (by linarith : (n : ℚ) < m + 1)
    have below : m < n + 1 := by exact_mod_cast (by linarith : (m : ℚ) < n + 1)
    omega
  case false.true =>
    show m = n
    have above : n < m + 1 := by exact_mod_cast (by linarith : (n : ℚ) < m + 1)
    have below : m < n + 1 := by exact_mod_cast (by linarith : (m : ℚ) < n + 1)
    omega
  case true.false =>
    -- a tie: the rational is no end of the interval around an odd number
    show m + m % 2 = n
    have above : n ≤ m + 1 := by exact_mod_cast (by linarith : (n : ℚ) ≤ m + 1)
    have below : m ≤ n := by exact_mod_cast (by linarith : (m : ℚ) ≤ n)
    rcases Nat.mod_two_eq_zero_or_one n with even | odd
    · omega
    · obtain ⟨left, right⟩ := inside odd
      have above : n < m + 1 := by exact_mod_cast (by linarith : (n : ℚ) < m + 1)
      have below : m < n := by exact_mod_cast (by linarith : (m : ℚ) < n)
      omega
  case true.true =>
    show m + 1 = n
    have above : n < m + 2 := by exact_mod_cast (by linarith : (n : ℚ) < m + 2)
    have below : m < n := by exact_mod_cast (by linarith : (m : ℚ) < n)
    omega

/-- The remainder of a division says what its quotient leaves. -/
theorem quotient (a : ℕ) {b : ℕ} (hb : 0 < b) :
    StandsFor (.ofMantissaAndAccuracy (a / b) (accuracyOfFraction (a % b) b)) (a / b) := by
  have positive : (0 : ℚ) < b := Nat.cast_pos.mpr hb
  have parts : (a : ℚ) / b = (a / b : ℕ) + (a % b : ℕ) / b := by
    rw [div_eq_iff positive.ne', add_mul, div_mul_cancel₀ _ positive.ne']
    exact_mod_cast (Nat.div_add_mod' a b).symm
  have less : ((a % b : ℕ) : ℚ) / b < 1 := by
    rw [div_lt_one positive]
    exact_mod_cast Nat.mod_lt a hb
  rw [parts]
  unfold accuracyOfFraction
  split
  · next zero =>
    rw [zero, Nat.cast_zero, zero_div, add_zero]
    exact .exact _
  · next nonzero =>
    have above : (0 : ℚ) < (a % b : ℕ) / b := by
      apply div_pos _ positive
      exact_mod_cast Nat.pos_of_ne_zero nonzero
    cases order : compare (2 * (a % b)) b with
    | lt =>
      have half : ((a % b : ℕ) : ℚ) / b < 1 / 2 := by
        rw [div_lt_div_iff₀ positive two_pos]
        have := Nat.compare_eq_lt.mp order
        exact_mod_cast (by omega : a % b * 2 < 1 * b)
      exact ⟨lt_add_of_pos_right _ above, add_lt_add_right half _⟩
    | eq =>
      have half : ((a % b : ℕ) : ℚ) / b = 1 / 2 := by
        rw [div_eq_div_iff positive.ne' two_ne_zero]
        have := Nat.compare_eq_eq.mp order
        exact_mod_cast (by omega : a % b * 2 = 1 * b)
      rw [half]
      rfl
    | gt =>
      have half : 1 / 2 < ((a % b : ℕ) : ℚ) / b := by
        rw [div_lt_div_iff₀ two_pos positive]
        have := Nat.compare_eq_gt.mp order
        exact_mod_cast (by omega : 1 * b < a % b * 2)
      exact ⟨add_lt_add_right half _, add_lt_add_right less _⟩

end StandsFor

/-! ## Doubles and what rounds to them -/

/-- A mantissa and an exponent that a double other than zero holds. -/
structure Canonical (m : ℕ) (q : ℤ) : Prop where
  positive : 0 < m
  bits : m < 2 ^ 53
  least : -1074 ≤ q
  greatest : q ≤ 971
  normal : 2 ^ 52 ≤ m ∨ q = -1074

/-- A mantissa and an exponent of doubles, were their exponents not bounded from above: zero, and
what has all bits of a mantissa unless its exponent is the least. -/
structure OnGrid (m : ℕ) (q : ℤ) : Prop where
  bits : m < 2 ^ 53
  least : -1074 ≤ q
  normal : 2 ^ 52 ≤ m ∨ q = -1074

theorem Canonical.onGrid {m : ℕ} {q : ℤ} (hc : Canonical m q) : OnGrid m q :=
  ⟨hc.bits, hc.least, hc.normal⟩

def signOf (negative : Bool) : Sign := bif negative then .negative else .positive

/-- The unpacked number of a mantissa and an exponent. A zero is one apart. -/
def unpacked (negative : Bool) (m : ℕ) (q : ℤ) : UnpackedFloat :=
  if h : m = 0 then .zero (signOf negative)
  else .finite (signOf negative) m q (Nat.pos_of_ne_zero h)

theorem unpacked_of_pos {m : ℕ} (hm : 0 < m) (q : ℤ) :
    unpacked false m q = .finite .positive m q hm := dif_neg hm.ne'

/-- How far below a double the rationals reach that round to it, in units of its mantissa: half a
unit, or at the least mantissa of a binade half of the smaller unit below. -/
def reach (m : ℕ) (q : ℤ) : ℚ := if m = 2 ^ 52 ∧ -1074 < q then 1 / 4 else 1 / 2

/-- The rationals that round to a double; the ends are among them when the mantissa is even. -/
structure RoundsTo (m : ℕ) (q : ℤ) (t : ℚ) : Prop where
  low : m - reach m q ≤ t / 2 ^ q
  high : t / 2 ^ q ≤ m + 1 / 2
  inside : m % 2 = 1 → m - reach m q < t / 2 ^ q ∧ t / 2 ^ q < m + 1 / 2

theorem reach_pos (m : ℕ) (q : ℤ) : 0 < reach m q := by
  unfold reach
  split <;> norm_num

theorem reach_le (m : ℕ) (q : ℤ) : reach m q ≤ 1 / 2 := by
  unfold reach
  split <;> norm_num

theorem reach_edge {q : ℤ} (hq : -1074 < q) : reach (2 ^ 52) q = 1 / 4 := if_pos ⟨rfl, hq⟩

/-- A double rounds to itself. -/
theorem RoundsTo.self (m : ℕ) (q : ℤ) : RoundsTo m q (m * 2 ^ q) := by
  have unit : (m : ℚ) * 2 ^ q / 2 ^ q = m := mul_div_cancel_right₀ _ (by positivity)
  have below := reach_pos m q
  refine ⟨?_, ?_, fun _ => ⟨?_, ?_⟩⟩ <;> rw [unit] <;> linarith

theorem targetExponent_eq (T : ℤ) : Format.binary64.targetExponent T = max (T - 53) (-1074) := rfl

theorem two_zpow_lt {a b : ℤ} : (2 : ℚ) ^ a < 2 ^ b ↔ a < b :=
  zpow_lt_zpow_iff_right₀ one_lt_two

section Scale
variable {t : ℚ} {q k : ℤ}

theorem lt_two_zpow (h : t / 2 ^ q < 2 ^ k) : t < 2 ^ (k + q) := by
  rwa [zpow_add₀ two_ne_zero, ← div_lt_iff₀ (by positivity)]

theorem two_zpow_le (h : 2 ^ k ≤ t / 2 ^ q) : 2 ^ (k + q) ≤ t := by
  rwa [zpow_add₀ two_ne_zero, ← le_div_iff₀ (by positivity)]

theorem div_two_zpow_lt (h : t < 2 ^ (k + q)) : t / 2 ^ q < 2 ^ k := by
  rwa [div_lt_iff₀ (by positivity), ← zpow_add₀ two_ne_zero]

end Scale

/-- What rounds to a double is cut off at the double's own exponent. Just below the least mantissa
of a binade it is cut off one place further on. -/
theorem OnGrid.target {m : ℕ} {q : ℤ} (hg : OnGrid m q) {t : ℚ} (h : RoundsTo m q t) {T : ℤ}
    (upper : t < 2 ^ T) (lower : 2 ^ (T - 1) ≤ t ∨ T ≤ -1073) :
    Format.binary64.targetExponent T = q ∨
      (Format.binary64.targetExponent T = q - 1 ∧ m = 2 ^ 52 ∧ t / 2 ^ q < 2 ^ 52) := by
  rw [targetExponent_eq]
  obtain ⟨bits, least, normal⟩ := hg
  have bits' : (m : ℚ) + 1 ≤ 2 ^ 53 := by exact_mod_cast bits
  have above : t < 2 ^ (53 + q) := by
    apply lt_two_zpow
    show t / 2 ^ q < 2 ^ 53
    have := h.high
    linarith
  have below (hT : 2 ^ (T - 1) ≤ t) : T ≤ 53 + q := by
    have := two_zpow_lt.mp (hT.trans_lt above)
    omega
  rcases least.lt_or_eq with large | rfl
  · have mantissa : 2 ^ 52 ≤ m := normal.resolve_right (by omega)
    have mantissa' : (2 : ℚ) ^ 52 ≤ m := by exact_mod_cast mantissa
    have far : 51 + q < T := by
      apply two_zpow_lt.mp
      apply lt_of_le_of_lt _ upper
      apply two_zpow_le
      have step : (2 : ℚ) ^ (51 : ℤ) ≤ 2 ^ 52 - 1 / 2 := by norm_num
      have := h.low
      have := reach_le m q
      linarith
    have near := below (lower.resolve_right (by omega))
    rcases (by omega : T = 53 + q ∨ T = 52 + q) with rfl | rfl
    · left
      omega
    · right
      have short : t / 2 ^ q < 2 ^ 52 := div_two_zpow_lt upper
      refine ⟨by omega, ?_, short⟩
      have less : (m : ℚ) < 2 ^ 52 + 1 := by
        have := h.low
        have := reach_le m q
        linarith
      have less' : m < 2 ^ 52 + 1 := by exact_mod_cast less
      omega
  · left
    have small : T ≤ -1021 := by
      rcases lower with hT | hT
      · have := below hT
        omega
      · omega
    omega

/-! ## Shifting and rounding -/

theorem mantissa_ofMantissaAndAccuracy (m : ℕ) (a : Accuracy) :
    (ExtendedMantissa.ofMantissaAndAccuracy m a).mantissa = m := by
  match a with
  | .exact => rfl
  | .inexact .lt => rfl
  | .inexact .eq => rfl
  | .inexact .gt => rfl

section Total
variable {m : ℕ} {q : ℤ}

theorem two_zpow_total_le_mul (hm : 0 < m) (q : ℤ) :
    (2 : ℚ) ^ (totalExponent m q - 1) ≤ m * 2 ^ q := by
  have bits : (2 : ℚ) ^ m.log2 ≤ m := by exact_mod_cast Nat.log2_self_le hm.ne'
  have total : totalExponent m q - 1 = m.log2 + q := by
    unfold totalExponent
    omega
  rw [total, zpow_add₀ two_ne_zero, zpow_natCast]
  gcongr

theorem mul_le_two_zpow_total (m : ℕ) (q : ℤ) :
    ((m : ℚ) + 1) * 2 ^ q ≤ 2 ^ totalExponent m q := by
  have bits : (m : ℚ) + 1 ≤ 2 ^ (m.log2 + 1) := by exact_mod_cast Nat.lt_log2_self
  have total : totalExponent m q = (m.log2 + 1 : ℕ) + q := by
    unfold totalExponent
    omega
  rw [total, zpow_add₀ two_ne_zero, zpow_natCast]
  gcongr

/-- A double is cut off at its own exponent. -/
theorem OnGrid.target_total (hg : OnGrid m q) :
    Format.binary64.targetExponent (totalExponent m q) = q := by
  rw [targetExponent_eq]
  have total : totalExponent m q = m.log2 + 1 + q := rfl
  have least := hg.least
  have high : m.log2 < 53 := by
    rcases Nat.eq_zero_or_pos m with rfl | hm
    · decide
    · exact (Nat.log2_lt hm.ne').mpr hg.bits
  rcases hg.normal with normal | rfl
  · have low : 52 ≤ m.log2 := (Nat.le_log2 (Nat.ne_of_gt (by omega))).mpr normal
    omega
  · omega

end Total

section Shift
variable {μ : ℕ} {e q : ℤ} {a : Accuracy} {t : ℚ}

theorem lt_two_zpow_total (h : StandsFor (.ofMantissaAndAccuracy μ a) (t / 2 ^ e)) :
    t < 2 ^ totalExponent μ e := by
  have less := h.between.2
  rw [mantissa_ofMantissaAndAccuracy, div_lt_iff₀ (by positivity)] at less
  exact less.trans_le (mul_le_two_zpow_total μ e)

theorem two_zpow_total_le (h : StandsFor (.ofMantissaAndAccuracy μ a) (t / 2 ^ e)) (hμ : 0 < μ) :
    2 ^ (totalExponent μ e - 1) ≤ t := by
  have least := h.between.1
  rw [mantissa_ofMantissaAndAccuracy, le_div_iff₀ (by positivity)] at least
  exact (two_zpow_total_le_mul hμ e).trans least

theorem shiftToTargetExponent_eq (a : Accuracy)
    (target : Format.binary64.targetExponent (totalExponent μ e) = q) (fine : e ≤ q) :
    shiftToTargetExponent .binary64 μ e a =
      (ExtendedMantissa.ofMantissaAndAccuracy μ a >>> (q - e).toNat, q) := by
  unfold shiftToTargetExponent shiftToExponent
  simp only [target, Prod.mk.injEq, true_and]
  omega

/-- What is shifted stands for the same rational, in units of the exponent it is shifted to. -/
theorem StandsFor.shiftToTarget (h : StandsFor (.ofMantissaAndAccuracy μ a) (t / 2 ^ e))
    (target : Format.binary64.targetExponent (totalExponent μ e) = q) (fine : e ≤ q) :
    ∃ em, shiftToTargetExponent .binary64 μ e a = (em, q) ∧ StandsFor em (t / 2 ^ q) := by
  refine ⟨_, shiftToTargetExponent_eq a target fine, ?_⟩
  have unit : t / 2 ^ e / 2 ^ (q - e).toNat = t / 2 ^ q := by
    rw [div_div, ← zpow_natCast, ← zpow_add₀ two_ne_zero]
    congr 2
    omega
  rw [← unit]
  exact h.shifted _

/-- Rounding, where both shifts are known. -/
theorem roundWithAccuracy_eq {m : ℕ} {e₁ : ℤ} {em em' : ExtendedMantissa}
    (first : shiftToTargetExponent .binary64 μ e a = (em, e₁))
    (second : shiftToTargetExponent .binary64 em.roundedMantissa e₁ .exact = (em', q))
    (mantissa : em'.mantissa = m) :
    roundWithAccuracy .binary64 .positive μ e a = unpacked false m q := by
  subst mantissa
  unfold roundWithAccuracy
  simp only [first, second]
  rfl

/-- A rational that is cut off at the exponent of the double it rounds to. -/
theorem OnGrid.round_at {m : ℕ} (hg : OnGrid m q) (h : RoundsTo m q t) {em : ExtendedMantissa}
    (first : shiftToTargetExponent .binary64 μ e a = (em, q)) (shifted : StandsFor em (t / 2 ^ q)) :
    roundWithAccuracy .binary64 .positive μ e a = unpacked false m q := by
  have reached := reach_le m q
  have low : (m : ℚ) - 1 / 2 ≤ t / 2 ^ q := by linarith [h.low]
  have rounded := shifted.rounded low h.high fun odd =>
    ⟨by linarith [(h.inside odd).1], (h.inside odd).2⟩
  apply roundWithAccuracy_eq first
  · rw [rounded, shiftToTargetExponent_eq _ hg.target_total le_rfl, sub_self]
  · exact mantissa_ofMantissaAndAccuracy m .exact

/-- A rational just below a power of two that is cut off one place further on: its mantissa is
rounded up to the power, which is then shifted once more. -/
theorem round_up {em : ExtendedMantissa} (least : -1074 ≤ q) (low : 2 ^ 52 - 1 / 4 ≤ t / 2 ^ q)
    (short : t / 2 ^ q < 2 ^ 52) (first : shiftToTargetExponent .binary64 μ e a = (em, q - 1))
    (shifted : StandsFor em (t / 2 ^ (q - 1))) :
    roundWithAccuracy .binary64 .positive μ e a = unpacked false (2 ^ 52) q := by
  have double : t / 2 ^ (q - 1) = 2 * (t / 2 ^ q) := by
    rw [zpow_sub_one₀ two_ne_zero]
    field_simp
  rw [double] at shifted
  have rounded := shifted.rounded (n := 2 ^ 53) (by norm_num at low ⊢; linarith)
    (by norm_num at short ⊢; linarith) (fun odd => absurd odd (by decide))
  have target : Format.binary64.targetExponent (totalExponent (2 ^ 53) (q - 1)) = q := by
    rw [targetExponent_eq, totalExponent, Nat.log2_two_pow]
    omega
  have once : (q - (q - 1)).toNat = 1 := by omega
  apply roundWithAccuracy_eq first
  · rw [rounded, shiftToTargetExponent_eq _ target (by omega), once]
  · rfl

/-- A rational that is cut off fine enough is rounded to the double that it rounds to. -/
theorem OnGrid.round {m : ℕ} {T : ℤ} (hg : OnGrid m q) (h : RoundsTo m q t)
    (stands : StandsFor (.ofMantissaAndAccuracy μ a) (t / 2 ^ e)) (enough : 2 ^ (T - 1) ≤ t)
    (fine : e ≤ Format.binary64.targetExponent T) :
    roundWithAccuracy .binary64 .positive μ e a = unpacked false m q := by
  have upper := lt_two_zpow_total stands
  have order : T - 1 < totalExponent μ e := two_zpow_lt.mp (enough.trans_lt upper)
  have lower : 2 ^ (totalExponent μ e - 1) ≤ t ∨ totalExponent μ e ≤ -1073 := by
    rcases Nat.eq_zero_or_pos μ with rfl | hμ
    · right
      have total : totalExponent 0 e = 1 + e := by
        simp [totalExponent]
      rw [targetExponent_eq] at fine
      omega
    · exact .inl (two_zpow_total_le stands hμ)
  have fine' : e ≤ Format.binary64.targetExponent (totalExponent μ e) := by
    rw [targetExponent_eq] at fine ⊢
    omega
  rcases hg.target h upper lower with same | ⟨finer, rfl, short⟩
  · obtain ⟨em, first, shifted⟩ := stands.shiftToTarget same (same ▸ fine')
    exact hg.round_at h first shifted
  · obtain ⟨em, first, shifted⟩ := stands.shiftToTarget finer (finer ▸ fine')
    rw [targetExponent_eq] at finer
    have low := h.low
    rw [reach_edge (by omega), Nat.cast_pow, Nat.cast_ofNat] at low
    exact round_up hg.least low short first shifted

end Shift

/-! ## Quotients, products and whole numbers -/

namespace OnGrid
variable {m : ℕ} {q : ℤ} (hg : OnGrid m q)
include hg

theorem div {m₁ m₂ : ℕ} {e₁ e₂ : ℤ} (h₁ : 0 < m₁) (h₂ : 0 < m₂)
    (h : RoundsTo m q (m₁ * 2 ^ e₁ / (m₂ * 2 ^ e₂))) :
    UnpackedFloat.div .binary64 (.finite .positive m₁ e₁ h₁) (.finite .positive m₂ e₂ h₂) =
      unpacked false m q := by
  obtain ⟨T, hT⟩ : ∃ T, T = totalExponent m₁ e₁ - totalExponent m₂ e₂ := ⟨_, rfl⟩
  obtain ⟨e, he⟩ : ∃ e, e = min (e₁ - e₂) (Format.binary64.targetExponent T) := ⟨_, rfl⟩
  obtain ⟨s, hs⟩ : ∃ s, s = (e₁ - e₂ - e).toNat := ⟨_, rfl⟩
  have quotient := StandsFor.quotient (m₁ <<< s) h₂
  have scaled : ((m₁ <<< s : ℕ) : ℚ) / m₂ = m₁ * 2 ^ e₁ / (m₂ * 2 ^ e₂) / 2 ^ e := by
    have exponent : (s : ℤ) = e₁ - e₂ - e := by omega
    rw [Nat.shiftLeft_eq, Nat.cast_mul, Nat.cast_pow, Nat.cast_ofNat, ← zpow_natCast, exponent,
      zpow_sub₀ two_ne_zero, zpow_sub₀ two_ne_zero]
    field_simp
  rw [scaled] at quotient
  have enough : 2 ^ (T - 1) ≤ (m₁ : ℚ) * 2 ^ e₁ / (m₂ * 2 ^ e₂) := by
    have least := two_zpow_total_le_mul h₁ e₁
    have most : (m₂ : ℚ) * 2 ^ e₂ ≤ 2 ^ totalExponent m₂ e₂ := by
      apply le_trans _ (mul_le_two_zpow_total m₂ e₂)
      gcongr
      exact (lt_add_one _).le
    have exponent : T - 1 = totalExponent m₁ e₁ - 1 - totalExponent m₂ e₂ := by omega
    rw [exponent, zpow_sub₀ two_ne_zero]
    gcongr
  have rounded := hg.round h quotient enough (he ▸ min_le_right _ _)
  rw [← rounded, hs, he, hT]
  rfl

/-- The double of a whole number. -/
theorem ofNat {n : ℕ} (hn : 0 < n) (h : RoundsTo m q n) :
    UnpackedFloat.ofNat .binary64 n = unpacked false m q := by
  obtain ⟨s, hs⟩ : ∃ s, s = (0 - Format.binary64.targetExponent (totalExponent n 0)).toNat :=
    ⟨_, rfl⟩
  have scaled : ((n <<< s : ℕ) : ℚ) = n / 2 ^ (0 - s : ℤ) := by
    rw [Nat.shiftLeft_eq, Nat.cast_mul, Nat.cast_pow, Nat.cast_ofNat, zero_sub, zpow_neg,
      zpow_natCast, div_inv_eq_mul]
  have exact := StandsFor.exact (n <<< s)
  rw [scaled] at exact
  have enough := two_zpow_total_le_mul hn 0
  rw [zpow_zero, mul_one] at enough
  have rounded := hg.round h exact enough (by omega)
  have order : compare (n : ℤ) 0 = .gt := Int.compare_eq_gt.mpr (by omega)
  unfold UnpackedFloat.ofNat UnpackedFloat.ofInt UnpackedFloat.normalize
  rw [order, ← rounded, hs]
  rfl

end OnGrid

end Reckon
