import Mathlib
import Reckon.Number.Numeral
import Reckon.Proofs.Packing

/-!
Conversion. A numeral is read as a quotient of whole numbers, by one of three ways according to its
length. Main statement: each of them rounds it as a rational, and to the same double
(`OnGrid.ofScientific`).
-/

namespace Reckon
open Float.Model Float.Model.UnpackedFloat

/-- A power with a whole exponent, as a quotient of powers with natural ones. -/
theorem zpow_eq_div {a : ℚ} (ha : a ≠ 0) (k : ℤ) : a ^ k = a ^ k.toNat / a ^ (-k).toNat := by
  rw [eq_div_iff (pow_ne_zero _ ha), ← zpow_natCast, ← zpow_natCast, ← zpow_add₀ ha]
  congr 1
  omega

theorem mul_two_zpow_eq {m n : ℕ} {q : ℤ} :
    (m : ℚ) * 2 ^ q = n ↔ m * 2 ^ q.toNat = n * 2 ^ (-q).toNat := by
  rw [zpow_eq_div two_ne_zero, ← mul_div_assoc, div_eq_iff (by positivity)]
  norm_cast

/-- A numeral with many more places than digits is less than half the least double. -/
theorem div_pow_ten_lt {c p : ℕ} (far : c.log2 + 1076 ≤ p) :
    (c : ℚ) / 10 ^ p < 2 ^ (-1075 : ℤ) := by
  have bits : (c : ℚ) < 2 ^ (c.log2 + 1) := by exact_mod_cast Nat.lt_log2_self
  calc (c : ℚ) / 10 ^ p ≤ c / 2 ^ p := by
        gcongr
        norm_num
    _ < 2 ^ (c.log2 + 1) / 2 ^ p := by gcongr
    _ = 2 ^ ((c.log2 + 1 : ℕ) - p : ℤ) := by
      rw [zpow_sub₀ two_ne_zero, zpow_natCast, zpow_natCast]
    _ ≤ 2 ^ (-1075 : ℤ) := by
      apply zpow_le_zpow_right₀ one_le_two
      omega

/-- Whether an unpacked double is a power of ten. -/
def isPowerOfTen (i : ℕ) : UnpackedFloat → Bool
  | .finite .positive m q _ => m * 2 ^ q.toNat == 10 ^ i * 2 ^ (-q).toNat
  | _ => false

/-- The powers of ten that quotients of short numerals are formed with are exact. -/
theorem isPowerOfTen_powers : ∀ (i : ℕ) (h : i < Float.exactlyRepresentablePowersOfTen.size),
    isPowerOfTen i (Float.exactlyRepresentablePowersOfTen[i]).toModel.unpack = true := by
  decide +kernel

theorem exists_of_isPowerOfTen {i : ℕ} {u : UnpackedFloat} (h : isPowerOfTen i u = true) :
    ∃ (m : ℕ) (q : ℤ) (hm : 0 < m), u = .finite .positive m q hm ∧ (m : ℚ) * 2 ^ q = 10 ^ i := by
  match u, h with
  | .finite .positive m q hm, h =>
    refine ⟨m, q, hm, rfl, ?_⟩
    have power := mul_two_zpow_eq.mpr (beq_iff_eq.mp h)
    rw [power, Nat.cast_pow, Nat.cast_ofNat]

/-- A whole number of no more bits than a mantissa is a double. -/
theorem exists_canonical {n : ℕ} (hn : 0 < n) (bits : n < 2 ^ 53) :
    ∃ m q, Canonical m q ∧ (m : ℚ) * 2 ^ q = n := by
  have log : n.log2 < 53 := (Nat.log2_lt hn.ne').mpr bits
  obtain ⟨s, hs⟩ : ∃ s, s = 52 - n.log2 := ⟨_, rfl⟩
  refine ⟨n * 2 ^ s, -s, ⟨by positivity, ?_, by omega, by omega, .inl ?_⟩, ?_⟩
  · calc n * 2 ^ s < 2 ^ (n.log2 + 1) * 2 ^ s :=
        Nat.mul_lt_mul_of_pos_right Nat.lt_log2_self (Nat.two_pow_pos s)
      _ = 2 ^ 53 := by
        rw [← pow_add]
        congr 1
        omega
  · calc 2 ^ 52 = 2 ^ n.log2 * 2 ^ s := by
          rw [← pow_add]
          congr 1
          omega
      _ ≤ n * 2 ^ s := Nat.mul_le_mul_right _ (Nat.log2_self_le hn.ne')
  · rw [Nat.cast_mul, Nat.cast_pow, Nat.cast_ofNat, mul_assoc, ← zpow_natCast,
      ← zpow_add₀ two_ne_zero, add_neg_cancel, zpow_zero, mul_one]

/-- Nothing rounds to a double other than zero that is less than half the least one. -/
theorem OnGrid.le_of_roundsTo {m : ℕ} {q : ℤ} (hg : OnGrid m q) (hm : 0 < m) {t : ℚ}
    (h : RoundsTo m q t) : 2 ^ (-1075 : ℤ) ≤ t := by
  have half : (2 : ℚ) ^ (-1 : ℤ) ≤ t / 2 ^ q := by
    have one : (1 : ℚ) ≤ m := by exact_mod_cast hm
    have := h.low
    have := reach_le m q
    norm_num
    linarith
  have scaled := two_zpow_le half
  have least := hg.least
  apply le_trans _ scaled
  apply zpow_le_zpow_right₀ one_le_two
  omega

/-- A zero is read as a zero, whatever its places. -/
theorem ofScientific_zero (p : ℕ) :
    Float.ofScientific 0 true p = .ofModel (.pack (.zero .positive)) := by
  unfold Float.ofScientific
  split
  · next fits =>
    have listed : p < Float.exactlyRepresentablePowersOfTen.size := Nat.lt_succ_of_le fits.2
    obtain ⟨m, q, hm, divisor, -⟩ := exists_of_isPowerOfTen (isPowerOfTen_powers p listed)
    have dividend : (0 : ℕ).toUInt64.toFloat.toModel.unpack = .zero .positive := rfl
    show Float.ofModel (.pack (UnpackedFloat.div .binary64 (0 : ℕ).toUInt64.toFloat.toModel.unpack
      (Float.exactlyRepresentablePowersOfTen[p]).toModel.unpack)) = _
    rw [dividend, divisor]
    rfl
  · show Float.ofModel (.pack (UnpackedFloat.ofScientific .binary64 0 (Int.negOfNat p))) = _
    rw [UnpackedFloat.ofScientific, dif_pos rfl]

namespace OnGrid
variable {m : ℕ} {q : ℤ} (hg : OnGrid m q)
include hg

/-- Short numerals are read as the quotient of two doubles that are exact. -/
theorem short {c p : ℕ} (hp : p < Float.exactlyRepresentablePowersOfTen.size) (bits : c < 2 ^ 53)
    (positive : 0 < c) (h : RoundsTo m q (c / 10 ^ p)) :
    c.toUInt64.toFloat / Float.exactlyRepresentablePowersOfTen[p] =
      .ofModel (.pack (unpacked false m q)) := by
  obtain ⟨m₁, q₁, hc₁, value⟩ := exists_canonical positive bits
  obtain ⟨m₂, q₂, hm₂, divisor, power⟩ := exists_of_isPowerOfTen (isPowerOfTen_powers p hp)
  have count : c.toUInt64.toNat = c := by
    simp
    omega
  have dividend : c.toUInt64.toFloat.toModel.unpack = .finite .positive m₁ q₁ hc₁.positive := by
    have whole := hc₁.onGrid.ofNat positive (value ▸ RoundsTo.self m₁ q₁)
    show (Float.Model.pack (UnpackedFloat.ofNat .binary64 c.toUInt64.toNat)).unpack = _
    rw [count, whole, unpacked_of_pos hc₁.positive, hc₁.unpack_pack]
  rw [← value, ← power] at h
  show Float.ofModel (.pack (UnpackedFloat.div .binary64 c.toUInt64.toFloat.toModel.unpack
    (Float.exactlyRepresentablePowersOfTen[p]).toModel.unpack)) = _
  rw [dividend, divisor, hg.div hc₁.positive hm₂ h]

/-- A whole numeral is a product with one. -/
theorem whole {c : ℕ} (positive : 0 < c) (h : RoundsTo m q c) :
    UnpackedFloat.ofScientific .binary64 c 0 = unpacked false m q := by
  have scaled : ((c <<< 53 * 10 ^ (0 : ℤ).toNat : ℕ) : ℚ) = c / 2 ^ (-53 : ℤ) := by
    rw [Nat.shiftLeft_eq]
    norm_num
    ring
  have exact := StandsFor.exact (c <<< 53 * 10 ^ (0 : ℤ).toNat)
  rw [scaled] at exact
  have enough := two_zpow_total_le_mul positive 0
  rw [zpow_zero, mul_one] at enough
  have fine : -53 ≤ Format.binary64.targetExponent (totalExponent c 0) := by
    rw [targetExponent_eq, totalExponent]
    omega
  have rounded := hg.round h exact enough fine
  unfold UnpackedFloat.ofScientific
  rw [dif_neg positive.ne', if_neg (by decide), if_neg (by simp), if_pos le_rfl]
  exact rounded

/-- A numeral with places is a quotient. The test against small numbers stops none that rounds to a
double other than zero. -/
theorem places {c p : ℕ} (positive : 0 < c) (hp : 0 < p) (h : RoundsTo m q (c / 10 ^ p)) :
    UnpackedFloat.ofScientific .binary64 c (-p) = unpacked false m q := by
  have small : ¬(-p : ℤ) > 2 ^ 11 := by omega
  unfold UnpackedFloat.ofScientific
  rw [dif_neg positive.ne', if_neg small]
  split
  · next far =>
    have zero : m = 0 := by
      have far' : (-p : ℤ) < -((2 ^ 11 : ℤ) + c.log2) := far
      have tiny : (c : ℚ) / 10 ^ p < 2 ^ (-1075 : ℤ) := div_pow_ten_lt (by omega)
      by_contra nonzero
      exact absurd (hg.le_of_roundsTo (Nat.pos_of_ne_zero nonzero) h) (not_le.mpr tiny)
    rw [unpacked, dif_pos zero]
    rfl
  · have ten : ((10 ^ (- -(p : ℤ)).toNat : ℕ) : ℚ) = 10 ^ p := by
      rw [neg_neg, Int.toNat_natCast, Nat.cast_pow, Nat.cast_ofNat]
    rw [if_neg (by omega)]
    apply hg.div
    rw [ten, zpow_zero, mul_one, mul_one]
    exact h

/-- A numeral is read as the double that it rounds to, which is a zero if it is small enough and an
infinity if it is too large. -/
theorem ofScientific {c p : ℕ} (h : RoundsTo m q (c / 10 ^ p)) :
    Float.ofScientific c true p = .ofModel (.pack (unpacked false m q)) := by
  rcases Nat.eq_zero_or_pos c with rfl | positive
  · have zero : m = 0 := by
      by_contra nonzero
      have least := hg.le_of_roundsTo (Nat.pos_of_ne_zero nonzero) h
      rw [Nat.cast_zero, zero_div] at least
      exact absurd least (not_le.mpr (by positivity))
    rw [ofScientific_zero, unpacked, dif_pos zero]
    rfl
  · unfold Float.ofScientific
    split
    · next fits =>
      have listed : p < Float.exactlyRepresentablePowersOfTen.size := Nat.lt_succ_of_le fits.2
      exact hg.short listed fits.1 positive h
    · show Float.ofModel (.pack (UnpackedFloat.ofScientific .binary64 c (Int.negOfNat p))) = _
      congr 2
      rcases Nat.eq_zero_or_pos p with rfl | hp
      · rw [pow_zero, div_one] at h
        exact hg.whole positive h
      · rw [Int.negOfNat_eq]
        exact hg.places positive hp h

/-- With a sign, a numeral is read as the opposite. -/
theorem value {n : Number.Numeral} (h : RoundsTo m q (n.coefficient / 10 ^ n.places)) :
    n.value = .ofModel (.pack (unpacked n.negative m q)) := by
  unfold Number.Numeral.value
  simp only [hg.ofScientific h]
  split
  · next negative => rw [hg.neg_pack, negative]
  · next positive => rw [Bool.eq_false_iff.mpr positive]

end OnGrid

end Reckon
