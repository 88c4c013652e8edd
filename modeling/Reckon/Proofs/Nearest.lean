import Mathlib
import Reckon.Proofs.Rounding

/-!
Nearest doubles. Doubles without sign lie on a grid that is finer around zero and has no end if
exponents have no bound. Every rational that is not negative has a nearest point on it, where a tie
goes to the even mantissa (`exists_roundsTo`). Main statements: what rounds to a point has it as its
nearest (`RoundsTo.nearest`), and nothing else does (`Nearest.roundsTo`).
-/

namespace Reckon

/-- No point of the grid is closer to the rational, and one that is as close is the same point, or
else this one has the even mantissa. -/
structure Nearest (m : ℕ) (q : ℤ) (t : ℚ) : Prop where
  grid : OnGrid m q
  closest : ∀ m' q', OnGrid m' q' → |(m : ℚ) * 2 ^ q - t| ≤ |(m' : ℚ) * 2 ^ q' - t|
  even : ∀ m' q', OnGrid m' q' → |(m' : ℚ) * 2 ^ q' - t| = |(m : ℚ) * 2 ^ q - t| →
    (m' : ℚ) * 2 ^ q' = m * 2 ^ q ∨ m % 2 = 0

/-! ## Neighbours on the grid -/

section Neighbours
variable {m m' : ℕ} {q q' : ℤ}

/-- A distance in units of a point's mantissa. -/
theorem abs_sub_eq_mul (x t : ℚ) (q : ℤ) : |x - t| = |x / 2 ^ q - t / 2 ^ q| * 2 ^ q := by
  have unit : (0 : ℚ) < 2 ^ q := by positivity
  rw [← sub_div, abs_div, abs_of_pos unit, div_mul_cancel₀ _ unit.ne']

/-- A point that is not the same is one unit or more above, or twice the reach or more below. -/
theorem OnGrid.apart (hg : OnGrid m q) (hg' : OnGrid m' q') :
    (m' : ℚ) * 2 ^ q' / 2 ^ q = m ∨ m + 1 ≤ (m' : ℚ) * 2 ^ q' / 2 ^ q ∨
      (m' : ℚ) * 2 ^ q' / 2 ^ q ≤ m - 2 * reach m q := by
  have reached := reach_le m q
  rcases le_or_gt q q' with coarse | fine
  · -- the other point is a whole number of units
    obtain ⟨k, rfl⟩ : ∃ k : ℕ, q' = q + k := ⟨(q' - q).toNat, by omega⟩
    obtain ⟨n, hn⟩ : ∃ n, n = m' * 2 ^ k := ⟨_, rfl⟩
    have units : (m' : ℚ) * 2 ^ (q + k) / 2 ^ q = n := by
      rw [hn, zpow_add₀ two_ne_zero, zpow_natCast, Nat.cast_mul, Nat.cast_pow, Nat.cast_ofNat]
      field_simp
    rw [units]
    rcases lt_trichotomy n m with below | same | above
    · have below' : (n : ℚ) + 1 ≤ m := by exact_mod_cast below
      exact .inr (.inr (by linarith))
    · exact .inl (by rw [same])
    · exact .inr (.inl (by exact_mod_cast above))
  · -- the other point has a smaller unit, and a mantissa without a leading one in this unit
    obtain ⟨k, rfl⟩ : ∃ k : ℕ, q = q' + 1 + k := ⟨(q - q' - 1).toNat, by omega⟩
    have least := hg'.least
    have leading : 2 ^ 52 ≤ m := hg.normal.resolve_right (by omega)
    have bits : (m' : ℚ) + 1 ≤ 2 ^ 53 := by exact_mod_cast hg'.bits
    have short : (m' : ℚ) * 2 ^ q' / 2 ^ (q' + 1 + k) ≤ 2 ^ 52 - 1 / 2 := by
      have unit : (m' : ℚ) * 2 ^ q' / 2 ^ (q' + 1 + k) = m' / 2 / 2 ^ k := by
        rw [zpow_add₀ two_ne_zero, zpow_add₀ two_ne_zero, zpow_natCast, zpow_one]
        field_simp
      rw [unit]
      calc (m' : ℚ) / 2 / 2 ^ k ≤ m' / 2 := div_le_self (by positivity) (one_le_pow₀ one_le_two)
        _ ≤ 2 ^ 52 - 1 / 2 := by linarith
    right; right
    rcases leading.lt_or_eq with more | rfl
    · have more' : (2 : ℚ) ^ 52 + 1 ≤ m := by exact_mod_cast more
      linarith
    · rw [reach_edge (by omega), Nat.cast_pow, Nat.cast_ofNat]
      linarith

/-- One unit above a point is a point, with a unit of its own if the mantissa is full. -/
theorem OnGrid.exists_above (hg : OnGrid m q) :
    ∃ m' q', OnGrid m' q' ∧ (m' : ℚ) * 2 ^ q' / 2 ^ q = m + 1 := by
  obtain ⟨bits, least, normal⟩ := hg
  rcases Nat.lt_or_ge (m + 1) (2 ^ 53) with room | full
  · refine ⟨m + 1, q, ⟨room, least, by omega⟩, ?_⟩
    rw [mul_div_cancel_right₀ _ (by positivity), Nat.cast_add, Nat.cast_one]
  · obtain rfl : m = 2 ^ 53 - 1 := by omega
    refine ⟨2 ^ 52, q + 1, ⟨by norm_num, by omega, .inl le_rfl⟩, ?_⟩
    rw [zpow_add_one₀ two_ne_zero]
    field_simp
    norm_num

/-- Twice the reach below a point that is not zero is a point. -/
theorem OnGrid.exists_below (hg : OnGrid m q) (hm : 0 < m) :
    ∃ m' q', OnGrid m' q' ∧ (m' : ℚ) * 2 ^ q' / 2 ^ q = m - 2 * reach m q := by
  obtain ⟨bits, least, normal⟩ := hg
  by_cases edge : m = 2 ^ 52 ∧ -1074 < q
  · obtain ⟨rfl, above⟩ := edge
    refine ⟨2 ^ 53 - 1, q - 1, ⟨by norm_num, by omega, .inl (by norm_num)⟩, ?_⟩
    rw [reach_edge above, zpow_sub_one₀ two_ne_zero]
    field_simp
    norm_num
  · have half : reach m q = 1 / 2 := if_neg edge
    refine ⟨m - 1, q, ⟨by omega, least, by omega⟩, ?_⟩
    rw [half, mul_div_cancel_right₀ _ (by positivity), Nat.cast_sub hm]
    norm_num

end Neighbours

/-! ## Nearest points -/

section Nearest
variable {m : ℕ} {q : ℤ} {t : ℚ}

/-- What rounds to a point has it as its nearest. -/
theorem RoundsTo.nearest (h : RoundsTo m q t) (hg : OnGrid m q) : Nearest m q t := by
  have unit : (0 : ℚ) < 2 ^ q := by positivity
  have own : (m : ℚ) * 2 ^ q / 2 ^ q = m := mul_div_cancel_right₀ _ unit.ne'
  have reached := reach_le m q
  have positive := reach_pos m q
  obtain ⟨low, high, inside⟩ := h
  refine ⟨hg, ?_, ?_⟩
  · intro m' q' hg'
    rw [abs_sub_eq_mul _ t q, abs_sub_eq_mul (m' * 2 ^ q') t q, own]
    apply mul_le_mul_of_nonneg_right _ unit.le
    rcases hg.apart hg' with same | above | below
    · rw [same]
    · have far := le_abs_self ((m' : ℚ) * 2 ^ q' / 2 ^ q - t / 2 ^ q)
      exact abs_le.mpr ⟨by linarith, by linarith⟩
    · have far := neg_le_abs ((m' : ℚ) * 2 ^ q' / 2 ^ q - t / 2 ^ q)
      exact abs_le.mpr ⟨by linarith, by linarith⟩
  · intro m' q' hg' tie
    rw [abs_sub_eq_mul _ t q, abs_sub_eq_mul (m * 2 ^ q) t q, own] at tie
    replace tie := mul_right_cancel₀ unit.ne' tie
    rcases Nat.mod_two_eq_zero_or_one m with even | odd
    · exact .inr even
    · -- the ends of the interval are left out, so that every other point is farther away
      obtain ⟨low, high⟩ := inside odd
      rcases hg.apart hg' with same | above | below
      · exact .inl ((div_eq_iff unit.ne').mp same)
      · have far := le_abs_self ((m' : ℚ) * 2 ^ q' / 2 ^ q - t / 2 ^ q)
        have near : |(m : ℚ) - t / 2 ^ q| < |(m' : ℚ) * 2 ^ q' / 2 ^ q - t / 2 ^ q| :=
          abs_lt.mpr ⟨by linarith, by linarith⟩
        exact absurd tie near.ne'
      · have far := neg_le_abs ((m' : ℚ) * 2 ^ q' / 2 ^ q - t / 2 ^ q)
        have near : |(m : ℚ) - t / 2 ^ q| < |(m' : ℚ) * 2 ^ q' / 2 ^ q - t / 2 ^ q| :=
          abs_lt.mpr ⟨by linarith, by linarith⟩
        exact absurd tie near.ne'

namespace Nearest
variable {m' : ℕ} {q' : ℤ} {w : ℚ} (h : Nearest m q t) (hg' : OnGrid m' q')
  (hw : (m' : ℚ) * 2 ^ q' / 2 ^ q = w)
include h hg' hw

theorem abs_le : |(m : ℚ) - t / 2 ^ q| ≤ |w - t / 2 ^ q| := by
  have unit : (0 : ℚ) < 2 ^ q := by positivity
  have closest := h.closest m' q' hg'
  rw [abs_sub_eq_mul _ t q, abs_sub_eq_mul (m' * 2 ^ q') t q, hw,
    mul_div_cancel_right₀ _ unit.ne'] at closest
  exact le_of_mul_le_mul_right closest unit

theorem ne_of_odd (odd : m % 2 = 1) (other : w ≠ m) : |w - t / 2 ^ q| ≠ |(m : ℚ) - t / 2 ^ q| := by
  intro tie
  have unit : (0 : ℚ) < 2 ^ q := by positivity
  have even := h.even m' q' hg'
  rw [abs_sub_eq_mul _ t q, abs_sub_eq_mul (m * 2 ^ q) t q, hw,
    mul_div_cancel_right₀ _ unit.ne', tie] at even
  rcases even rfl with same | even
  · rw [← div_eq_iff unit.ne', hw] at same
    exact other same
  · omega

end Nearest

/-- What has a point as its nearest rounds to it. -/
theorem Nearest.roundsTo (h : Nearest m q t) (ht : 0 ≤ t) : RoundsTo m q t := by
  have positive := reach_pos m q
  obtain ⟨m', q', hg', hw⟩ := h.grid.exists_above
  have high : t / 2 ^ q ≤ m + 1 / 2 := by
    by_contra! beyond
    have closest := h.abs_le hg' hw
    have far := neg_le_abs ((m : ℚ) - t / 2 ^ q)
    have near : |(m : ℚ) + 1 - t / 2 ^ q| < t / 2 ^ q - m := abs_lt.mpr ⟨by linarith, by linarith⟩
    linarith
  have high' (odd : m % 2 = 1) : t / 2 ^ q < m + 1 / 2 := by
    apply high.lt_of_ne
    intro tie
    apply h.ne_of_odd hg' hw odd (by linarith)
    rw [tie, add_sub_add_left_eq_sub, sub_add_cancel_left, abs_neg, abs_of_pos (by norm_num),
      abs_of_pos (by norm_num)]
    norm_num
  rcases Nat.eq_zero_or_pos m with rfl | hm
  · have nonneg : 0 ≤ t / 2 ^ q := by positivity
    refine ⟨?_, high, fun odd => absurd odd (by decide)⟩
    rw [Nat.cast_zero]
    linarith
  · obtain ⟨m', q', hg', hw⟩ := h.grid.exists_below hm
    have low : m - reach m q ≤ t / 2 ^ q := by
      by_contra! beyond
      have closest := h.abs_le hg' hw
      have far := le_abs_self ((m : ℚ) - t / 2 ^ q)
      have near : |(m : ℚ) - 2 * reach m q - t / 2 ^ q| < m - t / 2 ^ q :=
        abs_lt.mpr ⟨by linarith, by linarith⟩
      linarith
    refine ⟨low, high, ?_⟩
    intro odd
    refine ⟨low.lt_of_ne ?_, high' odd⟩
    intro tie
    apply h.ne_of_odd hg' hw odd (by linarith)
    rw [← tie, sub_sub_sub_cancel_left, sub_sub_cancel, abs_of_pos positive]
    rw [abs_of_neg (by linarith)]
    ring

/-- Every rational that is not negative is rounded to a whole number that is no farther from it than
a half, and from an odd one less. -/
theorem exists_rounded {u : ℚ} (hu : 0 ≤ u) : ∃ m : ℕ, m - 1 / 2 ≤ u ∧ u ≤ m + 1 / 2 ∧
    (m % 2 = 1 → m - 1 / 2 < u ∧ u < m + 1 / 2) := by
  obtain ⟨n, hn⟩ : ∃ n, n = ⌊u⌋₊ := ⟨_, rfl⟩
  have low : n ≤ u := hn ▸ Nat.floor_le hu
  have high : u < n + 1 := hn ▸ Nat.lt_floor_add_one u
  rcases lt_trichotomy u (n + 1 / 2) with below | tie | above
  · exact ⟨n, by linarith, by linarith, fun _ => ⟨by linarith, by linarith⟩⟩
  · rcases Nat.mod_two_eq_zero_or_one n with even | odd
    · exact ⟨n, by linarith, by linarith, fun odd => by omega⟩
    · refine ⟨n + 1, ?_, ?_, fun odd' => by omega⟩ <;> push_cast <;> linarith
  · refine ⟨n + 1, ?_, ?_, fun _ => ⟨?_, ?_⟩⟩ <;> push_cast <;> linarith

/-- An exponent at which a rational has no more than the bits of a mantissa, and all of them unless
the exponent is the least. -/
theorem exists_exponent (t : ℚ) :
    ∃ q : ℤ, -1074 ≤ q ∧ t / 2 ^ q < 2 ^ 53 ∧ (2 ^ 52 ≤ t / 2 ^ q ∨ q = -1074) := by
  rcases lt_or_ge t (2 ^ (-1021 : ℤ)) with small | large
  · exact ⟨-1074, le_rfl, div_two_zpow_lt (k := 53) small, .inr rfl⟩
  · have positive : 0 < t := lt_of_lt_of_le (by positivity) large
    have bottom : -1021 ≤ Int.log 2 t :=
      (Int.zpow_le_iff_le_log (by decide) positive).mp (by exact_mod_cast large)
    have low : (2 : ℚ) ^ Int.log 2 t ≤ t := by
      exact_mod_cast Int.zpow_log_le_self (by decide) positive
    have high : t < (2 : ℚ) ^ (Int.log 2 t + 1) := by
      exact_mod_cast Int.lt_zpow_succ_log_self (by decide) t
    refine ⟨Int.log 2 t - 52, by omega, div_two_zpow_lt (k := 53) ?_, .inl ?_⟩
    · have exponent : (53 : ℤ) + (Int.log 2 t - 52) = Int.log 2 t + 1 := by omega
      rwa [exponent]
    · have split : (2 : ℚ) ^ 52 * 2 ^ (Int.log 2 t - 52) = 2 ^ Int.log 2 t := by
        rw [← zpow_natCast, ← zpow_add₀ two_ne_zero]
        congr 1
        omega
      rwa [le_div_iff₀ (by positivity), split]

/-- Every rational that is not negative rounds to a point of the grid. -/
theorem exists_roundsTo (ht : 0 ≤ t) : ∃ m q, OnGrid m q ∧ RoundsTo m q t := by
  obtain ⟨q, least, bits, normal⟩ := exists_exponent t
  obtain ⟨m, low, high, inside⟩ := exists_rounded (u := t / 2 ^ q) (by positivity)
  have full : m ≤ 2 ^ 53 := by
    have less : (m : ℚ) < 2 ^ 53 + 1 := by linarith
    exact Nat.lt_succ_iff.mp (by exact_mod_cast less)
  rcases full.lt_or_eq with fits | rfl
  · have leading : 2 ^ 52 ≤ m ∨ q = -1074 := by
      apply normal.imp_left
      intro large
      have more : (2 : ℚ) ^ 52 < m + 1 := by linarith
      exact Nat.lt_succ_iff.mp (by exact_mod_cast more)
    refine ⟨m, q, ⟨fits, least, leading⟩, ?_, high, ?_⟩
    · unfold reach
      split
      · next edge =>
        have large := normal.resolve_right (by omega)
        rw [edge.1, Nat.cast_pow, Nat.cast_ofNat]
        linarith
      · exact low
    · intro odd
      have half : reach m q = 1 / 2 := if_neg (by omega)
      rw [half]
      exact inside odd
  · -- the mantissa was rounded up to one bit more
    have unit : t / 2 ^ (q + 1) = t / 2 ^ q / 2 := by
      rw [zpow_add_one₀ two_ne_zero, div_div]
    refine ⟨2 ^ 52, q + 1, ⟨by norm_num, by omega, .inl le_rfl⟩, ?_, ?_,
      fun odd => absurd odd (by decide)⟩
    · rw [reach_edge (by omega), unit]
      norm_num at low ⊢
      linarith
    · rw [unit]
      norm_num at bits ⊢
      linarith

theorem exists_nearest (ht : 0 ≤ t) : ∃ m q, Nearest m q t := by
  obtain ⟨m, q, grid, rounds⟩ := exists_roundsTo ht
  exact ⟨m, q, rounds.nearest grid⟩

/-- The nearest point is a double below half a unit more than the greatest one, and beyond the
doubles from there on. -/
theorem Nearest.exponent_le_iff (h : Nearest m q t) (ht : 0 ≤ t) :
    q ≤ 971 ↔ t < (2 ^ 53 - 1 / 2) * 2 ^ (971 : ℤ) := by
  have unit : (0 : ℚ) < 2 ^ q := by positivity
  obtain ⟨low, high, inside⟩ := h.roundsTo ht
  obtain ⟨bits, -, normal⟩ := h.grid
  constructor
  · intro greatest
    have less : t / 2 ^ q < 2 ^ 53 - 1 / 2 := by
      rcases Nat.lt_or_ge (m + 1) (2 ^ 53) with room | full
      · have room' : (m : ℚ) + 1 < 2 ^ 53 := by exact_mod_cast room
        linarith
      · obtain rfl : m = 2 ^ 53 - 1 := by omega
        have below := (inside (by norm_num)).2
        norm_num at below ⊢
        exact below
    calc t < (2 ^ 53 - 1 / 2) * 2 ^ q := (div_lt_iff₀ unit).mp less
      _ ≤ (2 ^ 53 - 1 / 2) * 2 ^ (971 : ℤ) :=
        mul_le_mul_of_nonneg_left (zpow_le_zpow_right₀ one_le_two greatest) (by norm_num)
  · intro less
    by_contra! beyond
    have leading : 2 ^ 52 ≤ m := normal.resolve_right (by omega)
    have more : 2 ^ 52 - 1 / 4 ≤ t / 2 ^ q := by
      rcases leading.lt_or_eq with above | rfl
      · have above' : (2 : ℚ) ^ 52 + 1 ≤ m := by exact_mod_cast above
        have := reach_le m q
        linarith
      · rwa [reach_edge (by omega), Nat.cast_pow, Nat.cast_ofNat] at low
    have scaled : (2 ^ 53 - 1 / 2) * 2 ^ (971 : ℤ) ≤ t := by
      calc ((2 : ℚ) ^ 53 - 1 / 2) * 2 ^ (971 : ℤ) = (2 ^ 52 - 1 / 4) * 2 ^ ((971 : ℤ) + 1) := by
            rw [zpow_add_one₀ two_ne_zero]
            ring
        _ ≤ (2 ^ 52 - 1 / 4) * 2 ^ q :=
          mul_le_mul_of_nonneg_left (zpow_le_zpow_right₀ one_le_two beyond) (by norm_num)
        _ ≤ t := (le_div_iff₀ unit).mp more
    exact absurd less (not_lt.mpr scaled)

end Nearest
end Reckon
