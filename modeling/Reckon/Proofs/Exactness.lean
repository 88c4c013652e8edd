import Mathlib
import Reckon.Proofs.Literal
import Reckon.Proofs.Positional

/-!
Operands are written exactly. The shortest decimal of a double lies among the rationals that round
to it, since the last grid of the search is finer than they are wide. Main statement: the text of a
double without sign has digits and at most one point, denotes the double if it is whole and else
what its shortest text denotes, and is read as the double again (`literal_plain`).
-/

namespace Reckon.Number

/-! ## Spans -/

namespace Span

theorem denominator_pos (m : ℕ) (q : ℤ) : 0 < (of m q).denominator := Nat.two_pow_pos _

section Ends
variable {m : ℕ} {q : ℤ}

theorem unit_eq : ((2 ^ (q - 2).toNat : ℕ) : ℚ) / (of m q).denominator = 2 ^ q / 4 := by
  have quarter : (2 : ℚ) ^ q / 4 = 2 ^ (q - 2) := by
    rw [zpow_sub₀ two_ne_zero]
    norm_num
  rw [quarter, zpow_eq_div two_ne_zero, neg_sub, Nat.cast_pow, Nat.cast_ofNat]
  show _ / ((2 ^ (2 - q).toNat : ℕ) : ℚ) = _
  rw [Nat.cast_pow, Nat.cast_ofNat]

theorem high_eq : ((of m q).high : ℚ) / (of m q).denominator = (m + 1 / 2) * 2 ^ q := by
  have split : (of m q).high = (4 * m + 2) * 2 ^ (q - 2).toNat := rfl
  rw [split, Nat.cast_mul, mul_div_assoc, unit_eq]
  push_cast
  ring

theorem low_eq (hm : 0 < m) :
    ((of m q).low : ℚ) / (of m q).denominator = (m - reach m q) * 2 ^ q := by
  have split : (of m q).low =
    (4 * m - if m = 2 ^ 52 ∧ -1074 < q then 1 else 2) * 2 ^ (q - 2).toNat := rfl
  rw [split, Nat.cast_mul, mul_div_assoc, unit_eq, reach]
  split_ifs
  · rw [Nat.cast_sub (by omega)]
    push_cast
    ring
  · rw [Nat.cast_sub (by omega)]
    push_cast
    ring

end Ends

/-- A decimal that a span holds lies between its ends. -/
theorem between_of_holds {s : Span} (hs : 0 < s.denominator) {d : Decimal} (h : s.holds d = true) :
    (s.low / s.denominator ≤ d.rational ∧ d.rational ≤ s.high / s.denominator) ∧
      (s.closed = false →
        s.low / s.denominator < d.rational ∧ d.rational < s.high / s.denominator) := by
  have positive : (0 : ℚ) < s.denominator := Nat.cast_pos.mpr hs
  have scale : (0 : ℚ) < 10 ^ (-d.exponent).toNat := by positivity
  have rational : d.rational =
      (d.coefficient * 10 ^ d.exponent.toNat : ℕ) / 10 ^ (-d.exponent).toNat := by
    rw [Decimal.rational, zpow_eq_div (by norm_num), Nat.cast_mul, Nat.cast_pow, Nat.cast_ofNat,
      mul_div_assoc]
  rw [rational, div_le_div_iff₀ positive scale, div_le_div_iff₀ scale positive,
    div_lt_div_iff₀ positive scale, div_lt_div_iff₀ scale positive]
  unfold holds at h
  cases closed : s.closed with
  | true =>
    rw [closed, if_pos rfl] at h
    have held := of_decide_eq_true h
    refine ⟨⟨by exact_mod_cast held.1, by exact_mod_cast held.2⟩, ?_⟩
    intro opened
    cases opened
  | false =>
    rw [closed, if_neg (by decide)] at h
    have held := of_decide_eq_true h
    have low := held.1.le
    have high := held.2.le
    exact ⟨⟨by exact_mod_cast low, by exact_mod_cast high⟩,
      fun _ => ⟨by exact_mod_cast held.1, by exact_mod_cast held.2⟩⟩

/-- What the span of a double holds rounds to the double. -/
theorem roundsTo_of_holds {m : ℕ} {q : ℤ} (hm : 0 < m) {d : Decimal}
    (h : (of m q).holds d = true) : RoundsTo m q d.rational := by
  obtain ⟨⟨low, high⟩, inside⟩ := between_of_holds (denominator_pos m q) h
  rw [low_eq hm, high_eq] at inside
  rw [low_eq hm, ← le_div_iff₀ (by positivity)] at low
  rw [high_eq, ← div_le_iff₀ (by positivity)] at high
  refine ⟨low, high, ?_⟩
  intro odd
  have closed : (of m q).closed = false := by
    show (m % 2 == 0) = false
    rw [odd]
    rfl
  obtain ⟨low, high⟩ := inside closed
  rw [← lt_div_iff₀ (by positivity)] at low
  rw [← div_lt_iff₀ (by positivity)] at high
  exact ⟨low, high⟩

/-! ## The search -/

variable {s : Span}

theorem holds_of_onGrid? {k : ℤ} {d : Decimal} (h : s.onGrid? k = some d) : s.holds d = true := by
  unfold onGrid? at h
  cases below : s.holds ⟨s.floor k, k⟩ <;> cases above : s.holds ⟨s.floor k + 1, k⟩ <;>
    simp only [below, above] at h <;> cases h
  · exact above
  · exact below
  · unfold nearer
    simp only
    split
    · exact below
    · exact above

/-- A search that comes to a grid with a hit ends with one. -/
theorem holds_search {steps j : ℕ} {k : ℤ} (hj : j < steps)
    (hit : (s.onGrid? (k - j)).isSome = true) : s.holds (s.search steps k) = true := by
  induction steps generalizing j k with
  | zero => cases hj
  | succ steps ih =>
    rw [search]
    cases first : s.onGrid? k with
    | some d => exact holds_of_onGrid? first
    | none =>
      cases j with
      | zero =>
        rw [Nat.cast_zero, sub_zero, first] at hit
        cases hit
      | succ j =>
        apply ih (Nat.lt_of_succ_lt_succ hj)
        have grid : k - 1 - (j : ℤ) = k - (j + 1 : ℕ) := by omega
        rw [grid]
        exact hit

/-- On a grid that is finer than the numerators the point below the double is held. -/
theorem holds_floor {k : ℤ} (hs : 0 < s.denominator) (hk : k.toNat = 0) (low : s.low < s.mid)
    (high : s.mid < s.high) (fine : s.denominator ≤ 10 ^ (-k).toNat) :
    s.holds ⟨s.floor k, k⟩ = true := by
  obtain ⟨S, hS⟩ : ∃ S, S = 10 ^ (-k).toNat := ⟨_, rfl⟩
  obtain ⟨F, hF⟩ : ∃ F, F = s.mid * S / s.denominator := ⟨_, rfl⟩
  have floor : s.floor k = F := by
    rw [hF, hS, Span.floor, hk]
    exact congrArg (_ / ·) (Nat.one_mul _)
  have point : F * Nat.pow 10 k.toNat * s.denominator = F * s.denominator := by
    rw [hk]
    exact congrArg (· * _) (Nat.mul_one F)
  have least : F * s.denominator ≤ s.mid * S := by
    rw [hF]
    exact Nat.div_mul_le_self _ _
  have most : s.mid * S < F * s.denominator + s.denominator := by
    rw [hF]
    exact Nat.lt_div_mul_add hs
  have below : s.low * S < F * s.denominator := by
    have step : s.low * S + S ≤ s.mid * S := by
      rw [← Nat.succ_mul]
      exact Nat.mul_le_mul_right S low
    omega
  have above : F * s.denominator < s.high * S := by
    have positive : 0 < S := hS ▸ Nat.pow_pos (by decide)
    exact least.trans_lt (Nat.mul_lt_mul_of_pos_right high positive)
  have scale : Nat.pow 10 (-k).toNat = S := hS.symm
  unfold holds
  simp only [floor, point, scale]
  split
  · exact decide_eq_true ⟨below.le, above.le⟩
  · exact decide_eq_true ⟨below, above⟩

/-- A grid that is finer than any gap between doubles has a hit. -/
theorem isSome_onGrid? {m : ℕ} {q k : ℤ} (hm : 0 < m) (hq : -1074 ≤ q) (hk : k ≤ -344) :
    ((of m q).onGrid? k).isSome = true := by
  have unit : 0 < Nat.pow 2 (q - 2).toNat := Nat.two_pow_pos _
  have fine : (of m q).denominator ≤ 10 ^ (-k).toNat := by
    -- seven tens are more than twenty-three twos
    obtain ⟨n, hn⟩ : ∃ n, n = (-k).toNat / 7 := ⟨_, rfl⟩
    calc 2 ^ (2 - q).toNat ≤ 2 ^ (23 * n) := Nat.pow_le_pow_right (by decide) (by omega)
      _ = (2 ^ 23) ^ n := Nat.pow_mul 2 23 n
      _ ≤ (10 ^ 7) ^ n := Nat.pow_le_pow_left (by decide) n
      _ = 10 ^ (7 * n) := (Nat.pow_mul 10 7 n).symm
      _ ≤ 10 ^ (-k).toNat := Nat.pow_le_pow_right (by decide) (by omega)
  have below : (of m q).holds ⟨(of m q).floor k, k⟩ = true := by
    apply holds_floor (denominator_pos m q) (by omega) _ _ fine
    · apply Nat.mul_lt_mul_of_pos_right _ unit
      split <;> omega
    · apply Nat.mul_lt_mul_of_pos_right _ unit
      omega
  unfold onGrid?
  simp only [below]
  cases (of m q).holds ⟨(of m q).floor k + 1, k⟩ <;> rfl

end Span

/-- The shortest decimal of a double rounds to it. -/
theorem roundsTo_shortest {m : ℕ} {q : ℤ} (hc : Canonical m q) :
    RoundsTo m q (shortest m q).rational := by
  apply Span.roundsTo_of_holds hc.positive
  rw [shortest, if_neg hc.positive.ne']
  obtain ⟨start, hs⟩ : ∃ n, n = (Nat.toDigits 10
    ((Span.of m q).high / (Span.of m q).denominator)).length := ⟨_, rfl⟩
  have searched : (Span.of m q).shortest = (Span.of m q).search (start + 345) start := by
    rw [hs]
    rfl
  rw [searched]
  -- the last grid of the search
  apply Span.holds_search (Nat.lt_succ_self (start + 344))
  apply Span.isSome_onGrid? hc.positive hc.least
  omega

/-! ## Operands -/

theorem eq_of_whole? {m n : ℕ} {q : ℤ} (h : Binary.whole? m q = some n) :
    (m : ℚ) * 2 ^ q = n := by
  rw [mul_two_zpow_eq]
  unfold Binary.whole? at h
  simp only at h
  split at h
  · next divides =>
    obtain rfl := Option.some.inj h
    exact (Nat.div_mul_cancel (Nat.dvd_of_mod_eq_zero divides)).symm
  · cases h

theorem ne_of_whole? {m : ℕ} {q : ℤ} (h : Binary.whole? m q = none) :
    ¬∃ n : ℤ, (m : ℚ) * 2 ^ q = n := by
  rintro ⟨z, hz⟩
  have nonneg : (0 : ℚ) ≤ z := by
    rw [← hz]
    positivity
  obtain ⟨n, rfl⟩ := Int.eq_ofNat_of_zero_le (Int.cast_nonneg_iff.mp nonneg)
  have scaled := mul_two_zpow_eq.mp hz
  unfold Binary.whole? at h
  simp only at h
  split at h
  · cases h
  · next remainder =>
    apply remainder
    show m * 2 ^ q.toNat % 2 ^ (-q).toNat = 0
    rw [scaled]
    exact Nat.mul_mod_left n _

theorem toList_plain {x : Float} {m : ℕ} {q : ℤ} (hx : Binary.ofFloat x = .finite false m q) :
    (plain x).toList = plainDigits m q := by
  simp [plain, hx, Layout.sign]

theorem toList_text {x : Float} {m : ℕ} {q : ℤ} (hx : Binary.ofFloat x = .finite false m q) :
    (text x).toList = result.decimal (shortest m q) := by
  simp [text, Layout.write, hx, Layout.sign]

/-- An operand denotes the double if it is whole, and otherwise its shortest decimal. -/
theorem plain_plainDigits (m : ℕ) (q : ℤ) :
    ∃ r, Plain (plainDigits m q) r ∧ ((∃ n : ℤ, (m : ℚ) * 2 ^ q = n) → r = m * 2 ^ q) ∧
      ((¬∃ n : ℤ, (m : ℚ) * 2 ^ q = n) → r = (shortest m q).rational) := by
  unfold plainDigits
  cases h : Binary.whole? m q with
  | some n =>
    have value := eq_of_whole? h
    refine ⟨n, plain_toDigits n, fun _ => value.symm, ?_⟩
    intro fractional
    exact absurd ⟨n, by rw [value, Int.cast_natCast]⟩ fractional
  | none =>
    refine ⟨_, (shortest m q).plain_positional, ?_, fun _ => rfl⟩
    intro whole
    exact absurd whole (ne_of_whole? h)

/-- There are two zeros, one with a sign. -/
theorem eq_zero_of_ofFloat {x : Float} {negative : Bool} {q : ℤ}
    (hx : Binary.ofFloat x = .finite negative 0 q) : x = if negative then -0.0 else 0 := by
  have bits := (eq_of_ofBits x.toBits.toNat_lt hx).2
  apply Float.toBits_inj.mp
  apply UInt64.toNat_inj.mp
  have least : 0 < 2 ^ 52 := by decide
  rw [bits, if_pos least]
  cases negative <;> decide +kernel

theorem literal_zero (pos : Option ℤ) : literal (plain 0) pos = .ok 0 := by
  have written : plain 0 = "0" := by decide +kernel
  have read : Numeral.read? "0".toList = some ⟨false, 0, 0⟩ := by decide
  have value : Numeral.value ⟨false, 0, 0⟩ = 0 := by decide +kernel
  rw [written]
  apply literal_eq_ok_iff.mpr
  exact ⟨_, Numeral.read?_eq_some_iff.mp read, by decide +kernel, value⟩

/-- A text that denotes what rounds to a double is read as the double. -/
theorem Plain.literal_eq {x : Float} {m : ℕ} {q : ℤ} {raw : String} {r : ℚ}
    (shape : Plain raw.toList r) (hx : Binary.ofFloat x = .finite false m q) (hm : 0 < m)
    (h : RoundsTo m q r) (pos : Option ℤ) : literal raw pos = .ok x := by
  obtain ⟨c, p, read, rfl⟩ := shape.read?
  have hc := (unpack_of_ofFloat hx hm).1
  have nearest : Nearest m q (Numeral.amount ⟨false, c, p⟩) := h.nearest hc.onGrid
  have value : Numeral.value ⟨false, c, p⟩ = x :=
    eq_of_ofFloat (ofFloat_value nearest hc.greatest) hx
  apply literal_eq_ok_iff.mpr
  exact ⟨_, Numeral.read?_eq_some_iff.mp read, value ▸ isFinite_of_ofFloat hx, value⟩

/-- What is written for a double without sign is read as the double. -/
theorem literal_of_ofFloat {x : Float} {m : ℕ} {q : ℤ} (hx : Binary.ofFloat x = .finite false m q)
    (pos : Option ℤ) : literal (plain x) pos = .ok x := by
  rcases Nat.eq_zero_or_pos m with rfl | hm
  · obtain rfl := eq_zero_of_ofFloat hx
    exact literal_zero pos
  · obtain ⟨r, shape, whole, fractional⟩ := plain_plainDigits m q
    rw [← toList_plain hx] at shape
    apply shape.literal_eq hx hm
    by_cases h : ∃ n : ℤ, (m : ℚ) * 2 ^ q = n
    · rw [whole h]
      exact RoundsTo.self m q
    · rw [fractional h]
      exact roundsTo_shortest (unpack_of_ofFloat hx hm).1

/-- What is written for a finite double that is not negative is read as an equal one. -/
theorem exists_literal_plain {x : Float} (finite : x.isFinite = true) (nonneg : 0 ≤ x)
    (pos : Option ℤ) : ∃ y, literal (plain x) pos = .ok y ∧ (y == x) = true := by
  obtain ⟨negative, m, q, hx, unsigned⟩ := ofFloat_of_nonneg finite nonneg
  cases negative with
  | false => exact ⟨x, literal_of_ofFloat hx pos, beq_self_of_isFinite finite⟩
  | true =>
    -- only a zero has a sign here, and it is written without it
    obtain rfl : m = 0 := by simpa using unsigned
    obtain rfl := eq_zero_of_ofFloat hx
    have written : plain (-0.0) = plain 0 := by decide +kernel
    refine ⟨0, ?_, by decide +kernel⟩
    rw [if_pos rfl, written, literal_zero]

theorem exists_read?_plain {x : Float} (finite : x.isFinite = true) (nonneg : 0 ≤ x) :
    ∃ n, Numeral.read? (plain x).toList = some n ∧ (n.value == x) = true := by
  obtain ⟨y, read, equal⟩ := exists_literal_plain finite nonneg none
  obtain ⟨n, spells, -, rfl⟩ := literal_eq_ok_iff.mp read
  exact ⟨n, Numeral.read?_eq_some_iff.mpr spells, equal⟩

/-- A finite double without sign is written with digits and at most one point, which has digits on
either side of it. The text denotes the double if it is whole, and otherwise what the double's
shortest text denotes, however its digits and its exponent are laid out; and it is read as the
double again. -/
theorem literal_plain {x : Float} {m : ℕ} {q : ℤ} (hx : Binary.ofFloat x = .finite false m q) :
    (∃ whole fraction, (plain x).toList = Numeral.written whole fraction ∧ whole ≠ [] ∧
      fraction ≠ some [] ∧ ∀ c ∈ whole ++ fraction.getD [], c.isDigit = true) ∧
    (∃ r, denoted? (plain x).toList = some r ∧
      ((∃ n : ℤ, (m : ℚ) * 2 ^ q = n) → r = m * 2 ^ q) ∧
      ((¬∃ n : ℤ, (m : ℚ) * 2 ^ q = n) → denoted? (text x).toList = some r)) ∧
    (∀ d : Decimal, denoted? d.positional = some d.rational ∧
      denoted? (result.decimal d) = some d.rational) ∧
    ∀ pos, literal (plain x) pos = .ok x := by
  obtain ⟨r, shape, whole, fractional⟩ := plain_plainDigits m q
  rw [← toList_plain hx] at shape
  refine ⟨shape.written, ⟨r, shape.denoted?, whole, ?_⟩, ?_, literal_of_ofFloat hx⟩
  · intro h
    rw [toList_text hx, fractional h]
    exact result.denoted?_decimal _
  · intro d
    exact ⟨d.plain_positional.denoted?, result.denoted?_decimal d⟩

/-- A tenth is no whole number, and its double is read of the digits that are written for it. -/
theorem literal_plain_tenth :
    Binary.ofFloat 0.1 = .finite false 7205759403792794 (-56) ∧ plain 0.1 = "0.1" ∧
      literal "0.1" none = .ok 0.1 := by
  have content : Binary.ofFloat 0.1 = .finite false 7205759403792794 (-56) := by decide +kernel
  have written : plain 0.1 = "0.1" := by decide +kernel
  refine ⟨content, written, ?_⟩
  rw [← written]
  exact (literal_plain content).2.2.2 none

end Reckon.Number
