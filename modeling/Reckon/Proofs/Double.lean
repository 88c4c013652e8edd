import Mathlib
import Reckon.Expr.Render

/-!
Doubles: what is true of every double whatever its digits. A double that equals zero lies inside
every zero band; nothing that reads as a numeral without sign is negative; a finite double that is
not negative has no sign to write; and what is smaller than a bound is smaller than every greater
one.
-/

namespace Reckon
open Float.Model

/-! ## Zero -/

theorem unpack_zero : (0 : Float).toModel.unpack = .zero .positive := rfl

theorem unpack_of_beq_zero {y : Float} (h : (y == 0) = true) : ∃ s, y.toModel.unpack = .zero s := by
  have h' : (y.toModel.unpack.compare (0 : Float).toModel.unpack == some .eq) = true := h
  rw [unpack_zero] at h'
  cases hy : y.toModel.unpack with
  | zero s => exact ⟨s, rfl⟩
  | notANumber => simp [hy, UnpackedFloat.compare] at h'
  | infinity s => cases s <;> simp [hy, UnpackedFloat.compare] at h'
  | finite s m e hm => cases s <;> simp [hy, UnpackedFloat.compare] at h'

theorem abs_of_beq_zero {y : Float} (h : (y == 0) = true) : y.abs = 0 := by
  obtain ⟨s, hs⟩ := unpack_of_beq_zero h
  have habs : y.abs = .ofModel (.pack y.toModel.unpack.abs) := rfl
  have hzero : UnpackedFloat.abs (.zero s) = .zero .positive := rfl
  rw [habs, hs, hzero]
  rfl

/-- A zero lies inside every zero band, so that no divisor outside it is one. -/
theorem abs_lt_of_beq_zero {y epsilon : Float} (h : (y == 0) = true) (positive : 0 < epsilon) :
    y.abs < epsilon := by
  rw [abs_of_beq_zero h]
  exact positive

/-! ## Signs -/

/-- Whether an unpacked double has no minus. -/
def Unsigned : UnpackedFloat → Prop
  | .notANumber => True
  | .infinity s | .zero s | .finite s _ _ _ => s = .positive

instance : DecidablePred Unsigned
  | .notANumber => isTrue trivial
  | .infinity .positive | .zero .positive | .finite .positive _ _ _ => isTrue rfl
  | .infinity .negative | .zero .negative | .finite .negative _ _ _ => isFalse nofun

section Pack
open UnpackedFloat

theorem unpackSign_pack {spec : Format} {u : UnpackedFloat} (h : Unsigned u) :
    unpackSign (UnpackedFloat.pack spec u) = 0#1 := by
  have components : ∀ e m, unpackSign (packComponents spec .positive e m) = 0#1 :=
    unpackSign_packComponents .positive
  cases u with
  | notANumber => exact components _ _
  | infinity s => obtain rfl := h; exact components _ _
  | zero s => obtain rfl := h; exact components _ _
  | finite s m e hm =>
    obtain rfl := h
    unfold UnpackedFloat.pack
    simp only
    split
    · exact components _ _
    · split <;> exact components _ _

/-- Packing gives no double a sign. -/
theorem unsigned_unpack_pack {u : UnpackedFloat} (h : Unsigned u) :
    Unsigned (Float.Model.pack u).unpack := by
  have sign : Sign.ofBitVec (unpackSign (UnpackedFloat.pack Format.binary64 u)) = .positive := by
    rw [unpackSign_pack h]
    rfl
  have unpacked : (Float.Model.pack u).unpack =
      UnpackedFloat.unpack Format.binary64 (UnpackedFloat.pack Format.binary64 u) := rfl
  rw [unpacked]
  unfold UnpackedFloat.unpack
  simp only [sign]
  split
  · split <;> trivial
  · split
    · split <;> trivial
    · trivial

theorem unsigned_round (spec : Format) (m : Nat) (e : Int) (a : Accuracy) :
    Unsigned (roundWithAccuracy spec .positive m e a) := by
  unfold roundWithAccuracy
  simp only
  split <;> rfl

theorem unsigned_mul {spec : Format} {u v : UnpackedFloat} (hu : Unsigned u) (hv : Unsigned v) :
    Unsigned (UnpackedFloat.mul spec u v) := by
  cases u <;> cases v <;> simp_all [Unsigned, UnpackedFloat.mul] <;>
    first | rfl | exact unsigned_round ..

theorem unsigned_div {spec : Format} {u v : UnpackedFloat} (hu : Unsigned u) (hv : Unsigned v) :
    Unsigned (UnpackedFloat.div spec u v) := by
  cases u <;> cases v <;> simp_all [Unsigned, UnpackedFloat.div] <;>
    first | rfl | exact unsigned_round ..

theorem unsigned_ofNat (spec : Format) (n : Nat) : Unsigned (UnpackedFloat.ofNat spec n) := by
  unfold UnpackedFloat.ofNat UnpackedFloat.ofInt UnpackedFloat.normalize
  split
  · next h =>
    have : ¬(n : Int) < 0 := by omega
    exact absurd (Int.compare_eq_lt.mp h) this
  · rfl
  · exact unsigned_round ..

theorem unsigned_scientific (spec : Format) (m : Nat) (e : Int) :
    Unsigned (UnpackedFloat.ofScientific spec m e) := by
  unfold UnpackedFloat.ofScientific
  split
  · rfl
  · split
    · rfl
    · split
      · rfl
      · split
        · exact unsigned_mul rfl rfl
        · exact unsigned_div rfl rfl

end Pack

/-- The powers of ten that quotients of short numerals are formed with have no sign. -/
theorem unsigned_powers :
    ∀ x ∈ Float.exactlyRepresentablePowersOfTen, Unsigned x.toModel.unpack := by
  decide +kernel

/-- What is written without a sign is no negative number. -/
theorem unsigned_ofScientific (m e : Nat) :
    Unsigned (Float.ofScientific m true e).toModel.unpack := by
  unfold Float.ofScientific
  split
  · refine unsigned_unpack_pack (unsigned_div ?_ ?_)
    · exact unsigned_unpack_pack (unsigned_ofNat _ _)
    · exact unsigned_powers _ (Array.getElem_mem _)
  · exact unsigned_unpack_pack (unsigned_scientific _ _ _)

theorem nonneg_of_unsigned {x : Float} (finite : x.isFinite = true)
    (h : Unsigned x.toModel.unpack) : 0 ≤ x := by
  have hle : (x.toModel.unpack.isFinite = true) := finite
  refine decide_eq_true (p := (0 : Float).toModel ≤ x.toModel) ?_
  show ((0 : Float).toModel.unpack.compare x.toModel.unpack).any (·.isLE) = true
  rw [unpack_zero]
  cases hx : x.toModel.unpack with
  | zero s => rfl
  | finite s m e hm =>
    rw [hx] at h
    obtain rfl := h
    rfl
  | _ => simp [hx, UnpackedFloat.isFinite] at hle

/-- A finite numeral without sign is not negative. -/
theorem nonneg_ofScientific {m e : Nat} (finite : (Float.ofScientific m true e).isFinite = true) :
    0 ≤ Float.ofScientific m true e :=
  nonneg_of_unsigned finite (unsigned_ofScientific m e)

/-- A finite double equals itself. -/
theorem beq_self_of_isFinite {x : Float} (finite : x.isFinite = true) : (x == x) = true := by
  have finite : x.toModel.unpack.isFinite = true := finite
  show (x.toModel.unpack.compare x.toModel.unpack == some .eq) = true
  cases hx : x.toModel.unpack with
  | zero s => rfl
  | finite s m e hm => cases s <;> simp [UnpackedFloat.compare]
  | _ => simp [hx, UnpackedFloat.isFinite] at finite

/-- What equals a finite double is finite. -/
theorem isFinite_of_beq {x y : Float} (h : (y == x) = true) (hx : x.isFinite = true) :
    y.isFinite = true := by
  have h' : (y.toModel.unpack.compare x.toModel.unpack == some .eq) = true := h
  have hx' : x.toModel.unpack.isFinite = true := hx
  show y.toModel.unpack.isFinite = true
  cases hy : y.toModel.unpack with
  | zero s => rfl
  | finite s m e hm => rfl
  | notANumber => simp [hy, UnpackedFloat.compare] at h'
  | infinity s =>
    cases hz : x.toModel.unpack <;> cases s <;>
      simp_all [UnpackedFloat.compare, UnpackedFloat.isFinite]

/-! ## Bits -/

section Bits
open UnpackedFloat
variable (b : BitVec Format.binary64.numBits)

theorem toNat_unpackMantissa : (unpackMantissa b).toNat = b.toNat % 2 ^ 52 := by
  simp [unpackMantissa_def]

theorem toNat_unpackExponent : (unpackExponent b).toNat = b.toNat / 2 ^ 52 % 2 ^ 11 := by
  simp [unpackExponent_def, Nat.shiftRight_eq_div_pow]

theorem toNat_unpackSign : (unpackSign b).toNat = b.toNat / 2 ^ 63 % 2 := by
  simp [unpackSign_def, Nat.shiftRight_eq_div_pow]

/-- The content of a double, by the three fields of its bits. -/
theorem ofBits_toNat : Number.Binary.ofBits b.toNat =
    if (unpackExponent b).toNat = 2047 then
      if (unpackMantissa b).toNat = 0 then .infinite ((unpackSign b).toNat == 1) else .nan
    else if (unpackExponent b).toNat = 0 then
      .finite ((unpackSign b).toNat == 1) (unpackMantissa b).toNat (-1074)
    else
      .finite ((unpackSign b).toNat == 1) (2 ^ 52 + (unpackMantissa b).toNat)
        ((unpackExponent b).toNat - 1075) := by
  rw [toNat_unpackSign, toNat_unpackExponent, toNat_unpackMantissa]
  rfl

end Bits

theorem unpackExponent_of_finite {b : BitVec Format.binary64.numBits}
    (finite : (UnpackedFloat.unpack Format.binary64 b).isFinite = true) :
    UnpackedFloat.unpackExponent b ≠ -1#_ := by
  intro h
  unfold UnpackedFloat.unpack at finite
  simp only [h, if_true] at finite
  split at finite <;> simp [UnpackedFloat.isFinite] at finite

/-- Of the bits of a finite double that is not negative, a sign bit comes only with a zero. -/
theorem zero_of_signed {b : BitVec Format.binary64.numBits}
    (finite : (UnpackedFloat.unpack Format.binary64 b).isFinite = true)
    (h : ((UnpackedFloat.zero .positive).compare
      (UnpackedFloat.unpack Format.binary64 b)).any (·.isLE) = true)
    (signed : UnpackedFloat.unpackSign b = 1#1) :
    UnpackedFloat.unpackExponent b = 0#_ ∧ UnpackedFloat.unpackMantissa b = 0#_ := by
  have he := unpackExponent_of_finite finite
  have hs : UnpackedFloat.Sign.ofBitVec (UnpackedFloat.unpackSign b) = .negative := by
    rw [signed]
    rfl
  unfold UnpackedFloat.unpack at h
  simp only [he, hs, if_false] at h
  split at h
  · next h0 =>
    split at h
    · next hm => exact ⟨h0, hm⟩
    · simp [UnpackedFloat.compare] at h
  · simp [UnpackedFloat.compare] at h

/-- A finite double that is not negative has no sign, unless it is a zero. -/
theorem ofFloat_of_nonneg {x : Float} (finite : x.isFinite = true) (h : 0 ≤ x) :
    ∃ negative m q, Number.Binary.ofFloat x = .finite negative m q ∧
      (negative && m != 0) = false := by
  let b : BitVec Format.binary64.numBits := x.toModel.toBits.toBitVec
  have hfin : (UnpackedFloat.unpack Format.binary64 b).isFinite = true := finite
  have hle : ((UnpackedFloat.zero .positive).compare
      (UnpackedFloat.unpack Format.binary64 b)).any (·.isLE) = true := of_decide_eq_true h
  have hexp : (UnpackedFloat.unpackExponent b).toNat ≠ 2047 := fun h =>
    unpackExponent_of_finite hfin (BitVec.eq_of_toNat_eq h)
  show ∃ negative m q, Number.Binary.ofBits b.toNat = .finite negative m q ∧ _
  rw [ofBits_toNat, if_neg hexp]
  by_cases signed : (UnpackedFloat.unpackSign b).toNat = 1
  · obtain ⟨he, hm⟩ := zero_of_signed hfin hle (BitVec.eq_of_toNat_eq signed)
    rw [he, hm]
    exact ⟨_, 0, -1074, rfl, Bool.and_false _⟩
  · rw [beq_eq_false_iff_ne.mpr signed]
    split
    · exact ⟨false, _, _, rfl, Bool.false_and _⟩
    · exact ⟨false, _, _, rfl, Bool.false_and _⟩

/-! ## Order -/

/-- Where an unpacked number stands among all of them: first by the side of zero it lies on, then
by its exponent, then by its mantissa. -/
def standing : UnpackedFloat → ℤ ×ₗ ℤ ×ₗ ℤ
  | .infinity .negative => toLex (-2, toLex (0, 0))
  | .finite .negative m e _ => toLex (-1, toLex (-e, -m))
  | .notANumber | .zero _ => toLex (0, toLex (0, 0))
  | .finite .positive m e _ => toLex (1, toLex (e, m))
  | .infinity .positive => toLex (2, toLex (0, 0))

theorem compare_toLex {α β : Type} [LinearOrder α] [LinearOrder β] (a a' : α) (b b' : β) :
    compare (toLex (a, b)) (toLex (a', b')) = (compare a a').then (compare b b') := by
  rw [Prod.Lex.compare_def]
  rfl

theorem compare_natCast (m n : ℕ) : compare (m : ℤ) n = compare m n := by
  rw [← cmp_eq_compare, ← cmp_eq_compare]
  exact Nat.strictMono_cast.cmp_map_eq m n

theorem compare_neg (i j : ℤ) : compare (-i) (-j) = (compare i j).swap := by
  rw [← cmp_eq_compare, ← cmp_eq_compare, cmp_swap]
  exact StrictAnti.cmp_map_eq (fun _ _ h => neg_lt_neg h) i j

/-- Numbers compare as they stand. -/
theorem compare_eq_standing {u v : UnpackedFloat} (hu : u ≠ .notANumber) (hv : v ≠ .notANumber) :
    u.compare v = some (compare (standing u) (standing v)) := by
  rcases u with (_ | _) | _ | s | ⟨_ | _, m, e, hm⟩ <;>
    rcases v with (_ | _) | _ | s' | ⟨_ | _, m', e', hm'⟩ <;>
    try first
    | rfl
    | exact absurd rfl hu
    | exact absurd rfl hv
  case finite.negative.finite.negative =>
    simp only [UnpackedFloat.compare, standing, compare_toLex, compare_neg, compare_natCast,
      Ordering.swap_then]
    rfl
  case finite.positive.finite.positive =>
    simp only [UnpackedFloat.compare, standing, compare_toLex, compare_natCast]
    rfl

theorem ne_notANumber_of_compare {u v : UnpackedFloat} {o : Ordering} (h : u.compare v = some o) :
    u ≠ .notANumber ∧ v ≠ .notANumber := by
  constructor <;> rintro rfl
  · cases h
  · cases u <;> cases h

theorem compare_eq_some_iff {u v : UnpackedFloat} {o : Ordering} : u.compare v = some o ↔
    (u ≠ .notANumber ∧ v ≠ .notANumber) ∧ compare (standing u) (standing v) = o := by
  constructor
  · intro h
    have numbers := ne_notANumber_of_compare h
    rw [compare_eq_standing numbers.1 numbers.2] at h
    exact ⟨numbers, Option.some.inj h⟩
  · rintro ⟨⟨hu, hv⟩, rfl⟩
    exact compare_eq_standing hu hv

theorem lt_iff_compare {x y : Float} :
    x < y ↔ x.toModel.unpack.compare y.toModel.unpack = some .lt := by
  have compared : x < y ↔ (x.toModel.unpack.compare y.toModel.unpack == some .lt) = true :=
    ⟨of_decide_eq_true, decide_eq_true⟩
  rw [compared, beq_iff_eq]

theorem le_iff_compare {x y : Float} : x ≤ y ↔
    ∃ o, x.toModel.unpack.compare y.toModel.unpack = some o ∧ o.isLE = true := by
  have compared : x ≤ y ↔ (x.toModel.unpack.compare y.toModel.unpack).any (·.isLE) = true :=
    ⟨of_decide_eq_true, decide_eq_true⟩
  rw [compared, Option.any_eq_true]

/-- What lies below a bound lies below every greater one. -/
theorem lt_of_lt_bound {x y z : Float} (h : x < y) (h' : y ≤ z) : x < z := by
  obtain ⟨⟨hx, -⟩, less⟩ := compare_eq_some_iff.mp (lt_iff_compare.mp h)
  obtain ⟨o, compared, le⟩ := le_iff_compare.mp h'
  obtain ⟨⟨-, hz⟩, rfl⟩ := compare_eq_some_iff.mp compared
  refine lt_iff_compare.mpr (compare_eq_some_iff.mpr ⟨⟨hx, hz⟩, ?_⟩)
  rw [compare_lt_iff_lt] at less ⊢
  exact less.trans_le (compare_le_iff_le.mp (Ordering.isLE_iff_ne_gt.mp le))

end Reckon
