import Mathlib
import Reckon.Proofs.Rounding

/-!
Packing. The bits of a double hold a sign, a field for the exponent and a fraction, from which its
content is read in one way by the arithmetic of doubles and in another by the library. Main
statements: both read the same from a double without sign (`unpack_of_ofFloat`), what finite doubles
hold are the points of a grid up to a greatest exponent (`exists_ofFloat_iff`), and a larger
exponent is packed into an infinity (`OnGrid.pack_beyond`).
-/

namespace Reckon
open Float.Model Float.Model.UnpackedFloat

/-! ## Unpacking -/

theorem finite_congr {m m' : ℕ} {q q' : ℤ} {hm : 0 < m} {hm' : 0 < m'} (mantissa : m = m')
    (exponent : q = q') :
    UnpackedFloat.finite .positive m q hm = .finite .positive m' q' hm' := by
  subst mantissa exponent
  rfl

/-- The leading one of a mantissa stands before its fraction. -/
theorem toNat_leading (f : BitVec 52) : (1#1 ++ f).toNat = 2 ^ 52 + f.toNat := by
  rw [BitVec.toNat_append, ← Nat.shiftLeft_add_eq_or_of_lt f.isLt]
  rfl

section Unpack
variable {b : BitVec Format.binary64.numBits} (sign : unpackSign b = 0#1)
include sign

theorem sign_positive : Sign.ofBitVec (unpackSign b) = .positive := by
  rw [sign]
  rfl

theorem unpack_normal (nonzero : (unpackExponent b).toNat ≠ 0)
    (finite : (unpackExponent b).toNat ≠ 2047) :
    UnpackedFloat.unpack .binary64 b = .finite .positive (2 ^ 52 + (unpackMantissa b).toNat)
      ((unpackExponent b).toNat - 1075) (by positivity) := by
  have h₁ : unpackExponent b ≠ -1#_ := fun h => finite (congrArg BitVec.toNat h)
  have h₀ : unpackExponent b ≠ 0#_ := fun h => nonzero (congrArg BitVec.toNat h)
  unfold UnpackedFloat.unpack
  simp only [sign_positive sign, if_neg h₁, if_neg h₀]
  exact finite_congr (toNat_leading _) rfl

theorem unpack_subnormal (zero : (unpackExponent b).toNat = 0)
    (positive : 0 < (unpackMantissa b).toNat) :
    UnpackedFloat.unpack .binary64 b =
      .finite .positive (unpackMantissa b).toNat (-1074) positive := by
  have h₀ : unpackExponent b = 0#_ := BitVec.eq_of_toNat_eq zero
  have hm : unpackMantissa b ≠ 0#_ := fun h => positive.ne' (congrArg BitVec.toNat h)
  unfold UnpackedFloat.unpack
  simp only [sign_positive sign, h₀, if_true, dif_neg hm]
  rfl

end Unpack

/-- What a double without sign unpacks to, unless it is zero. -/
theorem unpack_of_ofFloat {x : Float} {m : ℕ} {q : ℤ}
    (hx : Number.Binary.ofFloat x = .finite false m q) (hm : 0 < m) :
    Canonical m q ∧ x.toModel.unpack = .finite .positive m q hm := by
  obtain ⟨b, hb⟩ : ∃ b : BitVec Format.binary64.numBits, b = x.toModel.toBits.toBitVec := ⟨_, rfl⟩
  have bits : Number.Binary.ofBits b.toNat = .finite false m q := by
    rw [hb]
    exact hx
  have unpacked : x.toModel.unpack = UnpackedFloat.unpack .binary64 b := by
    rw [hb]
    rfl
  have fraction : (unpackMantissa b).toNat < 2 ^ 52 := (unpackMantissa b).isLt
  have field : (unpackExponent b).toNat < 2 ^ 11 := (unpackExponent b).isLt
  have unsigned (h : ((unpackSign b).toNat == 1) = false) : unpackSign b = 0#1 := by
    apply BitVec.eq_of_toNat_eq
    have := (unpackSign b).isLt
    have := beq_eq_false_iff_ne.mp h
    show (unpackSign b).toNat = 0
    omega
  rw [unpacked]
  rw [ofBits_toNat] at bits
  split at bits
  · split at bits <;> cases bits
  · next finite =>
    split at bits
    · next zero =>
      obtain ⟨hs, hf, rfl⟩ := Number.Binary.finite.inj bits
      subst hf
      refine ⟨⟨hm, by omega, by omega, by omega, .inr rfl⟩, ?_⟩
      exact unpack_subnormal (unsigned hs) zero hm
    · next nonzero =>
      obtain ⟨hs, rfl, rfl⟩ := Number.Binary.finite.inj bits
      refine ⟨⟨hm, by omega, by omega, by omega, .inl (by omega)⟩, ?_⟩
      exact unpack_normal (unsigned hs) nonzero finite

/-! ## Packing -/

/-- What packed fields hold. -/
theorem ofBits_packComponents (negative : Bool) (field : BitVec 11) (fraction : BitVec 52)
    (finite : field.toNat ≠ 2047) :
    Number.Binary.ofBits (packComponents .binary64 (signOf negative) field fraction).toNat =
      if field.toNat = 0 then .finite negative fraction.toNat (-1074)
      else .finite negative (2 ^ 52 + fraction.toNat) (field.toNat - 1075) := by
  obtain ⟨b, hb⟩ : ∃ b, b = packComponents .binary64 (signOf negative) field fraction := ⟨_, rfl⟩
  have sign : ((unpackSign b).toNat == 1) = negative := by
    rw [hb, unpackSign_packComponents]
    cases negative <;> rfl
  have exponent : unpackExponent b = field := by
    rw [hb]
    exact unpackExponent_packComponents
  have mantissa : unpackMantissa b = fraction := by
    rw [hb]
    exact unpackMantissa_packComponents
  rw [← hb, ofBits_toNat, sign, exponent, mantissa, if_neg finite]

/-- A mantissa and an exponent are packed into the double that holds them, if the exponent is not
too large. -/
theorem OnGrid.ofFloat_pack {m : ℕ} {q : ℤ} (hg : OnGrid m q) (greatest : q ≤ 971)
    (negative : Bool) :
    Number.Binary.ofFloat (.ofModel (.pack (unpacked negative m q))) = .finite negative m q := by
  obtain ⟨bits, least, normal⟩ := hg
  show Number.Binary.ofBits (UnpackedFloat.pack .binary64 (unpacked negative m q)).toNat = _
  unfold unpacked
  split
  · next zero =>
    obtain rfl := normal.resolve_left (by omega)
    rw [zero]
    exact ofBits_packComponents negative 0 0 (by decide)
  · next nonzero =>
    have biased : (q + (1023 : ℕ) + (52 : ℕ)).toNat = (q + 1075).toNat := by omega
    have field : (BitVec.ofNat 11 (q + 1075).toNat).toNat = (q + 1075).toNat :=
      Nat.mod_eq_of_lt (by omega)
    have inside : ¬2 ^ 11 ≤ (q + 1075).toNat + 1 := by omega
    show Number.Binary.ofBits (if 2 ^ 11 ≤ (q + (1023 : ℕ) + (52 : ℕ)).toNat + 1 then _
      else if m.log2 + 1 = 53 then packComponents .binary64 (signOf negative)
        (BitVec.ofNat 11 (q + (1023 : ℕ) + (52 : ℕ)).toNat) (BitVec.ofNat 52 m)
      else packComponents .binary64 (signOf negative) 0#11 (BitVec.ofNat 52 m)).toNat = _
    have log := (Nat.log2_lt nonzero).mpr bits
    rw [biased, if_neg inside]
    split
    · next full =>
      have leading : 2 ^ 52 ≤ m := (Nat.le_log2 nonzero).mp (by omega)
      have fraction : (BitVec.ofNat 52 m).toNat = m - 2 ^ 52 := by
        show m % 2 ^ 52 = m - 2 ^ 52
        omega
      have mantissa : 2 ^ 52 + (m - 2 ^ 52) = m := by omega
      have exponent : ((q + 1075).toNat : ℤ) - 1075 = q := by omega
      rw [ofBits_packComponents _ _ _ (by omega), field, fraction, if_neg (by omega), mantissa,
        exponent]
    · next short =>
      have small : m < 2 ^ 52 := (Nat.log2_lt nonzero).mp (by omega)
      have fraction : (BitVec.ofNat 52 m).toNat = m := Nat.mod_eq_of_lt small
      obtain rfl := normal.resolve_left (by omega)
      rw [ofBits_packComponents _ _ _ (by decide), fraction]
      exact if_pos rfl

/-- An exponent that is too large gives an infinity. -/
theorem OnGrid.pack_beyond {m : ℕ} {q : ℤ} (hg : OnGrid m q) (beyond : 971 < q) (negative : Bool) :
    Float.Model.pack (unpacked negative m q) =
      Float.Model.pack (.infinity (signOf negative)) := by
  have nonzero : m ≠ 0 := by
    have := hg.normal
    omega
  have large : 2 ^ 11 ≤ (q + (1023 : ℕ) + (52 : ℕ)).toNat + 1 := by omega
  have packed : UnpackedFloat.pack .binary64 (unpacked negative m q) =
      UnpackedFloat.pack .binary64 (.infinity (signOf negative)) := by
    rw [unpacked, dif_neg nonzero]
    exact if_pos large
  unfold Float.Model.pack
  simp only [packed]

theorem Canonical.unpack_pack {m : ℕ} {q : ℤ} (hc : Canonical m q) :
    (Float.Model.pack (.finite .positive m q hc.positive)).unpack =
      .finite .positive m q hc.positive := by
  have held := hc.onGrid.ofFloat_pack hc.greatest false
  rw [unpacked_of_pos hc.positive] at held
  exact (unpack_of_ofFloat held hc.positive).2

/-! ## Contents -/

/-- The content of a finite double lies on the grid, and determines its bits. -/
theorem eq_of_ofBits {b m : ℕ} {q : ℤ} {negative : Bool} (bound : b < 2 ^ 64)
    (h : Number.Binary.ofBits b = .finite negative m q) :
    (OnGrid m q ∧ q ≤ 971) ∧ b = (if negative then 2 ^ 63 else 0) +
      (if m < 2 ^ 52 then m else (q + 1074).toNat * 2 ^ 52 + m) := by
  unfold Number.Binary.ofBits at h
  simp only [Nat.pow_eq] at h
  split at h
  · split at h <;> cases h
  · split at h
    · next finite zero =>
      obtain ⟨rfl, rfl, rfl⟩ := Number.Binary.finite.inj h
      refine ⟨⟨⟨by omega, by omega, .inr rfl⟩, by omega⟩, ?_⟩
      simp only [beq_iff_eq]
      split <;> split <;> omega
    · next finite nonzero =>
      obtain ⟨rfl, rfl, rfl⟩ := Number.Binary.finite.inj h
      refine ⟨⟨⟨by omega, by omega, .inl (by omega)⟩, by omega⟩, ?_⟩
      simp only [beq_iff_eq]
      split <;> split <;> omega

/-- The doubles are the points of the grid up to the greatest exponent, with a sign each. -/
theorem exists_ofFloat_iff {m : ℕ} {q : ℤ} (negative : Bool) :
    (∃ x, Number.Binary.ofFloat x = .finite negative m q) ↔ OnGrid m q ∧ q ≤ 971 := by
  constructor
  · rintro ⟨x, hx⟩
    exact (eq_of_ofBits x.toBits.toNat_lt hx).1
  · rintro ⟨hg, greatest⟩
    exact ⟨_, hg.ofFloat_pack greatest negative⟩

/-- A double is known by its content. -/
theorem eq_of_ofFloat {x y : Float} {negative : Bool} {m : ℕ} {q : ℤ}
    (hx : Number.Binary.ofFloat x = .finite negative m q)
    (hy : Number.Binary.ofFloat y = .finite negative m q) : x = y := by
  apply Float.toBits_inj.mp
  apply UInt64.toNat_inj.mp
  rw [(eq_of_ofBits x.toBits.toNat_lt hx).2, (eq_of_ofBits y.toBits.toNat_lt hy).2]

/-- What holds a mantissa and an exponent is finite. -/
theorem isFinite_of_ofFloat {x : Float} {negative : Bool} {m : ℕ} {q : ℤ}
    (hx : Number.Binary.ofFloat x = .finite negative m q) : x.isFinite = true := by
  obtain ⟨b, hb⟩ : ∃ b : BitVec Format.binary64.numBits, b = x.toModel.toBits.toBitVec := ⟨_, rfl⟩
  have bits : Number.Binary.ofBits b.toNat = .finite negative m q := by
    rw [hb]
    exact hx
  have finite : unpackExponent b ≠ -1#_ := by
    intro h
    have field : (unpackExponent b).toNat = 2047 := congrArg BitVec.toNat h
    rw [ofBits_toNat, if_pos field] at bits
    split at bits <;> cases bits
  have unpacked : x.toModel.unpack = UnpackedFloat.unpack Format.binary64 b := by
    rw [hb]
    rfl
  show x.toModel.unpack.isFinite = true
  rw [unpacked]
  unfold UnpackedFloat.unpack
  simp only [if_neg finite]
  split
  · split <;> rfl
  · rfl

/-! ## Signs -/

theorem neg_unpacked (negative : Bool) (m : ℕ) (q : ℤ) :
    (unpacked negative m q).neg = unpacked (!negative) m q := by
  unfold unpacked
  split <;> cases negative <;> rfl

/-- The opposite of a double without sign is the one of the same content with a sign, also where
the exponent is too large. -/
theorem OnGrid.neg_pack {m : ℕ} {q : ℤ} (hg : OnGrid m q) :
    -(Float.ofModel (.pack (unpacked false m q))) = .ofModel (.pack (unpacked true m q)) := by
  show Float.ofModel (.pack (Float.Model.pack (unpacked false m q)).unpack.neg) = _
  rcases le_or_gt q 971 with inside | beyond
  · have unpack : (Float.Model.pack (unpacked false m q)).unpack = unpacked false m q := by
      rcases Nat.eq_zero_or_pos m with rfl | hm
      · rw [unpacked, dif_pos rfl]
        rfl
      · rw [unpacked_of_pos hm]
        exact Canonical.unpack_pack ⟨hm, hg.bits, hg.least, inside, hg.normal⟩
    rw [unpack, neg_unpacked]
    rfl
  · rw [hg.pack_beyond beyond, hg.pack_beyond beyond]
    rfl

end Reckon
