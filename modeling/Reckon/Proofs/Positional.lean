import Mathlib
import Reckon.Number.Reading
import Reckon.Proofs.Rendering

/-!
What the texts of decimals denote. A text has digits, possibly a point and more digits, and possibly
an exponent. Main statements: a decimal without an exponent denotes what it stands for
(`plain_positional`), and so does its text in any layout (`denoted?_decimal`).
-/

namespace Reckon.Number
open Numeral

/-- The rational that a text without sign denotes: a numeral, possibly with a power of ten. -/
def denoted? (cs : List Char) : Option ℚ := do
  let (coefficient, places) ← readDigits? (cs.takeWhile (· != 'e'))
  match cs.dropWhile (· != 'e') with
  | [] => some (coefficient / 10 ^ places)
  | _ :: rest => (readExponent? rest).map fun e => coefficient / 10 ^ places * 10 ^ e

/-- The rational that a decimal stands for. -/
def Decimal.rational (d : Decimal) : ℚ := d.coefficient * 10 ^ d.exponent

/-! ## Digits -/

theorem isDigit_append {as bs : List Char} (ha : ∀ c ∈ as, c.isDigit = true)
    (hb : ∀ c ∈ bs, c.isDigit = true) : ∀ c ∈ as ++ bs, c.isDigit = true := by
  intro c hc
  rcases List.mem_append.mp hc with hc | hc
  · exact ha c hc
  · exact hb c hc

theorem digitsValue_toDigits (n : ℕ) : digitsValue (Nat.toDigits 10 n) = n :=
  Nat.ofDigitChars_ten_toDigits

theorem digitsValue_zeros (k : ℕ) : digitsValue (List.replicate k '0') = 0 := by
  show Nat.ofDigitChars 10 (List.replicate k '0') 0 = 0
  rw [Nat.ofDigitChars_replicate_zero, Nat.mul_zero]

/-- Zeros in front of digits change nothing. -/
theorem digitsValue_padded (k : ℕ) (ds : List Char) :
    digitsValue (List.replicate k '0' ++ ds) = digitsValue ds := by
  rw [digitsValue_append, digitsValue_zeros, Nat.zero_mul, Nat.zero_add]

/-- Zeros behind digits are powers of ten. -/
theorem digitsValue_filled (k : ℕ) (ds : List Char) :
    digitsValue (ds ++ List.replicate k '0') = digitsValue ds * 10 ^ k := by
  rw [digitsValue_append, digitsValue_zeros, List.length_replicate, Nat.add_zero]
  rfl

/-! ## Digits with a point -/

/-- Digits, or digits on either side of a point, and the rational that they write. -/
inductive Plain : List Char → ℚ → Prop
  | intro {whole : List Char} {fraction : Option (List Char)}
    (digits : ∀ c ∈ whole ++ fraction.getD [], c.isDigit = true) (before : whole ≠ [])
    (after : fraction ≠ some []) :
    Plain (written whole fraction)
      (digitsValue (whole ++ fraction.getD []) / 10 ^ (fraction.getD []).length)

namespace Plain

theorem digits {ds : List Char} (digits : ∀ c ∈ ds, c.isDigit = true) (nonempty : ds ≠ []) :
    Plain ds (digitsValue ds) := by
  have plain : Plain (written ds none) _ := .intro (by simpa using digits) nonempty nofun
  simpa [written] using plain

theorem pointed {ds es : List Char} (hd : ∀ c ∈ ds, c.isDigit = true)
    (he : ∀ c ∈ es, c.isDigit = true) (before : ds ≠ []) (after : es ≠ []) :
    Plain (ds ++ '.' :: es) (digitsValue (ds ++ es) / 10 ^ es.length) := by
  show Plain (written ds (some es)) _
  exact .intro (isDigit_append hd he) before (by simpa using after)

variable {cs : List Char} {r : ℚ}

theorem written (h : Plain cs r) :
    ∃ whole fraction, cs = written whole fraction ∧ whole ≠ [] ∧ fraction ≠ some [] ∧
      ∀ c ∈ whole ++ fraction.getD [], c.isDigit = true := by
  obtain ⟨digits, before, after⟩ := h
  exact ⟨_, _, rfl, before, after, digits⟩

theorem read? (h : Plain cs r) :
    ∃ c p : ℕ, Numeral.read? cs = some ⟨false, c, p⟩ ∧ r = c / 10 ^ p := by
  obtain ⟨digits, before, -⟩ := h
  exact ⟨_, _, read?_written digits (by simp [before]), rfl⟩

/-- No digit and no point marks an exponent. -/
theorem ne_mark (h : Plain cs r) : ∀ c ∈ cs, (c != 'e') = true := by
  obtain ⟨digits, -, -⟩ := h
  intro c hc
  rcases mem_written digits hc with hd | rfl
  · rw [bne_iff_ne]
    rintro rfl
    exact absurd hd (by decide)
  · decide

theorem readDigits? (h : Plain cs r) :
    ∃ c p : ℕ, Numeral.readDigits? cs = some (c, p) ∧ r = c / 10 ^ p := by
  obtain ⟨digits, before, -⟩ := h
  exact ⟨_, _, readDigits?_written digits (by simp [before]), rfl⟩

theorem denoted? (h : Plain cs r) : denoted? cs = some r := by
  obtain ⟨c, p, read, rfl⟩ := h.readDigits?
  unfold Number.denoted?
  rw [List.takeWhile_eq_self_iff.mpr h.ne_mark, List.dropWhile_eq_nil_iff.mpr h.ne_mark, read]
  rfl

/-- An exponent multiplies what stands before it by its power of ten. -/
theorem denoted?_append (h : Plain cs r) {ds : List Char} {e : ℤ} (he : readExponent? ds = some e) :
    Number.denoted? (cs ++ 'e' :: ds) = some (r * 10 ^ e) := by
  obtain ⟨c, p, read, rfl⟩ := h.readDigits?
  unfold Number.denoted?
  rw [List.takeWhile_append_of_pos h.ne_mark, List.dropWhile_append_of_pos h.ne_mark,
    List.takeWhile_cons_of_neg (by simp), List.dropWhile_cons_of_neg (by simp), List.append_nil,
    read]
  show (readExponent? ds).map _ = _
  rw [he]
  rfl

end Plain

/-! ## Decimals -/

theorem plain_toDigits (n : ℕ) : Plain (Nat.toDigits 10 n) n := by
  have plain := Plain.digits (isDigit_toDigits n) Nat.toDigits_ne_nil
  rwa [digitsValue_toDigits] at plain

namespace Decimal
variable (d : Decimal)

theorem isDigit_digits : ∀ c ∈ d.digits, c.isDigit = true := isDigit_toDigits d.coefficient

theorem digits_ne_nil : d.digits ≠ [] := Nat.toDigits_ne_nil

theorem digitsValue_digits : digitsValue d.digits = d.coefficient :=
  digitsValue_toDigits d.coefficient

/-- Up to the point the digits are filled with zeros. -/
theorem rational_of_nonneg {d : Decimal} (h : 0 ≤ d.exponent) :
    d.rational = (digitsValue (d.digits ++ List.replicate d.exponent.toNat '0') : ℕ) := by
  rw [digitsValue_filled, digitsValue_digits, rational, Nat.cast_mul, Nat.cast_pow, Nat.cast_ofNat,
    ← zpow_natCast, Int.toNat_of_nonneg h]

theorem plain_positional : Plain d.positional d.rational := by
  unfold positional
  split
  · next h =>
    rw [rational_of_nonneg h]
    apply Plain.digits (isDigit_append d.isDigit_digits (isDigit_zeros _))
    simp [d.digits_ne_nil]
  · next h =>
    -- zeros before the digits make room for a digit before the point
    obtain ⟨places, hp⟩ : ∃ p, p = (-d.exponent).toNat := ⟨_, rfl⟩
    obtain ⟨padded, hd⟩ : ∃ ds, ds =
      List.replicate (places + 1 - d.digits.length) '0' ++ d.digits := ⟨_, rfl⟩
    have long : places + 1 ≤ padded.length := by
      rw [hd, List.length_append, List.length_replicate]
      omega
    have isDigit : ∀ c ∈ padded, c.isDigit = true := by
      rw [hd]
      exact isDigit_append (isDigit_zeros _) d.isDigit_digits
    have value : d.rational = digitsValue padded / 10 ^ places := by
      rw [hd, digitsValue_padded, digitsValue_digits, rational, div_eq_mul_inv, ← zpow_natCast,
        ← zpow_neg, hp]
      congr 2
      omega
    have after : (padded.drop (padded.length - places)).length = places := by
      rw [List.length_drop]
      omega
    have before : padded.take (padded.length - places) ≠ [] := by
      apply List.ne_nil_of_length_pos
      rw [List.length_take]
      omega
    have behind : padded.drop (padded.length - places) ≠ [] := by
      apply List.ne_nil_of_length_pos
      omega
    have pointed := Plain.pointed (fun c hc => isDigit c (List.mem_of_mem_take hc))
      (fun c hc => isDigit c (List.mem_of_mem_drop hc)) before behind
    rw [List.take_append_drop, after, ← value] at pointed
    simp only [← hp, ← hd]
    exact pointed

theorem plain_significand :
    Plain (Layout.significand d.digits) (d.coefficient / 10 ^ (d.digits.length - 1)) := by
  rw [← digitsValue_digits]
  have isDigit := d.isDigit_digits
  match h : d.digits with
  | [] => exact absurd h d.digits_ne_nil
  | [c] =>
    rw [h] at isDigit
    simpa [Layout.significand] using Plain.digits isDigit (List.cons_ne_nil c [])
  | c :: c' :: cs =>
    rw [h] at isDigit
    have first : ∀ c' ∈ [c], c'.isDigit = true := fun _ hc =>
      isDigit _ (List.mem_cons.mpr (.inl (List.mem_singleton.mp hc)))
    exact Plain.pointed first (fun _ hc => isDigit _ (List.mem_cons_of_mem _ hc))
      (List.cons_ne_nil c []) (List.cons_ne_nil c' cs)

end Decimal

/-! ## Layouts -/

namespace Layout
variable (l : Layout)

/-- The exponent that is written is read. -/
theorem readExponent?_exponent (e : ℤ) :
    ∃ ds, l.exponent e = 'e' :: ds ∧ readExponent? ds = some e := by
  refine ⟨_, rfl, ?_⟩
  obtain ⟨filled, hf⟩ : ∃ cs, cs = List.replicate (l.exponentDigits -
    (Nat.toDigits 10 e.natAbs).length) '0' ++ Nat.toDigits 10 e.natAbs := ⟨_, rfl⟩
  have isDigit : filled.all Char.isDigit = true := by
    rw [hf, List.all_eq_true]
    exact isDigit_append (isDigit_zeros _) (isDigit_toDigits _)
  have nonempty : filled.isEmpty = false := by
    rw [hf]
    simp [Nat.toDigits_ne_nil]
  have value : digitsValue filled = e.natAbs := by
    rw [hf, digitsValue_padded, digitsValue_toDigits]
  rw [← hf]
  by_cases negative : e < 0
  · have read : readExponent? ('-' :: filled) = some (-(digitsValue filled : ℤ)) := by
      simp [readExponent?, splitSign, isDigit, nonempty]
    rw [if_pos negative, read, value]
    congr 1
    omega
  · have read : readExponent? ('+' :: filled) = some (digitsValue filled : ℤ) := by
      simp [readExponent?, splitSign, isDigit, nonempty]
    rw [if_neg negative, read, value]
    congr 1
    omega

/-- Whichever way a decimal is laid out, its text denotes what it stands for. -/
theorem denoted?_decimal (d : Decimal) : denoted? (l.decimal d) = some d.rational := by
  unfold decimal
  split
  · split
    · next h =>
      -- the digit after the point is a zero
      have positional : d.positional = d.digits ++ List.replicate d.exponent.toNat '0' := by
        rw [Decimal.positional, if_pos h]
      have before := isDigit_append d.isDigit_digits (isDigit_zeros d.exponent.toNat)
      have pointed := Plain.pointed before (isDigit_zeros 1) (by simp [d.digits_ne_nil]) (by simp)
      rw [digitsValue_filled 1, List.length_replicate, Nat.cast_mul, Nat.cast_pow, Nat.cast_ofNat,
        mul_div_cancel_right₀ _ (by norm_num), ← Decimal.rational_of_nonneg h] at pointed
      rw [positional]
      exact pointed.denoted?
    · rw [List.append_nil]
      exact d.plain_positional.denoted?
  · obtain ⟨ds, hds, he⟩ := l.readExponent?_exponent d.magnitude
    rw [hds, d.plain_significand.denoted?_append he]
    congr 1
    have length : 1 ≤ d.digits.length := List.length_pos_of_ne_nil d.digits_ne_nil
    have magnitude : d.magnitude = (d.digits.length - 1 : ℕ) + d.exponent := by
      rw [Decimal.magnitude, Nat.cast_sub length, Nat.cast_one]
    rw [magnitude, zpow_add₀ (by norm_num), zpow_natCast, ← mul_assoc,
      div_mul_cancel₀ _ (by positivity)]
    rfl

end Layout

end Reckon.Number
