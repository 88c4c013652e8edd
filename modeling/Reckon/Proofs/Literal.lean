import Mathlib
import Reckon.Token.Literal
import Reckon.Proofs.Conversion
import Reckon.Proofs.Nearest
import Reckon.Proofs.Numeral

/-!
Literals. Main statement: the literals are the numerals that are small enough for a double, each has
the double nearest to it as its value, and a text that is none fails as an unknown function if it
begins with a letter or an underscore and as a malformed operand otherwise (`literal_spells`).
-/

namespace Reckon.Number
namespace Numeral

/-! ## Spelling -/

/-- What may stand in front of the digits, and whether it is a minus. -/
inductive Signed : List Char → Bool → Prop
  | unsigned : Signed [] false
  | plus : Signed ['+'] false
  | minus : Signed ['-'] true

/-- The texts of a numeral: a sign or none, then digits with at most one point before, among or
behind them, and one digit at least. -/
inductive Spells : List Char → Numeral → Prop
  | intro {sign whole : List Char} {fraction : Option (List Char)} {negative : Bool}
    (signed : Signed sign negative) (digits : ∀ c ∈ whole ++ fraction.getD [], c.isDigit = true)
    (nonempty : whole ++ fraction.getD [] ≠ []) :
    Spells (sign ++ written whole fraction)
      ⟨negative, digitsValue (whole ++ fraction.getD []), (fraction.getD []).length⟩

theorem splitSign_append {sign cs : List Char} {negative : Bool} (signed : Signed sign negative)
    (unsigned : ∀ c ∈ cs, c ≠ '-' ∧ c ≠ '+') : splitSign (sign ++ cs) = (negative, cs) := by
  cases signed with
  | unsigned => exact splitSign_of_unsigned unsigned
  | plus => rfl
  | minus => rfl

theorem exists_signed (cs : List Char) :
    ∃ sign, cs = sign ++ (splitSign cs).2 ∧ Signed sign (splitSign cs).1 := by
  unfold splitSign
  split
  · exact ⟨['-'], rfl, .minus⟩
  · exact ⟨['+'], rfl, .plus⟩
  · exact ⟨[], rfl, .unsigned⟩

/-- What is read as digits with a point is written so. -/
theorem exists_written {cs : List Char} {coefficient places : ℕ}
    (h : readDigits? cs = some (coefficient, places)) :
    ∃ whole fraction, cs = written whole fraction ∧
      (∀ c ∈ whole ++ fraction.getD [], c.isDigit = true) ∧ whole ++ fraction.getD [] ≠ [] ∧
      coefficient = digitsValue (whole ++ fraction.getD []) ∧
      places = (fraction.getD []).length := by
  obtain ⟨before, hb⟩ : ∃ ds, ds = cs.takeWhile Char.isDigit := ⟨_, rfl⟩
  have digits : ∀ c ∈ before, c.isDigit = true := by
    intro c hc
    exact List.mem_takeWhile_imp (hb ▸ hc)
  have parts : cs = before ++ cs.dropWhile Char.isDigit := by
    rw [hb, List.takeWhile_append_dropWhile]
  unfold readDigits? at h
  simp only [← hb] at h
  split at h
  · next nothing =>
    split at h
    · cases h
    · next nonempty =>
      obtain ⟨rfl, rfl⟩ := Prod.mk.inj (Option.some.inj h)
      rw [nothing] at parts
      refine ⟨before, none, parts, ?_, ?_, ?_, rfl⟩
      · simpa using digits
      · simpa using nonempty
      · simp
  · next after point =>
    split at h
    · next valid =>
      obtain ⟨rfl, rfl⟩ := Prod.mk.inj (Option.some.inj h)
      rw [point] at parts
      simp only [Bool.and_eq_true, List.all_eq_true] at valid
      refine ⟨before, some after, parts, ?_, ?_, rfl, rfl⟩
      · intro c hc
        rcases List.mem_append.mp hc with hc | hc
        · exact digits c hc
        · exact valid.1 c hc
      · show before ++ after ≠ []
        intro empty
        obtain ⟨rfl, rfl⟩ := List.append_eq_nil_iff.mp empty
        cases valid.2
    · cases h
  · cases h

theorem read?_eq (cs : List Char) : read? cs =
    (readDigits? (splitSign cs).2).map fun d => ⟨(splitSign cs).1, d.1, d.2⟩ := rfl

/-- The texts that are read as a numeral are those that spell it. -/
theorem read?_eq_some_iff {cs : List Char} {n : Numeral} : read? cs = some n ↔ Spells cs n := by
  constructor
  · intro h
    rw [read?_eq] at h
    obtain ⟨⟨coefficient, places⟩, read, rfl⟩ := Option.map_eq_some_iff.mp h
    obtain ⟨sign, parts, signed⟩ := exists_signed cs
    obtain ⟨whole, fraction, rest, digits, nonempty, rfl, rfl⟩ := exists_written read
    have spells := Spells.intro signed digits nonempty
    rwa [← rest, ← parts] at spells
  · rintro ⟨signed, digits, nonempty⟩
    rw [read?_eq, splitSign_append signed (written_unsigned digits),
      readDigits?_written digits nonempty]
    rfl

/-- No numeral begins like a name. -/
theorem Spells.beginsName {cs : List Char} {n : Numeral} (h : Spells cs n) :
    beginsName cs = false := by
  obtain ⟨signed, digits, nonempty⟩ := h
  cases signed with
  | plus => rfl
  | minus => rfl
  | unsigned =>
    obtain ⟨c, cs, hcs⟩ := List.exists_cons_of_ne_nil (written_ne_nil nonempty)
    have hc : c ∈ written _ _ := hcs ▸ List.mem_cons_self
    rw [List.nil_append, hcs]
    rcases mem_written digits hc with hd | rfl
    · have underscore : c ≠ '_' := by
        rintro rfl
        exact absurd hd (by decide)
      simp [Reckon.beginsName, not_isAlpha_of_isDigit hd, underscore]
    · rfl

/-! ## Values -/

/-- The rational that the digits of a numeral write. -/
def amount (n : Numeral) : ℚ := n.coefficient / 10 ^ n.places

theorem amount_nonneg (n : Numeral) : 0 ≤ n.amount := by
  unfold amount
  positivity

end Numeral

section Value
variable {n : Numeral} {m : ℕ} {q : ℤ} (h : Nearest m q n.amount)
include h

/-- The value of a numeral is the double nearest to it, with its sign. -/
theorem ofFloat_value (greatest : q ≤ 971) :
    Binary.ofFloat n.value = .finite n.negative m q := by
  rw [h.grid.value (h.roundsTo n.amount_nonneg)]
  exact h.grid.ofFloat_pack greatest n.negative

theorem isFinite_value_iff : n.value.isFinite = true ↔ q ≤ 971 := by
  constructor
  · intro finite
    by_contra! beyond
    have infinite : n.value.isFinite = false := by
      rw [h.grid.value (h.roundsTo n.amount_nonneg), h.grid.pack_beyond beyond]
      cases n.negative <;> decide +kernel
    rw [infinite] at finite
    cases finite
  · intro greatest
    exact isFinite_of_ofFloat (ofFloat_value h greatest)

end Value

theorem isFinite_value_iff_lt (n : Numeral) :
    n.value.isFinite = true ↔ n.amount < (2 ^ 53 - 1 / 2) * 2 ^ (971 : ℤ) := by
  obtain ⟨m, q, nearest⟩ := exists_nearest n.amount_nonneg
  rw [isFinite_value_iff nearest, nearest.exponent_le_iff n.amount_nonneg]

theorem literal_eq_ok_iff {raw : String} {pos : Option ℤ} {x : Float} :
    literal raw pos = .ok x ↔
      ∃ n, Numeral.Spells raw.toList n ∧ n.value.isFinite = true ∧ n.value = x := by
  unfold literal
  simp only [← Numeral.read?_eq_some_iff]
  cases read : Numeral.read? raw.toList with
  | none => simp
  | some n => cases finite : n.value.isFinite <;> simp [finite]

theorem literal_eq_error {raw : String} {pos : Option ℤ} (h : ∀ x, literal raw pos ≠ .ok x) :
    literal raw pos = .error (notLiteral raw pos) := by
  unfold literal at h ⊢
  cases read : Numeral.read? raw.toList with
  | none => rfl
  | some n =>
    rw [read] at h
    have begins := (Numeral.read?_eq_some_iff.mp read).beginsName
    cases finite : n.value.isFinite with
    | true => exact absurd (if_pos finite) (h n.value)
    | false => simp [finite, notLiteral, begins]

/-- A text is a literal if it spells a numeral below half a unit more than the greatest double. Its
value is then the double nearest to the numeral, with its sign, and nothing else. Every other text
fails, with itself and its position: as an unknown function if a letter or an underscore is first,
and else as a malformed operand. -/
theorem literal_spells (raw : String) (pos : Option ℤ) :
    (∀ x, literal raw pos = .ok x ↔
      ∃ n m q, Numeral.Spells raw.toList n ∧ Nearest m q n.amount ∧
        Binary.ofFloat x = .finite n.negative m q) ∧
    ((∃ x, literal raw pos = .ok x) ↔
      ∃ n, Numeral.Spells raw.toList n ∧ n.amount < (2 ^ 53 - 1 / 2) * 2 ^ (971 : ℤ)) ∧
    ((∃ x, literal raw pos = .ok x) ∨ literal raw pos = .error
      (if raw.toList.head?.any fun c => c.isAlpha || c == '_' then .unknownFunction raw pos
      else .malformedOperand raw pos)) := by
  refine ⟨?_, ?_, ?_⟩
  · intro x
    rw [literal_eq_ok_iff]
    constructor
    · rintro ⟨n, spells, finite, rfl⟩
      obtain ⟨m, q, nearest⟩ := exists_nearest n.amount_nonneg
      have greatest := (isFinite_value_iff nearest).mp finite
      exact ⟨n, m, q, spells, nearest, ofFloat_value nearest greatest⟩
    · rintro ⟨n, m, q, spells, nearest, hx⟩
      have greatest : q ≤ 971 := ((exists_ofFloat_iff n.negative).mp ⟨x, hx⟩).2
      exact ⟨n, spells, (isFinite_value_iff nearest).mpr greatest,
        eq_of_ofFloat (ofFloat_value nearest greatest) hx⟩
  · simp only [literal_eq_ok_iff, isFinite_value_iff_lt]
    constructor
    · rintro ⟨x, n, spells, less, -⟩
      exact ⟨n, spells, less⟩
    · rintro ⟨n, spells, less⟩
      exact ⟨n.value, n, spells, less, rfl⟩
  · by_cases h : ∃ x, literal raw pos = .ok x
    · exact .inl h
    · right
      rw [literal_eq_error (not_exists.mp h), notLiteral]
      cases raw.toList <;> rfl

/-- A point may be first or last. Exponents, spaces and other digits are no part of a numeral. -/
example : ["-.5", "7.", "+0", ".", "1e5", "1_0", " 1", "\u0663", "inf", ""].map
    (fun raw => (literal raw none).isOk) =
      [true, true, true, false, false, false, false, false, false, false] := by
  decide +kernel

end Reckon.Number
