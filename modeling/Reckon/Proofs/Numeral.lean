import Mathlib
import Reckon.Proofs.Lexeme

/-!
Runs of characters: which are names and which are numerals. A name has only letters, a numeral only
digits and points, and neither has a sign. Main statement: digits with at most one point are read as
the numeral they write (`read?_written`).
-/

namespace Reckon

/-! ## Letters and digits -/

theorem not_isAlpha_of_isDigit {c : Char} (h : c.isDigit = true) : c.isAlpha = false := by
  simp only [Char.isDigit, Char.isAlpha, Char.isUpper, Char.isLower, Bool.and_eq_true,
    decide_eq_true_eq, Bool.or_eq_false_iff, decide_eq_false_iff_not, Bool.and_eq_false_iff,
    UInt32.le_iff_toNat_le, ge_iff_le] at h ⊢
  have h9 : '9'.val.toNat = 57 := rfl
  have hA : 'A'.val.toNat = 65 := rfl
  have ha : 'a'.val.toNat = 97 := rfl
  omega

/-- No letter and no digit is a sign. -/
theorem ofChar?_of_isAlphanum {c : Char} (h : c.isAlphanum = true) : Symbol.ofChar? c = none := by
  unfold Symbol.ofChar?
  split <;> first | rfl | exact absurd h (by decide)

/-- The letters of a name are letters. -/
theorem isAlpha_of_lookup? {cs : List Char} {f : FunctionName}
    (h : FunctionName.lookup? (String.ofList cs) = some f) : ∀ c ∈ cs, c.isAlpha = true := by
  have hsmall := FunctionName.text_of_lookup? h
  rw [String.toList_ofList] at hsmall
  have halpha : f.text.toList.all Char.isAlpha = true := by cases f <;> decide
  intro c hc
  rw [← Char.isAlpha_toLower_eq_isAlpha]
  exact List.all_eq_true.mp halpha _ (hsmall ▸ List.mem_map_of_mem hc)

theorem ne_nil_of_lookup? {cs : List Char} {f : FunctionName}
    (h : FunctionName.lookup? (String.ofList cs) = some f) : cs ≠ [] := by
  rintro rfl
  have empty : FunctionName.lookup? (String.ofList []) = none := by decide
  rw [empty] at h
  cases h

namespace Number.Numeral

/-- Digits, possibly with a point and more digits. -/
def written (whole : List Char) (fraction : Option (List Char)) : List Char :=
  whole ++ fraction.elim [] ('.' :: ·)

theorem splitSign_of_unsigned {cs : List Char} (h : ∀ c ∈ cs, c ≠ '-' ∧ c ≠ '+') :
    splitSign cs = (false, cs) := by
  unfold splitSign
  split
  · simp at h
  · simp at h
  · rfl

variable {whole : List Char} {fraction : Option (List Char)}

theorem mem_written (digits : ∀ c ∈ whole ++ fraction.getD [], c.isDigit = true) {c : Char}
    (hc : c ∈ written whole fraction) : c.isDigit = true ∨ c = '.' := by
  cases fraction with
  | none => exact Or.inl (digits c (by simpa [written] using hc))
  | some ds =>
    rcases List.mem_append.mp hc with hc | hc
    · exact Or.inl (digits c (List.mem_append_left _ hc))
    · rcases List.mem_cons.mp hc with rfl | hc
      · exact Or.inr rfl
      · exact Or.inl (digits c (List.mem_append_right _ hc))

/-- No digit and no point is a sign. -/
theorem written_unsigned (digits : ∀ c ∈ whole ++ fraction.getD [], c.isDigit = true) :
    ∀ c ∈ written whole fraction, c ≠ '-' ∧ c ≠ '+' := by
  intro c hc
  rcases mem_written digits hc with hd | rfl
  · constructor <;> rintro rfl <;> exact absurd hd (by decide)
  · decide

theorem written_ne_nil (nonempty : whole ++ fraction.getD [] ≠ []) :
    written whole fraction ≠ [] := by
  intro h
  cases fraction with
  | none => exact nonempty h
  | some ds => simp [written] at h

theorem readDigits?_written (digits : ∀ c ∈ whole ++ fraction.getD [], c.isDigit = true)
    (nonempty : whole ++ fraction.getD [] ≠ []) :
    readDigits? (written whole fraction) =
      some (digitsValue (whole ++ fraction.getD []), (fraction.getD []).length) := by
  have hw : ∀ c ∈ whole, c.isDigit = true := by
    intro c hc
    exact digits c (List.mem_append_left _ hc)
  unfold readDigits? written
  rw [List.takeWhile_append_of_pos hw, List.dropWhile_append_of_pos hw]
  cases fraction with
  | none =>
    have hne : whole ≠ [] := by simpa using nonempty
    simp [hne]
  | some ds =>
    have hd : ∀ c ∈ ds, c.isDigit = true := by
      intro c hc
      exact digits c (List.mem_append_right _ hc)
    have hall : ds.all Char.isDigit = true := List.all_eq_true.mpr hd
    have point : Char.isDigit '.' = false := by decide
    have hne : ¬(whole = [] ∧ ds = []) := by simpa using nonempty
    simp [point, hall, hne]

/-- Digits with at most one point are read as the numeral they write. -/
theorem read?_written (digits : ∀ c ∈ whole ++ fraction.getD [], c.isDigit = true)
    (nonempty : whole ++ fraction.getD [] ≠ []) :
    read? (written whole fraction) =
      some ⟨false, digitsValue (whole ++ fraction.getD []), (fraction.getD []).length⟩ := by
  rw [read?, splitSign_of_unsigned (written_unsigned digits)]
  simp [readDigits?_written digits nonempty]

end Number.Numeral

/-- A run without letters is no name. -/
theorem lookup?_eq_none {cs : List Char} {c : Char} (hc : c ∈ cs) (h : c.isAlpha = false) :
    FunctionName.lookup? (String.ofList cs) = none := by
  cases hf : FunctionName.lookup? (String.ofList cs) with
  | none => rfl
  | some f => simp [isAlpha_of_lookup? hf c hc] at h

/-- A finite numeral without sign is read as its value. -/
theorem Mark.read_written {whole : List Char} {fraction : Option (List Char)} {x : Float}
    (digits : ∀ c ∈ whole ++ fraction.getD [], c.isDigit = true)
    (nonempty : whole ++ fraction.getD [] ≠ [])
    (value : Float.ofScientific (Number.digitsValue (whole ++ fraction.getD [])) true
      (fraction.getD []).length = x) (finite : x.isFinite = true) (pos : Int) :
    (Mark.run (Number.Numeral.written whole fraction)).read pos = .ok (.operand x pos) := by
  -- a digit or a point comes first, so the run is no name
  obtain ⟨c, cs, hcs⟩ :=
    List.exists_cons_of_ne_nil (Number.Numeral.written_ne_nil nonempty)
  have hc : c ∈ Number.Numeral.written whole fraction := hcs ▸ List.mem_cons_self
  have hletter : c.isAlpha = false := by
    rcases Number.Numeral.mem_written digits hc with hd | rfl
    · exact not_isAlpha_of_isDigit hd
    · decide
  rw [Mark.read, lookup?_eq_none hc hletter, literal, String.toList_ofList,
    Number.Numeral.read?_written digits nonempty]
  simp [Number.Numeral.value, value, finite]

/-! ## Words go on runs -/

/-- No letter, digit or point separates. -/
def SparesWords (separates : Char → Bool) : Prop :=
  ∀ c, c.isAlpha = true ∨ c.isDigit = true ∨ c = '.' → separates c = false

section Words
variable {separates : Char → Bool} (words : SparesWords separates)
include words

theorem SparesWords.inRun {c : Char} (h : c.isAlpha = true ∨ c.isDigit = true ∨ c = '.') :
    inRun separates c = true := by
  have hsign : Symbol.ofChar? c = none := by
    rcases h with h | h | rfl
    · exact ofChar?_of_isAlphanum (by simp [Char.isAlphanum, h])
    · exact ofChar?_of_isAlphanum (by simp [Char.isAlphanum, h])
    · rfl
  exact inRun_of_other (by simp [words c h]) hsign

theorem SparesWords.inRun_written {whole : List Char} {fraction : Option (List Char)}
    (digits : ∀ c ∈ whole ++ fraction.getD [], c.isDigit = true) :
    ∀ c ∈ Number.Numeral.written whole fraction, Reckon.inRun separates c = true := by
  intro c hc
  exact words.inRun (.inr (Number.Numeral.mem_written digits hc))

theorem SparesWords.inRun_name {cs : List Char} {f : FunctionName}
    (h : FunctionName.lookup? (String.ofList cs) = some f) :
    ∀ c ∈ cs, Reckon.inRun separates c = true := by
  intro c hc
  exact words.inRun (.inl (isAlpha_of_lookup? h c hc))

end Words

end Reckon
