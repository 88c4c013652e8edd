import Reckon.Expr.Render
import Reckon.Proofs.Double
import Reckon.Proofs.Numeral
import Reckon.Proofs.Spelling

/-!
Rendered text. An operand that is finite and not negative is written with digits and at most one
point; operators stand between blanks, arguments are parted by a comma and a blank, and a child is
in brackets or not. Main statement: the text of a tree spells the tree's marks (`spells_written`).
-/

namespace Reckon

/-! ## Operands -/

namespace Number
open Numeral

/-- Whether characters are digits with at most one point. -/
def IsWritten (cs : List Char) : Prop :=
  ∃ whole fraction, cs = written whole fraction ∧
    (∀ c ∈ whole ++ fraction.getD [], c.isDigit = true) ∧ whole ++ fraction.getD [] ≠ []

theorem isDigit_toDigits (n : Nat) : ∀ c ∈ Nat.toDigits 10 n, c.isDigit = true := by
  intro c hc
  exact Nat.isDigit_of_mem_toDigits (by decide) (by decide) hc

theorem isDigit_zeros (n : Nat) : ∀ c ∈ List.replicate n '0', c.isDigit = true := by
  intro c hc
  obtain rfl := List.eq_of_mem_replicate hc
  decide

theorem isWritten_positional (d : Decimal) : IsWritten d.positional := by
  have digits : ∀ c ∈ d.digits, c.isDigit = true := isDigit_toDigits d.coefficient
  have nonempty : d.digits ≠ [] := Nat.toDigits_ne_nil
  unfold Decimal.positional
  split
  · refine ⟨_, none, (List.append_nil _).symm, ?_, by simp [nonempty]⟩
    intro c hc
    rw [Option.getD_none, List.append_nil] at hc
    rcases List.mem_append.mp hc with hc | hc
    · exact digits c hc
    · exact isDigit_zeros _ c hc
  · refine ⟨_, some _, rfl, ?_, ?_⟩
    · intro c hc
      -- the digits before and after the point are those of the decimal behind some zeros
      rw [Option.getD_some, List.take_append_drop] at hc
      rcases List.mem_append.mp hc with hc | hc
      · exact isDigit_zeros _ c hc
      · exact digits c hc
    · rw [Option.getD_some, List.take_append_drop]
      simp [nonempty]

theorem isWritten_plainDigits (m : Nat) (q : Int) : IsWritten (plainDigits m q) := by
  unfold plainDigits
  split
  · next n _ =>
    refine ⟨Nat.toDigits 10 n, none, (List.append_nil _).symm, ?_, ?_⟩
    · simpa using isDigit_toDigits n
    · simp [Nat.toDigits_ne_nil]
  · exact isWritten_positional _

/-- An operand that is finite and not negative is written with digits and at most one point. -/
theorem isWritten_plain {x : Float} (finite : x.isFinite = true) (h : 0 ≤ x) :
    IsWritten (plain x).toList := by
  obtain ⟨negative, m, q, hx, hsign⟩ := ofFloat_of_nonneg finite h
  have digits : (plain x).toList = plainDigits m q := by
    simp [plain, hx, hsign, Layout.sign]
  rw [digits]
  exact isWritten_plainDigits m q

end Number

/-! ## Trees -/

/-- Marks, in brackets if they are asked for. -/
def bracketedMarks (asked : Option Bool) (ms : List Mark) : List Mark :=
  if asked = some true then .sign .opening :: (ms ++ [.sign .closing]) else ms

namespace Expr

mutual

/-- The lexemes of a tree's text. -/
def marks (ctx : Context) : Expr → List Mark
  | operand x => [.run (Number.plain x).toList]
  | node s l r =>
    let parent := ctx.precedence s.text
    bracketedMarks (Context.bracketsLeft? (ctx.bindingOf l) parent) (l.marks ctx) ++
      .sign s :: bracketedMarks (Context.bracketsRight? (ctx.bindingOf r) parent) (r.marks ctx)
  | call f args => .run f.text.toList :: .sign .opening :: (marksAll ctx args ++ [.sign .closing])

def marksAll (ctx : Context) : List Expr → List Mark
  | [] => []
  | e :: es => e.marks ctx ++ marksAll ctx es

end

end Expr

/-! ## Spelling -/

section Spelling
variable {separates : Char → Bool}

theorem Spelled.gap {ms : List Mark} {cs : List Char} {c : Char} (hc : separates c = true)
    (h : Spelled separates ms cs) : Spelled separates ms (c :: cs) := by
  cases h with
  | nil gap hgap => exact .nil _ (List.forall_mem_cons.mpr ⟨hc, hgap⟩)
  | sign gap s hgap hs => exact .sign _ s (List.forall_mem_cons.mpr ⟨hc, hgap⟩) hs
  | run gap r hgap ha hs => exact .run _ r (List.forall_mem_cons.mpr ⟨hc, hgap⟩) ha hs

theorem Apart.sign (s : Symbol) (ms : List Mark) (cs : List Char) :
    Apart separates (.sign s :: ms) cs := by
  intro r rest h
  cases h

theorem Apart.gap {c : Char} (hc : separates c = true) (ms : List Mark) (cs : List Char) :
    Apart separates ms (c :: cs) := by
  intro r rest _
  exact ⟨c, cs, rfl, hc⟩

/-- The characters spell the marks in front of whatever stands apart from a run before it. -/
def Spells (separates : Char → Bool) (ms : List Mark) (cs : List Char) : Prop :=
  ∀ ns ds, Apart separates ns ds → Spelled separates ns ds → Spelled separates (ms ++ ns) (cs ++ ds)

theorem Spells.spelled {ms : List Mark} {cs : List Char} (h : Spells separates ms cs) :
    Spelled separates ms cs := by
  have whole := h [] [] (by intro r rest h; cases h) (.nil [] (by simp))
  rwa [List.append_nil, List.append_nil] at whole

theorem Spells.run (r : List Char) : Spells separates [.run r] r := by
  intro ns ds ha hs
  exact .run [] r (by simp) ha hs

theorem Spells.enclosed {ms : List Mark} {cs : List Char} (h : Spells separates ms cs) :
    Spells separates (.sign .opening :: (ms ++ [.sign .closing])) ('(' :: (cs ++ [')'])) := by
  intro ns ds ha hs
  have closed := Spelled.sign [] .closing (by simp) hs
  have inner := h _ _ (.sign .closing ns _) closed
  have opened := Spelled.sign [] .opening (by simp) inner
  simpa [Symbol.char] using opened

theorem Spells.bracketed {ms : List Mark} {s : String} (h : Spells separates ms s.toList)
    (asked : Option Bool) :
    Spells separates (bracketedMarks asked ms) (Reckon.bracketed asked s).toList := by
  unfold bracketedMarks Reckon.bracketed
  split
  · simpa [String.toList_append] using h.enclosed
  · exact h

theorem Spells.binary (space : separates ' ' = true) {ms ns : List Mark} {cs ds : List Char}
    (hm : Spells separates ms cs) (hn : Spells separates ns ds) (s : Symbol) :
    Spells separates (ms ++ .sign s :: ns) (cs ++ ' ' :: s.char :: ' ' :: ds) := by
  intro ns' ds' ha hs
  have right := (hn ns' ds' ha hs).gap space
  have joined := Spelled.sign [' '] s (by simpa using space) right
  have left := hm _ _ (.sign s _ _) joined
  simpa using left

theorem Spells.parted (space : separates ' ' = true) (comma : separates ',' = true)
    {ms ns : List Mark} {cs ds : List Char} (hm : Spells separates ms cs)
    (hn : Spells separates ns ds) : Spells separates (ms ++ ns) (cs ++ ',' :: ' ' :: ds) := by
  intro ns' ds' ha hs
  have right := ((hn ns' ds' ha hs).gap space).gap comma
  have left := hm _ _ (.gap comma _ _) right
  simpa using left

theorem Spells.call {ms : List Mark} {cs : List Char} (h : Spells separates ms cs)
    (name : List Char) :
    Spells separates (.run name :: .sign .opening :: (ms ++ [.sign .closing]))
      (name ++ '(' :: (cs ++ [')'])) := by
  intro ns ds ha hs
  have named := Spelled.run [] name (by simp) (.sign .opening _ _) (h.enclosed ns ds ha hs)
  simpa using named

variable (ctx : Context)

mutual

/-- The text of a tree spells its marks. -/
theorem Expr.spells_written (space : separates ' ' = true) (comma : separates ',' = true) :
    ∀ t : Expr, Spells separates (t.marks ctx) (t.written ctx).toList
  | .operand x => by
    rw [Expr.marks, Expr.written]
    exact .run _
  | .node s l r => by
    have left := (l.spells_written space comma).bracketed
      (Context.bracketsLeft? (ctx.bindingOf l) (ctx.precedence s.text))
    have right := (r.spells_written space comma).bracketed
      (Context.bracketsRight? (ctx.bindingOf r) (ctx.precedence s.text))
    have joined := left.binary space right s
    rw [Expr.marks, Expr.written]
    simpa [String.toList_append, Symbol.text] using joined
  | .call f args => by
    have called := (Expr.spells_writtenEach space comma args).call f.text.toList
    rw [Expr.marks, Expr.written]
    simpa [String.toList_append] using called

theorem Expr.spells_writtenEach (space : separates ' ' = true) (comma : separates ',' = true) :
    ∀ ts : List Expr, Spells separates (Expr.marksAll ctx ts)
      (", ".intercalate (Expr.writtenEach ctx ts)).toList
  | [] => fun _ _ _ hs => hs
  | [t] => by
    have single := t.spells_written space comma
    simpa [Expr.marksAll, Expr.writtenEach] using single
  | t :: u :: ts => by
    have parted := (t.spells_written space comma).parted space comma
      (Expr.spells_writtenEach space comma (u :: ts))
    simpa [Expr.marksAll, Expr.writtenEach, String.toList_append] using parted

end

end Spelling

end Reckon
