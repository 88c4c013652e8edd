import Reckon.Proofs.RoundTrip

/-!
Trees whose text is read as another tree. Brackets ask neither which way an operator leans nor
anything at all of an operand whose operator has no precedence above zero. Main statements: where
all precedences are positive, exactly those trees are misread that have on the left of an operator
that leans right another as tight as it (`reparse_leaning_right`); where all operators lean left,
those with an operand that binds looser than its place asks, at zero or below
(`reparse_nonpositive`).
-/

namespace Reckon

section Misreading
variable {ctx : Context} {separators : String}

/-- What is written for a tree that was parsed is read again, as an equal tree just if it shows the
tree's grouping. -/
theorem Context.reparse_of_parse (h : ctx.Spaced separators) {text : String} {t : Expr}
    (parsed : ctx.parse text = .ok t) :
    t.render ctx = .ok (t.written ctx) ∧
      ∃ u, ctx.parse (t.written ctx) = .ok u ∧ (u.same t = true ↔ t.Grouped ctx) := by
  have writable := writable_of_parse h.separates h.nests parsed
  refine ⟨?_, reparse_written h writable⟩
  rw [Expr.render, if_pos (writable.decided h.ranked)]

/-- A tree that was parsed, and whose text does not show its grouping, is misread. -/
theorem Context.misread_of_parse (h : ctx.Spaced separators) {text : String} {t : Expr}
    (parsed : ctx.parse text = .ok t) (hidden : ¬t.Grouped ctx) :
    t.render ctx = .ok (t.written ctx) ∧
      ∃ u, ctx.parse (t.written ctx) = .ok u ∧ u.same t = false := by
  obtain ⟨rendered, u, reparsed, same⟩ := reparse_of_parse h parsed
  refine ⟨rendered, u, reparsed, ?_⟩
  rw [Bool.eq_false_iff, ne_eq, same]
  exact hidden

/-! ## Three operands in a row -/

/-- A digit spells its value. -/
theorem Reads.digit {separates : Char → Bool} (words : SparesWords separates) {c : Char} {x : Float}
    (digit : c.isDigit = true) (value : Float.ofScientific (Number.digitsValue [c]) true 0 = x)
    (finite : x.isFinite = true) : Reads separates [.run [c]] (.operand x 0) := by
  have digits : ∀ d ∈ [c] ++ (none : Option (List Char)).getD [], d.isDigit = true := by
    simpa using digit
  exact .numeral words digits (by simp) value finite

section Three
variable (h : ctx.Spaced separators)
include h

/-- A text that spells an infix expression is read as its tree. -/
theorem Context.parse_of_spells {ms : List Mark} {cs : List Char} {e : Infix} {t : Expr}
    {text : String} (reads : Reads separators.toList.contains ms e)
    (spells : Spells separators.toList.contains ms cs) (settled : e.Settled ctx)
    (tree : e.tree ctx = .ok t) (same : text.toList = cs) : ctx.parse text = .ok t :=
  parse_spelled h.ranked h.separates h.nests h.sparesSigns (same ▸ spells.spelled) reads settled
    tree

/-- The three operands. -/
theorem Reads.three :
    Reads separators.toList.contains [.run ['1']] (.operand 1 0) ∧
    Reads separators.toList.contains [.run ['2']] (.operand 2 0) ∧
    Reads separators.toList.contains [.run ['3']] (.operand 3 0) := by
  refine ⟨?_, ?_, ?_⟩
  all_goals exact .digit h.sparesWords rfl (by decide +kernel) (by decide +kernel)

theorem Context.parse_left_first (op : Operator) :
    ctx.parse ("(1 " ++ op.text ++ " 2) " ++ op.text ++ " 3") =
      .ok (.binary op (.binary op (.operand 1) (.operand 2)) (.operand 3)) := by
  have space : separators.toList.contains ' ' = true := List.contains_iff_mem.mpr h.space
  obtain ⟨one, two, three⟩ := Reads.three h
  have reads := (one.binary two op).bracketed.binary three op
  have inner := (Spells.run ['1']).binary space (.run ['2']) (.operator op)
  have spells := inner.enclosed.binary space (.run ['3']) (.operator op)
  refine parse_of_spells h reads spells ?_ rfl ?_
  · simp [Infix.Settled, Infix.leads, Infix.trails]
  · simp [String.toList_append, Operator.text, Symbol.char]

theorem Context.parse_right_first (op : Operator) :
    ctx.parse ("1 " ++ op.text ++ " (2 " ++ op.text ++ " 3)") =
      .ok (.binary op (.operand 1) (.binary op (.operand 2) (.operand 3))) := by
  have space : separators.toList.contains ' ' = true := List.contains_iff_mem.mpr h.space
  obtain ⟨one, two, three⟩ := Reads.three h
  have reads := one.binary (two.binary three op).bracketed op
  have inner := (Spells.run ['2']).binary space (.run ['3']) (.operator op)
  have spells := (Spells.run ['1']).binary space inner.enclosed (.operator op)
  refine parse_of_spells h reads spells ?_ rfl ?_
  · simp [Infix.Settled, Infix.leads, Infix.trails]
  · simp [String.toList_append, Operator.text, Symbol.char]

end Three

/-- The standard context with other operators, of whole precedences. -/
theorem Context.spaced_of_rules {operators : Table OperatorRule}
    (whole : ∀ entry ∈ operators, ∃ p : Int, entry.2.precedence = .int p) :
    { standard with operators }.Spaced " \t\r\n," := by
  have nests : standard.nests = true := by decide +kernel
  refine ⟨?_, nests, rfl, by decide, by decide, ?_⟩
  · intro op rule hr
    exact whole _ (Table.mem_of_value? hr)
  · intro c hc
    have cases : c = ' ' ∨ c = '\t' ∨ c = '\r' ∨ c = '\n' ∨ c = ',' := by simpa using hc
    rcases cases with rfl | rfl | rfl | rfl | rfl <;> decide

end Misreading

/-! ## What is misread -/

/-- Where all precedences are positive, the text of a tree that was parsed is read as an equal tree
just if no operator that leans right has on its left one that binds as tightly; and some text is
misread as soon as an operator leans right. -/
theorem reparse_leaning_right {ctx : Context} {separators : String} (h : ctx.Spaced separators)
    (positive : ∀ op, 0 < ctx.rank op) :
    (∀ (text : String) (t : Expr), ctx.parse text = .ok t →
      ∃ written u, t.render ctx = .ok written ∧ ctx.parse written = .ok u ∧
        (u.same t = true ↔ ∀ op l r, (op, l, r) ∈ t.joins → ctx.associativity op.text = .right →
          ∀ o, l.root? = some o → ctx.rank o ≠ ctx.rank op)) ∧
    ∀ op : Operator, ctx.associativity op.text = .right →
      ∃ text t written u, ctx.parse text = .ok t ∧ t.render ctx = .ok written ∧
        ctx.parse written = .ok u ∧ u.same t = false := by
  refine ⟨?_, ?_⟩
  · intro text t parsed
    obtain ⟨rendered, u, reparsed, same⟩ := Context.reparse_of_parse h parsed
    exact ⟨_, u, rendered, reparsed, same.trans (Expr.grouped_iff_of_positive positive)⟩
  · intro op right
    let t := Expr.binary op (.binary op (.operand 1) (.operand 2)) (.operand 3)
    have parsed := Context.parse_left_first h op
    have hidden : ¬t.Grouped ctx := by
      rw [Expr.grouped_iff_of_positive positive]
      intro shown
      exact shown op _ _ (Expr.mem_joins_binary op _ _) right op rfl rfl
    obtain ⟨rendered, u, misread⟩ := Context.misread_of_parse h parsed hidden
    exact ⟨_, t, _, u, parsed, rendered, misread⟩

/-- Sums and differences lean right: `1 - (2 - 3)` is read as itself, and something is misread. -/
theorem reparse_leaning_right_differences :
    let ctx := { Context.standard with
      operators := [("+", ⟨.int 1, .right⟩), ("-", ⟨.int 1, .right⟩), ("*", ⟨.int 2, .left⟩),
        ("/", ⟨.int 2, .left⟩)] }
    let t := Expr.binary .sub (.operand 1) (.binary .sub (.operand 2) (.operand 3))
    ctx.Spaced " \t\r\n," ∧ (∀ op, 0 < ctx.rank op) ∧
    (∃ written u, t.render ctx = .ok written ∧ ctx.parse written = .ok u ∧ u.same t = true) ∧
    ∃ text t written u, ctx.parse text = .ok t ∧ t.render ctx = .ok written ∧
      ctx.parse written = .ok u ∧ u.same t = false := by
  intro ctx t
  have spaced : ctx.Spaced " \t\r\n," := Context.spaced_of_rules (by simp)
  have positive : ∀ op, 0 < ctx.rank op := by
    intro op
    cases op <;> decide
  obtain ⟨reread, misread⟩ := reparse_leaning_right spaced positive
  refine ⟨spaced, positive, ?_, misread .sub rfl⟩
  obtain ⟨written, u, rendered, reparsed, same⟩ :=
    reread _ t (Context.parse_right_first spaced .sub)
  have shown : t.Grouped ctx := by
    simp only [t, Expr.binary, Expr.grouped_binary, Expr.grouped_operand, Expr.root?,
      Option.some.injEq, forall_eq', reduceCtorEq, false_implies, implies_true, and_true, true_and]
    decide
  exact ⟨written, u, rendered, reparsed,
    same.mpr ((Expr.grouped_iff_of_positive positive).mp shown)⟩

/-- Sums and differences lean right, and the brackets of `(1 - 2) - 3` are lost. -/
theorem misread_differences :
    let ctx := { Context.standard with
      operators := [("+", ⟨.int 1, .right⟩), ("-", ⟨.int 1, .right⟩), ("*", ⟨.int 2, .left⟩),
        ("/", ⟨.int 2, .left⟩)] }
    let t := Expr.binary .sub (.binary .sub (.operand 1) (.operand 2)) (.operand 3)
    ctx.parse "(1 - 2) - 3" = .ok t ∧ t.render ctx = .ok "1 - 2 - 3" ∧
      ∃ u, ctx.parse "1 - 2 - 3" = .ok u ∧ u.same t = false := by
  intro ctx t
  have spaced : ctx.Spaced " \t\r\n," := Context.spaced_of_rules (by simp)
  have parsed : ctx.parse "(1 - 2) - 3" = .ok t := Context.parse_left_first spaced .sub
  have hidden : ¬t.Grouped ctx := by
    intro shown
    have shown := (shown .sub _ _ (Expr.mem_joins_binary .sub _ _)).1 .sub rfl
    revert shown
    decide
  have text : t.written ctx = "1 - 2 - 3" := by decide +kernel
  have misread := Context.misread_of_parse spaced parsed hidden
  rw [text] at misread
  exact ⟨parsed, misread⟩

/-- Where all operators lean left, the text of a tree that was parsed is read as an equal tree just
if every operand whose operator has no precedence above zero binds as tightly as the operator over
it, and tighter on its right; and some text is misread as soon as an operator has no precedence
above zero. -/
theorem reparse_nonpositive {ctx : Context} {separators : String} (h : ctx.Spaced separators)
    (leans : ctx.LeansLeft) :
    (∀ (text : String) (t : Expr), ctx.parse text = .ok t →
      ∃ written u, t.render ctx = .ok written ∧ ctx.parse written = .ok u ∧
        (u.same t = true ↔ ∀ op l r, (op, l, r) ∈ t.joins →
          (∀ o, l.root? = some o → ctx.rank o ≤ 0 → ctx.rank op ≤ ctx.rank o) ∧
          ∀ o, r.root? = some o → ctx.rank o ≤ 0 → ctx.rank op < ctx.rank o)) ∧
    ∀ op : Operator, ctx.rank op ≤ 0 →
      ∃ text t written u, ctx.parse text = .ok t ∧ t.render ctx = .ok written ∧
        ctx.parse written = .ok u ∧ u.same t = false := by
  refine ⟨?_, ?_⟩
  · intro text t parsed
    obtain ⟨rendered, u, reparsed, same⟩ := Context.reparse_of_parse h parsed
    exact ⟨_, u, rendered, reparsed, same.trans (Expr.grouped_iff_of_leansLeft leans)⟩
  · intro op low
    let t := Expr.binary op (.operand 1) (.binary op (.operand 2) (.operand 3))
    have parsed := Context.parse_right_first h op
    have hidden : ¬t.Grouped ctx := by
      rw [Expr.grouped_iff_of_leansLeft leans]
      intro shown
      have tighter := (shown op _ _ (Expr.mem_joins_binary op _ _)).2 op rfl low
      exact Int.lt_irrefl _ tighter
    obtain ⟨rendered, u, misread⟩ := Context.misread_of_parse h parsed hidden
    exact ⟨_, t, _, u, parsed, rendered, misread⟩

/-- There is no rule for differences, and quotients bind looser still: `(1 / 2) / 3` is read as
itself, and something is misread. -/
theorem reparse_nonpositive_quotients :
    let ctx := { Context.standard with
      operators := [("+", ⟨.int 1, .left⟩), ("*", ⟨.int 2, .left⟩), ("/", ⟨.int (-1), .left⟩)] }
    let t := Expr.binary .div (.binary .div (.operand 1) (.operand 2)) (.operand 3)
    ctx.Spaced " \t\r\n," ∧ ctx.LeansLeft ∧
    (∃ written u, t.render ctx = .ok written ∧ ctx.parse written = .ok u ∧ u.same t = true) ∧
    ∃ text t written u, ctx.parse text = .ok t ∧ t.render ctx = .ok written ∧
      ctx.parse written = .ok u ∧ u.same t = false := by
  intro ctx t
  have spaced : ctx.Spaced " \t\r\n," := Context.spaced_of_rules (by simp)
  have leans : ctx.LeansLeft := by
    intro op
    cases op <;> rfl
  obtain ⟨reread, misread⟩ := reparse_nonpositive spaced leans
  refine ⟨spaced, leans, ?_, misread .sub (by decide)⟩
  obtain ⟨written, u, rendered, reparsed, same⟩ :=
    reread _ t (Context.parse_left_first spaced .div)
  have shown : t.Grouped ctx := by
    simp only [t, Expr.binary, Expr.grouped_binary, Expr.grouped_operand, Expr.root?,
      Option.some.injEq, forall_eq', reduceCtorEq, false_implies, implies_true, and_true]
    decide
  exact ⟨written, u, rendered, reparsed,
    same.mpr ((Expr.grouped_iff_of_leansLeft leans).mp shown)⟩

/-- There is no rule for differences, and the brackets of `1 - (2 - 3)` are lost. -/
theorem misread_differences_without_rule :
    let ctx := { Context.standard with
      operators := [("+", ⟨.int 1, .left⟩), ("*", ⟨.int 2, .left⟩), ("/", ⟨.int 2, .left⟩)] }
    let t := Expr.binary .sub (.operand 1) (.binary .sub (.operand 2) (.operand 3))
    ctx.parse "1 - (2 - 3)" = .ok t ∧ t.render ctx = .ok "1 - 2 - 3" ∧
      ∃ u, ctx.parse "1 - 2 - 3" = .ok u ∧ u.same t = false := by
  intro ctx t
  have spaced : ctx.Spaced " \t\r\n," := Context.spaced_of_rules (by simp)
  have parsed : ctx.parse "1 - (2 - 3)" = .ok t := Context.parse_right_first spaced .sub
  have hidden : ¬t.Grouped ctx := by
    intro shown
    have shown := (shown .sub _ _ (Expr.mem_joins_binary .sub _ _)).2 .sub rfl
    revert shown
    decide
  have text : t.written ctx = "1 - 2 - 3" := by decide +kernel
  have misread := Context.misread_of_parse spaced parsed hidden
  rw [text] at misread
  exact ⟨parsed, misread⟩

end Reckon
