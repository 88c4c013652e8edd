import Reckon.Proofs.Descent

/-!
The zero band. Only quotients look at it, and a divisor that is outside a band is outside every
narrower one. Main statement: narrowing the band of a context leaves every outcome of evaluating as
it is, except that a division by what lies between the two bands no longer fails
(`eval_narrowed`).
-/

namespace Reckon

/-- Two outcomes under a wide and a narrow band: they are the same, or the wide one is the failure
of a division by what lies between the bands. -/
def Narrowed {α : Type} (wide narrow : Float) (x y : Except Problem α) : Prop :=
  (∃ d, x = fail (.divisionByZero d) ∧ d.abs < wide ∧ ¬d.abs < narrow) ∨ y = x

namespace Narrowed
variable {α β : Type} {wide narrow : Float} {x y : Except Problem α}

theorem refl (x : Except Problem α) : Narrowed wide narrow x x := .inr rfl

/-- A step after another: while the outcomes are the same, so is what follows. -/
theorem bind {f g : α → Except Problem β} (h : Narrowed wide narrow x y)
    (next : ∀ a, Narrowed wide narrow (f a) (g a)) : Narrowed wide narrow (x >>= f) (y >>= g) := by
  rcases h with ⟨d, rfl, between⟩ | rfl
  · exact .inl ⟨d, rfl, between⟩
  · cases y with
    | error p => exact .refl _
    | ok a => exact next a

end Narrowed

section Bands
variable {wide narrow : Float} (le : narrow ≤ wide)
include le

theorem narrowed_quotient (x y : Float) :
    Narrowed wide narrow (quotient wide x y) (quotient narrow x y) := by
  by_cases outside : y.abs < narrow
  · have banned : y.abs < wide := lt_of_lt_bound outside le
    simp only [quotient, if_pos outside, if_pos banned]
    exact .refl _
  · by_cases between : y.abs < wide
    · rw [quotient, if_pos between]
      exact .inl ⟨y, rfl, between, outside⟩
    · simp only [quotient, if_neg outside, if_neg between]
      exact .refl _

theorem narrowed_value (s : Symbol) (x y : Float) :
    Narrowed wide narrow (s.value wide x y) (s.value narrow x y) := by
  cases s with
  | operator op =>
    cases op with
    | div => exact (narrowed_quotient le x y).bind fun _ => .refl _
    | _ => exact .refl _
  | _ => exact .refl _

end Bands

mutual

theorem narrowed_eval (ctx : Context) {epsilon : Float} (le : epsilon ≤ ctx.epsilon) :
    ∀ t : Expr, Narrowed ctx.epsilon epsilon (t.eval ctx) (t.eval { ctx with epsilon })
  | .operand x => by
    rw [Expr.eval, Expr.eval]
    exact .refl _
  | .node s l r => by
    rw [Expr.eval, Expr.eval]
    refine (narrowed_eval ctx le l).bind ?_
    intro x
    refine (narrowed_eval ctx le r).bind ?_
    intro y
    exact narrowed_value le s x y
  | .call f args => by
    -- the function is looked up alike, before any argument is evaluated
    have found : Context.builtin { ctx with epsilon } f args.length = ctx.builtin f args.length :=
      rfl
    rw [Expr.eval, Expr.eval, found]
    cases ctx.builtin f args.length with
    | error failure => exact .refl _
    | ok b => exact (narrowed_evalAll ctx le args).bind fun _ => .refl _

theorem narrowed_evalAll (ctx : Context) {epsilon : Float} (le : epsilon ≤ ctx.epsilon) :
    ∀ ts : List Expr,
      Narrowed ctx.epsilon epsilon (Expr.evalAll ctx ts) (Expr.evalAll { ctx with epsilon } ts)
  | [] => by
    rw [Expr.evalAll, Expr.evalAll]
    exact .refl _
  | t :: ts => by
    rw [Expr.evalAll, Expr.evalAll]
    refine (narrowed_eval ctx le t).bind ?_
    intro x
    exact (narrowed_evalAll ctx le ts).bind fun _ => .refl _

end

/-- Under a narrower zero band a tree has the same value or the same failure as under the wider one,
unless it fails there by dividing by what lies between the bands. So every value stays. -/
theorem eval_narrowed (ctx : Context) {epsilon : Float} (le : epsilon ≤ ctx.epsilon) (t : Expr) :
    ((∃ d, t.eval ctx = fail (.divisionByZero d) ∧ d.abs < ctx.epsilon ∧ ¬d.abs < epsilon) ∨
      t.eval { ctx with epsilon } = t.eval ctx) ∧
    ∀ x, t.eval ctx = .ok x → t.eval { ctx with epsilon } = .ok x := by
  have narrowed := narrowed_eval ctx le t
  refine ⟨narrowed, ?_⟩
  intro x value
  rcases narrowed with ⟨d, failed, -⟩ | same
  · rw [value] at failed
    cases failed
  · exact same.trans value

/-- Between bands of one and of a quarter: a quotient by two stays, and one by a half fails only
under the wider band. -/
theorem eval_narrowed_quarter :
    let ctx := { Context.standard with epsilon := 1 }
    let parts (d : Float) := Expr.binary .div (.operand 1) (.operand d)
    (0.25 : Float) ≤ ctx.epsilon ∧
    ((parts 2).eval ctx = .ok (1 / 2) ∧ (parts 2).eval { ctx with epsilon := 0.25 } = .ok (1 / 2)) ∧
    ∃ d, (parts 0.5).eval ctx = fail (.divisionByZero d) ∧ d.abs < 1 ∧ ¬d.abs < 0.25 := by
  intro ctx parts
  have le : (0.25 : Float) ≤ ctx.epsilon := by decide +kernel
  have reduced (epsilon y : Float) (finite : y.isFinite = true) :
      (parts y).eval { Context.standard with epsilon } =
        (quotient epsilon 1 y >>= inRange "/" [1, y]) := by
    have one : Float.isFinite 1 = true := by decide +kernel
    show (Expr.node _ _ _).eval _ = _
    rw [Expr.eval, eval_operand one, eval_operand finite]
    rfl
  have value : (parts 2).eval ctx = .ok (1 / 2) := by
    have outside : ¬Float.abs 2 < 1 := by decide +kernel
    have nonzero : ¬((2 : Float) == 0) = true := by decide +kernel
    have finite : Float.isFinite (1 / 2) = true := by decide +kernel
    rw [reduced 1 2 (by decide +kernel), quotient, if_neg outside, if_neg nonzero,
      ok_bind, inRange, if_pos finite]
  have failed : (parts 0.5).eval ctx = fail (.divisionByZero 0.5) := by
    have banned : Float.abs 0.5 < 1 := by decide +kernel
    rw [reduced 1 0.5 (by decide +kernel), quotient, if_pos banned]
    rfl
  have passed : (parts 0.5).eval { ctx with epsilon := 0.25 } = .ok (1 / 0.5) := by
    have outside : ¬Float.abs 0.5 < 0.25 := by decide +kernel
    have nonzero : ¬((0.5 : Float) == 0) = true := by decide +kernel
    have finite : Float.isFinite (1 / 0.5) = true := by decide +kernel
    rw [reduced 0.25 0.5 (by decide +kernel), quotient, if_neg outside, if_neg nonzero,
      ok_bind, inRange, if_pos finite]
  refine ⟨le, ⟨value, (eval_narrowed ctx le (parts 2)).2 _ value⟩, ?_⟩
  rcases (eval_narrowed ctx le (parts 0.5)).1 with between | same
  · exact between
  · rw [passed, failed] at same
    cases same

end Reckon
