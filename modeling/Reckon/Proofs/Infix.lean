import Reckon.Expr.Build
import Reckon.Proofs.Outcome

/-!
Infix expressions with their brackets, and which grouping of them an operator table asks for. An
operator has to win its operands from its neighbours: down the left side of its right operand every
operator must outbid it, and down the right side of its left operand every operator must be done
before it. Main statement: however the operators of an infix token sequence are grouped at first,
they can be regrouped so that the table agrees everywhere (`exists_settled`).
-/

namespace Reckon

/-! ## Whole precedences -/

namespace Context

/-- The four operators have whole numbers for precedences, where they have any. -/
def Ranked (ctx : Context) : Prop :=
  ∀ (op : Operator) (rule : OperatorRule), ctx.operators.value? op.text = some rule →
    ∃ p : Int, rule.precedence = .int p

/-- The precedence of an operator as a whole number; zero without a rule. -/
def rank (ctx : Context) (op : Operator) : Int :=
  match ctx.precedence op.text with
  | .int p => p
  | _ => 0

/-- Whether an operator that waits is done before another comes: it binds tighter, or as tight and
the other leans left. -/
def Outranks (ctx : Context) (waiting incoming : Operator) : Prop :=
  ctx.rank incoming < ctx.rank waiting ∨
    ctx.rank waiting = ctx.rank incoming ∧ ctx.associativity incoming.text = .left

instance (ctx : Context) (waiting incoming : Operator) :
    Decidable (ctx.Outranks waiting incoming) :=
  inferInstanceAs (Decidable (_ ∨ _))

theorem standard_ranked : standard.Ranked := by
  intro op rule hr
  cases op <;> obtain rfl := Option.some.inj hr <;> exact ⟨_, rfl⟩

variable {ctx : Context}

theorem precedence_of_ranked (h : ctx.Ranked) (op : Operator) :
    ctx.precedence op.text = .int (ctx.rank op) := by
  obtain ⟨p, hp⟩ : ∃ p : Int, ctx.precedence op.text = .int p := by
    unfold precedence
    cases hr : ctx.operators.value? op.text with
    | none => exact ⟨0, rfl⟩
    | some rule => exact h op rule hr
  simp [rank, hp]

theorem reduces_of_ranked (h : ctx.Ranked) (waiting incoming : Operator) :
    ctx.reduces waiting incoming = some (decide (ctx.Outranks waiting incoming)) := by
  rw [reduces_int (precedence_of_ranked h waiting) (precedence_of_ranked h incoming)]
  rw [Option.some.injEq, Bool.eq_iff_iff, decide_eq_true_iff, Outranks]
  cases ctx.associativity incoming.text with
  | left =>
    simp
    omega
  | right => simp

/-- Not to be done before another is to bind looser, or as tight when the other leans right. -/
theorem not_outranks_iff (waiting incoming : Operator) :
    ¬ctx.Outranks waiting incoming ↔
      ctx.rank waiting < ctx.rank incoming ∨
        ctx.rank incoming = ctx.rank waiting ∧ ctx.associativity incoming.text = .right := by
  rw [Outranks]
  cases ctx.associativity incoming.text <;> simp <;> omega

end Context

/-! ## Bracketed expressions -/

/-- An infix expression with its brackets. A call has its argument tokens as they come. -/
inductive Infix where
  | operand (value : Float) (pos : Int)
  | call (f : FunctionName) (args : List Token) (pos : Int)
  | bracketed (left : Int) (inner : Infix) (right : Int)
  | binary (op : Operator) (pos : Int) (left right : Infix)

namespace Infix

/-- The expression written out. -/
def tokens : Infix → List Token
  | operand x pos => [.operand x pos]
  | call f args pos => [.call f args pos]
  | bracketed left e right => .symbol .opening left :: (e.tokens ++ [.symbol .closing right])
  | binary op pos l r => l.tokens ++ .symbol (.operator op) pos :: r.tokens

/-- The tree with the brackets erased. A call stands for the tree that is built of it. -/
def tree (ctx : Context) : Infix → Except Problem Expr
  | operand x _ => .ok (.operand x)
  | call f args pos => ctx.buildCall f pos (ctx.pieces args)
  | bracketed _ e _ => e.tree ctx
  | binary op _ l r => do
    let x ← l.tree ctx
    let y ← r.tree ctx
    .ok (Expr.binary op x y)

/-- The operators down the left side, from the root on, as far as no bracket is entered. -/
def leads : Infix → List Operator
  | binary op _ l _ => op :: l.leads
  | _ => []

/-- The operators down the right side, from the root on, as far as no bracket is entered. -/
def trails : Infix → List Operator
  | binary op _ _ r => op :: r.trails
  | _ => []

/-- Whether the operator table asks for this grouping. At each operator, all that its right operand
leads with bind tighter, or as tight and lean right; all that its left operand trails with bind
tighter, or as tight and it leans left. -/
def Settled (ctx : Context) : Infix → Prop
  | operand .. => True
  | call .. => True
  | bracketed _ e _ => e.Settled ctx
  | binary op _ l r =>
    l.Settled ctx ∧ r.Settled ctx ∧
      (∀ s ∈ r.leads, ctx.rank op < ctx.rank s ∨
        ctx.rank s = ctx.rank op ∧ ctx.associativity s.text = .right) ∧
      (∀ t ∈ l.trails, ctx.rank op < ctx.rank t ∨
        ctx.rank t = ctx.rank op ∧ ctx.associativity op.text = .left)

variable {ctx : Context}

theorem settled_binary {op : Operator} {pos : Int} {l r : Infix} :
    (binary op pos l r).Settled ctx ↔
      l.Settled ctx ∧ r.Settled ctx ∧ (∀ s ∈ r.leads, ¬ctx.Outranks op s) ∧
        ∀ t ∈ l.trails, ctx.Outranks t op := by
  simp only [Context.not_outranks_iff]
  rfl

/-- An expression has a tree as soon as all calls in it have one. -/
theorem exists_tree {e : Infix}
    (calls : ∀ f args pos, Token.call f args pos ∈ e.tokens →
      ∃ t, ctx.buildCall f pos (ctx.pieces args) = .ok t) : ∃ t, e.tree ctx = .ok t := by
  induction e with
  | operand x pos => exact ⟨_, rfl⟩
  | call f args pos => exact calls f args pos (by simp [tokens])
  | bracketed left e right ih =>
    apply ih
    intro f args pos h
    exact calls f args pos (by simp [tokens, h])
  | binary op pos l r ihl ihr =>
    have left : ∃ t, l.tree ctx = .ok t := by
      apply ihl
      intro f args pos h
      exact calls f args pos (by simp [tokens, h])
    have right : ∃ t, r.tree ctx = .ok t := by
      apply ihr
      intro f args pos h
      exact calls f args pos (by simp [tokens, h])
    obtain ⟨x, hx⟩ := left
    obtain ⟨y, hy⟩ := right
    refine ⟨Expr.binary op x y, ?_⟩
    rw [tree, hx, hy]
    rfl

/-! ## Regrouping -/

/-- Puts an operator and what has no operator of its own behind an expression: below the operators
of its right side that are not done before. -/
def extend (ctx : Context) : Infix → Operator → Int → Infix → Infix
  | binary o p l r, op, pos, a =>
    if ∀ t ∈ (binary o p l r).trails, ctx.Outranks t op then binary op pos (binary o p l r) a
    else binary o p l (extend ctx r op pos a)
  | e, op, pos, a => binary op pos e a

/-- Puts an operator and an expression behind another, one operator after the other. -/
def splice (ctx : Context) (e : Infix) (op : Operator) (pos : Int) : Infix → Infix
  | binary o p l r => splice ctx (splice ctx e op pos l) o p r
  | a => extend ctx e op pos a

theorem tokens_extend (e a : Infix) (op : Operator) (pos : Int) :
    (e.extend ctx op pos a).tokens = e.tokens ++ .symbol (.operator op) pos :: a.tokens := by
  fun_induction extend ctx e op pos a <;> simp_all [tokens]

theorem tokens_splice (e r : Infix) (op : Operator) (pos : Int) :
    (e.splice ctx op pos r).tokens = e.tokens ++ .symbol (.operator op) pos :: r.tokens := by
  fun_induction splice ctx e op pos r with
  | case1 e op pos o p l r ihl ihr => simp [ihr, ihl, tokens]
  | case2 => exact tokens_extend _ _ _ _

/-- The new operator comes to lead only if nothing on the right side holds it back. -/
theorem leads_extend (e a : Infix) (op : Operator) (pos : Int) :
    (e.extend ctx op pos a).leads =
      if ∀ t ∈ e.trails, ctx.Outranks t op then op :: e.leads else e.leads := by
  cases e with
  | binary o p l r =>
    unfold extend
    split <;> rfl
  | _ => simp [extend, leads, trails]

theorem settled_extend {e a : Infix} {op : Operator} {pos : Int} (he : e.Settled ctx)
    (ha : a.Settled ctx) (hlead : a.leads = []) : (e.extend ctx op pos a).Settled ctx := by
  -- the operator sinks down the right side, so the induction is on the right operand alone
  induction e with
  | binary o p l r _ ihr =>
    obtain ⟨hl, hr, hleads, htrails⟩ := settled_binary.mp he
    unfold extend
    split
    · next h => exact settled_binary.mpr ⟨he, ha, by simp [hlead], h⟩
    · next h =>
      refine settled_binary.mpr ⟨hl, ihr hr, ?_, htrails⟩
      rw [leads_extend]
      split
      · next hall =>
        -- the right operand lets the new operator pass, so it is `o` that holds it back
        have ho : ¬ctx.Outranks o op := fun ho => h (by simpa [trails, ho] using hall)
        simpa [ho] using hleads
      · exact hleads
  | _ => exact settled_binary.mpr ⟨he, ha, by simp [hlead], by simp [trails]⟩

theorem settled_splice {e r : Infix} {op : Operator} {pos : Int} (he : e.Settled ctx)
    (hr : r.Settled ctx) : (e.splice ctx op pos r).Settled ctx := by
  induction r generalizing e op pos with
  | binary o p l r ihl ihr =>
    obtain ⟨hl, hr, -⟩ := settled_binary.mp hr
    have left := @ihl e op pos he hl
    exact ihr left hr
  | _ => exact settled_extend he hr rfl

end Infix

/-! ## The grammar of infix sequences -/

/-- The infix token sequences: operands, calls, sequences in brackets, and two sequences with an
operator between them. -/
inductive IsInfix : List Token → Prop where
  | operand (x : Float) (pos : Int) : IsInfix [.operand x pos]
  | call (f : FunctionName) (args : List Token) (pos : Int) : IsInfix [.call f args pos]
  | bracketed (left right : Int) {ts : List Token} :
    IsInfix ts → IsInfix (.symbol .opening left :: (ts ++ [.symbol .closing right]))
  | binary (op : Operator) (pos : Int) {ts us : List Token} :
    IsInfix ts → IsInfix us → IsInfix (ts ++ .symbol (.operator op) pos :: us)

theorem Infix.isInfix_tokens (e : Infix) : IsInfix e.tokens := by
  induction e with
  | operand x pos => exact .operand x pos
  | call f args pos => exact .call f args pos
  | bracketed left e right ih => exact .bracketed left right ih
  | binary op pos l r ihl ihr => exact .binary op pos ihl ihr

/-- Every infix sequence has a grouping that the operator table asks for. -/
theorem IsInfix.exists_settled (ctx : Context) {ts : List Token} (h : IsInfix ts) :
    ∃ e : Infix, e.tokens = ts ∧ e.Settled ctx := by
  induction h with
  | operand x pos => exact ⟨.operand x pos, rfl, trivial⟩
  | call f args pos => exact ⟨.call f args pos, rfl, trivial⟩
  | bracketed left right _ ih =>
    obtain ⟨e, rfl, he⟩ := ih
    exact ⟨.bracketed left e right, rfl, he⟩
  | binary op pos _ _ ihl ihr =>
    obtain ⟨l, rfl, hl⟩ := ihl
    obtain ⟨r, rfl, hr⟩ := ihr
    exact ⟨l.splice ctx op pos r, Infix.tokens_splice l r op pos, Infix.settled_splice hl hr⟩

/-! ## Tables that lean left -/

/-- All operators lean left. -/
def Context.LeansLeft (ctx : Context) : Prop :=
  ∀ op : Operator, ctx.associativity op.text = .left

theorem Context.outranks_iff_of_leansLeft {ctx : Context} (leans : ctx.LeansLeft)
    (waiting incoming : Operator) :
    ctx.Outranks waiting incoming ↔ ctx.rank incoming ≤ ctx.rank waiting := by
  simp only [Outranks, leans incoming, and_true]
  omega

namespace Infix

/-- A settled expression whose operators outside all brackets have at least the rank `b`. -/
structure Binds (ctx : Context) (b : Int) (e : Infix) : Prop where
  settled : e.Settled ctx
  leads : ∀ s ∈ e.leads, b ≤ ctx.rank s
  trails : ∀ t ∈ e.trails, b ≤ ctx.rank t

variable {ctx : Context} {a b : Int}

theorem Binds.mono {e : Infix} (h : e.Binds ctx b) (hab : a ≤ b) : e.Binds ctx a := by
  refine ⟨h.settled, ?_, ?_⟩
  · intro s hs
    exact Int.le_trans hab (h.leads s hs)
  · intro t ht
    exact Int.le_trans hab (h.trails t ht)

theorem Binds.operand (x : Float) (pos : Int) : (operand x pos).Binds ctx b :=
  ⟨trivial, by simp [Infix.leads], by simp [Infix.trails]⟩

theorem Binds.call (f : FunctionName) (args : List Token) (pos : Int) :
    (call f args pos).Binds ctx b :=
  ⟨trivial, by simp [Infix.leads], by simp [Infix.trails]⟩

theorem Binds.bracketed {e : Infix} (h : e.Settled ctx) (left right : Int) :
    (bracketed left e right).Binds ctx b :=
  ⟨h, by simp [Infix.leads], by simp [Infix.trails]⟩

/-- Where all operators lean left, an operator may have equals on its left and none on its right. -/
theorem Binds.binary (leans : ctx.LeansLeft) {op : Operator} {l r : Infix}
    (hl : l.Binds ctx (ctx.rank op)) (hr : r.Binds ctx (ctx.rank op + 1)) (pos : Int) :
    (binary op pos l r).Binds ctx (ctx.rank op) := by
  refine ⟨⟨hl.settled, hr.settled, ?_, ?_⟩, ?_, ?_⟩
  · intro s hs
    exact Or.inl (hr.leads s hs)
  · intro t ht
    have h := hl.trails t ht
    rcases Int.lt_or_eq_of_le h with h | h
    · exact Or.inl h
    · exact Or.inr ⟨h.symm, leans op⟩
  · intro s hs
    rcases List.mem_cons.mp hs with rfl | hs
    · exact Int.le_refl _
    · exact hl.leads s hs
  · intro t ht
    rcases List.mem_cons.mp ht with rfl | ht
    · exact Int.le_refl _
    · exact (hr.mono (Int.le_add_of_nonneg_right Int.one_nonneg)).trails t ht

end Infix
end Reckon
