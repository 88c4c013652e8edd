import Reckon.Proofs.Blame
import Reckon.Proofs.Conservation

/-!
Which sequences have trees. An operator that joins takes the two latest trees, wherever the tokens
of these stood, so that the builder is satisfied with more than infix expressions: an operator may
come after both of its operands, and a bracket pair may hold nothing. Main statements: a sequence is
infix just if its brackets match and its operands and operators take turns (`isInfix_iff`); and
whatever is not built fails in building, while what is built is an expression just if operands and
operators take turns in it and in all arguments of its calls (`build_accepts`).
-/

namespace Reckon

namespace Token

/-- Whether operands and operators take turns, where `ended` says that an operand has just ended. -/
def alternates : Bool → List Token → Bool
  | ended, [] => ended
  | ended, t :: ts =>
    (ended != Arguments.startsOperand symbol? t) && alternates (Arguments.endsOperand symbol? t) ts

@[simp] theorem alternates_nil (ended : Bool) : alternates ended [] = ended := rfl

section
variable (ended : Bool) (ts : List Token) (pos : Int)

@[simp] theorem alternates_operand (x : Float) :
    alternates ended (.operand x pos :: ts) = (!ended && alternates true ts) := by
  cases ended <;> rfl

@[simp] theorem alternates_call (f : FunctionName) (args : List Token) :
    alternates ended (.call f args pos :: ts) = (!ended && alternates true ts) := by
  cases ended <;> rfl

@[simp] theorem alternates_opening :
    alternates ended (.symbol .opening pos :: ts) = (!ended && alternates false ts) := by
  cases ended <;> rfl

@[simp] theorem alternates_closing :
    alternates ended (.symbol .closing pos :: ts) = (ended && alternates true ts) := by
  cases ended <;> rfl

@[simp] theorem alternates_operator (op : Operator) :
    alternates ended (.symbol (.operator op) pos :: ts) = (ended && alternates false ts) := by
  cases ended <;> rfl

end

/-- What may be left where an infix sequence ends inside `depth` brackets: nothing at all, or a
closing bracket, which ends an operand of the sequence around it. -/
inductive Remainder : Nat → List Token → Prop where
  | nothing : Remainder 0 []
  | closing {depth : Nat} {pos : Int} {ts : List Token} :
    alternates true ts = true → depthAfter depth ts = some 0 →
    Remainder (depth + 1) (.symbol .closing pos :: ts)

end Token

open Token

/-! ## Infix sequences -/

/-- An infix sequence is an operand as far as turns go. -/
theorem IsInfix.alternates_append {ts : List Token} (h : IsInfix ts) (rest : List Token) :
    alternates false (ts ++ rest) = alternates true rest := by
  induction h generalizing rest with
  | operand x pos => simp
  | call f args pos => simp
  | bracketed left right _ ih => simp [ih]
  | binary op pos _ _ ihl ihr => simp [ihl, ihr]

theorem IsInfix.depthAfter_append {ts : List Token} (h : IsInfix ts) (d : Nat)
    (rest : List Token) : depthAfter d (ts ++ rest) = depthAfter d rest := by
  induction h generalizing d rest with
  | operand x pos => simp [depthAfter]
  | call f args pos => simp [depthAfter]
  | bracketed left right _ ih => simp [depthAfter, ih]
  | binary op pos _ _ ihl ihr => simp [depthAfter, ihl, ihr]

mutual

/-- Where an operand is due, an infix sequence comes, if turns are taken and all brackets match. -/
theorem exists_isInfix : ∀ (ts : List Token) (d : Nat), alternates false ts = true →
    depthAfter d ts = some 0 → ∃ us rest, ts = us ++ rest ∧ IsInfix us ∧ Remainder d rest
  | [], _, turns, _ => by simp at turns
  | .operand x pos :: ts, d, turns, depth =>
    exists_isInfix_append (.operand x pos) ts d (by simpa using turns)
      (by simpa [depthAfter] using depth)
  | .call f args pos :: ts, d, turns, depth =>
    exists_isInfix_append (.call f args pos) ts d (by simpa using turns)
      (by simpa [depthAfter] using depth)
  | .symbol .opening left :: ts, d, turns, depth => by
    obtain ⟨us, rest, hts, infix_us, remainder⟩ := exists_isInfix ts (d + 1) (by simpa using turns)
      (by simpa [depthAfter] using depth)
    cases remainder with
    | @closing _ right rest turns depth =>
      have shorter : rest.length < ts.length := by
        rw [hts, List.length_append, List.length_cons]
        omega
      obtain ⟨vs, after, hvs, infix_vs, remainder⟩ :=
        exists_isInfix_append (.bracketed left right infix_us) rest d turns depth
      exact ⟨vs, after, by rw [← hvs, hts]; simp, infix_vs, remainder⟩
  | .symbol .closing _ :: _, _, turns, _ => by simp at turns
  | .symbol (.operator _) _ :: _, _, turns, _ => by simp at turns
  termination_by ts => ts.length

/-- After an operand the infix sequence goes on with each operator, and ends otherwise. -/
theorem exists_isInfix_append {us : List Token} (h : IsInfix us) : ∀ (ts : List Token) (d : Nat),
    alternates true ts = true → depthAfter d ts = some 0 →
    ∃ vs rest, us ++ ts = vs ++ rest ∧ IsInfix vs ∧ Remainder d rest
  | [], d, _, depth => by
    obtain rfl : d = 0 := Option.some.inj depth
    exact ⟨us, [], rfl, h, .nothing⟩
  | .operand x pos :: ts, _, turns, _ => by simp at turns
  | .call f args pos :: ts, _, turns, _ => by simp at turns
  | .symbol .opening _ :: _, _, turns, _ => by simp at turns
  | .symbol .closing _ :: ts, 0, _, depth => by cases depth
  | .symbol .closing pos :: ts, d + 1, turns, depth =>
    ⟨us, _, rfl, h, .closing (by simpa using turns) depth⟩
  | .symbol (.operator op) pos :: ts, d, turns, depth => by
    obtain ⟨vs, rest, hts, infix_vs, remainder⟩ := exists_isInfix ts d (by simpa using turns)
      (by simpa [depthAfter] using depth)
    exact ⟨us ++ .symbol (.operator op) pos :: vs, rest, by simp [hts], .binary op pos h infix_vs,
      remainder⟩
  termination_by ts => ts.length

end

/-- A sequence is infix just if its brackets match and its operands and operators take turns. -/
theorem isInfix_iff {ts : List Token} : IsInfix ts ↔ Matched ts ∧ alternates false ts = true := by
  constructor
  · intro h
    have depth := h.depthAfter_append 0 []
    have turns := h.alternates_append []
    rw [List.append_nil] at depth turns
    exact ⟨depth, turns⟩
  · rintro ⟨matched, turns⟩
    obtain ⟨us, rest, rfl, h, remainder⟩ := exists_isInfix ts 0 turns matched
    cases remainder
    rwa [List.append_nil]

/-! ## Expressions through all depths -/

/-- The token sequences of expressions: operands, calls without tokens or with a run of expressions
in one bracket pair, expressions in brackets, and two expressions with an operator between them. -/
inductive IsExpression : List Token → Prop where
  | operand (x : Float) (pos : Int) : IsExpression [.operand x pos]
  | name (f : FunctionName) (pos : Int) : IsExpression [.call f [] pos]
  | call (f : FunctionName) (pos left right : Int) {gs : List (List Token)} :
    (∀ g ∈ gs, IsExpression g) →
    IsExpression [.call f (.symbol .opening left :: (gs.flatten ++ [.symbol .closing right])) pos]
  | bracketed (left right : Int) {ts : List Token} :
    IsExpression ts → IsExpression (.symbol .opening left :: (ts ++ [.symbol .closing right]))
  | binary (op : Operator) (pos : Int) {ts us : List Token} :
    IsExpression ts → IsExpression us → IsExpression (ts ++ .symbol (.operator op) pos :: us)

theorem IsExpression.isInfix {ts : List Token} (h : IsExpression ts) : IsInfix ts := by
  induction h with
  | operand x pos => exact .operand x pos
  | name f pos => exact .call f [] pos
  | call f pos left right _ _ => exact .call f _ pos
  | bracketed left right _ ih => exact .bracketed left right ih
  | binary op pos _ _ ihl ihr => exact .binary op pos ihl ihr

/-- A run of infix sequences in brackets splits into these sequences. -/
theorem split?_flatten {gs : List (List Token)} (h : ∀ g ∈ gs, IsInfix g) (left right : Int) :
    Arguments.split? symbol? (.symbol .opening left :: (gs.flatten ++ [.symbol .closing right])) =
      some gs := by
  have written : ∃ es : List Infix, gs = es.map Infix.tokens := by
    induction gs with
    | nil => exact ⟨[], rfl⟩
    | cons g gs ih =>
      obtain ⟨hg, hgs⟩ := List.forall_mem_cons.mp h
      obtain ⟨e, rfl, -⟩ := hg.exists_settled .standard
      obtain ⟨es, rfl⟩ := ih hgs
      exact ⟨e :: es, rfl⟩
  obtain ⟨es, rfl⟩ := written
  exact Arguments.split?_run left right es

/-- The arguments of an expression's calls are expressions. -/
theorem IsExpression.argument {ts args g : List Token} {gs : List (List Token)} {f : FunctionName}
    {pos : Int} (h : IsExpression ts) (hcall : .call f args pos ∈ ts)
    (hsplit : Arguments.split? symbol? args = some gs) (hg : g ∈ gs) : IsExpression g := by
  induction h with
  | operand x p => simp at hcall
  | name f' p =>
    obtain ⟨rfl, rfl, rfl⟩ : f = f' ∧ args = [] ∧ pos = p := by simpa using hcall
    obtain rfl := Option.some.inj hsplit
    cases hg
  | @call f' p left right gs' each _ =>
    obtain ⟨rfl, rfl, rfl⟩ : f = f' ∧
        args = .symbol .opening left :: (gs'.flatten ++ [.symbol .closing right]) ∧ pos = p := by
      simpa using hcall
    rw [split?_flatten (fun g hg => (each g hg).isInfix)] at hsplit
    obtain rfl := Option.some.inj hsplit
    exact each g hg
  | bracketed left right _ ih => exact ih (by simpa using hcall)
  | binary op p _ _ ihl ihr =>
    have sides := List.mem_append.mp hcall
    rcases sides with hcall | hcall
    · exact ihl hcall
    · exact ihr (by simpa using hcall)

theorem IsExpression.within {ts us : List Token} (h : IsExpression ts) (hus : Within ts us) :
    IsExpression us := by
  induction hus with
  | whole => exact h
  | argument _ hcall hsplit hg ih => exact ih.argument hcall hsplit hg

/-- An infix sequence is an expression once its calls are. -/
theorem IsInfix.isExpression {ts : List Token} (h : IsInfix ts)
    (calls : ∀ f args pos, .call f args pos ∈ ts → IsExpression [.call f args pos]) :
    IsExpression ts := by
  induction h with
  | operand x pos => exact .operand x pos
  | call f args pos => exact calls f args pos (List.mem_singleton_self _)
  | bracketed left right _ ih =>
    apply IsExpression.bracketed
    exact ih fun f args pos h => calls f args pos (by simp [h])
  | binary op pos _ _ ihl ihr =>
    apply IsExpression.binary
    · exact ihl fun f args pos h => calls f args pos (by simp [h])
    · exact ihr fun f args pos h => calls f args pos (by simp [h])

/-- A call is an expression once it is built and its arguments are. -/
theorem isExpression_call {ctx : Context} {f : FunctionName} {args : List Token} {pos : Int}
    {e : Expr} (built : ctx.buildCall f pos (ctx.pieces args) = .ok e)
    (each : ∀ gs g, Arguments.split? symbol? args = some gs → g ∈ gs →
      (∃ t, ctx.build g = .ok t) → IsExpression g) : IsExpression [.call f args pos] := by
  obtain ⟨gs, es, hsplit, hes, -, -⟩ := Context.of_buildCall_ok built
  have args : ∀ g ∈ gs, IsExpression g := by
    intro g hg
    obtain ⟨t, -, hbuild⟩ := exists_of_forall₂ hes hg
    exact each gs g hsplit hg ⟨t, hbuild⟩
  rcases Arguments.eq_of_split? hsplit with ⟨rfl, -⟩ | ⟨left, right, rfl⟩
  · exact .name f pos
  · exact .call f pos left right args

/-- What is built is an expression if operands and operators take turns everywhere. -/
theorem isExpression_of_alternates {ctx : Context} (ts : List Token) :
    (∃ t, ctx.build ts = .ok t) → (∀ us, Within ts us → alternates false us = true) →
    IsExpression ts := by
  induction ts using Token.induction_on_arguments with
  | step ts ih =>
    rintro ⟨t, hbuild⟩ turns
    have tally := Config.Tally.run (Context.run_of_build hbuild)
    have matched : Matched ts := tally.brackets
    have h : IsInfix ts := isInfix_iff.mpr ⟨matched, turns ts .whole⟩
    apply h.isExpression
    intro f args pos member
    obtain ⟨e, built⟩ := tally.buildsCalls f args pos member
    apply isExpression_call built
    intro gs g hsplit hg hg'
    apply ih f args pos gs g member hsplit hg hg'
    intro us hus
    exact turns us ((Within.argument .whole member hsplit hg).trans hus)

/-- Under whole precedences, what is not built fails in building; and what is built is an expression
just if operands and operators take turns in it and in all arguments of its calls. -/
theorem build_accepts {ctx : Context} (h : ctx.Ranked) (ts : List Token) :
    ((∃ t, ctx.build ts = .ok t) ∨ ∃ f, ctx.build ts = fail f ∧ f.inStage .build = true) ∧
    ∀ t, ctx.build ts = .ok t →
      (IsExpression ts ↔ ∀ us, Within ts us → alternates false us = true) := by
  constructor
  · cases hbuild : ctx.build ts with
    | ok t => exact .inl ⟨t, rfl⟩
    | error p =>
      obtain ⟨f, rfl, blames⟩ := Context.blames_of_build h hbuild
      exact .inr ⟨f, rfl, blames.inStage⟩
  · intro t hbuild
    constructor
    · intro expression us hus
      exact (isInfix_iff.mp (expression.within hus).isInfix).2
    · exact isExpression_of_alternates ts ⟨t, hbuild⟩

/-- A call whose one argument has its operator last is built, but it is no expression. -/
theorem build_accepts_operator_last :
    Context.standard.Ranked ∧
    let pair : List Token := [.symbol .opening 4, .operand 1 5, .operand 2 7,
      .symbol (.operator .add) 9, .symbol .closing 10]
    let ts : List Token := [.call .sin (.symbol .opening 3 :: (pair ++ [.symbol .closing 11])) 0]
    Context.standard.build ts = .ok (.call .sin [.binary .add (.operand 1) (.operand 2)]) ∧
      Within ts pair ∧ alternates false pair = false ∧ ¬IsExpression ts := by
  refine ⟨Context.standard_ranked, ?_⟩
  intro pair ts
  have built : Context.standard.build ts =
      .ok (.call .sin [.binary .add (.operand 1) (.operand 2)]) := by rfl
  have within : Within ts pair :=
    .argument .whole List.mem_cons_self (by rfl) (List.mem_singleton_self pair)
  have turns : alternates false pair = false := by rfl
  refine ⟨built, within, turns, ?_⟩
  intro expression
  have all := ((build_accepts Context.standard_ranked ts).2 _ built).mp expression
  exact absurd (all pair within) (by simp [turns])

/-- Two operands side by side, a bracket pair around nothing, and operands outside the pair that
their operator stands in: all of these are built, and none is an expression. -/
theorem built_beyond_expressions :
    Context.standard.Ranked ∧
    ∀ ts ∈ [[Token.operand 1 0, .operand 2 2, .symbol (.operator .add) 4],
        [.operand 1 0, .symbol .opening 2, .symbol .closing 3],
        [.operand 1 0, .operand 2 2, .symbol .opening 4, .symbol (.operator .add) 5,
          .symbol .closing 6]],
      (∃ t, Context.standard.build ts = .ok t) ∧ ¬IsExpression ts := by
  refine ⟨Context.standard_ranked, ?_⟩
  have refuted : ∀ {ts : List Token}, alternates false ts = false → ¬IsExpression ts := by
    intro ts turns expression
    exact absurd (isInfix_iff.mp expression.isInfix).2 (by simp [turns])
  intro ts hts
  simp only [List.mem_cons, List.not_mem_nil, or_false] at hts
  rcases hts with rfl | rfl | rfl <;> exact ⟨⟨_, rfl⟩, refuted rfl⟩

end Reckon
