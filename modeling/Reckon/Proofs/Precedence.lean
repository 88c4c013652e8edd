import Reckon.Proofs.Infix

/-!
The two stacks against the grouping that an operator table asks for. While an expression is read,
the stacks hold its frontier: the operators down its right side, each with the finished tree on its
left, and the tree read last. A frontier folds into one tree as soon as everything on it is reduced,
and what reduces it (an incoming operator, a bracket that closes, the end) does not matter. Main
statement: the builder gives the tree of every settled expression, and so fails on no infix sequence
whose calls build (`build_inverts_tokens`).
-/

namespace Reckon

/-- What the stacks hold of an expression that was just read: the operators that still wait, each
with its left operand, the latest first, and the latest tree. -/
structure Frontier where
  pending : List (Operator × Int × Expr)
  last : Expr

namespace Frontier

/-- The tree that is left once all that waits has been joined. -/
def tree (f : Frontier) : Expr := f.pending.foldl (fun t p => Expr.binary p.1 p.2.2 t) f.last

def waiting (f : Frontier) : List Waiting := f.pending.map fun p => .operator p.1 p.2.1

def trees (f : Frontier) : List Expr := f.last :: f.pending.map (·.2.2)

/-- One more operator waits, outside all others. -/
def behind (f : Frontier) (op : Operator) (pos : Int) (left : Expr) : Frontier :=
  ⟨f.pending ++ [(op, pos, left)], f.last⟩

variable (f : Frontier) (op : Operator) (pos : Int) (x : Expr)

@[simp] theorem tree_behind : (f.behind op pos x).tree = .binary op x f.tree := by
  simp [behind, tree]

@[simp] theorem waiting_behind : (f.behind op pos x).waiting = f.waiting ++ [.operator op pos] := by
  simp [behind, waiting]

@[simp] theorem trees_behind : (f.behind op pos x).trees = f.trees ++ [x] := by
  simp [behind, trees]

end Frontier

/-- What an expression leaves on the stacks. -/
def Infix.frontier (ctx : Context) : Infix → Except Problem Frontier
  | operand x _ => .ok ⟨[], .operand x⟩
  | call f args pos => (ctx.buildCall f pos (ctx.pieces args)).map (⟨[], ·⟩)
  | bracketed _ e _ => (e.tree ctx).map (⟨[], ·⟩)
  | binary op pos l r => do
    let x ← l.tree ctx
    let f ← r.frontier ctx
    .ok (f.behind op pos x)

section Frontier
variable {ctx : Context}

theorem Context.pieces_eq_map (ts : List Token) : ctx.pieces ts = ts.map ctx.piece := by
  induction ts with
  | nil => rfl
  | cons t ts ih => rw [pieces, List.map_cons, ih]

theorem Context.pieces_append (ts us : List Token) :
    ctx.pieces (ts ++ us) = ctx.pieces ts ++ ctx.pieces us := by
  simp only [pieces_eq_map, List.map_append]

theorem Infix.tree_eq_frontier (e : Infix) : e.tree ctx = (e.frontier ctx).map Frontier.tree := by
  induction e with
  | operand x pos => rfl
  | call f args pos =>
    rw [tree, frontier]
    cases ctx.buildCall f pos (ctx.pieces args) <;> rfl
  | bracketed left e right _ =>
    rw [tree, frontier]
    cases e.tree ctx <;> rfl
  | binary op pos l r _ ihr =>
    rw [tree, frontier, ihr]
    cases l.tree ctx with
    | error p => rfl
    | ok x => cases r.frontier ctx <;> simp

/-- The operators that wait are those the expression trails with. -/
theorem Infix.mem_trails_of_frontier {e : Infix} {f : Frontier} (h : e.frontier ctx = .ok f)
    {p : Operator × Int × Expr} (hp : p ∈ f.pending) : p.1 ∈ e.trails := by
  induction e generalizing f with
  | operand x pos =>
    obtain rfl := Except.ok.inj h
    simp at hp
  | binary op pos l r _ ihr =>
    simp only [frontier, bind_eq_ok, Except.ok.injEq] at h
    obtain ⟨x, -, g, hg, rfl⟩ := h
    rcases List.mem_append.mp hp with hp | hp
    · exact List.mem_cons_of_mem _ (ihr hg hp)
    · obtain rfl := List.mem_singleton.mp hp
      exact List.mem_cons_self
  | _ =>
    obtain ⟨t, -, rfl⟩ := map_eq_ok.mp h
    simp at hp

end Frontier

namespace Stacks

/-- Whatever joins each operator of a frontier to its operands, in turn from the latest, meets the
frontier as its tree. -/
theorem collapse {β : Type} {k : List Waiting → List Expr → β} (f : Frontier)
    (absorbs : ∀ p ∈ f.pending, ∀ pos ws x y ts,
      k (.operator p.1 pos :: ws) (y :: x :: ts) = k ws (.binary p.1 x y :: ts))
    (ws : List Waiting) (ts : List Expr) :
    k (f.waiting ++ ws) (f.trees ++ ts) = k ws (f.tree :: ts) := by
  obtain ⟨pending, last⟩ := f
  induction pending generalizing last with
  | nil => rfl
  | cons p ps ih =>
    obtain ⟨op, pos, x⟩ := p
    let f : Frontier := ⟨ps, .binary op x last⟩
    have rest : k (f.waiting ++ ws) (f.trees ++ ts) = k ws (f.tree :: ts) := by
      apply ih
      intro p hp
      exact absorbs p (List.mem_cons_of_mem _ hp)
    calc k (.operator op pos :: (f.waiting ++ ws)) (last :: x :: (f.pending.map (·.2.2) ++ ts))
        = k (f.waiting ++ ws) (f.trees ++ ts) := absorbs (op, pos, x) List.mem_cons_self ..
      _ = k ws (f.tree :: ts) := rest

variable {ctx : Context}

theorem reduce_outranked (h : ctx.Ranked) {op incoming : Operator} (ho : ctx.Outranks op incoming)
    (pos : Int) (ws : List Waiting) (x y : Expr) (ts : List Expr) :
    reduce ctx incoming (.operator op pos :: ws) (y :: x :: ts) =
      reduce ctx incoming ws (.binary op x y :: ts) := by
  rw [reduce, Context.reduces_of_ranked h]
  simp [ho, join]

theorem reduce_held (h : ctx.Ranked) {op incoming : Operator} (ho : ¬ctx.Outranks op incoming)
    (pos : Int) (ws : List Waiting) (ts : List Expr) :
    reduce ctx incoming (.operator op pos :: ws) ts = .ok ⟨.operator op pos :: ws, ts⟩ := by
  rw [reduce, Context.reduces_of_ranked h]
  simp [ho]

/-- Pushing the pieces of a settled expression leaves its frontier on the stacks, provided that
nothing that waits already is reduced by what the expression leads with. -/
theorem pushAll_tokens (h : ctx.Ranked) {e : Infix} (he : e.Settled ctx) (ws : List Waiting)
    (held : ∀ s ∈ e.leads, ∀ ts, reduce ctx s ws ts = .ok ⟨ws, ts⟩) (ts : List Expr)
    (rest : List Piece) :
    pushAll ctx ⟨ws, ts⟩ (ctx.pieces e.tokens ++ rest) =
      e.frontier ctx >>= fun f => pushAll ctx ⟨f.waiting ++ ws, f.trees ++ ts⟩ rest := by
  induction e generalizing ws ts rest with
  | operand x pos => rfl
  | call f args pos =>
    rw [Infix.frontier, Infix.tokens]
    simp only [Context.pieces, Context.piece, List.cons_append, List.nil_append, pushAll, push]
    cases ctx.buildCall f pos (ctx.pieces args) <;> rfl
  | bracketed left e right ih =>
    -- a bracket that waits holds back every operator, whatever is inside
    have inner := ih he (.bracket left :: ws) (fun _ _ _ => rfl) ts
      (.symbol .closing right :: rest)
    have opened : pushAll ctx ⟨ws, ts⟩ (ctx.pieces (Infix.bracketed left e right).tokens ++ rest) =
        pushAll ctx ⟨.bracket left :: ws, ts⟩
          (ctx.pieces e.tokens ++ .symbol .closing right :: rest) := by
      simp [Infix.tokens, Context.pieces_append, Context.pieces, Context.piece, pushAll, push]
    rw [opened, inner, Infix.frontier, Infix.tree_eq_frontier]
    cases e.frontier ctx with
    | error p => rfl
    | ok f =>
      have closed := collapse (k := close right) f (fun _ _ _ _ _ _ _ => rfl)
        (.bracket left :: ws) ts
      simp only [ok_bind, pushAll, push, closed, close]
      rfl
  | binary op pos l r ihl ihr =>
    obtain ⟨hl, hr, hleads, htrails⟩ := Infix.settled_binary.mp he
    have left := ihl hl ws (fun s hs => held s (List.mem_cons_of_mem _ hs)) ts
      (.symbol (.operator op) pos :: (ctx.pieces r.tokens ++ rest))
    have cut : ctx.pieces (Infix.binary op pos l r).tokens ++ rest =
        ctx.pieces l.tokens ++ .symbol (.operator op) pos :: (ctx.pieces r.tokens ++ rest) := by
      simp [Infix.tokens, Context.pieces_append, Context.pieces, Context.piece]
    rw [cut, left, Infix.frontier, Infix.tree_eq_frontier]
    cases hf : l.frontier ctx with
    | error p => rfl
    | ok f =>
      -- the left operand is done when the operator comes, and the operator waits for the right one
      have outranked : ∀ p ∈ f.pending, ctx.Outranks p.1 op := by
        intro p hp
        exact htrails p.1 (Infix.mem_trails_of_frontier hf hp)
      have reduced := collapse (k := reduce ctx op) f
        (fun p hp => reduce_outranked h (outranked p hp)) ws ts
      have right := ihr hr (.operator op pos :: ws)
        (fun s hs => reduce_held h (hleads s hs) pos ws) (f.tree :: ts) rest
      simp only [ok_bind, map_ok, pushAll, push, reduced, held op List.mem_cons_self, right]
      cases r.frontier ctx <;> simp

end Stacks

/-- The builder agrees with the grouping of every settled expression. -/
theorem Context.build_tokens {ctx : Context} (h : ctx.Ranked) {e : Infix} (he : e.Settled ctx) :
    ctx.build e.tokens = e.tree ctx := by
  have pushed := Stacks.pushAll_tokens h he [] (fun _ _ _ => rfl) [] []
  rw [List.append_nil] at pushed
  rw [build, reduceAll, Stacks.empty, pushed, Infix.tree_eq_frontier]
  cases e.frontier ctx with
  | error p => rfl
  | ok f =>
    show Stacks.finish (f.waiting ++ []) (f.trees ++ []) = .ok f.tree
    exact Stacks.collapse (k := Stacks.finish) f (fun _ _ _ _ _ _ _ => rfl) [] []

/-- The builder inverts writing out. It gives the tree of every infix expression that is grouped as
the operator table asks; every infix sequence is such an expression written out; so the builder
fails on none whose calls build. -/
theorem build_inverts_tokens {ctx : Context} (h : ctx.Ranked) :
    (∀ e : Infix, e.Settled ctx → ctx.build e.tokens = e.tree ctx) ∧
    (∀ ts, IsInfix ts → ∃ e : Infix, e.tokens = ts ∧ e.Settled ctx) ∧
    ∀ ts, IsInfix ts →
      (∀ f args pos, Token.call f args pos ∈ ts →
        ∃ t, ctx.buildCall f pos (ctx.pieces args) = .ok t) →
      ∃ t, ctx.build ts = .ok t := by
  refine ⟨?_, ?_, ?_⟩
  · intro e he
    exact Context.build_tokens h he
  · intro ts hts
    exact hts.exists_settled ctx
  · intro ts hts calls
    obtain ⟨e, rfl, he⟩ := hts.exists_settled ctx
    obtain ⟨t, ht⟩ := Infix.exists_tree calls
    exact ⟨t, (Context.build_tokens h he).trans ht⟩

/-- Sums lean left and differences right, both bind alike, products bind looser than anything and
there is no rule for quotients: `1 + 2 - 3 + 4 * (5 / 6)`. -/
theorem build_inverts_tokens_leaning_both_ways :
    let ctx := { Context.standard with
      operators := [("+", ⟨.int 1, .left⟩), ("-", ⟨.int 1, .right⟩), ("*", ⟨.int (-2), .right⟩)] }
    ctx.Ranked ∧
    ctx.build [.operand 1 0, .symbol (.operator .add) 2, .operand 2 4, .symbol (.operator .sub) 6,
      .operand 3 8, .symbol (.operator .add) 10, .operand 4 12, .symbol (.operator .mul) 14,
      .symbol .opening 16, .operand 5 17, .symbol (.operator .div) 19, .operand 6 21,
      .symbol .closing 22] =
    .ok (.binary .mul
      (.binary .add (.binary .add (.operand 1) (.binary .sub (.operand 2) (.operand 3)))
        (.operand 4))
      (.binary .div (.operand 5) (.operand 6))) := by
  intro ctx
  have ranked : ctx.Ranked := by
    intro op rule hr
    cases op with
    | add => obtain rfl := Option.some.inj hr; exact ⟨1, rfl⟩
    | sub => obtain rfl := Option.some.inj hr; exact ⟨1, rfl⟩
    | mul => obtain rfl := Option.some.inj hr; exact ⟨-2, rfl⟩
    | div => cases hr
  have settled := (build_inverts_tokens ranked).1
    (.binary .mul 14
      (.binary .add 10
        (.binary .add 2 (.operand 1 0) (.binary .sub 6 (.operand 2 4) (.operand 3 8)))
        (.operand 4 12))
      (.bracketed 16 (.binary .div 19 (.operand 5 17) (.operand 6 21)) 22)) (by
    simp only [Infix.Settled, Infix.leads, Infix.trails, List.mem_cons, List.not_mem_nil, or_false,
      forall_eq, forall_eq_or_imp, false_implies, implies_true, true_and, and_true]
    decide)
  exact ⟨ranked, settled⟩

end Reckon
