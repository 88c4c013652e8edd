import Mathlib.Logic.Relation
import Reckon.Proofs.Arguments

/-!
Runs of the two stacks. Building a sequence is a walk through configurations: a token is read, or an
operator that waits joins two trees. What a walk keeps is a matter of its single moves, and why it
stops is a matter of the configuration it stops in. Main statements: building succeeds after a run
that has read all tokens and leaves one tree (`run_of_build`), and fails after a run to a
configuration that halts with its problem (`stops_of_build`).
-/

namespace Reckon

/-- What has been read of a sequence, and the stacks then, each with its latest element first. -/
structure Config where
  seen : List Token
  waiting : List Waiting
  trees : List Expr

namespace Config

def start : Config := ⟨[], [], []⟩

/-- One move of the builder: it reads a token, or joins two trees. A closing bracket is read when
the bracket that it closes is the latest that waits. -/
inductive Move (ctx : Context) : Config → Config → Prop where
  | operand (x : Float) (pos : Int) {seen ws es} :
    Move ctx ⟨seen, ws, es⟩ ⟨seen ++ [.operand x pos], ws, .operand x :: es⟩
  | call {f : FunctionName} {args : List Token} {pos : Int} {e : Expr} {seen ws es} :
    ctx.buildCall f pos (ctx.pieces args) = .ok e →
    Move ctx ⟨seen, ws, es⟩ ⟨seen ++ [.call f args pos], ws, e :: es⟩
  | opening (pos : Int) {seen ws es} :
    Move ctx ⟨seen, ws, es⟩ ⟨seen ++ [.symbol .opening pos], .bracket pos :: ws, es⟩
  | closing (left right : Int) {seen ws es} :
    Move ctx ⟨seen, .bracket left :: ws, es⟩ ⟨seen ++ [.symbol .closing right], ws, es⟩
  | operator (op : Operator) (pos : Int) {seen ws es} :
    Move ctx ⟨seen, ws, es⟩ ⟨seen ++ [.symbol (.operator op) pos], .operator op pos :: ws, es⟩
  | join (op : Operator) (pos : Int) (x y : Expr) {seen ws es} :
    Move ctx ⟨seen, .operator op pos :: ws, y :: x :: es⟩ ⟨seen, ws, .binary op x y :: es⟩

/-- A number of moves. -/
abbrev Run (ctx : Context) : Config → Config → Prop := Relation.ReflTransGen (Move ctx)

/-- What an operator that waits is joined before: the end, a closing bracket, or an operator that it
is done before. -/
inductive Due (ctx : Context) (op : Operator) : List Token → Prop where
  | ending : Due ctx op []
  | closing (pos : Int) {rest} : Due ctx op (.symbol .closing pos :: rest)
  | operator {incoming : Operator} {pos : Int} {rest} :
    ctx.reduces op incoming = some true → Due ctx op (.symbol (.operator incoming) pos :: rest)

/-- Why the builder stops in a configuration with some tokens left to read. -/
inductive Halt (ctx : Context) : Config → List Token → Problem → Prop where
  | call {f : FunctionName} {args : List Token} {pos : Int} {p : Problem} {c : Config} {rest} :
    ctx.buildCall f pos (ctx.pieces args) = .error p → Halt ctx c (.call f args pos :: rest) p
  | unmatched (pos : Int) {seen es rest} :
    Halt ctx ⟨seen, [], es⟩ (.symbol .closing pos :: rest) (.failure (.unmatchedClose pos))
  | missing (op : Operator) (pos : Int) {seen ws es rest} :
    Due ctx op rest → es.length < 2 →
    Halt ctx ⟨seen, .operator op pos :: ws, es⟩ rest (.failure (.missingOperand op.text pos))
  | unordered {op incoming : Operator} {p pos : Int} {seen ws es rest} :
    ctx.reduces op incoming = none →
    Halt ctx ⟨seen, .operator op p :: ws, es⟩ (.symbol (.operator incoming) pos :: rest)
      (.fault .wrongType)
  | neverClosed (pos : Int) {seen ws es} :
    Halt ctx ⟨seen, .bracket pos :: ws, es⟩ [] (.failure (.malformed (.neverClosed pos)))
  | empty {seen} : Halt ctx ⟨seen, [], []⟩ [] (.failure (.malformed .empty))
  | several {seen es} :
    1 < es.length →
    Halt ctx ⟨seen, [], es⟩ [] (.failure (.malformed (.severalTrees es.length)))

/-- From here on the builder runs, through all tokens or up to some of them, and halts. -/
def Stops (ctx : Context) (c : Config) (rest : List Token) (p : Problem) : Prop :=
  ∃ d left, Run ctx c d ∧ d.seen ++ left = c.seen ++ rest ∧ Halt ctx d left p

theorem Halt.stops {ctx : Context} {c : Config} {rest : List Token} {p : Problem}
    (h : Halt ctx c rest p) : Stops ctx c rest p := ⟨c, rest, .refl, rfl, h⟩

/-- What stops later stops from here. -/
theorem Stops.of_run {ctx : Context} {c d : Config} {rest left : List Token} {p : Problem}
    (h : Stops ctx d left p) (run : Run ctx c d) (hseen : d.seen ++ left = c.seen ++ rest) :
    Stops ctx c rest p := by
  obtain ⟨e, after, hrun, he, hhalt⟩ := h
  exact ⟨e, after, run.trans hrun, he.trans hseen, hhalt⟩

end Config

open Config

namespace Stacks
variable {ctx : Context}

/-- An operator takes the two latest trees, or misses one. -/
theorem ends_join (op : Operator) (pos : Int) (es : List Expr) :
    Ends (fun us => ∃ y x rest, es = y :: x :: rest ∧ us = .binary op x y :: rest)
      (fun p => es.length < 2 ∧ p = .failure (.missingOperand op.text pos)) (join op pos es) := by
  match es with
  | y :: x :: rest => exact ⟨y, x, rest, rfl, rfl⟩
  | [_] => exact ⟨Nat.one_lt_two, rfl⟩
  | [] => exact ⟨Nat.two_pos, rfl⟩

/-- An operator that waits joins, and the stacks go on from there; or the builder stops. -/
theorem ends_join_bind {op : Operator} {pos : Int} {seen rest : List Token} {ws : List Waiting}
    {es : List Expr} {α : Type} {P : α → Prop} {k : List Expr → Except Problem α}
    (due : Due ctx op rest)
    (next : ∀ us, Run ctx ⟨seen, .operator op pos :: ws, es⟩ ⟨seen, ws, us⟩ →
      Ends P (Stops ctx ⟨seen, .operator op pos :: ws, es⟩ rest) (k us)) :
    Ends P (Stops ctx ⟨seen, .operator op pos :: ws, es⟩ rest) (join op pos es >>= k) := by
  have joined := ends_join op pos es
  cases h : join op pos es with
  | ok us =>
    obtain ⟨y, x, left, rfl, rfl⟩ := joined.of_ok h
    exact next _ (.single (.join op pos x y))
  | error p =>
    obtain ⟨short, rfl⟩ := joined.of_error h
    exact (Halt.missing op pos due short).stops

theorem ends_reduce (seen : List Token) (op : Operator) (pos : Int) (rest : List Token)
    (ws : List Waiting) (es : List Expr) :
    Ends (fun s => Run ctx ⟨seen, ws, es⟩ ⟨seen, s.waiting, s.trees⟩)
      (Stops ctx ⟨seen, ws, es⟩ (.symbol (.operator op) pos :: rest)) (reduce ctx op ws es) := by
  induction ws generalizing es with
  | nil => exact .refl
  | cons w ws ih =>
    cases w with
    | bracket p => exact .refl
    | operator o p =>
      rw [reduce]
      split
      · next h =>
        apply ends_join_bind (.operator h)
        intro us joined
        refine (ih us).mono ?_ ?_
        · intro s run
          exact joined.trans run
        · intro q stops
          exact stops.of_run joined rfl
      · exact .refl
      · next h => exact (Halt.unordered h).stops

theorem ends_close (seen : List Token) (pos : Int) (rest : List Token) (ws : List Waiting)
    (es : List Expr) :
    Ends (fun s => Run ctx ⟨seen, ws, es⟩ ⟨seen ++ [.symbol .closing pos], s.waiting, s.trees⟩)
      (Stops ctx ⟨seen, ws, es⟩ (.symbol .closing pos :: rest)) (close pos ws es) := by
  induction ws generalizing es with
  | nil => exact (Halt.unmatched pos).stops
  | cons w ws ih =>
    cases w with
    | bracket p => exact .single (.closing p pos)
    | operator o p =>
      rw [close]
      apply ends_join_bind (.closing pos)
      intro us joined
      refine (ih us).mono ?_ ?_
      · intro s run
        exact joined.trans run
      · intro q stops
        exact stops.of_run joined rfl

/-- One token is read by a run, or stops the builder. -/
theorem ends_push (seen : List Token) (s : Stacks) (t : Token) (rest : List Token) :
    Ends (fun s' => Run ctx ⟨seen, s.waiting, s.trees⟩ ⟨seen ++ [t], s'.waiting, s'.trees⟩)
      (Stops ctx ⟨seen, s.waiting, s.trees⟩ (t :: rest)) (s.push ctx (ctx.piece t)) := by
  cases t with
  | operand x pos =>
    rw [Context.piece]
    exact .single (.operand x pos)
  | call f args pos =>
    rw [Context.piece, push]
    cases h : ctx.buildCall f pos (ctx.pieces args) with
    | ok e => exact .single (.call h)
    | error p => exact (Halt.call h).stops
  | symbol sign pos =>
    rw [Context.piece]
    cases sign with
    | opening => exact .single (.opening pos)
    | closing => exact ends_close seen pos rest s.waiting s.trees
    | operator op =>
      refine (ends_reduce seen op pos rest s.waiting s.trees).bind ?_
      intro r run
      exact run.tail (.operator op pos)

theorem ends_pushAll (seen : List Token) (s : Stacks) (ts : List Token) :
    Ends (fun s' => Run ctx ⟨seen, s.waiting, s.trees⟩ ⟨seen ++ ts, s'.waiting, s'.trees⟩)
      (Stops ctx ⟨seen, s.waiting, s.trees⟩ ts) (pushAll ctx s (ctx.pieces ts)) := by
  induction ts generalizing seen s with
  | nil =>
    rw [Context.pieces, List.append_nil]
    exact .refl
  | cons t ts ih =>
    rw [Context.pieces, pushAll]
    have split : seen ++ t :: ts = seen ++ [t] ++ ts := by simp
    have read := @ends_push ctx seen s t ts
    cases h : s.push ctx (ctx.piece t) with
    | error p => exact read.of_error h
    | ok r =>
      have run := read.of_ok h
      refine (ih (seen ++ [t]) r).mono ?_ ?_
      · intro s' run'
        rw [split]
        exact run.trans run'
      · intro p stops
        exact stops.of_run run split.symm

theorem ends_finish (seen : List Token) (ws : List Waiting) (es : List Expr) :
    Ends (fun t => Run ctx ⟨seen, ws, es⟩ ⟨seen, [], [t]⟩) (Stops ctx ⟨seen, ws, es⟩ [])
      (finish ws es) := by
  induction ws generalizing es with
  | nil =>
    match es with
    | [] => exact Halt.empty.stops
    | [t] => exact .refl
    | x :: y :: es => exact (Halt.several (by simp)).stops
  | cons w ws ih =>
    cases w with
    | bracket p => exact (Halt.neverClosed p).stops
    | operator o p =>
      rw [finish]
      apply ends_join_bind .ending
      intro us joined
      refine (ih us).mono ?_ ?_
      · intro t run
        exact joined.trans run
      · intro q stops
        exact stops.of_run joined rfl

end Stacks

namespace Context
variable {ctx : Context} {ts : List Token}

theorem ends_build (ts : List Token) :
    Ends (fun t => Run ctx .start ⟨ts, [], [t]⟩) (Stops ctx .start ts) (ctx.build ts) := by
  have read := @Stacks.ends_pushAll ctx [] .empty ts
  rw [build, reduceAll]
  cases h : Stacks.pushAll ctx .empty (ctx.pieces ts) with
  | error p => exact read.of_error h
  | ok s =>
    have run : Run ctx .start ⟨ts, s.waiting, s.trees⟩ := read.of_ok h
    refine (@Stacks.ends_finish ctx ts s.waiting s.trees).mono ?_ ?_
    · intro t run'
      exact run.trans run'
    · intro p stops
      exact stops.of_run run (List.append_nil ts)

/-- A tree is what a run through all tokens leaves alone on the stacks. -/
theorem run_of_build {t : Expr} (h : ctx.build ts = .ok t) : Run ctx .start ⟨ts, [], [t]⟩ :=
  (ends_build ts).of_ok h

/-- A problem is what a run halts with. -/
theorem stops_of_build {p : Problem} (h : ctx.build ts = .error p) :
    ∃ c rest, Run ctx .start c ∧ c.seen ++ rest = ts ∧ Halt ctx c rest p :=
  (ends_build ts).of_error h

end Context
end Reckon
