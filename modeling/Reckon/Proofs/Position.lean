import Reckon.Proofs.Arguments
import Reckon.Proofs.Nesting

/-!
Positions do not take part. A token carries its position along until a failure reports it; nothing
is ever decided by one. So moving the positions of tokens by any function moves those in the outcome
of building them and changes nothing else (`build_move`), and a text whose lexemes show the marks of
tokens is cut into those tokens up to positions, wherever its lexemes stand (`tokenize_of_marks`).
-/

namespace Reckon

/-! ## Moving -/

namespace Token

mutual

/-- The token with its positions moved. -/
def move (g : Int → Int) : Token → Token
  | operand x pos => .operand x (g pos)
  | symbol s pos => .symbol s (g pos)
  | call f args pos => .call f (moveAll g args) (g pos)

def moveAll (g : Int → Int) : List Token → List Token
  | [] => []
  | t :: ts => move g t :: moveAll g ts

end

end Token

namespace Failure

/-- The failure with its position moved. -/
def move (g : Int → Int) : Failure → Failure
  | malformedOperand text pos => .malformedOperand text (pos.map g)
  | unknownFunction text pos => .unknownFunction text (pos.map g)
  | unmatchedClose pos => .unmatchedClose (g pos)
  | missingOperand operator pos => .missingOperand operator (g pos)
  | malformed (.neverClosed pos) => .malformed (.neverClosed (g pos))
  | malformed (.notEnclosed f pos) => .malformed (.notEnclosed f (g pos))
  | malformed flaw => .malformed flaw
  | divisionByZero y => .divisionByZero y
  | refused f args why => .refused f args why
  | unsupported f lack pos => .unsupported f lack (pos.map g)

end Failure

def Problem.move (g : Int → Int) : Problem → Problem
  | failure f => .failure (f.move g)
  | fault f => .fault f

def Piece.move (g : Int → Int) : Piece → Piece
  | tree built => .tree (built.mapError (Problem.move g))
  | symbol s pos => .symbol s (g pos)

def Waiting.move (g : Int → Int) : Waiting → Waiting
  | operator op pos => .operator op (g pos)
  | bracket pos => .bracket (g pos)

def Stacks.move (g : Int → Int) (s : Stacks) : Stacks := ⟨s.waiting.map (Waiting.move g), s.trees⟩

/-- An outcome with the positions in its value and in its problem moved. -/
def moved {α : Type} (g : Int → Int) (m : α → α) (x : Except Problem α) : Except Problem α :=
  (x.map m).mapError (Problem.move g)

section Moved
variable {α β : Type} {g : Int → Int} {m : α → α} {n : β → β}

@[simp] theorem moved_ok (a : α) : moved g m (.ok a) = .ok (m a) := rfl

@[simp] theorem moved_error (p : Problem) :
    moved g m (.error p) = .error (p.move g) := rfl

@[simp] theorem moved_fail (f : Failure) : moved g m (fail f) = fail (f.move g) := rfl

theorem moved_bind {x : Except Problem α} {f k : α → Except Problem β}
    (h : ∀ a, k (m a) = moved g n (f a)) : moved g m x >>= k = moved g n (x >>= f) := by
  cases x with
  | error p => rfl
  | ok a => exact h a

end Moved

/-! ## Building tokens that moved -/

namespace Stacks
variable (g : Int → Int)

theorem join_move (op : Operator) (pos : Int) (ts : List Expr) :
    join op (g pos) ts = moved g id (join op pos ts) := by
  fun_cases join op pos ts <;> simp_all [join, Failure.move]

theorem reduce_move (ctx : Context) (op : Operator) (ws : List Waiting) (ts : List Expr) :
    reduce ctx op (ws.map (Waiting.move g)) ts = moved g (Stacks.move g) (reduce ctx op ws ts) := by
  induction ws generalizing ts with
  | nil => simp [reduce, Stacks.move]
  | cons w ws ih =>
    cases w with
    | bracket pos => simp [reduce, Waiting.move, Stacks.move]
    | operator o pos =>
      simp only [List.map_cons, Waiting.move, reduce]
      split
      · rw [join_move]
        apply moved_bind
        intro us
        exact ih us
      · rfl
      · rfl

theorem close_move (pos : Int) (ws : List Waiting) (ts : List Expr) :
    close (g pos) (ws.map (Waiting.move g)) ts = moved g (Stacks.move g) (close pos ws ts) := by
  induction ws generalizing ts with
  | nil => rfl
  | cons w ws ih =>
    cases w with
    | bracket p => rfl
    | operator o p =>
      simp only [List.map_cons, Waiting.move, close]
      rw [join_move]
      exact moved_bind ih

theorem push_move (ctx : Context) (s : Stacks) (p : Piece) :
    (s.move g).push ctx (p.move g) = moved g (Stacks.move g) (s.push ctx p) := by
  cases p with
  | tree built => cases built <;> rfl
  | symbol sign pos =>
    cases sign with
    | opening => rfl
    | closing => exact close_move g pos s.waiting s.trees
    | operator op =>
      simp only [Piece.move, push, Stacks.move]
      rw [reduce_move]
      apply moved_bind
      intro s
      rfl

theorem pushAll_move (ctx : Context) (s : Stacks) (ps : List Piece) :
    pushAll ctx (s.move g) (ps.map (Piece.move g)) =
      moved g (Stacks.move g) (pushAll ctx s ps) := by
  induction ps generalizing s with
  | nil => rfl
  | cons p ps ih =>
    rw [List.map_cons, pushAll, push_move]
    apply moved_bind
    intro s
    exact ih s

theorem finish_move (ws : List Waiting) (ts : List Expr) :
    finish (ws.map (Waiting.move g)) ts = moved g id (finish ws ts) := by
  induction ws generalizing ts with
  | nil => rcases ts with _ | ⟨t, _ | ⟨u, ts⟩⟩ <;> rfl
  | cons w ws ih =>
    cases w with
    | bracket pos => rfl
    | operator op pos =>
      simp only [List.map_cons, Waiting.move, finish]
      rw [join_move]
      exact moved_bind ih

end Stacks

namespace Context
variable (g : Int → Int) (ctx : Context)

theorem reduceAll_move (ps : List Piece) :
    ctx.reduceAll (ps.map (Piece.move g)) = moved g id (ctx.reduceAll ps) := by
  have pushed := Stacks.pushAll_move g ctx .empty ps
  have empty : Stacks.empty.move g = Stacks.empty := rfl
  rw [empty] at pushed
  rw [reduceAll, pushed]
  apply moved_bind
  intro s
  exact Stacks.finish_move g s.waiting s.trees

theorem reduceEach_move (gs : List (List Piece)) :
    ctx.reduceEach (gs.map (·.map (Piece.move g))) = moved g id (ctx.reduceEach gs) := by
  induction gs with
  | nil => rfl
  | cons ps gs ih =>
    rw [List.map_cons, reduceEach, reduceAll_move]
    apply moved_bind
    intro t
    rw [ih]
    apply moved_bind
    intro ts
    rfl

theorem symbol?_move (p : Piece) : (p.move g).symbol? = p.symbol? := by
  cases p <;> rfl

theorem buildCall_move (f : FunctionName) (pos : Int) (args : List Piece) :
    ctx.buildCall f (g pos) (args.map (Piece.move g)) = moved g id (ctx.buildCall f pos args) := by
  rw [buildCall, buildCall, Arguments.split?_map (symbol?_move g)]
  cases Arguments.split? Piece.symbol? args with
  | none => rfl
  | some groups =>
    simp only [Option.map_some, reduceEach_move]
    apply moved_bind
    intro trees
    simp only [id_eq]
    cases ctx.wrongCount? f trees.length <;> rfl

mutual

theorem piece_move : ∀ t : Token, ctx.piece (t.move g) = (ctx.piece t).move g
  | .operand x pos => by simp [Token.move, piece, Piece.move]
  | .symbol s pos => by simp [Token.move, piece, Piece.move]
  | .call f args pos => by
    simp only [Token.move, piece, Piece.move, pieces_move args, buildCall_move]
    cases ctx.buildCall f pos (ctx.pieces args) <;> rfl

theorem pieces_move : ∀ ts : List Token,
    ctx.pieces (Token.moveAll g ts) = (ctx.pieces ts).map (Piece.move g)
  | [] => by simp [Token.moveAll, pieces]
  | t :: ts => by simp only [Token.moveAll, pieces, List.map_cons, piece_move t, pieces_move ts]

end

/-- Building tokens that moved is building them and moving the outcome. -/
theorem build_move (ts : List Token) :
    ctx.build (Token.moveAll g ts) = (ctx.build ts).mapError (Problem.move g) := by
  rw [build, build, pieces_move, reduceAll_move, moved]
  cases ctx.reduceAll (ctx.pieces ts) <;> rfl

end Context

/-! ## Reading and nesting tokens that move -/

namespace Token
variable (g : Int → Int)

theorem splitClose_move (d : Nat) (ts : List Token) :
    splitClose d (moveAll g ts) =
      (moveAll g (splitClose d ts).1, moveAll g (splitClose d ts).2) := by
  induction ts generalizing d with
  | nil => rfl
  | cons t ts ih =>
    cases t with
    | operand x pos => simp [moveAll, move, splitClose, ih]
    | call f args pos => simp [moveAll, move, splitClose, ih]
    | symbol s pos =>
      cases s with
      | operator op => simp [moveAll, move, splitClose, ih]
      | opening => simp [moveAll, move, splitClose, ih]
      | closing =>
        by_cases hd : d = 1
        · simp [moveAll, move, splitClose, hd]
        · simp [moveAll, move, splitClose, hd, ih]

theorem opens_move (ts : List Token) : opens (moveAll g ts) = opens ts := by
  cases ts with
  | nil => rfl
  | cons t ts =>
    cases t with
    | symbol s pos => cases s <;> rfl
    | _ => rfl

theorem nested_move (ts : List Token) : nested (moveAll g ts) = moveAll g (nested ts) := by
  fun_induction nested ts with
  | case1 => simp [moveAll, nested]
  | case2 f as pos p ts cut ihargs ihrest =>
    -- the hypothesis on the arguments is about them with the bracket in front
    have args : nested (moveAll g (.symbol .opening p :: cut.1)) =
        .symbol .opening (g p) :: nested (moveAll g cut.1) := nested_symbol _ _ _
    rw [moveAll, moveAll, move, move, nested_call_opening, splitClose_move, ihrest, ← args, ihargs]
    rfl
  | case3 f as pos ts h ih =>
    have closed : opens ts = false := by
      cases ho : opens ts with
      | false => rfl
      | true =>
        obtain ⟨p, us, rfl⟩ := eq_opening_of_opens ho
        exact absurd rfl (h p us)
    rw [moveAll, move, nested_call_other _ _ _ ((opens_move g ts).trans closed), ih]
    rfl
  | case4 t ts h1 h2 ih =>
    cases t with
    | call f as pos => exact absurd rfl (h2 f as pos)
    | operand x pos => rw [moveAll, move, nested_operand, ih, moveAll, move]
    | symbol s pos => rw [moveAll, move, nested_symbol, ih, moveAll, move]

end Token

theorem literal_move (g : Int → Int) (raw : String) (pos : Option Int) :
    literal raw (pos.map g) = (literal raw pos).mapError (Failure.move g) := by
  unfold literal notLiteral
  cases Number.Numeral.read? raw.toList with
  | none => simp only; split <;> rfl
  | some n => simp only; split <;> rfl

theorem Mark.read_move (g : Int → Int) (m : Mark) (pos : Int) :
    m.read (g pos) = ((m.read pos).map (Token.move g)).mapError (Failure.move g) := by
  cases m with
  | sign s => rfl
  | run cs =>
    simp only [read]
    cases FunctionName.lookup? (String.ofList cs) with
    | some f => rfl
    | none =>
      have h := literal_move g (String.ofList cs) (some pos)
      rw [Option.map_some] at h
      simp only [h]
      cases literal (String.ofList cs) (some pos) <;> rfl

/-! ## Marks alone decide on a tree -/

/-- Lexemes whose marks can be read at one place can be read where they stand, as the same tokens up
to positions. -/
theorem exists_mapM_read {ls : List Lexeme} {ts : List Token}
    (h : (ls.map Lexeme.mark).mapM (Mark.read 0) = .ok ts) :
    ∃ us, ls.mapM Lexeme.read = .ok us ∧ Token.moveAll (fun _ => 0) us = ts := by
  induction ls generalizing ts with
  | nil => exact ⟨[], rfl, Except.ok.inj h⟩
  | cons l ls ih =>
    rw [List.map_cons, List.mapM_cons, bind_eq_ok] at h
    obtain ⟨t, ht, h⟩ := h
    rw [bind_eq_ok] at h
    obtain ⟨rest, hrest, h⟩ := h
    obtain rfl := Except.ok.inj h
    -- reading at 0 is reading at the lexeme's own place with all positions moved to 0
    have placed := Mark.read_move (fun _ => 0) l.mark l.pos
    rw [ht] at placed
    obtain ⟨u, hu, rfl⟩ := map_eq_ok.mp (mapError_eq_ok.mp placed.symm)
    obtain ⟨us, hus, rfl⟩ := ih hrest
    refine ⟨u :: us, ?_, rfl⟩
    rw [List.mapM_cons]
    simp [Lexeme.read, hu, hus]

/-- A text whose lexemes show the marks of flat tokens is cut into these, nested, up to
positions. -/
theorem Context.tokenize_of_marks {ctx : Context} {separators text : String} {marks : List Mark}
    {ts : List Token} (hs : ctx.separators = .text separators) (hn : ctx.nests = true)
    (shown : (lexemes separators.toList.contains 0 text.toList).map Lexeme.mark = marks)
    (read : marks.mapM (Mark.read 0) = .ok ts) :
    ∃ us, ctx.tokenize text = .ok us ∧ Token.moveAll (fun _ => 0) us = Token.nested ts := by
  obtain ⟨us, hus, rfl⟩ := exists_mapM_read (shown ▸ read)
  refine ⟨Token.nested us, ?_, (Token.nested_move _ us).symm⟩
  rw [tokenize_eq_map_nested hs hn, hus]
  rfl

end Reckon
