import Reckon.Proofs.Blame

/-!
Taking from lists that may be empty. Here the builder is written once more, with nothing in its
types that would keep it from going wrong: any sign may wait, and every sign, tree and group is
taken from a list that may have none. Main statements: it does what the builder does, on all tokens
and under every context (`Unguarded.build_eq`); so that under whole precedences it ends with a tree
or with a failure of building, and neither takes from an empty list nor joins trees by a bracket
(`build_safe`).
-/

namespace Reckon

/-- What stops a builder that takes from its lists unasked: a problem, or an empty list. -/
inductive Stop where
  | problem (p : Problem)
  | emptyList

namespace Unguarded

def stop {α : Type} (f : Failure) : Except Stop α := .error (.problem (.failure f))

/-- Takes the first element off a list. -/
def pop {α : Type} : List α → Except Stop (α × List α)
  | [] => .error .emptyList
  | x :: xs => .ok (x, xs)

/-! ## Arguments -/

/-- The groups that have been cut so far, the latest first; the depth and the element before. -/
structure Cut (α : Type) where
  groups : List (List α)
  depth : Int
  previous : Option α

section
variable {α : Type} (symbol? : α → Option Symbol)

/-- Puts an element at the end of the latest group, or of a new one where an argument ends. -/
def Cut.take (c : Cut α) (x : α) : Except Stop (Cut α) := do
  let ends := c.previous.all fun p =>
    Arguments.endsOperand symbol? p && Arguments.startsOperand symbol? x
  let groups := if c.depth = 0 ∧ ends then [] :: c.groups else c.groups
  let (group, others) ← pop groups
  .ok ⟨(group ++ [x]) :: others, Arguments.after symbol? c.depth x, some x⟩

/-- The arguments of a call, or `none` if they are not in brackets. -/
def split (xs : List α) : Except Stop (Option (List (List α))) :=
  if xs.isEmpty then .ok (some [])
  else do
    let (first, _) ← pop xs
    if symbol? first == some .opening && Arguments.closesAtEnd symbol? 0 xs then
      let c ← xs.tail.dropLast.foldlM (Cut.take symbol?) ⟨[], 0, none⟩
      .ok (some c.groups.reverse)
    else .ok none

end

/-! ## Sequences -/

/-- What a token brings to its sequence, as a `Piece` does. -/
inductive Item where
  | tree (built : Except Stop Expr)
  | sign (s : Symbol) (pos : Int)

def Item.symbol? : Item → Option Symbol
  | sign s _ => some s
  | tree _ => none

/-- The signs that wait and the trees, each with the latest first. Any sign may wait. -/
structure Desk where
  signs : List (Symbol × Int)
  trees : List Expr

/-- Joins the two latest trees by the latest sign. -/
def Desk.reduce (d : Desk) : Except Stop Desk := do
  let ((s, pos), signs) ← pop d.signs
  if d.trees.length < 2 then stop (.missingOperand s.text pos)
  else do
    let (right, trees) ← pop d.trees
    let (left, trees) ← pop trees
    let tree ← (Expr.join s left right).mapError fun f => .problem (.fault f)
    .ok ⟨signs, tree :: trees⟩

theorem Desk.signs_reduce {d d' : Desk} (h : d.reduce = .ok d') :
    d'.signs.length < d.signs.length := by
  cases hd : d.signs with
  | nil =>
    rw [reduce, hd] at h
    cases h
  | cons s signs =>
    rw [reduce, hd, pop, ok_bind] at h
    simp only at h
    split at h
    · cases h
    · obtain ⟨_, -, h⟩ := bind_eq_ok.mp h
      obtain ⟨_, -, h⟩ := bind_eq_ok.mp h
      obtain ⟨_, -, h⟩ := bind_eq_ok.mp h
      obtain rfl := Except.ok.inj h
      exact Nat.lt_succ_self signs.length

/-- Reduces as long as a sign waits and the latest one meets the condition. -/
def Desk.reduceWhile (meets : Symbol × Int → Except Stop Bool) (d : Desk) : Except Stop Desk :=
  match d.signs with
  | [] => .ok d
  | s :: _ =>
    match meets s with
    | .error e => .error e
    | .ok false => .ok d
    | .ok true =>
      match _h : d.reduce with
      | .error e => .error e
      | .ok d' => d'.reduceWhile meets
  termination_by d.signs.length
  decreasing_by exact Desk.signs_reduce _h

/-- Whether a sign that waits is reduced before an operator comes. An opening bracket is not. -/
def before (ctx : Context) (incoming : Operator) : Symbol → Except Stop Bool
  | .opening => .ok false
  | top =>
    match (ctx.precedence top.text).relation? (ctx.precedence incoming.text) with
    | none => .error (.problem (.fault .wrongType))
    | some r =>
      match ctx.associativity incoming.text with
      | .right => .ok (r == .greater)
      | .left => .ok (r == .greater || r == .equal)

def Desk.push (ctx : Context) (d : Desk) : Item → Except Stop Desk
  | .tree built => built.map fun t => { d with trees := t :: d.trees }
  | .sign .opening pos => .ok { d with signs := (.opening, pos) :: d.signs }
  | .sign .closing pos => do
    let d ← d.reduceWhile fun s => .ok (s.1 != .opening)
    if d.signs.isEmpty then stop (.unmatchedClose pos)
    else do
      let (_, signs) ← pop d.signs
      .ok { d with signs := signs }
  | .sign (.operator op) pos => do
    let d ← d.reduceWhile fun s => before ctx op s.1
    .ok { d with signs := (.operator op, pos) :: d.signs }

/-- Reduces by all that waits; one tree must be left, and is taken. -/
def Desk.finish (d : Desk) : Except Stop Expr := do
  let d ← d.reduceWhile fun s =>
    if s.1 = .opening then stop (.malformed (.neverClosed s.2)) else .ok true
  if d.trees.isEmpty then stop (.malformed .empty)
  else if 1 < d.trees.length then stop (.malformed (.severalTrees d.trees.length))
  else do
    let (tree, _) ← pop d.trees
    .ok tree

def sequence (ctx : Context) (items : List Item) : Except Stop Expr := do
  let d ← items.foldlM (Desk.push ctx) ⟨[], []⟩
  d.finish

def call (ctx : Context) (f : FunctionName) (pos : Int) (args : List Item) : Except Stop Expr := do
  match ← split Item.symbol? args with
  | none => stop (.malformed (.notEnclosed f.text pos))
  | some groups =>
    let trees ← groups.mapM (sequence ctx)
    match ctx.wrongCount? f trees.length with
    | some lack => stop (.unsupported f.text lack (some pos))
    | none => .ok (.call f trees)

mutual

def item (ctx : Context) : Token → Item
  | .operand x _ => .tree (.ok (.operand x))
  | .symbol s pos => .sign s pos
  | .call f args pos => .tree (call ctx f pos (items ctx args))

def items (ctx : Context) : List Token → List Item
  | [] => []
  | t :: ts => item ctx t :: items ctx ts

end

/-- The tree of a token sequence. -/
def build (ctx : Context) (tokens : List Token) : Except Stop Expr :=
  sequence ctx (items ctx tokens)

/-! ## The same as the builder -/

section
variable {α β : Type}

/-- The outcome of a builder that finds none of its lists empty. -/
def lift (x : Except Problem α) : Except Stop α := x.mapError .problem

theorem lift_ok (a : α) : lift (.ok a : Except Problem α) = .ok a := rfl

theorem lift_bind (x : Except Problem α) (f : α → Except Problem β) :
    lift (x >>= f) = lift x >>= fun a => lift (f a) := by
  cases x <;> rfl

end

section Split
variable {α : Type} (symbol? : α → Option Symbol)

/-- Once there is a group, the rest of the elements go to it and to those that are cut after it. -/
theorem foldlM_take (g : List α) (others : List (List α)) (d : Int) (p : α) (xs : List α) :
    (xs.foldlM (Cut.take symbol?) ⟨g :: others, d, some p⟩).map Cut.groups =
      .ok ((Arguments.groupsAfter symbol? p d xs).2.reverse ++
        (g ++ (Arguments.groupsAfter symbol? p d xs).1) :: others) := by
  induction xs generalizing g others d p with
  | nil => simp [Arguments.groupsAfter]
  | cons x xs ih =>
    rw [List.foldlM_cons, Arguments.groupsAfter]
    by_cases cut : d = 0 ∧ Arguments.endsOperand symbol? p ∧ Arguments.startsOperand symbol? x
    · have new : Cut.take symbol? ⟨g :: others, d, some p⟩ x =
          .ok ⟨[x] :: g :: others, Arguments.after symbol? d x, some x⟩ := by
        simp [Cut.take, cut, pop]
      rw [new, ok_bind, ih]
      simp [cut]
    · have same : Cut.take symbol? ⟨g :: others, d, some p⟩ x =
          .ok ⟨(g ++ [x]) :: others, Arguments.after symbol? d x, some x⟩ := by
        simp [Cut.take, cut, pop]
      rw [same, ok_bind, ih]
      simp [cut]

/-- The first element finds no group, and starts one. -/
theorem foldlM_take_start (xs : List α) :
    (xs.foldlM (Cut.take symbol?) ⟨[], 0, none⟩).map Cut.groups =
      .ok (Arguments.groups symbol? xs).reverse := by
  cases xs with
  | nil => rfl
  | cons x xs =>
    have first : Cut.take symbol? ⟨[], 0, none⟩ x =
        .ok ⟨[[x]], Arguments.after symbol? 0 x, some x⟩ := by
      simp [Cut.take, pop]
    rw [List.foldlM_cons, first, ok_bind, foldlM_take]
    simp [Arguments.groups]

theorem split_eq (xs : List α) : split symbol? xs = .ok (Arguments.split? symbol? xs) := by
  cases xs with
  | nil => rfl
  | cons x xs =>
    obtain ⟨c, cut, groups⟩ := map_eq_ok.mp (foldlM_take_start symbol? xs.dropLast)
    simp only [split, Arguments.split?, Arguments.enclosed, List.isEmpty_cons, List.tail_cons, pop,
      ok_bind, cut, groups, List.reverse_reverse, Bool.false_eq_true, if_false]
    exact (apply_ite Except.ok _ _ _).symm

end Split

/-- A sign that waits, as the first of a list. -/
def ofWaiting : Waiting → Symbol × Int
  | .operator op pos => (.operator op, pos)
  | .bracket pos => (.opening, pos)

def ofStacks (s : Stacks) : Desk := ⟨s.waiting.map ofWaiting, s.trees⟩

def ofPiece : Piece → Item
  | .tree built => .tree (lift built)
  | .symbol s pos => .sign s pos

section Loop
variable {meets : Symbol × Int → Except Stop Bool}

theorem reduceWhile_nil (es : List Expr) :
    (ofStacks ⟨[], es⟩).reduceWhile meets = .ok (ofStacks ⟨[], es⟩) := by
  rw [Desk.reduceWhile]
  rfl

theorem reduceWhile_held {w : Waiting} (h : meets (ofWaiting w) = .ok false) (ws : List Waiting)
    (es : List Expr) :
    (ofStacks ⟨w :: ws, es⟩).reduceWhile meets = .ok (ofStacks ⟨w :: ws, es⟩) := by
  rw [Desk.reduceWhile]
  simp only [ofStacks, List.map_cons, h]

theorem reduceWhile_error {w : Waiting} {e : Stop} (h : meets (ofWaiting w) = .error e)
    (ws : List Waiting) (es : List Expr) :
    (ofStacks ⟨w :: ws, es⟩).reduceWhile meets = .error e := by
  rw [Desk.reduceWhile]
  simp only [ofStacks, List.map_cons, h]

theorem reduce_operator (op : Operator) (pos : Int) (ws : List Waiting) (es : List Expr) :
    (ofStacks ⟨.operator op pos :: ws, es⟩).reduce =
      (lift (Stacks.join op pos es)).map fun us => ofStacks ⟨ws, us⟩ := by
  match es with
  | y :: x :: es =>
    have enough : ¬(y :: x :: es).length < 2 := by simp
    rw [Desk.reduce]
    simp only [ofStacks, List.map_cons, pop, ok_bind, if_neg enough]
    rfl
  | [_] => rfl
  | [] => rfl

theorem reduceWhile_operator {op : Operator} {pos : Int}
    (h : meets (ofWaiting (.operator op pos)) = .ok true) (ws : List Waiting) (es : List Expr) :
    (ofStacks ⟨.operator op pos :: ws, es⟩).reduceWhile meets =
      lift (Stacks.join op pos es) >>= fun us => (ofStacks ⟨ws, us⟩).reduceWhile meets := by
  have reduced := reduce_operator op pos ws es
  rw [Desk.reduceWhile]
  simp only [ofStacks, List.map_cons, h] at reduced ⊢
  cases joined : Stacks.join op pos es with
  | error p =>
    rw [joined] at reduced
    split
    · next e he =>
      obtain rfl := Except.error.inj (he.symm.trans reduced)
      rfl
    · next d hd => cases hd.symm.trans reduced
  | ok us =>
    rw [joined] at reduced
    split
    · next e he => cases he.symm.trans reduced
    · next d hd =>
      obtain rfl := Except.ok.inj (hd.symm.trans reduced)
      rfl

end Loop

section
variable {ctx : Context}

theorem before_operator (ctx : Context) (incoming op : Operator) :
    before ctx incoming (.operator op) =
      match ctx.reduces op incoming with
      | some b => .ok b
      | none => .error (.problem (.fault .wrongType)) := by
  have key : Symbol.text (.operator op) = op.text := rfl
  rw [before, Context.reduces, key]
  · cases (ctx.precedence op.text).relation? (ctx.precedence incoming.text) with
    | none => rfl
    | some r =>
      simp only [Option.map_some]
      cases ctx.associativity incoming.text <;> rfl
  · simp

theorem reduceWhile_before (incoming : Operator) (ws : List Waiting) (es : List Expr) :
    (ofStacks ⟨ws, es⟩).reduceWhile (fun s => before ctx incoming s.1) =
      (lift (Stacks.reduce ctx incoming ws es)).map ofStacks := by
  induction ws generalizing es with
  | nil => exact reduceWhile_nil es
  | cons w ws ih =>
    cases w with
    | bracket pos => exact reduceWhile_held rfl ws es
    | operator op pos =>
      have order := before_operator ctx incoming op
      rw [Stacks.reduce]
      split
      · next h =>
        rw [h] at order
        rw [reduceWhile_operator order, lift_bind]
        cases Stacks.join op pos es with
        | error p => rfl
        | ok us => exact ih us
      · next h =>
        rw [h] at order
        exact reduceWhile_held order ws es
      · next h =>
        rw [h] at order
        exact reduceWhile_error order ws es

/-- An opening bracket that waits is there to be taken, and one that does not is missed before. -/
theorem push_closing (pos : Int) (ws : List Waiting) (es : List Expr) :
    (ofStacks ⟨ws, es⟩).push ctx (.sign .closing pos) =
      (lift (Stacks.close pos ws es)).map ofStacks := by
  induction ws generalizing es with
  | nil =>
    rw [Desk.push, reduceWhile_nil]
    rfl
  | cons w ws ih =>
    cases w with
    | bracket p =>
      rw [Desk.push, reduceWhile_held rfl]
      rfl
    | operator op p =>
      rw [Desk.push, reduceWhile_operator rfl, Stacks.close, lift_bind]
      cases Stacks.join op p es with
      | error p => rfl
      | ok us =>
        have next := ih us
        rw [Desk.push] at next
        exact next

theorem push_eq (s : Stacks) (p : Piece) :
    (ofStacks s).push ctx (ofPiece p) = (lift (s.push ctx p)).map ofStacks := by
  obtain ⟨ws, es⟩ := s
  cases p with
  | tree built => cases built <;> rfl
  | symbol sign pos =>
    cases sign with
    | opening => rfl
    | closing => exact push_closing pos ws es
    | operator op =>
      rw [ofPiece, Desk.push, reduceWhile_before, Stacks.push]
      cases Stacks.reduce ctx op ws es <;> rfl

theorem pushAll_eq (s : Stacks) (ps : List Piece) :
    (ps.map ofPiece).foldlM (Desk.push ctx) (ofStacks s) =
      (lift (Stacks.pushAll ctx s ps)).map ofStacks := by
  induction ps generalizing s with
  | nil => rfl
  | cons p ps ih =>
    rw [List.map_cons, List.foldlM_cons, push_eq, Stacks.pushAll]
    cases s.push ctx p with
    | error p => rfl
    | ok s => exact ih s

theorem finish_eq (ws : List Waiting) (es : List Expr) :
    (ofStacks ⟨ws, es⟩).finish = lift (Stacks.finish ws es) := by
  induction ws generalizing es with
  | nil =>
    rw [Desk.finish, reduceWhile_nil]
    match es with
    | [] => rfl
    | [t] => rfl
    | x :: y :: es =>
      have several : 1 < (x :: y :: es).length := by simp
      simp only [ok_bind, ofStacks, List.isEmpty_cons, if_pos several, Bool.false_eq_true, if_false]
      rfl
  | cons w ws ih =>
    cases w with
    | bracket pos =>
      rw [Desk.finish, reduceWhile_error rfl]
      rfl
    | operator op pos =>
      rw [Desk.finish, reduceWhile_operator rfl, Stacks.finish, lift_bind]
      cases Stacks.join op pos es with
      | error p => rfl
      | ok us =>
        have next := ih us
        rw [Desk.finish] at next
        exact next

theorem sequence_eq (ps : List Piece) :
    sequence ctx (ps.map ofPiece) = lift (ctx.reduceAll ps) := by
  have pushed := @pushAll_eq ctx .empty ps
  rw [sequence, Context.reduceAll, lift_bind]
  have start : (⟨[], []⟩ : Desk) = ofStacks .empty := rfl
  rw [start, pushed]
  cases Stacks.pushAll ctx .empty ps with
  | error p => rfl
  | ok s => exact finish_eq s.waiting s.trees

theorem mapM_sequence (gs : List (List Piece)) :
    (gs.map (·.map ofPiece)).mapM (sequence ctx) = lift (ctx.reduceEach gs) := by
  induction gs with
  | nil => rfl
  | cons g gs ih =>
    rw [List.map_cons, List.mapM_cons, sequence_eq, ih, Context.reduceEach]
    cases ctx.reduceAll g with
    | error p => rfl
    | ok t => cases ctx.reduceEach gs <;> rfl

theorem call_eq (f : FunctionName) (pos : Int) (args : List Piece) :
    call ctx f pos (args.map ofPiece) = lift (ctx.buildCall f pos args) := by
  have signs : ∀ p, (ofPiece p).symbol? = p.symbol? := by
    intro p
    cases p <;> rfl
  rw [call, split_eq, Arguments.split?_map signs, Context.buildCall]
  cases Arguments.split? Piece.symbol? args with
  | none => rfl
  | some gs =>
    simp only [Option.map_some, ok_bind, mapM_sequence]
    cases ctx.reduceEach gs with
    | error p => rfl
    | ok trees =>
      simp only [lift_ok, ok_bind]
      cases ctx.wrongCount? f trees.length <;> rfl

mutual

theorem item_eq : ∀ t : Token, item ctx t = ofPiece (ctx.piece t)
  | .operand x pos => by
    rw [item, Context.piece]
    rfl
  | .symbol s pos => by
    rw [item, Context.piece]
    rfl
  | .call f args pos => by
    rw [item, Context.piece, items_eq args, call_eq]
    rfl

theorem items_eq : ∀ ts : List Token, items ctx ts = (ctx.pieces ts).map ofPiece
  | [] => by
    rw [items, Context.pieces]
    rfl
  | t :: ts => by rw [items, Context.pieces, item_eq t, items_eq ts, List.map_cons]

end

end

/-- With lists that may be empty and any sign among those that wait, the outcome is the builder's:
no list is found empty. -/
theorem build_eq (ctx : Context) (ts : List Token) : build ctx ts = lift (ctx.build ts) := by
  rw [build, items_eq, sequence_eq, Context.build]

end Unguarded

/-- Under whole precedences, any tokens at all give a tree or a failure of building: also where each
element is taken from a list that may be empty and trees may be joined by any sign, no list is
found empty and no bracket is met. -/
theorem build_safe {ctx : Context} (h : ctx.Ranked) (ts : List Token) :
    (∃ t, ctx.build ts = .ok t ∧ Unguarded.build ctx ts = .ok t) ∨
      ∃ f, ctx.build ts = fail f ∧ Unguarded.build ctx ts = Unguarded.stop f ∧
        f.inStage .build = true := by
  have same := Unguarded.build_eq ctx ts
  cases hbuild : ctx.build ts with
  | ok t =>
    rw [hbuild] at same
    exact .inl ⟨t, rfl, same⟩
  | error p =>
    obtain ⟨f, rfl, blames⟩ := Context.blames_of_build h hbuild
    rw [hbuild] at same
    exact .inr ⟨f, rfl, same, blames.inStage⟩

/-- Calls with tokens that no text reads as: two bracket pairs side by side do not enclose what they
hold, and an argument that goes on behind its bracket pair misses an operand. -/
theorem build_safe_hand_built :
    Context.standard.Ranked ∧
    (let pairs : List Token := [.symbol .opening 3, .symbol .closing 4, .symbol .opening 5,
      .symbol .closing 6]
    Unguarded.build .standard [.call .sin pairs 0] =
      Unguarded.stop (.malformed (.notEnclosed "sin" 0))) ∧
    let wrapped : List Token := [.symbol .opening 3, .symbol .opening 4, .operand 1 5,
      .symbol .closing 6, .symbol (.operator .add) 7, .symbol .closing 8]
    Unguarded.build .standard [.call .sin wrapped 0] = Unguarded.stop (.missingOperand "+" 7) := by
  have same : ∀ {ts f}, Context.standard.build ts = fail f →
      Unguarded.build .standard ts = Unguarded.stop f := by
    intro ts f built
    rcases build_safe Context.standard_ranked ts with ⟨t, ok, -⟩ | ⟨g, failed, same, -⟩
    · cases built.symm.trans ok
    · obtain rfl := Problem.failure.inj (Except.error.inj (built.symm.trans failed))
      exact same
  exact ⟨Context.standard_ranked, same (by rfl), same (by rfl)⟩

end Reckon
