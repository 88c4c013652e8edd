import Mathlib
import Reckon.Proofs.Calls
import Reckon.Proofs.Run

/-!
What building keeps. Each move of the two stacks leaves three things as they are: the leaves and
calls on the stack of trees, read in order, are the operands and calls read so far; the operators in
those trees and on the other stack are the operators read so far; and the brackets that wait are
those still open. Main statement: a tree has the operands, calls and operators of its tokens, no
more and no less, through all depths of calls, and where several trees are left over, their number
is what the operands and calls exceed the operators by (`build_conserves`).
-/

namespace Reckon

/-! ## What a sequence and a tree hold -/

namespace Token

/-- The operands and calls of a sequence, in their order. -/
def atoms (ts : List Token) : List Token := ts.filter fun t => t.symbol?.isNone

/-- The operators of a sequence, brackets left out. -/
def operators (ts : List Token) : List Symbol := (ts.filterMap symbol?).filter fun s => !s.isBracket

def isBracket (t : Token) : Bool := t.symbol?.any Symbol.isBracket

/-- How many brackets are open after a sequence, of which `depth` were open before; nothing if one
closes that was never opened. -/
def depthAfter : Nat → List Token → Option Nat
  | depth, [] => some depth
  | depth, .symbol .opening _ :: ts => depthAfter (depth + 1) ts
  | 0, .symbol .closing _ :: _ => none
  | depth + 1, .symbol .closing _ :: ts => depthAfter depth ts
  | depth, _ :: ts => depthAfter depth ts

/-- Every bracket of the sequence has its match in it. -/
def Matched (ts : List Token) : Prop := depthAfter 0 ts = some 0

/-- How many tokens there are at all depths together, brackets left out. -/
def size (ts : List Token) : Nat := (flattenAll ts).countP fun t => !t.isBracket

section
variable (ts us : List Token) (op : Operator) (s : Symbol) (pos : Int)

@[simp] theorem atoms_append : atoms (ts ++ us) = atoms ts ++ atoms us := List.filter_append ..

@[simp] theorem operators_append : operators (ts ++ us) = operators ts ++ operators us := by
  simp [operators]

@[simp] theorem atoms_symbol : atoms [.symbol s pos] = [] := rfl

@[simp] theorem operators_operator : operators [.symbol (.operator op) pos] = [.operator op] := rfl

@[simp] theorem operators_opening : operators [.symbol .opening pos] = [] := rfl

@[simp] theorem operators_closing : operators [.symbol .closing pos] = [] := rfl

theorem depthAfter_append (d : Nat) :
    depthAfter d (ts ++ us) = (depthAfter d ts).bind (depthAfter · us) := by
  fun_induction depthAfter d ts <;> simp_all [depthAfter]

@[simp] theorem size_append : size (ts ++ us) = size ts + size us := by
  simp [size, flattenAll_append]

theorem size_call (f : FunctionName) (args : List Token) :
    size [.call f args pos] = 1 + size args := by
  simp [size, flattenAll, flatten, isBracket, symbol?, Nat.add_comm]

/-- The operators count, and then each operand and call with all that is inside it. -/
theorem size_eq : size ts = (operators ts).length + ((atoms ts).map fun t => size [t]).sum := by
  induction ts with
  | nil => rfl
  | cons t ts ih =>
    have first : size [t] = (operators [t]).length + ((atoms [t]).map fun t => size [t]).sum := by
      cases t with
      | symbol s pos => cases s <;> rfl
      | operand x pos => rfl
      | call f args pos => simp [operators, atoms, symbol?]
    rw [← List.singleton_append, size_append, operators_append, atoms_append, List.map_append,
      List.sum_append, List.length_append, first, ih]
    omega

end

theorem size_flatten (gs : List (List Token)) : size gs.flatten = (gs.map size).sum := by
  induction gs with
  | nil => rfl
  | cons g gs ih => simp [ih]

theorem Matched.flatten {gs : List (List Token)} (h : ∀ g ∈ gs, Matched g) :
    Matched gs.flatten := by
  induction gs with
  | nil => rfl
  | cons g gs ih =>
    obtain ⟨hg, hgs⟩ := List.forall_mem_cons.mp h
    rw [Matched, List.flatten_cons, depthAfter_append, hg, Option.bind_some]
    exact ih hgs

end Token

namespace Expr

/-- The leaves and calls of a tree, from left to right; calls are not entered. -/
def atoms : Expr → List Expr
  | operand x => [operand x]
  | node _ l r => l.atoms ++ r.atoms
  | call f args => [call f args]

/-- The symbols of a tree's nodes, those inside calls left out. -/
def operators : Expr → List Symbol
  | operand _ => []
  | node s l r => s :: (l.operators ++ r.operators)
  | call _ _ => []

/-- Nodes join two, so that a tree has one leaf or call more than nodes. -/
theorem length_atoms : ∀ e : Expr, e.atoms.length = e.operators.length + 1
  | operand x => rfl
  | node s l r => by
    rw [atoms, operators, List.length_append, length_atoms l, length_atoms r, List.length_cons,
      List.length_append]
    omega
  | call f args => rfl

theorem size_eq : ∀ e : Expr, e.size = e.operators.length + (e.atoms.map size).sum
  | operand x => by simp [operators, atoms]
  | node s l r => by
    rw [size, size_eq l, size_eq r, operators, atoms, List.map_append, List.sum_append,
      List.length_cons, List.length_append]
    omega
  | call f args => by simp [operators, atoms]

theorem sizeAll_eq (es : List Expr) : sizeAll es = (es.map size).sum := by
  induction es with
  | nil => rfl
  | cons e es ih => simp [sizeAll, ih]

/-- Trees together have as many leaves and calls as there are trees and nodes. -/
theorem length_flatMap_atoms (es : List Expr) :
    (es.reverse.flatMap atoms).length = es.length + (es.flatMap operators).length := by
  induction es with
  | nil => rfl
  | cons e es ih =>
    rw [List.reverse_cons, List.flatMap_append, List.length_append, ih, List.flatMap_singleton,
      length_atoms, List.flatMap_cons, List.length_append, List.length_cons]
    omega

end Expr

mutual

/-- The tree holds what the sequence holds: its leaves and calls stand for the operands and calls,
one by one and in order, its nodes take each operator once, and the brackets, which it does not
show, match. -/
inductive Conserves : List Token → Expr → Prop where
  | intro {ts : List Token} {t : Expr}
    (atoms : List.Forall₂ Stands (Token.atoms ts) t.atoms)
    (operators : t.operators.Perm (Token.operators ts))
    (brackets : Token.Matched ts) : Conserves ts t

/-- A leaf stands for an operand of its value, and a call for a call of its function whose tokens
are none at all, or one bracket pair around the arguments. -/
inductive Stands : Token → Expr → Prop where
  | operand (x : Float) (pos : Int) : Stands (.operand x pos) (.operand x)
  | name (f : FunctionName) (pos : Int) : Stands (.call f [] pos) (.call f [])
  | call (f : FunctionName) (pos left right : Int) {gs : List (List Token)} {args : List Expr}
    (pair : Token.Matched gs.flatten) (each : List.Forall₂ Conserves gs args) :
    Stands (.call f (.symbol .opening left :: (gs.flatten ++ [.symbol .closing right])) pos)
      (.call f args)

end

/-! ## What a move keeps -/

namespace Waiting

/-- The operators that wait. -/
def operators : List Waiting → List Symbol
  | [] => []
  | operator op _ :: ws => .operator op :: operators ws
  | bracket _ :: ws => operators ws

/-- How many brackets wait. -/
def brackets : List Waiting → Nat
  | [] => 0
  | operator _ _ :: ws => brackets ws
  | bracket _ :: ws => brackets ws + 1

end Waiting

/-- Every call of the sequence has a tree, so that no problem of the sequence is one of a call. -/
def Context.BuildsCalls (ctx : Context) (ts : List Token) : Prop :=
  ∀ f args pos, .call f args pos ∈ ts → ∃ e, ctx.buildCall f pos (ctx.pieces args) = .ok e

namespace Config
variable {ctx : Context}

/-- The stacks hold what has been read, no more and no less. -/
structure Tally (ctx : Context) (c : Config) : Prop where
  atoms : List.Forall₂ (fun a e => ctx.piece a = .tree (.ok e)) (Token.atoms c.seen)
    (c.trees.reverse.flatMap Expr.atoms)
  operators : (c.trees.flatMap Expr.operators ++ Waiting.operators c.waiting).Perm
    (Token.operators c.seen)
  brackets : Token.depthAfter 0 c.seen = some (Waiting.brackets c.waiting)

theorem Tally.start : Tally ctx .start := ⟨.nil, .nil, rfl⟩

/-- Reading an operand or a call puts one leaf or call after all others. -/
theorem Tally.atom {seen : List Token} {ws : List Waiting} {es : List Expr}
    (h : Tally ctx ⟨seen, ws, es⟩) {t : Token} {e : Expr} (ht : t.symbol? = none)
    (he : e.atoms = [e] ∧ e.operators = []) (built : ctx.piece t = .tree (.ok e)) :
    Tally ctx ⟨seen ++ [t], ws, e :: es⟩ := by
  obtain ⟨atoms, operators, brackets⟩ := h
  refine ⟨?_, ?_, ?_⟩
  · have last : List.Forall₂ (fun a e => ctx.piece a = .tree (.ok e)) (Token.atoms [t])
        e.atoms := by
      simpa [Token.atoms, ht, he] using built
    simpa using List.rel_append atoms last
  · simpa [Token.operators, ht, he] using operators
  · have passed : ∀ d, Token.depthAfter d [t] = some d := by
      intro d
      cases t with
      | symbol s pos => cases ht
      | _ => simp [Token.depthAfter]
    rw [Token.depthAfter_append, brackets]
    exact passed _

/-- No move loses or adds anything: a sign that is read waits, a bracket that closes takes its match
along, and an operator that joins goes from its stack into the tree. -/
theorem Tally.move {c d : Config} (h : Tally ctx c) (move : Move ctx c d) : Tally ctx d := by
  cases move with
  | operand x pos => exact h.atom rfl ⟨rfl, rfl⟩ (by rw [Context.piece])
  | @call f args pos e _ _ _ built =>
    obtain ⟨gs, es, -, -, -, rfl⟩ := Context.of_buildCall_ok built
    exact h.atom rfl ⟨rfl, rfl⟩ (by rw [Context.piece, built])
  | opening pos =>
    obtain ⟨atoms, operators, brackets⟩ := h
    refine ⟨by simpa using atoms, by simpa [Waiting.operators] using operators, ?_⟩
    rw [Token.depthAfter_append, brackets]
    rfl
  | closing left right =>
    obtain ⟨atoms, operators, brackets⟩ := h
    refine ⟨by simpa using atoms, by simpa [Waiting.operators] using operators, ?_⟩
    rw [Token.depthAfter_append, brackets]
    rfl
  | operator op pos =>
    obtain ⟨atoms, operators, brackets⟩ := h
    refine ⟨by simpa using atoms, ?_, ?_⟩
    · rw [Token.operators_append, Token.operators_operator]
      exact (List.perm_middle.trans (operators.cons _)).trans (List.perm_append_singleton _ _).symm
    · rw [Token.depthAfter_append, brackets]
      rfl
  | join op pos x y =>
    obtain ⟨atoms, operators, brackets⟩ := h
    refine ⟨by simpa [Expr.binary, Expr.atoms] using atoms, ?_, brackets⟩
    -- the operator goes from its stack into the tree, and the two trees change places
    refine List.Perm.trans ?_ (List.perm_middle.symm.trans operators)
    simp only [Expr.binary, Expr.operators, List.flatMap_cons, List.cons_append,
      List.append_assoc]
    refine List.Perm.cons _ ?_
    rw [← List.append_assoc, ← List.append_assoc y.operators]
    exact List.perm_append_comm.append_right _

theorem Tally.run {c : Config} (h : Run ctx .start c) : Tally ctx c := by
  induction h with
  | refl => exact .start
  | tail _ move tally => exact tally.move move

theorem Tally.buildsCalls {c : Config} (h : Tally ctx c) : ctx.BuildsCalls c.seen := by
  intro f args pos member
  have atom : .call f args pos ∈ Token.atoms c.seen := List.mem_filter.mpr ⟨member, rfl⟩
  obtain ⟨e, -, built⟩ := exists_of_forall₂ h.atoms atom
  rw [Context.piece] at built
  exact ⟨e, Piece.tree.inj built⟩

/-- Once no operator waits, the trees are as many as the operands and calls exceed the operators
by. -/
theorem Tally.length_trees {seen : List Token} {es : List Expr} (h : Tally ctx ⟨seen, [], es⟩) :
    es.length + (Token.operators seen).length = (Token.atoms seen).length := by
  have atoms := h.atoms.length_eq
  have operators := h.operators.length_eq
  rw [Waiting.operators, List.append_nil] at operators
  rw [atoms, ← operators]
  exact (Expr.length_flatMap_atoms es).symm

end Config

/-! ## Through all depths -/

theorem sum_map_eq_of_forall₂ {α β : Type} {f : α → Nat} {g : β → Nat} {xs : List α} {ys : List β}
    (h : List.Forall₂ (fun x y => g y = f x) xs ys) : (ys.map g).sum = (xs.map f).sum := by
  induction h with
  | nil => rfl
  | cons hxy _ ih => rw [List.map_cons, List.map_cons, List.sum_cons, List.sum_cons, hxy, ih]

namespace Context
variable {ctx : Context} {ts : List Token}

/-- What an operand or a call is built to stands for it, if that is so of all arguments. -/
theorem stands_of_piece {a : Token} {e : Expr} (built : ctx.piece a = .tree (.ok e))
    (ih : ∀ f args pos gs g, a = .call f args pos → Arguments.split? Token.symbol? args = some gs →
      g ∈ gs → ∀ t, ctx.build g = .ok t → Conserves g t ∧ t.size = Token.size g) :
    Stands a e ∧ e.size = Token.size [a] := by
  cases a with
  | symbol s pos =>
    rw [piece] at built
    cases built
  | operand x pos =>
    rw [piece] at built
    obtain rfl := Except.ok.inj (Piece.tree.inj built)
    exact ⟨.operand x pos, rfl⟩
  | call f args pos =>
    rw [piece] at built
    obtain ⟨gs, es, hsplit, hes, -, rfl⟩ := of_buildCall_ok (Piece.tree.inj built)
    have each : List.Forall₂ (fun g t => Token.Matched g ∧ Conserves g t ∧ t.size = Token.size g)
        gs es := by
      have keeps := fun g hg => ih f args pos gs g rfl hsplit hg
      refine ((List.forall₂_and_left _ _).mpr ⟨keeps, hes⟩).imp ?_
      rintro g t ⟨keeps, hbuild⟩
      obtain ⟨conserves, size⟩ := keeps t hbuild
      cases conserves with
      | intro atoms operators brackets => exact ⟨brackets, .intro atoms operators brackets, size⟩
    obtain ⟨matched, each⟩ := (List.forall₂_and_left _ _).mp each
    have sizes : Expr.sizeAll es = Token.size gs.flatten := by
      rw [Expr.sizeAll_eq, Token.size_flatten]
      exact sum_map_eq_of_forall₂ (each.imp fun _ _ h => h.2)
    rcases Arguments.eq_of_split? hsplit with ⟨rfl, rfl⟩ | ⟨left, right, rfl⟩
    · cases each
      exact ⟨.name f pos, rfl⟩
    · refine ⟨.call f pos left right (Token.Matched.flatten matched)
        (each.imp fun _ _ h => h.1), ?_⟩
      rw [Expr.size, sizes, Token.size_call, ← List.singleton_append, Token.size_append,
        Token.size_append]
      have opening : Token.size [.symbol .opening left] = 0 := rfl
      have closing : Token.size [.symbol .closing right] = 0 := rfl
      omega

theorem conserves_of_build (ts : List Token) :
    ∀ t, ctx.build ts = .ok t → Conserves ts t ∧ t.size = Token.size ts := by
  induction ts using Token.induction_on_arguments with
  | step ts ih =>
    intro t h
    obtain ⟨atoms, operators, brackets⟩ := Config.Tally.run (run_of_build h)
    have atoms : List.Forall₂ (fun a e => ctx.piece a = .tree (.ok e)) (Token.atoms ts)
        t.atoms := by
      simpa using atoms
    have operators : t.operators.Perm (Token.operators ts) := by
      simpa [Waiting.operators] using operators
    have each : List.Forall₂ (fun a e => Stands a e ∧ e.size = Token.size [a]) (Token.atoms ts)
        t.atoms := by
      have members : ∀ a ∈ Token.atoms ts, a ∈ ts := fun a ha => (List.mem_filter.mp ha).1
      refine ((List.forall₂_and_left _ _).mpr ⟨members, atoms⟩).imp ?_
      rintro a e ⟨ha, built⟩
      apply stands_of_piece built
      rintro f args pos gs g rfl
      exact ih f args pos gs g ha
    refine ⟨.intro (each.imp fun _ _ h => h.1) operators brackets, ?_⟩
    rw [Expr.size_eq, Token.size_eq, operators.length_eq,
      sum_map_eq_of_forall₂ (each.imp fun _ _ h => h.2)]

/-! ## Several trees -/

/-- Several trees are left over in an argument of a call, or else once everything has been read. -/
theorem severalTrees_cases {k : Nat} (h : ctx.build ts = fail (.malformed (.severalTrees k))) :
    (∃ f args pos gs g, .call f args pos ∈ ts ∧ Arguments.split? Token.symbol? args = some gs ∧
      g ∈ gs ∧ ctx.build g = fail (.malformed (.severalTrees k))) ∨
    ctx.BuildsCalls ts ∧ k + (Token.operators ts).length = (Token.atoms ts).length := by
  obtain ⟨c, rest, run, hseen, hhalt⟩ := stops_of_build h
  have tally := Config.Tally.run run
  cases hhalt with
  | @call f args pos _ _ _ failed =>
    have member : .call f args pos ∈ ts := by simp [← hseen]
    rcases of_buildCall_error failed with hp | ⟨gs, g, hsplit, hg, hbuild⟩ | ⟨expected, given, hp⟩
    · cases hp
    · exact .inl ⟨f, args, pos, gs, g, member, hsplit, hg, hbuild⟩
    · cases hp
  | @several seen es _ =>
    obtain rfl : seen = ts := by simpa using hseen
    exact .inr ⟨tally.buildsCalls, tally.length_trees⟩

end Context

/-- What building keeps, and what is left over where it cannot finish. -/
theorem build_conserves (ctx : Context) (ts : List Token) :
    (∀ t, ctx.build ts = .ok t → Conserves ts t ∧ t.size = Token.size ts) ∧
    (∀ k, ctx.BuildsCalls ts → ctx.build ts = fail (.malformed (.severalTrees k)) →
      k + (Token.operators ts).length = (Token.atoms ts).length) ∧
    ∀ k, ctx.build ts = fail (.malformed (.severalTrees k)) →
      ∃ us, Token.Within ts us ∧ ctx.BuildsCalls us ∧
        ctx.build us = fail (.malformed (.severalTrees k)) ∧
        k + (Token.operators us).length = (Token.atoms us).length := by
  refine ⟨Context.conserves_of_build ts, ?_, ?_⟩
  · intro k calls h
    rcases Context.severalTrees_cases h with ⟨f, args, pos, gs, g, member, hsplit, hg, hbuild⟩ | own
    · obtain ⟨e, he⟩ := calls f args pos member
      obtain ⟨gs', es, hsplit', hes, -⟩ := Context.of_buildCall_ok he
      obtain rfl : gs = gs' := Option.some.inj (hsplit.symm.trans hsplit')
      obtain ⟨t, -, ht⟩ := exists_of_forall₂ hes hg
      rw [ht] at hbuild
      cases hbuild
    · exact own.2
  · intro k
    induction ts using Token.induction_on_arguments with
    | step ts ih =>
      intro h
      rcases Context.severalTrees_cases h with
        ⟨f, args, pos, gs, g, member, hsplit, hg, hbuild⟩ | ⟨calls, count⟩
      · obtain ⟨us, within, rest⟩ := ih f args pos gs g member hsplit hg hbuild
        exact ⟨us, (Token.Within.argument .whole member hsplit hg).trans within, rest⟩
      · exact ⟨ts, .whole, calls, h, count⟩

/-- A sum written after its operands, of which one is a call with a bracket pair to spare; and two
trees left over in an argument of a call, where two operands stand in one bracket pair. -/
theorem build_conserves_operator_last :
    let ts : List Token := [.operand 1 0, .call .sin [.symbol .opening 5, .symbol .opening 6,
      .operand 0 7, .symbol .closing 8, .symbol .closing 9] 2, .symbol (.operator .add) 11]
    let t : Expr := .binary .add (.operand 1) (.call .sin [.operand 0])
    let pair : List Token := [.symbol .opening 4, .operand 1 5, .operand 2 7, .symbol .closing 8]
    let us : List Token := [.call .sin (.symbol .opening 3 :: (pair ++ [.symbol .closing 9])) 0]
    (Context.standard.build ts = .ok t ∧ Conserves ts t ∧ t.size = Token.size ts) ∧
    (Context.standard.BuildsCalls pair ∧
      Context.standard.build pair = fail (.malformed (.severalTrees 2)) ∧
      2 + (Token.operators pair).length = (Token.atoms pair).length) ∧
    Context.standard.build us = fail (.malformed (.severalTrees 2)) ∧
      ∃ vs, Token.Within us vs ∧ Context.standard.BuildsCalls vs ∧
        Context.standard.build vs = fail (.malformed (.severalTrees 2)) ∧
        2 + (Token.operators vs).length = (Token.atoms vs).length := by
  intro ts t pair us
  have hts : Context.standard.build ts = .ok t := by rfl
  have hpair : Context.standard.build pair = fail (.malformed (.severalTrees 2)) := by rfl
  have hus : Context.standard.build us = fail (.malformed (.severalTrees 2)) := by rfl
  have calls : Context.standard.BuildsCalls pair := by
    intro f args pos h
    simp [pair] at h
  exact ⟨⟨hts, (build_conserves .standard ts).1 t hts⟩,
    ⟨calls, hpair, (build_conserves .standard pair).2.1 2 calls hpair⟩,
    hus, (build_conserves .standard us).2.2 2 hus⟩

/-- The count may be that of an argument: here three operands and calls stand without an operator,
and what is reported is the two trees that the call's argument leaves. -/
theorem build_counts_argument :
    let ts : List Token := [.operand 1 0, .operand 2 2, .call .sin [.symbol .opening 7,
      .symbol .opening 8, .operand 4 9, .operand 5 11, .symbol .closing 12, .symbol .closing 13] 4]
    Context.standard.build ts = fail (.malformed (.severalTrees 2)) ∧
      2 + (Token.operators ts).length ≠ (Token.atoms ts).length := by
  intro ts
  have built : Context.standard.build ts = fail (.malformed (.severalTrees 2)) := by rfl
  exact ⟨built, by decide⟩

end Reckon
