import Reckon.Proofs.Exactness
import Reckon.Proofs.Grouping
import Reckon.Proofs.Reading
import Reckon.Proofs.Rendering

/-!
Writing a tree and reading the text back, under any whole precedences. Brackets are written from the
precedences of an operator and its operand alone, and only around an operand whose precedence is
above zero, while the builder asks of two operators which of them is done first. Main statement: the
text of a tree always parses, and to an equal tree just if each operand of an operator is in
brackets or grouped with it as the builder would group them (`reparse_written`).
-/

namespace Reckon

/-! ## Contexts and trees -/

/-- Whole precedences, calls that may nest, and a text of separators that has a blank and a comma
and nothing that words and signs are made of. -/
structure Context.Spaced (ctx : Context) (separators : String) : Prop where
  ranked : ctx.Ranked
  nests : ctx.nests = true
  separates : ctx.separators = .text separators
  space : ' ' ∈ separators.toList
  comma : ',' ∈ separators.toList
  spares : ∀ c ∈ separators.toList,
    c.isAlpha = false ∧ c.isDigit = false ∧ c ≠ '.' ∧ Symbol.ofChar? c = none

mutual

/-- A tree whose operands are finite and not negative, whose nodes have operators for symbols, and
whose calls have as many arguments as the context asks for. -/
def Expr.Writable (ctx : Context) : Expr → Prop
  | .operand x => x.isFinite = true ∧ 0 ≤ x
  | .node s l r => (∃ op, s = .operator op) ∧ l.Writable ctx ∧ r.Writable ctx
  | .call f args => ctx.wrongCount? f args.length = none ∧ Expr.WritableAll ctx args

def Expr.WritableAll (ctx : Context) : List Expr → Prop
  | [] => True
  | t :: ts => t.Writable ctx ∧ Expr.WritableAll ctx ts

end

namespace Context.Spaced
variable {ctx : Context} {separators : String} (h : ctx.Spaced separators)
include h

theorem sparesWords : SparesWords separators.toList.contains := by
  intro c hc
  rw [Bool.eq_false_iff, ne_eq, List.contains_iff_mem]
  intro hmem
  obtain ⟨ha, hd, hp, -⟩ := h.spares c hmem
  simp [ha, hd, hp] at hc

theorem sparesSigns (s : Symbol) : separators.toList.contains s.char = false := by
  rw [Bool.eq_false_iff, ne_eq, List.contains_iff_mem]
  intro hmem
  have hs := (h.spares _ hmem).2.2.2
  rw [Symbol.ofChar?_char] at hs
  cases hs

theorem spelled_written (t : Expr) :
    Spelled separators.toList.contains (t.marks ctx) (t.written ctx).toList :=
  (t.spells_written ctx (List.contains_iff_mem.mpr h.space)
    (List.contains_iff_mem.mpr h.comma)).spelled

end Context.Spaced

namespace Expr

/-- The operator at the root of a tree. -/
def root? : Expr → Option Operator
  | node (.operator op) _ _ => some op
  | _ => none

mutual

/-- The operators of a tree, those inside its calls too, each with its two operands. -/
def joins : Expr → List (Operator × Expr × Expr)
  | operand _ => []
  | node (.operator op) l r => (op, l, r) :: (l.joins ++ r.joins)
  | node _ l r => l.joins ++ r.joins
  | call _ args => joinsAll args

def joinsAll : List Expr → List (Operator × Expr × Expr)
  | [] => []
  | t :: ts => t.joins ++ joinsAll ts

end

theorem mem_joins_binary (op : Operator) (l r : Expr) : (op, l, r) ∈ (binary op l r).joins :=
  List.mem_cons_self

/-- Whether the text of a tree shows its grouping: at each operator the left operand is in brackets
or done before it, and the right operand is in brackets or not done after it. -/
def Grouped (ctx : Context) (t : Expr) : Prop :=
  ∀ op l r, (op, l, r) ∈ t.joins →
    (∀ o, l.root? = some o →
      (0 < ctx.rank o ∧ ctx.rank o < ctx.rank op) ∨ ctx.Outranks o op) ∧
    ∀ o, r.root? = some o →
      (0 < ctx.rank o ∧ ctx.rank o ≤ ctx.rank op) ∨ ¬ctx.Outranks op o

/-- All trees show their grouping. -/
def GroupedAll (ctx : Context) (ts : List Expr) : Prop := ∀ t ∈ ts, t.Grouped ctx

section Grouped
variable {ctx : Context}

theorem grouped_operand (x : Float) : (operand x).Grouped ctx := by
  simp [Grouped, joins]

theorem grouped_binary {op : Operator} {l r : Expr} :
    (node (.operator op) l r).Grouped ctx ↔
      (∀ o, l.root? = some o →
        (0 < ctx.rank o ∧ ctx.rank o < ctx.rank op) ∨ ctx.Outranks o op) ∧
      (∀ o, r.root? = some o →
        (0 < ctx.rank o ∧ ctx.rank o ≤ ctx.rank op) ∨ ¬ctx.Outranks op o) ∧
      l.Grouped ctx ∧ r.Grouped ctx := by
  constructor
  · intro h
    obtain ⟨left, right⟩ := h op l r (mem_joins_binary op l r)
    exact ⟨left, right, fun o x y hm => h o x y (by simp [joins, hm]),
      fun o x y hm => h o x y (by simp [joins, hm])⟩
  · rintro ⟨left, right, hl, hr⟩ o x y hm
    have cases : o = op ∧ x = l ∧ y = r ∨ (o, x, y) ∈ l.joins ∨ (o, x, y) ∈ r.joins := by
      simpa [joins] using hm
    rcases cases with ⟨rfl, rfl, rfl⟩ | hm | hm
    · exact ⟨left, right⟩
    · exact hl o x y hm
    · exact hr o x y hm

theorem joinsAll_eq_flatMap (ts : List Expr) : joinsAll ts = ts.flatMap joins := by
  induction ts with
  | nil => rfl
  | cons t ts ih => rw [joinsAll, ih, List.flatMap_cons]

theorem grouped_call {f : FunctionName} {args : List Expr} :
    (call f args).Grouped ctx ↔ GroupedAll ctx args := by
  simp only [Grouped, GroupedAll, joins, joinsAll_eq_flatMap, List.mem_flatMap]
  constructor
  · intro h t ht op l r hm
    exact h op l r ⟨t, ht, hm⟩
  · rintro h op l r ⟨t, ht, hm⟩
    exact h t ht op l r hm

theorem groupedAll_cons {t : Expr} {ts : List Expr} :
    GroupedAll ctx (t :: ts) ↔ t.Grouped ctx ∧ GroupedAll ctx ts :=
  List.forall_mem_cons

/-- Where all operators lean left, what may hide a tree's grouping is an operand whose operator has
no precedence above zero and binds looser than its place asks. -/
theorem grouped_iff_of_leansLeft (leans : ctx.LeansLeft) {t : Expr} :
    t.Grouped ctx ↔ ∀ op l r, (op, l, r) ∈ t.joins →
      (∀ o, l.root? = some o → ctx.rank o ≤ 0 → ctx.rank op ≤ ctx.rank o) ∧
      ∀ o, r.root? = some o → ctx.rank o ≤ 0 → ctx.rank op < ctx.rank o := by
  have left (o op : Operator) : (0 < ctx.rank o ∧ ctx.rank o < ctx.rank op) ∨ ctx.Outranks o op ↔
      (ctx.rank o ≤ 0 → ctx.rank op ≤ ctx.rank o) := by
    rw [Context.outranks_iff_of_leansLeft leans]
    omega
  have right (o op : Operator) :
      (0 < ctx.rank o ∧ ctx.rank o ≤ ctx.rank op) ∨ ¬ctx.Outranks op o ↔
      (ctx.rank o ≤ 0 → ctx.rank op < ctx.rank o) := by
    rw [Context.outranks_iff_of_leansLeft leans]
    omega
  simp only [Grouped, left, right]

/-- Where all precedences are positive, what may hide a tree's grouping is a left operand whose
operator binds as tightly as the one above, when that one leans right. -/
theorem grouped_iff_of_positive (positive : ∀ op, 0 < ctx.rank op) {t : Expr} :
    t.Grouped ctx ↔ ∀ op l r, (op, l, r) ∈ t.joins → ctx.associativity op.text = .right →
      ∀ o, l.root? = some o → ctx.rank o ≠ ctx.rank op := by
  have left (o op : Operator) : (0 < ctx.rank o ∧ ctx.rank o < ctx.rank op) ∨ ctx.Outranks o op ↔
      (ctx.associativity op.text = .right → ctx.rank o ≠ ctx.rank op) := by
    have := positive o
    rw [Context.Outranks]
    cases ctx.associativity op.text <;> simp <;> omega
  have right (o op : Operator) :
      (0 < ctx.rank o ∧ ctx.rank o ≤ ctx.rank op) ∨ ¬ctx.Outranks op o := by
    have := positive o
    rw [Context.not_outranks_iff]
    omega
  simp only [Grouped, left, right, implies_true, and_true]
  grind

end Grouped
end Expr

/-- Every operator leans left and has a positive whole precedence. -/
structure Context.Regular (ctx : Context) : Prop where
  positive : ∀ op : Operator, 0 < ctx.rank op
  leans : ctx.LeansLeft

namespace Context.Regular
variable {ctx : Context} (h : ctx.Regular)
include h

theorem ranked : ctx.Ranked := by
  intro op rule hr
  have positive := h.positive op
  rw [rank, precedence, hr] at positive
  cases hp : rule.precedence with
  | int p => exact ⟨p, rfl⟩
  | _ => simp [hp] at positive

/-- The text of every tree shows its grouping: an operand without brackets binds as tightly as its
place asks. -/
theorem grouped (t : Expr) : t.Grouped ctx := by
  rw [Expr.grouped_iff_of_positive h.positive]
  intro op l r _ right
  rw [h.leans op] at right
  cases right

end Context.Regular

/-! ## Brackets -/

namespace Context

/-- Between whole numbers it is decided whether a child is bracketed. -/
theorem brackets?_int (asks : Relation → Bool) (p q : Int) :
    brackets? asks (.int p) (.int q) = some (decide (0 < p) && asks (.ofInts p q)) := by
  simp only [brackets?, Data.relation?_int, Option.bind_some, Relation.ofInts_greater,
    Option.map_some]
  by_cases h : 0 < p <;> simp [h]

theorem bracketsLeft?_int (p q : Int) :
    bracketsLeft? (.int p) (.int q) = some (decide (0 < p ∧ p < q)) := by
  rw [bracketsLeft?, brackets?_int, Relation.ofInts_less, Bool.decide_and]

theorem bracketsRight?_int (p q : Int) :
    bracketsRight? (.int p) (.int q) = some (decide (0 < p ∧ p ≤ q)) := by
  have atMost : (Relation.ofInts p q == .less || Relation.ofInts p q == .equal) =
      decide (p ≤ q) := by
    rw [Relation.ofInts_less, Relation.ofInts_equal, ← Bool.decide_or]
    exact decide_eq_decide.mpr Int.le_iff_lt_or_eq.symm
  rw [bracketsRight?, brackets?_int, atMost, Bool.decide_and]

variable {ctx : Context}

/-- A tree binds as its root does, and a leaf or call as with the precedence zero. -/
theorem bindingOf_eq (ranked : ctx.Ranked) {t : Expr} (ht : t.Writable ctx) :
    ctx.bindingOf t = .int (t.root?.elim 0 ctx.rank) := by
  cases t with
  | node s l r =>
    obtain ⟨⟨op, rfl⟩, -⟩ := ht
    exact precedence_of_ranked ranked op
  | _ => rfl

section Operand
variable (ranked : ctx.Ranked) {t : Expr} (ht : t.Writable ctx) (op : Operator)
include ranked ht

/-- A left operand is bracketed if its operator binds looser, and above zero. -/
theorem bracketsLeft?_iff :
    bracketsLeft? (ctx.bindingOf t) (ctx.precedence op.text) = some true ↔
      ∃ o, t.root? = some o ∧ 0 < ctx.rank o ∧ ctx.rank o < ctx.rank op := by
  rw [bindingOf_eq ranked ht, precedence_of_ranked ranked, bracketsLeft?_int]
  cases t.root? with
  | none => simp
  | some o =>
    rw [Option.elim_some, Option.some.injEq, decide_eq_true_iff]
    simp

/-- A right operand is bracketed if its operator binds no tighter, and above zero. -/
theorem bracketsRight?_iff :
    bracketsRight? (ctx.bindingOf t) (ctx.precedence op.text) = some true ↔
      ∃ o, t.root? = some o ∧ 0 < ctx.rank o ∧ ctx.rank o ≤ ctx.rank op := by
  rw [bindingOf_eq ranked ht, precedence_of_ranked ranked, bracketsRight?_int]
  cases t.root? with
  | none => simp
  | some o =>
    rw [Option.elim_some, Option.some.injEq, decide_eq_true_iff]
    simp

end Operand

end Context

section Decided
variable {ctx : Context}

mutual

/-- All brackets of a tree are decided on. -/
theorem Expr.Writable.decided (ranked : ctx.Ranked) :
    ∀ {t : Expr}, t.Writable ctx → t.decided ctx = true
  | .operand x, _ => by rw [Expr.decided]
  | .node s l r, ht => by
    obtain ⟨⟨op, rfl⟩, hl, hr⟩ := ht
    have hop : ctx.precedence (Symbol.operator op).text = .int (ctx.rank op) :=
      Context.precedence_of_ranked ranked op
    rw [Expr.decided, Context.bindingOf_eq ranked hl, Context.bindingOf_eq ranked hr, hop,
      Context.bracketsLeft?_int, Context.bracketsRight?_int, hl.decided ranked,
      hr.decided ranked]
    rfl
  | .call f args, ht => by
    rw [Expr.decided]
    exact Expr.WritableAll.decidedAll ranked ht.2

theorem Expr.WritableAll.decidedAll (ranked : ctx.Ranked) :
    ∀ {ts : List Expr}, Expr.WritableAll ctx ts → Expr.decidedAll ctx ts = true
  | [], _ => by rw [Expr.decidedAll]
  | t :: ts, ht => by
    rw [Expr.decidedAll, Expr.Writable.decided ranked ht.1,
      Expr.WritableAll.decidedAll ranked ht.2]
    rfl

end

end Decided

/-! ## Expressions of a tree's shape -/

/-- The expression, in brackets if they are asked for. -/
def Infix.bracketedIf (asked : Option Bool) (left right : Int) (e : Infix) : Infix :=
  if asked = some true then .bracketed left e right else e

/-- An expression of a tree's shape has a tree of its own; and whether that one is equal, with the
grouping that the operator table asks for, comes to a condition. -/
structure Infix.Rebuilds (ctx : Context) (t : Expr) (e : Infix) (equal : Prop) : Prop where
  mirrors : e.Mirrors t
  tree : ∃ v, e.tree ctx = .ok v ∧ (e.Settled ctx ∧ v.same t = true ↔ equal)

/-- Expressions build, each as a sequence of its own, to as many trees as there are others; and
whether these are equal in turn comes to a condition. -/
def Infix.RebuildAll (ctx : Context) (ts : List Expr) (es : List Infix) (equal : Prop) : Prop :=
  ∃ us, (es.map Infix.tokens).mapM ctx.build = .ok us ∧ us.length = ts.length ∧
    (Expr.sameAll us ts = true ↔ equal)

namespace Infix
variable {ctx : Context} {a b : Prop}

theorem Rebuilds.of_iff {t : Expr} {e : Infix} (h : e.Rebuilds ctx t a) (same : a ↔ b) :
    e.Rebuilds ctx t b := by
  obtain ⟨v, hv, equal⟩ := h.tree
  exact ⟨h.mirrors, v, hv, equal.trans same⟩

theorem Rebuilds.bracketedIf {t : Expr} {e : Infix} (h : e.Rebuilds ctx t a)
    (asked : Option Bool) (left right : Int) :
    (e.bracketedIf asked left right).Rebuilds ctx t a := by
  unfold Infix.bracketedIf
  split
  · exact ⟨h.mirrors, h.tree⟩
  · exact h

theorem Rebuilds.binary {l r : Expr} {l' r' : Infix} (hl : l'.Rebuilds ctx l a)
    (hr : r'.Rebuilds ctx r b) (op : Operator) (pos : Int) :
    (binary op pos l' r').Rebuilds ctx (.node (.operator op) l r)
      (a ∧ b ∧ (∀ o, l'.root? = some o → ctx.Outranks o op) ∧
        ∀ o, r'.root? = some o → ¬ctx.Outranks op o) := by
  obtain ⟨u, hu, left⟩ := hl.tree
  obtain ⟨v, hv, right⟩ := hr.tree
  have same : (Expr.binary op u v).same (.node (.operator op) l r) = true ↔
      u.same l = true ∧ v.same r = true := by
    simp [Expr.binary, Expr.same]
  refine ⟨⟨rfl, hl.mirrors, hr.mirrors⟩, Expr.binary op u v, ?_, ?_⟩
  · rw [Infix.tree, hu, hv]
    rfl
  · rw [settled_binary_iff, same, ← left, ← right]
    constructor
    · rintro ⟨⟨settledl, settledr, before, after⟩, samel, samer⟩
      exact ⟨⟨settledl, samel⟩, ⟨settledr, samer⟩, before, after⟩
    · rintro ⟨⟨settledl, samel⟩, ⟨settledr, samer⟩, before, after⟩
      exact ⟨⟨settledl, settledr, before, after⟩, samel, samer⟩

/-- What has a tree's shape is built, however the operators in it are grouped. -/
theorem Rebuilds.exists_build (ranked : ctx.Ranked) {t : Expr} {e : Infix}
    (h : e.Rebuilds ctx t a) : ∃ u, ctx.build e.tokens = .ok u ∧ (u.same t = true ↔ a) := by
  obtain ⟨v, hv, equal⟩ := h.tree
  obtain ⟨u, hu, same⟩ := Context.build_mirrored ranked h.mirrors hv
  exact ⟨u, hu, same.trans equal⟩

theorem RebuildAll.cons (ranked : ctx.Ranked) {t : Expr} {ts : List Expr} {e : Infix}
    {es : List Infix} (h : e.Rebuilds ctx t a) (hs : RebuildAll ctx ts es b) :
    RebuildAll ctx (t :: ts) (e :: es) (a ∧ b) := by
  obtain ⟨u, hu, first⟩ := h.exists_build ranked
  obtain ⟨us, built, length, rest⟩ := hs
  refine ⟨u :: us, ?_, ?_, ?_⟩
  · rw [List.map_cons, List.mapM_cons, hu, built]
    rfl
  · rw [List.length_cons, List.length_cons, length]
  · rw [Expr.sameAll, Bool.and_eq_true, first, rest]

theorem RebuildAll.call {f : FunctionName} {ts : List Expr} {es : List Infix}
    (h : RebuildAll ctx ts es a) (count : ctx.wrongCount? f ts.length = none)
    (pos left right : Int) :
    (call f (.symbol .opening left :: (es.flatMap tokens ++ [.symbol .closing right]))
      pos).Rebuilds ctx (.call f ts) a := by
  obtain ⟨us, built, length, equal⟩ := h
  refine ⟨trivial, .call f us, ?_, ?_⟩
  · rw [Infix.tree, Context.buildCall_pieces, Arguments.split?_run]
    simp only [built, ok_bind, Context.counted, length, count]
  · simp [Settled, Expr.same, equal]

theorem root?_bracketedIf {e : Infix} {asked : Option Bool} {left right : Int} {o : Operator} :
    (e.bracketedIf asked left right).root? = some o ↔ asked ≠ some true ∧ e.root? = some o := by
  unfold Infix.bracketedIf
  split
  · next h => simp [root?, h]
  · next h => simp [h]

end Infix

/-! ## Reading back -/

mutual

/-- The expression is the tree with the brackets that are written for it, its operands up to
equality of doubles, at any positions. -/
inductive Expr.ShownAs (ctx : Context) : Expr → Infix → Prop where
  | operand {x y : Float} (pos : Int) : (y == x) = true →
    ShownAs ctx (.operand x) (.operand y pos)
  | node {op : Operator} {l r : Expr} {l' r' : Infix} (pos p q p' q' : Int) :
    ShownAs ctx l l' → ShownAs ctx r r' → ShownAs ctx (.node (.operator op) l r)
      (.binary op pos
        (l'.bracketedIf (Context.bracketsLeft? (ctx.bindingOf l) (ctx.precedence op.text)) p q)
        (r'.bracketedIf (Context.bracketsRight? (ctx.bindingOf r) (ctx.precedence op.text)) p' q'))
  | call {f : FunctionName} {args : List Expr} {es : List Infix} (pos p q : Int) :
    AllShownAs ctx args es → ShownAs ctx (.call f args)
      (.call f (.symbol .opening p :: (es.flatMap Infix.tokens ++ [.symbol .closing q])) pos)

inductive Expr.AllShownAs (ctx : Context) : List Expr → List Infix → Prop where
  | nil : AllShownAs ctx [] []
  | cons {t : Expr} {ts : List Expr} {e : Infix} {es : List Infix} :
    ShownAs ctx t e → AllShownAs ctx ts es → AllShownAs ctx (t :: ts) (e :: es)

end

section Reread
variable {ctx : Context} {separators : String}

theorem Expr.ShownAs.root?_eq {t : Expr} {e : Infix} (h : t.ShownAs ctx e) :
    e.root? = t.root? := by
  cases h <;> rfl

mutual

/-- A tree with its brackets is built to an equal one just if these show its grouping. -/
theorem Expr.ShownAs.rebuilds (ranked : ctx.Ranked) : ∀ {t : Expr} {e : Infix},
    t.ShownAs ctx e → t.Writable ctx → e.Rebuilds ctx t (t.Grouped ctx)
  | _, _, .operand pos equal, _ => by
    refine ⟨trivial, .operand _, rfl, ?_⟩
    simp [Infix.Settled, Expr.same, equal, Expr.grouped_operand]
  | _, _, @Expr.ShownAs.node _ op l r l' r' pos p q p' q' hl hr, ht => by
    obtain ⟨-, writablel, writabler⟩ := ht
    have left := (hl.rebuilds ranked writablel).bracketedIf
      (Context.bracketsLeft? (ctx.bindingOf l) (ctx.precedence op.text)) p q
    have right := (hr.rebuilds ranked writabler).bracketedIf
      (Context.bracketsRight? (ctx.bindingOf r) (ctx.precedence op.text)) p' q'
    refine (left.binary right op pos).of_iff ?_
    -- an operator outside brackets has to be done as its place asks
    simp only [Infix.root?_bracketedIf, hl.root?_eq, hr.root?_eq, ne_eq,
      Context.bracketsLeft?_iff ranked writablel op, Context.bracketsRight?_iff ranked writabler op,
      Expr.grouped_binary]
    grind
  | _, _, .call pos p q hargs, ht => by
    rw [Expr.grouped_call]
    exact (hargs.rebuild ranked ht.2).call ht.1 pos p q

theorem Expr.AllShownAs.rebuild (ranked : ctx.Ranked) : ∀ {ts : List Expr} {es : List Infix},
    Expr.AllShownAs ctx ts es → Expr.WritableAll ctx ts →
    Infix.RebuildAll ctx ts es (Expr.GroupedAll ctx ts)
  | _, _, .nil, _ => ⟨[], rfl, rfl, by simp [Expr.sameAll, Expr.GroupedAll]⟩
  | _, _, .cons h hs, ht => by
    rw [Expr.groupedAll_cons]
    exact .cons ranked (h.rebuilds ranked ht.1) (hs.rebuild ranked ht.2)

end

/-- What is written for an operand is read as an equal one. -/
theorem exists_shown_operand (h : ctx.Spaced separators) {x : Float}
    (finite : x.isFinite = true) (nonneg : 0 ≤ x) :
    ∃ e, Reads separators.toList.contains ((Expr.operand x).marks ctx) e ∧
      (Expr.operand x).ShownAs ctx e := by
  obtain ⟨whole, fraction, hplain, digits, nonempty⟩ := Number.isWritten_plain finite nonneg
  obtain ⟨n, read, equal⟩ := Number.exists_read?_plain finite nonneg
  rw [hplain, Number.Numeral.read?_written digits nonempty] at read
  obtain rfl := Option.some.inj read
  refine ⟨.operand _ 0, ?_, .operand 0 equal⟩
  rw [Expr.marks, hplain]
  exact .numeral h.sparesWords digits nonempty rfl (isFinite_of_beq equal finite)

theorem Reads.bracketedIf {separates : Char → Bool} {ms : List Mark} {e : Infix}
    (h : Reads separates ms e) (asked : Option Bool) :
    Reads separates (bracketedMarks asked ms) (e.bracketedIf asked 0 0) := by
  unfold bracketedMarks Infix.bracketedIf
  split
  · exact h.bracketed
  · exact h

mutual

/-- The marks of a tree are read as the tree with its brackets. -/
theorem exists_shown (h : ctx.Spaced separators) : ∀ {t : Expr}, t.Writable ctx →
    ∃ e, Reads separators.toList.contains (t.marks ctx) e ∧ t.ShownAs ctx e
  | .operand x, ht => exists_shown_operand h ht.1 ht.2
  | .node s l r, ht => by
    obtain ⟨⟨op, rfl⟩, hl, hr⟩ := ht
    obtain ⟨l', readsl, shownl⟩ := exists_shown h hl
    obtain ⟨r', readsr, shownr⟩ := exists_shown h hr
    refine ⟨_, ?_, .node 0 0 0 0 0 shownl shownr⟩
    rw [Expr.marks]
    exact (readsl.bracketedIf _).binary (readsr.bracketedIf _) op
  | .call f args, ht => by
    obtain ⟨es, reads, shown⟩ := exists_shown_all h ht.2
    have name : FunctionName.lookup? (String.ofList f.text.toList) = some f := by
      rw [String.ofList_toList, FunctionName.lookup?_text]
    refine ⟨_, ?_, .call 0 0 0 shown⟩
    rw [Expr.marks]
    exact .call h.sparesWords reads name

theorem exists_shown_all (h : ctx.Spaced separators) : ∀ {ts : List Expr},
    Expr.WritableAll ctx ts →
    ∃ es, ReadsAll separators.toList.contains (Expr.marksAll ctx ts) es ∧
      Expr.AllShownAs ctx ts es
  | [], _ => ⟨[], .nil, .nil⟩
  | t :: ts, ht => by
    obtain ⟨e, reads, shown⟩ := exists_shown h ht.1
    obtain ⟨es, rest, all⟩ := exists_shown_all h ht.2
    exact ⟨e :: es, .cons reads rest, .cons shown all⟩

end

/-- The text of a tree parses, and to an equal tree just if it shows the tree's grouping. -/
theorem Context.reparse_written (h : ctx.Spaced separators) {t : Expr} (ht : t.Writable ctx) :
    ∃ u, ctx.parse (t.written ctx) = .ok u ∧ (u.same t = true ↔ t.Grouped ctx) := by
  obtain ⟨e, reads, shown⟩ := exists_shown h ht
  obtain ⟨u, hu, same⟩ := (shown.rebuilds h.ranked ht).exists_build h.ranked
  refine ⟨u, ?_, same⟩
  exact parse_of_reads h.separates h.nests h.sparesSigns (h.spelled_written t) reads hu

end Reread

end Reckon
