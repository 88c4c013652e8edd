import Reckon.Proofs.Acceptance

/-!
Groupings of one token sequence. Whether an operator table asks for a grouping can be seen from each
operator and the outermost operators of its two operands; and an infix expression is determined by
its tokens and its tree, since between two operators there is always an operand to count. Main
statement: an expression whose calls build is built to a tree of its own shape just if the operator
table asks for its grouping (`build_mirrored`).
-/

namespace Reckon

/-! ## Outermost operators decide -/

namespace Context
variable {ctx : Context}

/-- What is not done before an operator is not done before one that is itself done before it. -/
theorem not_outranks_trans {p q r : Operator} (h : ¬ctx.Outranks p q) (h' : ctx.Outranks r q) :
    ¬ctx.Outranks p r := by
  rw [not_outranks_iff] at h ⊢
  rcases h with h | ⟨h, right⟩ <;> rcases h' with h' | ⟨h', left⟩
  · exact .inl (by omega)
  · exact .inl (by omega)
  · exact .inl (by omega)
  · rw [right] at left
    cases left

/-- What is done before an operator is so with all that has to wait for it. -/
theorem outranks_trans {p q r : Operator} (h : ctx.Outranks p q) (h' : ¬ctx.Outranks p r) :
    ctx.Outranks r q := by
  rw [not_outranks_iff] at h'
  rcases h with h | ⟨h, left⟩ <;> rcases h' with h' | ⟨h', -⟩
  · exact .inl (by omega)
  · exact .inl (by omega)
  · exact .inl (by omega)
  · exact .inr ⟨by omega, left⟩

end Context

namespace Infix
variable {ctx : Context}

/-- The outermost operator, unless it is in brackets. -/
def root? : Infix → Option Operator
  | binary op _ _ _ => some op
  | _ => none

theorem mem_leads_of_root? {e : Infix} {o : Operator} (h : e.root? = some o) : o ∈ e.leads := by
  cases e with
  | binary op pos l r =>
    obtain rfl := Option.some.inj h
    exact List.mem_cons_self
  | _ => cases h

theorem mem_trails_of_root? {e : Infix} {o : Operator} (h : e.root? = some o) :
    o ∈ e.trails := by
  cases e with
  | binary op pos l r =>
    obtain rfl := Option.some.inj h
    exact List.mem_cons_self
  | _ => cases h

/-- Down the left side of a settled expression every operator is done before the one above it, so
that what is not done before the first is done before none. -/
theorem not_outranks_leads {e : Infix} (he : e.Settled ctx) {q : Operator}
    (h : ∀ o, e.root? = some o → ¬ctx.Outranks q o) : ∀ s ∈ e.leads, ¬ctx.Outranks q s := by
  induction e with
  | binary op pos l r ihl _ =>
    obtain ⟨hl, -, -, htrails⟩ := settled_binary.mp he
    have first : ¬ctx.Outranks q op := h op rfl
    refine List.forall_mem_cons.mpr ⟨first, ihl hl ?_⟩
    intro o ho
    exact Context.not_outranks_trans first (htrails o (mem_trails_of_root? ho))
  | _ => simp [leads]

/-- Down the right side of a settled expression every operator has to wait for the one below it, so
that all are done before what the first is done before. -/
theorem outranks_trails {e : Infix} (he : e.Settled ctx) {q : Operator}
    (h : ∀ o, e.root? = some o → ctx.Outranks o q) : ∀ t ∈ e.trails, ctx.Outranks t q := by
  induction e with
  | binary op pos l r _ ihr =>
    obtain ⟨-, hr, hleads, -⟩ := settled_binary.mp he
    have first : ctx.Outranks op q := h op rfl
    refine List.forall_mem_cons.mpr ⟨first, ihr hr ?_⟩
    intro o ho
    exact Context.outranks_trans first (hleads o (mem_leads_of_root? ho))
  | _ => simp [trails]

/-- An operator's grouping is asked for just if the outermost operator of its left operand is done
before it, and it is not done before that of its right operand. -/
theorem settled_binary_iff {op : Operator} {pos : Int} {l r : Infix} :
    (binary op pos l r).Settled ctx ↔
      l.Settled ctx ∧ r.Settled ctx ∧ (∀ o, l.root? = some o → ctx.Outranks o op) ∧
        ∀ o, r.root? = some o → ¬ctx.Outranks op o := by
  rw [settled_binary]
  constructor
  · rintro ⟨hl, hr, hleads, htrails⟩
    exact ⟨hl, hr, fun o ho => htrails o (mem_trails_of_root? ho),
      fun o ho => hleads o (mem_leads_of_root? ho)⟩
  · rintro ⟨hl, hr, left, right⟩
    exact ⟨hl, hr, not_outranks_leads hr right, outranks_trails hl left⟩

/-! ## Shapes -/

/-- Whether the expression is the tree with brackets put in. Operands and calls are not compared. -/
def Mirrors : Infix → Expr → Prop
  | operand .., .operand _ => True
  | call .., .call .. => True
  | bracketed _ e _, t => e.Mirrors t
  | binary op _ l r, .node s x y => s = .operator op ∧ l.Mirrors x ∧ r.Mirrors y
  | _, _ => False

theorem length_atoms_of_mirrors {e : Infix} {t : Expr} (h : e.Mirrors t) :
    (Token.atoms e.tokens).length = t.atoms.length := by
  induction e generalizing t with
  | operand x pos =>
    cases t with
    | operand y => rfl
    | _ => exact h.elim
  | call f args pos =>
    cases t with
    | call g bs => rfl
    | _ => exact h.elim
  | bracketed left e right ih =>
    have inner := ih h
    rw [tokens, ← List.singleton_append, Token.atoms_append, Token.atoms_append,
      Token.atoms_symbol, Token.atoms_symbol, List.nil_append, List.append_nil, inner]
  | binary op pos l r ihl ihr =>
    cases t with
    | node s x y =>
      obtain ⟨-, hx, hy⟩ := h
      rw [tokens, ← List.singleton_append, Token.atoms_append, Token.atoms_append,
        Token.atoms_symbol, List.nil_append, List.length_append, ihl hx, ihr hy, Expr.atoms,
        List.length_append]
    | _ => exact h.elim

/-- A tree that equals the expression's tree has its shape. -/
theorem mirrors_of_same {e : Infix} {t u : Expr} (hu : e.tree ctx = .ok u)
    (same : u.same t = true) : e.Mirrors t := by
  induction e generalizing t u with
  | operand x pos =>
    obtain rfl := Except.ok.inj hu
    cases t with
    | operand y => trivial
    | _ => simp [Expr.same] at same
  | call f args pos =>
    obtain ⟨gs, es, -, -, -, rfl⟩ := Context.of_buildCall_ok hu
    cases t with
    | call g bs => trivial
    | _ => simp [Expr.same] at same
  | bracketed left e right ih => exact ih hu same
  | binary op pos l r ihl ihr =>
    obtain ⟨x, hx, hu⟩ := bind_eq_ok.mp hu
    obtain ⟨y, hy, hu⟩ := bind_eq_ok.mp hu
    obtain rfl := Except.ok.inj hu
    cases t with
    | node s a b =>
      simp only [Expr.binary, Expr.same, Bool.and_eq_true, beq_iff_eq] at same
      obtain ⟨⟨rfl, left⟩, right⟩ := same
      exact ⟨rfl, ihl hx left, ihr hy right⟩
    | _ => simp [Expr.binary, Expr.same] at same

end Infix

/-! ## Tokens and shape determine an expression -/

namespace Token

/-- Where an operand is due, one comes. -/
theorem atoms_ne_nil_of_alternates {ts : List Token} (h : alternates false ts = true) :
    atoms ts ≠ [] := by
  induction ts with
  | nil => simp at h
  | cons t ts ih =>
    cases t with
    | operand x pos => exact List.cons_ne_nil _ _
    | call f args pos => exact List.cons_ne_nil _ _
    | symbol s pos =>
      cases s with
      | opening => exact ih (by simpa using h)
      | _ => simp at h

/-- After an operator an operand is due. -/
theorem alternates_after_operator {ended : Bool} {ts us : List Token} {op : Operator} {pos : Int}
    (h : alternates ended (ts ++ .symbol (.operator op) pos :: us) = true) :
    alternates false us = true := by
  induction ts generalizing ended with
  | nil =>
    rw [List.nil_append, alternates_operator, Bool.and_eq_true] at h
    exact h.2
  | cons t ts ih =>
    rw [List.cons_append, alternates, Bool.and_eq_true] at h
    exact ih h.2

end Token

namespace Infix

/-- An operand that goes on where another one ends in an operator has more operands and calls. -/
theorem eq_nil_of_prefix {l l' : Infix} {as rest : List Token} {op : Operator} {pos : Int}
    (h : l'.tokens = l.tokens ++ as)
    (begins : ∃ bs, .symbol (.operator op) pos :: rest = as ++ bs)
    (count : (Token.atoms l.tokens).length = (Token.atoms l'.tokens).length) : as = [] := by
  obtain ⟨bs, begins⟩ := begins
  cases as with
  | nil => rfl
  | cons a as =>
    obtain ⟨rfl, -⟩ := List.cons.inj begins
    have turns := (isInfix_iff.mp l'.isInfix_tokens).2
    rw [h] at turns
    have due := Token.atoms_ne_nil_of_alternates (Token.alternates_after_operator turns)
    have more : 0 < (Token.atoms as).length := List.length_pos_iff.mpr due
    rw [h, ← List.singleton_append, Token.atoms_append, Token.atoms_append, List.length_append,
      List.length_append] at count
    omega

/-- The number of operands and calls before an operator says which operator it is. -/
theorem tokens_split {l l' r r' : Infix} {op op' : Operator} {pos pos' : Int}
    (h : (binary op pos l r).tokens = (binary op' pos' l' r').tokens)
    (count : (Token.atoms l.tokens).length = (Token.atoms l'.tokens).length) :
    l.tokens = l'.tokens ∧ op = op' ∧ pos = pos' ∧ r.tokens = r'.tokens := by
  have same : l.tokens = l'.tokens := by
    rcases List.append_eq_append_iff.mp h with ⟨as, hl, rest⟩ | ⟨as, hl, rest⟩
    · obtain rfl := eq_nil_of_prefix hl ⟨_, rest⟩ count
      rw [hl, List.append_nil]
    · obtain rfl := eq_nil_of_prefix hl ⟨_, rest⟩ count.symm
      rw [hl, List.append_nil]
  rw [tokens, tokens, same] at h
  obtain ⟨sign, right⟩ := List.cons.inj (List.append_cancel_left h)
  obtain ⟨hs, rfl⟩ := Token.symbol.inj sign
  exact ⟨same, Symbol.operator.inj hs, rfl, right⟩

/-- Before the end of an expression all its brackets are closed at least once. -/
theorem closesAtEnd_of_rest (e : Infix) {rest : List Token} (h : rest ≠ []) :
    Arguments.closesAtEnd Token.symbol? 0 (e.tokens ++ rest) = false := by
  induction e generalizing rest with
  | operand x pos => simp [tokens, Arguments.closesAtEnd, Arguments.after, Token.symbol?, h]
  | call f args pos => simp [tokens, Arguments.closesAtEnd, Arguments.after, Token.symbol?, h]
  | bracketed left e right _ =>
    have inner := Arguments.closesAtEnd_tokens e Int.one_pos (.symbol .closing right :: rest)
    simp [tokens, Arguments.closesAtEnd, Arguments.after, Token.symbol?, inner, h]
  | binary op pos l r ihl _ =>
    rw [tokens, List.append_assoc, List.cons_append]
    exact ihl (List.cons_ne_nil _ _)

/-- No bracket pair around an expression is two expressions with an operator between them. -/
theorem tokens_bracketed_ne_binary (e l r : Infix) (left right pos : Int) (op : Operator) :
    (bracketed left e right).tokens ≠ (binary op pos l r).tokens := by
  intro h
  have pair : Arguments.closesAtEnd Token.symbol? 0 (bracketed left e right).tokens = true := by
    have inner := Arguments.closesAtEnd_tokens e Int.one_pos [.symbol .closing right]
    simp [tokens, Arguments.closesAtEnd, Arguments.after, Token.symbol?, inner]
  have parts : Arguments.closesAtEnd Token.symbol? 0
      (l.tokens ++ .symbol (.operator op) pos :: r.tokens) = false :=
    closesAtEnd_of_rest l (List.cons_ne_nil _ _)
  rw [h, tokens, parts] at pair
  cases pair

/-- Two expressions with the same tokens that are one tree with brackets put in are the same. -/
theorem eq_of_mirrors {e e' : Infix} {t : Expr} (h : e.Mirrors t) (h' : e'.Mirrors t)
    (same : e.tokens = e'.tokens) : e = e' := by
  induction e generalizing e' t with
  | operand x pos =>
    cases e' with
    | operand y p => simpa [tokens] using same
    | binary op p l r => cases t <;> first | exact h.elim | exact h'.elim
    | _ => simp [tokens] at same
  | call f args pos =>
    cases e' with
    | call g bs p => simpa [tokens] using same
    | binary op p l r => cases t <;> first | exact h.elim | exact h'.elim
    | _ => simp [tokens] at same
  | bracketed left e right ih =>
    cases e' with
    | bracketed left' e' right' =>
      obtain ⟨first, rest⟩ := List.cons.inj same
      obtain ⟨inner, last⟩ := List.append_inj' rest rfl
      obtain ⟨-, rfl⟩ := Token.symbol.inj first
      obtain ⟨-, rfl⟩ := Token.symbol.inj (List.cons.inj last).1
      rw [ih h (show e'.Mirrors t from h') inner]
    | binary op p l r => exact absurd same (tokens_bracketed_ne_binary e l r left right p op)
    | _ => simp [tokens] at same
  | binary op pos l r ihl ihr =>
    cases e' with
    | bracketed left e right =>
      exact absurd same.symm (tokens_bracketed_ne_binary e l r left right pos op)
    | binary op' pos' l' r' =>
      cases t with
      | node s x y =>
        obtain ⟨-, hl, hr⟩ := h
        obtain ⟨-, hl', hr'⟩ := h'
        have count := (length_atoms_of_mirrors hl).trans (length_atoms_of_mirrors hl').symm
        obtain ⟨left, rfl, rfl, right⟩ := tokens_split same count
        rw [ihl hl hl' left, ihr hr hr' right]
      | _ => exact h.elim
    | _ => cases t <;> first | exact h.elim | exact h'.elim

/-- All calls of an expression that has a tree build. -/
theorem builds_of_tree {ctx : Context} {e : Infix} {v : Expr} (hv : e.tree ctx = .ok v) :
    ∀ f args pos, .call f args pos ∈ e.tokens →
      ∃ t, ctx.buildCall f pos (ctx.pieces args) = .ok t := by
  induction e generalizing v with
  | operand x pos => simp [tokens]
  | call f args pos =>
    intro g bs p h
    obtain ⟨rfl, rfl, rfl⟩ : g = f ∧ bs = args ∧ p = pos := by simpa [tokens] using h
    exact ⟨v, hv⟩
  | bracketed left e right ih =>
    intro f args pos h
    exact ih hv f args pos (by simpa [tokens] using h)
  | binary op p l r ihl ihr =>
    obtain ⟨x, hx, hv⟩ := bind_eq_ok.mp hv
    obtain ⟨y, hy, -⟩ := bind_eq_ok.mp hv
    intro f args pos h
    rcases List.mem_append.mp h with h | h
    · exact ihl hx f args pos h
    · exact ihr hy f args pos (by simpa using h)

end Infix

/-- The tokens of an expression that has a tree are built. If the expression is a given tree with
brackets put in, what is built is equal to that tree just if the operator table asks for the
expression's grouping and its calls have the tree's. -/
theorem Context.build_mirrored {ctx : Context} (h : ctx.Ranked) {e : Infix} {t v : Expr}
    (he : e.Mirrors t) (hv : e.tree ctx = .ok v) :
    ∃ u, ctx.build e.tokens = .ok u ∧ (u.same t = true ↔ e.Settled ctx ∧ v.same t = true) := by
  obtain ⟨e', tokens, settled⟩ := e.isInfix_tokens.exists_settled ctx
  have calls := Infix.builds_of_tree hv
  rw [← tokens] at calls
  obtain ⟨u, hu⟩ := Infix.exists_tree calls
  have built : ctx.build e.tokens = .ok u := by rw [← tokens, build_tokens h settled, hu]
  refine ⟨u, built, ?_, ?_⟩
  · intro same
    obtain rfl := Infix.eq_of_mirrors (Infix.mirrors_of_same hu same) he tokens
    obtain rfl := Except.ok.inj (hu.symm.trans hv)
    exact ⟨settled, same⟩
  · rintro ⟨grouped, same⟩
    obtain rfl := Except.ok.inj (built.symm.trans ((build_tokens h grouped).trans hv))
    exact same

end Reckon
