import Reckon.Proofs.Brackets
import Reckon.Proofs.Rereading

/-!
The brackets that are written are all needed. A bracket pair fewer in the tokens of an expression is
a pair fewer in the expression, around one of its parts or among the arguments of one of its calls;
what is left still has the tree's shape. But where every operator leans left with a positive
precedence, brackets stand only around an operand that its neighbour would win. Main statement: the
tokens of a rendered tree, with any of the written bracket pairs left out, are built to another tree
(`brackets_needed`).
-/

namespace Reckon

open Token

/-! ## A bracket pair less -/

namespace Token
variable {P : List Token → Prop} {us ts : List Token}

theorem Enclosing.cons (h : Enclosing P us ts) (t : Token) : Enclosing P (t :: us) (t :: ts) := by
  cases h with
  | here before after left right run => exact .here (t :: before) after left right run
  | inside before after f pos left inner => exact .inside (t :: before) after f pos left inner

/-- Seen from the first token, a bracket pair begins with it, or is among its arguments, or stands
behind it. -/
theorem Enclosing.of_cons {t : Token} (h : Enclosing P us (t :: ts)) :
    (∃ left right run after, t = .symbol .opening left ∧
      ts = run ++ .symbol .closing right :: after ∧ P run ∧ us = run ++ after) ∨
    (∃ f pos left args args', t = .call f (.symbol .opening left :: args') pos ∧
      us = .call f (.symbol .opening left :: args) pos :: ts ∧ Enclosing P args args') ∨
    ∃ us', us = t :: us' ∧ Enclosing P us' ts := by
  generalize hw : t :: ts = whole at h
  cases h with
  | here before after left right run =>
    cases before with
    | nil =>
      obtain ⟨rfl, rfl⟩ := List.cons.inj hw
      exact .inl ⟨left, right, _, after, rfl, rfl, run, rfl⟩
    | cons b before =>
      obtain ⟨rfl, rfl⟩ := List.cons.inj hw
      exact .inr (.inr ⟨_, rfl, .here before after left right run⟩)
  | inside before after f pos left inner =>
    cases before with
    | nil =>
      obtain ⟨rfl, rfl⟩ := List.cons.inj hw
      exact .inr (.inl ⟨f, pos, left, _, _, rfl, rfl, inner⟩)
    | cons b before =>
      obtain ⟨rfl, rfl⟩ := List.cons.inj hw
      exact .inr (.inr ⟨_, rfl, .inside before after f pos left inner⟩)

/-- Where more brackets close than open, the partner of one that was opened before is found. -/
theorem Matched.closes_within {run after ts us : List Token} {right : Int} {d k : Nat}
    (matched : Matched run) (h : depthAfter (d + 1) ts = some k) (hk : k ≤ d)
    (same : ts ++ us = run ++ .symbol .closing right :: after) :
    ∃ rest, ts = run ++ .symbol .closing right :: rest ∧ after = rest ++ us := by
  have passed : depthAfter (d + 1) run = some (d + 1) := by
    have deeper := depthAfter_add matched (d + 1)
    rwa [Nat.zero_add] at deeper
  rcases List.append_eq_append_iff.mp same with ⟨as, hrun, -⟩ | ⟨as, hts, hafter⟩
  · -- the run would close what is open before it
    have split := matched
    rw [hrun, Matched, depthAfter_append, Option.bind_eq_some_iff] at split
    obtain ⟨m, hm, -⟩ := split
    have deeper := depthAfter_add hm (d + 1)
    rw [Nat.zero_add, h] at deeper
    obtain rfl := Option.some.inj deeper
    omega
  · cases as with
    | nil =>
      rw [List.append_nil] at hts
      rw [hts, passed] at h
      obtain rfl := Option.some.inj h
      omega
    | cons a as =>
      obtain ⟨rfl, rfl⟩ := List.cons.inj hafter
      exact ⟨as, hts, rfl⟩

/-- A bracket pair in two pieces of a sequence, the first of which leaves nothing open, is in one of
them. -/
theorem Enclosing.of_append {ts us vs : List Token} {d : Nat} (h : depthAfter d ts = some 0)
    (e : Enclosing Matched vs (ts ++ us)) :
    (∃ ts', vs = ts' ++ us ∧ Enclosing Matched ts' ts) ∨
      ∃ us', vs = ts ++ us' ∧ Enclosing Matched us' us := by
  induction ts generalizing d vs with
  | nil => exact .inr ⟨vs, rfl, e⟩
  | cons t ts ih =>
    obtain ⟨d', hd⟩ : ∃ d', depthAfter d' ts = some 0 := by
      rw [← List.singleton_append, depthAfter_append, Option.bind_eq_some_iff] at h
      obtain ⟨d', -, hd⟩ := h
      exact ⟨d', hd⟩
    rw [List.cons_append] at e
    rcases e.of_cons with ⟨left, right, run, after, rfl, same, matched, rfl⟩ |
      ⟨f, pos, left, args, args', rfl, rfl, inner⟩ | ⟨vs, rfl, later⟩
    · obtain ⟨rest, rfl, rfl⟩ := matched.closes_within (d := d) h (Nat.zero_le d) same
      refine .inl ⟨run ++ rest, (List.append_assoc run rest us).symm, ?_⟩
      exact .here [] rest left right matched
    · exact .inl ⟨_, rfl, .inside [] ts f pos left inner⟩
    · rcases ih hd later with ⟨ts', rfl, first⟩ | ⟨us', rfl, second⟩
      · exact .inl ⟨t :: ts', rfl, first.cons t⟩
      · exact .inr ⟨us', rfl, second⟩

theorem Enclosing.ne_nil (h : Enclosing P us ts) : ts ≠ [] := by
  cases h <;> simp

theorem Enclosing.ne_closing {pos : Int} (h : Enclosing P us ts) :
    ts ≠ [.symbol .closing pos] := by
  rintro rfl
  rcases h.of_cons with ⟨_, _, _, _, sign, -⟩ | ⟨_, _, _, _, _, call, -⟩ | ⟨us', -, later⟩
  · cases sign
  · cases call
  · exact later.ne_nil rfl

/-- What leaves no bracket open is not followed by a closing one inside of what does neither. -/
theorem Matched.not_closed {run after : List Token} {right : Int} (h : Matched run) :
    ¬Matched (run ++ .symbol .closing right :: after) := by
  intro whole
  rw [Matched, depthAfter_append, h] at whole
  cases whole

/-- The partner of a bracket before two sequences that leave nothing open is the same. -/
theorem Matched.closes_once {run ts after : List Token} {right right' : Int} (h : Matched ts)
    (matched : Matched run)
    (same : ts ++ [.symbol .closing right] = run ++ .symbol .closing right' :: after) :
    run = ts ∧ after = [] := by
  rcases List.append_eq_append_iff.mp same with ⟨as, hrun, rest⟩ | ⟨as, hts, rest⟩
  · cases as with
    | nil =>
      rw [List.append_nil] at hrun
      obtain ⟨-, rfl⟩ := List.cons.inj rest
      exact ⟨hrun, rfl⟩
    | cons a as => simp at rest
  · cases as with
    | nil =>
      rw [List.append_nil] at hts
      obtain ⟨-, rfl⟩ := List.cons.inj rest
      exact ⟨hts.symm, rfl⟩
    | cons a as =>
      obtain ⟨rfl, -⟩ := List.cons.inj rest
      rw [hts] at h
      exact absurd h matched.not_closed

end Token

/-- The second expression is the first without one of its bracket pairs, or without one among the
arguments of one of its calls. -/
inductive Infix.Strips : Infix → Infix → Prop where
  | pair (left right : Int) (e : Infix) : Strips (.bracketed left e right) e
  | call (f : FunctionName) (pos left : Int) {args args' : List Token} :
    Enclosing Matched args' args →
    Strips (.call f (.symbol .opening left :: args) pos)
      (.call f (.symbol .opening left :: args') pos)
  | bracketed (left right : Int) {e e' : Infix} : Strips e e' →
    Strips (.bracketed left e right) (.bracketed left e' right)
  | left (op : Operator) (pos : Int) (r : Infix) {l l' : Infix} : Strips l l' →
    Strips (.binary op pos l r) (.binary op pos l' r)
  | right (op : Operator) (pos : Int) (l : Infix) {r r' : Infix} : Strips r r' →
    Strips (.binary op pos l r) (.binary op pos l r')

theorem Infix.matched_tokens (e : Infix) : Matched e.tokens :=
  (isInfix_iff.mp e.isInfix_tokens).1

/-- An expression's tokens without a bracket pair are those of the expression without it. -/
theorem Infix.exists_strips {e : Infix} {us : List Token} (h : Enclosing Matched us e.tokens) :
    ∃ e', e'.tokens = us ∧ e.Strips e' := by
  induction e generalizing us with
  | operand x pos =>
    rcases h.of_cons with ⟨_, _, _, _, sign, -⟩ | ⟨_, _, _, _, _, call, -⟩ | ⟨us', -, later⟩
    · cases sign
    · cases call
    · exact absurd rfl later.ne_nil
  | call f args pos =>
    rcases h.of_cons with ⟨_, _, _, _, sign, -⟩ | ⟨g, p, left, bs, bs', call, rfl, inner⟩ |
      ⟨us', -, later⟩
    · cases sign
    · obtain ⟨rfl, rfl, rfl⟩ := Token.call.inj call
      exact ⟨.call f (.symbol .opening left :: bs) pos, rfl, .call f pos left inner⟩
    · exact absurd rfl later.ne_nil
  | bracketed left e right ih =>
    rw [tokens] at h
    rcases h.of_cons with ⟨p, q, run, after, sign, same, matched, rfl⟩ |
      ⟨_, _, _, _, _, call, -⟩ | ⟨us, rfl, later⟩
    · obtain ⟨rfl, rfl⟩ := e.matched_tokens.closes_once matched same
      exact ⟨e, (List.append_nil _).symm, .pair left right e⟩
    · cases call
    · rcases later.of_append e.matched_tokens with ⟨ts, rfl, inner⟩ | ⟨ts, rfl, last⟩
      · obtain ⟨e', rfl, strips⟩ := ih inner
        exact ⟨.bracketed left e' right, rfl, .bracketed left right strips⟩
      · exact absurd rfl last.ne_closing
  | binary op pos l r ihl ihr =>
    rw [tokens] at h
    rcases h.of_append l.matched_tokens with ⟨ts, rfl, first⟩ | ⟨ts, rfl, second⟩
    · obtain ⟨l', rfl, strips⟩ := ihl first
      exact ⟨.binary op pos l' r, rfl, .left op pos r strips⟩
    · rcases second.of_cons with ⟨_, _, _, _, sign, -⟩ | ⟨_, _, _, _, _, call, -⟩ |
        ⟨us, rfl, later⟩
      · cases sign
      · cases call
      · obtain ⟨r', rfl, strips⟩ := ihr later
        exact ⟨.binary op pos l r', rfl, .right op pos l strips⟩

namespace Infix

/-- What is stripped of an expression in brackets, if they were asked for, is its brackets or
something inside. -/
theorem Strips.of_bracketedIf {e e' : Infix} {asked : Option Bool} {left right : Int}
    (h : (e.bracketedIf asked left right).Strips e') :
    asked = some true ∧ e' = e ∨ ∃ e'', e.Strips e'' ∧ e' = e''.bracketedIf asked left right := by
  unfold Infix.bracketedIf at h
  split at h
  · next hasked =>
    cases h with
    | pair => exact .inl ⟨hasked, rfl⟩
    | bracketed _ _ inner => exact .inr ⟨_, inner, (if_pos hasked).symm⟩
  · next hasked => exact .inr ⟨e', h, (if_neg hasked).symm⟩

theorem matched_flatMap (es : List Infix) : Matched (es.flatMap tokens) := by
  have each : ∀ ts ∈ es.map tokens, Matched ts := by
    intro ts hts
    obtain ⟨e, -, rfl⟩ := List.mem_map.mp hts
    exact e.matched_tokens
  exact Matched.flatten each

end Infix

/-! ## Trees whose brackets are all asked for -/

section Shown
variable {ctx : Context}

section Asked
variable (h : ctx.Regular) {t : Expr} (ht : t.Writable ctx) (op : Operator)
include h ht

/-- A left operand is bracketed just if its operator would not be done before the one above. -/
theorem Context.bracketsLeft?_iff_outranks :
    bracketsLeft? (ctx.bindingOf t) (ctx.precedence op.text) = some true ↔
      ∃ o, t.root? = some o ∧ ¬ctx.Outranks o op := by
  rw [bracketsLeft?_iff h.ranked ht op]
  refine exists_congr fun o => and_congr_right fun _ => ?_
  rw [outranks_iff_of_leansLeft h.leans]
  have above := h.positive o
  omega

/-- A right operand is bracketed just if the operator above would be done before its own. -/
theorem Context.bracketsRight?_iff_outranks :
    bracketsRight? (ctx.bindingOf t) (ctx.precedence op.text) = some true ↔
      ∃ o, t.root? = some o ∧ ctx.Outranks op o := by
  rw [bracketsRight?_iff h.ranked ht op]
  refine exists_congr fun o => and_congr_right fun _ => ?_
  rw [outranks_iff_of_leansLeft h.leans]
  have above := h.positive o
  omega

end Asked

section Stripped
variable (regular : ctx.Regular)
include regular

mutual

/-- A tree without one of its bracket pairs is built to another. -/
theorem Expr.ShownAs.rebuilds_stripped : ∀ {t : Expr} {e e' : Infix}, t.ShownAs ctx e →
    t.Writable ctx → e.Strips e' → e'.Rebuilds ctx t False
  | _, _, _, .operand pos equal, _, strips => by cases strips
  | _, _, _, @Expr.ShownAs.node _ op l r l' r' pos p q p' q' hl hr, ht, strips => by
    obtain ⟨-, writablel, writabler⟩ := ht
    have left := hl.rebuilds regular.ranked writablel
    have right := hr.rebuilds regular.ranked writabler
    cases strips with
    | left _ _ _ strips =>
      have right := right.bracketedIf
        (Context.bracketsRight? (ctx.bindingOf r) (ctx.precedence op.text)) p' q'
      rcases strips.of_bracketedIf with ⟨asked, rfl⟩ | ⟨l'', inner, rfl⟩
      · obtain ⟨o, ho, outranked⟩ :=
          (Context.bracketsLeft?_iff_outranks regular writablel op).mp asked
        refine (left.binary right op pos).of_iff (iff_false_intro ?_)
        rintro ⟨-, -, before, -⟩
        exact outranked (before o (hl.root?_eq.trans ho))
      · have left := (hl.rebuilds_stripped writablel inner).bracketedIf
          (Context.bracketsLeft? (ctx.bindingOf l) (ctx.precedence op.text)) p q
        exact (left.binary right op pos).of_iff (iff_false_intro And.left)
    | right _ _ _ strips =>
      have left := left.bracketedIf
        (Context.bracketsLeft? (ctx.bindingOf l) (ctx.precedence op.text)) p q
      rcases strips.of_bracketedIf with ⟨asked, rfl⟩ | ⟨r'', inner, rfl⟩
      · obtain ⟨o, ho, outranked⟩ :=
          (Context.bracketsRight?_iff_outranks regular writabler op).mp asked
        refine (left.binary right op pos).of_iff (iff_false_intro ?_)
        rintro ⟨-, -, -, after⟩
        exact after o (hr.root?_eq.trans ho) outranked
      · have right := (hr.rebuilds_stripped writabler inner).bracketedIf
          (Context.bracketsRight? (ctx.bindingOf r) (ctx.precedence op.text)) p' q'
        exact (left.binary right op pos).of_iff (iff_false_intro fun h => h.2.1)
  | _, _, _, .call pos p q hargs, ht, strips => by
    cases strips with
    | call _ _ _ inner =>
      rcases inner.of_append (Infix.matched_flatMap _) with ⟨ts, rfl, first⟩ | ⟨ts, rfl, last⟩
      · obtain ⟨es, rfl, rebuild⟩ := hargs.rebuild_stripped ht.2 first
        exact rebuild.call ht.1 pos p q
      · exact absurd rfl last.ne_closing

theorem Expr.AllShownAs.rebuild_stripped : ∀ {ts : List Expr} {es : List Infix}
    {us : List Token}, Expr.AllShownAs ctx ts es → Expr.WritableAll ctx ts →
    Enclosing Matched us (es.flatMap Infix.tokens) →
    ∃ es', es'.flatMap Infix.tokens = us ∧ Infix.RebuildAll ctx ts es' False
  | _, _, _, .nil, _, stripped => absurd rfl stripped.ne_nil
  | _, _, _, @Expr.AllShownAs.cons _ t ts e es h hs, ht, stripped => by
    rw [List.flatMap_cons] at stripped
    rcases stripped.of_append e.matched_tokens with ⟨us, rfl, first⟩ | ⟨us, rfl, later⟩
    · obtain ⟨e', rfl, strips⟩ := Infix.exists_strips first
      refine ⟨e' :: es, rfl, ?_⟩
      have all := Infix.RebuildAll.cons regular.ranked (h.rebuilds_stripped ht.1 strips)
        (hs.rebuild regular.ranked ht.2)
      rwa [false_and] at all
    · obtain ⟨es', rfl, rebuild⟩ := hs.rebuild_stripped ht.2 later
      refine ⟨e :: es', rfl, ?_⟩
      have all := Infix.RebuildAll.cons regular.ranked (h.rebuilds regular.ranked ht.1) rebuild
      rwa [and_false] at all

end

end Stripped

end Shown

/-! ## The rendered tokens -/

/-- Tokens, in brackets if they are asked for. -/
def bracketedTokens (asked : Option Bool) (ts : List Token) : List Token :=
  if asked = some true then .symbol .opening 0 :: (ts ++ [.symbol .closing 0]) else ts

namespace Expr

mutual

/-- The tokens that a tree is written as, all at position zero. -/
def tokens (ctx : Context) : Expr → List Token
  | operand x => [.operand x 0]
  | node s l r =>
    let parent := ctx.precedence s.text
    bracketedTokens (Context.bracketsLeft? (ctx.bindingOf l) parent) (l.tokens ctx) ++
      .symbol s 0 ::
        bracketedTokens (Context.bracketsRight? (ctx.bindingOf r) parent) (r.tokens ctx)
  | call f args => [.call f (.symbol .opening 0 :: (tokensAll ctx args ++ [.symbol .closing 0])) 0]

def tokensAll (ctx : Context) : List Expr → List Token
  | [] => []
  | t :: ts => t.tokens ctx ++ tokensAll ctx ts

end

end Expr

namespace Token

theorem same_symbol {t : Token} {s : Symbol} {pos : Int} (h : t.same (.symbol s pos) = true) :
    ∃ p, t = .symbol s p := by
  cases t with
  | symbol s' p =>
    obtain rfl : s' = s := by simpa [same] using h
    exact ⟨p, rfl⟩
  | _ => simp [same] at h

theorem exists_cons_of_sameAll {ts us : List Token} {u : Token}
    (h : sameAll ts (u :: us) = true) :
    ∃ t ts', ts = t :: ts' ∧ t.same u = true ∧ sameAll ts' us = true := by
  cases ts with
  | nil => simp [sameAll] at h
  | cons t ts =>
    rw [sameAll, Bool.and_eq_true] at h
    exact ⟨t, ts, rfl, h⟩

theorem eq_nil_of_sameAll {ts : List Token} (h : sameAll ts [] = true) : ts = [] := by
  cases ts with
  | nil => rfl
  | cons t ts => simp [sameAll] at h

theorem exists_append_of_sameAll {ts us vs : List Token} (h : sameAll ts (us ++ vs) = true) :
    ∃ ts₁ ts₂, ts = ts₁ ++ ts₂ ∧ sameAll ts₁ us = true ∧ sameAll ts₂ vs = true := by
  induction us generalizing ts with
  | nil => exact ⟨[], ts, rfl, rfl, h⟩
  | cons u us ih =>
    obtain ⟨t, ts, rfl, first, rest⟩ := exists_cons_of_sameAll h
    obtain ⟨ts₁, ts₂, rfl, left, right⟩ := ih rest
    exact ⟨t :: ts₁, ts₂, rfl, by rw [sameAll, first, left]; rfl, right⟩

theorem sameAll_append {ts us ts' us' : List Token} (h : sameAll ts us = true)
    (h' : sameAll ts' us' = true) : sameAll (ts ++ ts') (us ++ us') = true := by
  induction us generalizing ts with
  | nil =>
    obtain rfl := eq_nil_of_sameAll h
    exact h'
  | cons u us ih =>
    obtain ⟨t, ts, rfl, first, rest⟩ := exists_cons_of_sameAll h
    rw [List.cons_append, List.cons_append, sameAll, first, ih rest]
    rfl

/-- What is the same as a sequence in brackets is one. -/
theorem exists_enclosed_of_sameAll {ts us : List Token}
    (h : sameAll ts (.symbol .opening 0 :: (us ++ [.symbol .closing 0])) = true) :
    ∃ p q ts', ts = .symbol .opening p :: (ts' ++ [.symbol .closing q]) ∧
      sameAll ts' us = true := by
  obtain ⟨t, ts, rfl, first, rest⟩ := exists_cons_of_sameAll h
  obtain ⟨p, rfl⟩ := same_symbol first
  obtain ⟨ts, last, rfl, inner, closes⟩ := exists_append_of_sameAll rest
  obtain ⟨t, none, rfl, sign, nothing⟩ := exists_cons_of_sameAll closes
  obtain ⟨q, rfl⟩ := same_symbol sign
  obtain rfl := eq_nil_of_sameAll nothing
  exact ⟨p, q, ts, rfl, inner⟩

mutual

theorem same_move (g : Int → Int) : ∀ t u : Token, (t.move g).same u = t.same u
  | .operand x p, u => by cases u <;> rfl
  | .symbol s p, u => by cases u <;> rfl
  | .call f args p, u => by
    cases u with
    | call g' bs q => rw [move, same, same, sameAll_move g args bs]
    | _ => rfl

theorem sameAll_move (g : Int → Int) : ∀ ts us : List Token,
    sameAll (moveAll g ts) us = sameAll ts us
  | [], us => rfl
  | t :: ts, [] => rfl
  | t :: ts, u :: us => by rw [moveAll, sameAll, sameAll, same_move g t u, sameAll_move g ts us]

end

end Token

section Tokens
variable {ctx : Context}

theorem exists_bracketedIf {asked : Option Bool} {ts us : List Token}
    (same : sameAll ts (bracketedTokens asked us) = true) {P : Infix → Prop}
    (h : ∀ ts', sameAll ts' us = true → ∃ e, P e ∧ e.tokens = ts') :
    ∃ e p q, P e ∧ (e.bracketedIf asked p q).tokens = ts := by
  unfold bracketedTokens at same
  split at same
  · next hasked =>
    obtain ⟨p, q, ts, rfl, inner⟩ := exists_enclosed_of_sameAll same
    obtain ⟨e, he, rfl⟩ := h ts inner
    refine ⟨e, p, q, he, ?_⟩
    rw [Infix.bracketedIf, if_pos hasked, Infix.tokens]
  · next hasked =>
    obtain ⟨e, he, rfl⟩ := h ts same
    refine ⟨e, 0, 0, he, ?_⟩
    rw [Infix.bracketedIf, if_neg hasked]

mutual

/-- Tokens that are the rendered ones up to positions are those of an expression that is the tree
with its brackets. -/
theorem Expr.exists_shownAs : ∀ {t : Expr} {ts : List Token}, t.Writable ctx →
    Token.sameAll ts (t.tokens ctx) = true → ∃ e, t.ShownAs ctx e ∧ e.tokens = ts
  | .operand x, ts, _, same => by
    rw [Expr.tokens] at same
    obtain ⟨t, none, rfl, equal, nothing⟩ := exists_cons_of_sameAll same
    obtain rfl := eq_nil_of_sameAll nothing
    cases t with
    | operand y pos => exact ⟨.operand y pos, .operand pos equal, rfl⟩
    | _ => simp [Token.same] at equal
  | .node s l r, ts, ht, same => by
    obtain ⟨⟨op, rfl⟩, hl, hr⟩ := ht
    rw [Expr.tokens] at same
    obtain ⟨ls, rest, rfl, left, same⟩ := exists_append_of_sameAll same
    obtain ⟨t, rs, rfl, sign, right⟩ := exists_cons_of_sameAll same
    obtain ⟨pos, rfl⟩ := same_symbol sign
    obtain ⟨l', p, q, shownl, rfl⟩ := exists_bracketedIf left fun ts => Expr.exists_shownAs hl
    obtain ⟨r', p', q', shownr, rfl⟩ := exists_bracketedIf right fun ts => Expr.exists_shownAs hr
    exact ⟨_, .node pos p q p' q' shownl shownr, rfl⟩
  | .call f args, ts, ht, same => by
    rw [Expr.tokens] at same
    obtain ⟨t, none, rfl, equal, nothing⟩ := exists_cons_of_sameAll same
    obtain rfl := eq_nil_of_sameAll nothing
    cases t with
    | call g bs pos =>
      rw [Token.same, Bool.and_eq_true, beq_iff_eq] at equal
      obtain ⟨rfl, inside⟩ := equal
      obtain ⟨p, q, us, rfl, each⟩ := exists_enclosed_of_sameAll inside
      obtain ⟨es, shown, rfl⟩ := Expr.exists_allShownAs ht.2 each
      exact ⟨_, .call pos p q shown, rfl⟩
    | _ => simp [Token.same] at equal

theorem Expr.exists_allShownAs : ∀ {ts : List Expr} {us : List Token},
    Expr.WritableAll ctx ts → Token.sameAll us (Expr.tokensAll ctx ts) = true →
    ∃ es, Expr.AllShownAs ctx ts es ∧ es.flatMap Infix.tokens = us
  | [], us, _, same => by
    obtain rfl := eq_nil_of_sameAll same
    exact ⟨[], .nil, rfl⟩
  | t :: ts, us, ht, same => by
    rw [Expr.tokensAll] at same
    obtain ⟨us, vs, rfl, first, rest⟩ := exists_append_of_sameAll same
    obtain ⟨e, shown, rfl⟩ := Expr.exists_shownAs ht.1 first
    obtain ⟨es, all, rfl⟩ := Expr.exists_allShownAs ht.2 rest
    exact ⟨e :: es, .cons shown all, rfl⟩

end

theorem sameAll_bracketedIf {e : Infix} {us : List Token}
    (same : sameAll e.tokens us = true) (asked : Option Bool) (p q : Int) :
    sameAll (e.bracketedIf asked p q).tokens (bracketedTokens asked us) = true := by
  unfold Infix.bracketedIf bracketedTokens
  split
  · have closed : sameAll [.symbol .closing q] [.symbol .closing 0] = true := rfl
    rw [Infix.tokens, sameAll, sameAll_append same closed]
    rfl
  · exact same

mutual

/-- The tokens of an expression that is the tree with its brackets are the rendered ones. -/
theorem Expr.ShownAs.sameAll_tokens : ∀ {t : Expr} {e : Infix}, t.ShownAs ctx e →
    Token.sameAll e.tokens (t.tokens ctx) = true
  | _, _, .operand pos equal => by
    simp [Infix.tokens, Expr.tokens, Token.sameAll, Token.same, equal]
  | _, _, .node pos p q p' q' hl hr => by
    have left := sameAll_bracketedIf hl.sameAll_tokens
    have right := sameAll_bracketedIf hr.sameAll_tokens
    rw [Infix.tokens, Expr.tokens]
    refine sameAll_append (left _ p q) ?_
    rw [Token.sameAll, Token.same, beq_self_eq_true, Bool.true_and]
    exact right _ p' q'
  | _, _, .call pos p q hargs => by
    have closed : Token.sameAll [.symbol .closing q] [.symbol .closing 0] = true := rfl
    have inside := sameAll_append hargs.sameAll_tokens closed
    simp [Infix.tokens, Expr.tokens, Token.sameAll, Token.same, inside]

theorem Expr.AllShownAs.sameAll_tokens : ∀ {ts : List Expr} {es : List Infix},
    Expr.AllShownAs ctx ts es →
    Token.sameAll (es.flatMap Infix.tokens) (Expr.tokensAll ctx ts) = true
  | _, _, .nil => rfl
  | _, _, .cons h hs => by
    rw [List.flatMap_cons, Expr.tokensAll]
    exact sameAll_append h.sameAll_tokens hs.sameAll_tokens

end

/-- The text of a tree is cut into the rendered tokens. -/
theorem Context.tokenize_written {separators : String} (h : ctx.Spaced separators) {t : Expr}
    (ht : t.Writable ctx) :
    ∃ ts, ctx.tokenize (t.written ctx) = .ok ts ∧ sameAll ts (t.tokens ctx) = true := by
  obtain ⟨e, reads, shown⟩ := exists_shown h ht
  obtain ⟨ts, tokenized, moved⟩ :=
    tokenize_of_reads h.separates h.nests h.sparesSigns (h.spelled_written t) reads
  refine ⟨ts, tokenized, ?_⟩
  rw [← sameAll_move fun _ => 0, moved]
  exact shown.sameAll_tokens

end Tokens

/-- Where every operator leans left with a positive precedence, the tokens of a rendered tree are
built to an equal tree, and without any one of the bracket pairs in them, a call's own apart, still
built, but to a different one. These are the tokens that the text of the tree is cut into. -/
theorem brackets_needed {ctx : Context} (regular : ctx.Regular) {t : Expr}
    (ht : t.Writable ctx) :
    (∀ ts, sameAll ts (t.tokens ctx) = true →
      (∃ u, ctx.build ts = .ok u ∧ u.same t = true) ∧
      ∀ us, Enclosing Matched us ts → ∃ u, ctx.build us = .ok u ∧ u.same t = false) ∧
    ∀ separators, ctx.Spaced separators →
      ∃ text ts, t.render ctx = .ok text ∧ ctx.tokenize text = .ok ts ∧
        sameAll ts (t.tokens ctx) = true := by
  refine ⟨?_, ?_⟩
  · intro ts same
    obtain ⟨e, shown, rfl⟩ := Expr.exists_shownAs ht same
    refine ⟨?_, ?_⟩
    · obtain ⟨u, hu, equal⟩ := (shown.rebuilds regular.ranked ht).exists_build regular.ranked
      exact ⟨u, hu, equal.mpr (regular.grouped t)⟩
    · intro us stripped
      obtain ⟨e', rfl, strips⟩ := Infix.exists_strips stripped
      obtain ⟨u, hu, equal⟩ :=
        (shown.rebuilds_stripped regular ht strips).exists_build regular.ranked
      exact ⟨u, hu, Bool.eq_false_iff.mpr equal.mp⟩
  · intro separators spaced
    obtain ⟨ts, tokenized, same⟩ := Context.tokenize_written spaced ht
    refine ⟨t.written ctx, ts, ?_, tokenized, same⟩
    rw [Expr.render, if_pos (ht.decided regular.ranked)]

/-- In `1 - (2 - abs((1 + 2) * 3))` both the outer pair and the one inside the call are needed. -/
theorem brackets_needed_in_call :
    let sum := Expr.binary .mul (.binary .add (.operand 1) (.operand 2)) (.operand 3)
    let t := Expr.binary .sub (.operand 1) (.binary .sub (.operand 2) (.call .abs [sum]))
    let args : List Token := [.symbol .opening 13, .operand 1 14, .symbol (.operator .add) 16,
      .operand 2 18, .symbol .closing 19, .symbol (.operator .mul) 21, .operand 3 23,
      .symbol .closing 24]
    let bare : List Token := [.operand 1 14, .symbol (.operator .add) 16, .operand 2 18,
      .symbol (.operator .mul) 21, .operand 3 23, .symbol .closing 24]
    let call (args : List Token) : Token := .call .abs (.symbol .opening 12 :: args) 9
    (∃ u, Context.standard.build [.operand 1 0, .symbol (.operator .sub) 2, .operand 2 5,
      .symbol (.operator .sub) 7, call args] = .ok u ∧ u.same t = false) ∧
    (∃ u, Context.standard.build [.operand 1 0, .symbol (.operator .sub) 2, .symbol .opening 4,
      .operand 2 5, .symbol (.operator .sub) 7, call bare, .symbol .closing 25] = .ok u ∧
        u.same t = false) ∧
    ∃ text ts, t.render .standard = .ok text ∧ Context.standard.tokenize text = .ok ts ∧
      sameAll ts (t.tokens .standard) = true := by
  intro sum t args bare call
  let ts : List Token := [.operand 1 0, .symbol (.operator .sub) 2, .symbol .opening 4,
    .operand 2 5, .symbol (.operator .sub) 7, call args, .symbol .closing 25]
  have regular : Context.standard.Regular := by
    refine ⟨?_, ?_⟩
    · intro op
      cases op <;> decide
    · intro op
      cases op <;> rfl
  have spaced : Context.standard.Spaced " \t\r\n," := by
    refine ⟨Context.standard_ranked, by decide +kernel, rfl, by decide, by decide, ?_⟩
    intro c hc
    have cases : c = ' ' ∨ c = '\t' ∨ c = '\r' ∨ c = '\n' ∨ c = ',' := by simpa using hc
    rcases cases with rfl | rfl | rfl | rfl | rfl <;> decide
  have writable : t.Writable .standard := by
    refine ⟨⟨.sub, rfl⟩, ?_, ⟨.sub, rfl⟩, ?_, rfl, ⟨⟨.mul, rfl⟩, ⟨⟨.add, rfl⟩, ?_, ?_⟩, ?_⟩,
      trivial⟩
    all_goals exact ⟨by decide +kernel, by decide +kernel⟩
  have shown : sameAll ts (t.tokens .standard) = true := by decide +kernel
  obtain ⟨needed, rendered⟩ := brackets_needed regular writable
  have difference : Matched [.operand 2 5, .symbol (.operator .sub) 7, call args] := rfl
  have outer : Enclosing Matched [.operand 1 0, .symbol (.operator .sub) 2, .operand 2 5,
      .symbol (.operator .sub) 7, call args] ts :=
    .here [.operand 1 0, .symbol (.operator .sub) 2] [] 4 25 difference
  have addition : Matched [.operand 1 14, .symbol (.operator .add) 16, .operand 2 18] := rfl
  have within : Enclosing Matched bare args :=
    .here [] [.symbol (.operator .mul) 21, .operand 3 23, .symbol .closing 24] 13 19 addition
  have inner : Enclosing Matched [.operand 1 0, .symbol (.operator .sub) 2, .symbol .opening 4,
      .operand 2 5, .symbol (.operator .sub) 7, call bare, .symbol .closing 25] ts :=
    .inside [.operand 1 0, .symbol (.operator .sub) 2, .symbol .opening 4, .operand 2 5,
      .symbol (.operator .sub) 7] [.symbol .closing 25] .abs 9 12 within
  obtain ⟨-, deleted⟩ := needed ts shown
  exact ⟨deleted _ outer, deleted _ inner, rendered _ spaced⟩

end Reckon
