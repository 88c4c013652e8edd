import Reckon.Proofs.Precedence

/-!
Argument lists. Arguments follow one another without a mark between them, so a cut can only be seen
from what stands on its two sides: an operand has ended, and another starts. No such place lies
inside an infix expression, except within its brackets. Main statements: a call's tree is a matter
of its arguments' trees (`buildCall_pieces`); and a run of infix expressions in brackets splits into
just these expressions (`split?_run`), so that a call builds the tree of each (`buildCall_run`).
-/

namespace Reckon
namespace Arguments

/-! ## Signs alone decide -/

section Map
variable {α β : Type} {sa : α → Option Symbol} {sb : β → Option Symbol} {f : α → β}

theorem after_map (hf : ∀ x, sb (f x) = sa x) (d : Int) (x : α) :
    after sb d (f x) = after sa d x := by
  rw [after, after, hf]

theorem endsOperand_map (hf : ∀ x, sb (f x) = sa x) (x : α) :
    endsOperand sb (f x) = endsOperand sa x := by
  rw [endsOperand, endsOperand, hf]

theorem startsOperand_map (hf : ∀ x, sb (f x) = sa x) (x : α) :
    startsOperand sb (f x) = startsOperand sa x := by
  rw [startsOperand, startsOperand, hf]

theorem closesAtEnd_map (hf : ∀ x, sb (f x) = sa x) (d : Int) (xs : List α) :
    closesAtEnd sb d (xs.map f) = closesAtEnd sa d xs := by
  induction xs generalizing d with
  | nil => rfl
  | cons x xs ih => simp [closesAtEnd, after_map hf, ih]

theorem groupsAfter_map (hf : ∀ x, sb (f x) = sa x) (p : α) (d : Int) (xs : List α) :
    groupsAfter sb (f p) d (xs.map f) =
      ((groupsAfter sa p d xs).1.map f, (groupsAfter sa p d xs).2.map (·.map f)) := by
  induction xs generalizing p d with
  | nil => rfl
  | cons x xs ih =>
    simp only [List.map_cons, groupsAfter, after_map hf, endsOperand_map hf, startsOperand_map hf,
      ih]
    split <;> rfl

theorem groups_map (hf : ∀ x, sb (f x) = sa x) (xs : List α) :
    groups sb (xs.map f) = (groups sa xs).map (·.map f) := by
  cases xs with
  | nil => rfl
  | cons x xs => simp [groups, after_map hf, groupsAfter_map hf]

/-- Splitting looks at nothing but the signs. -/
theorem split?_map (hf : ∀ x, sb (f x) = sa x) (xs : List α) :
    split? sb (xs.map f) = (split? sa xs).map (·.map (·.map f)) := by
  have he : enclosed sb (xs.map f) = enclosed sa xs := by
    cases xs with
    | nil => rfl
    | cons x xs =>
      rw [List.map_cons, enclosed, enclosed, hf, ← List.map_cons, closesAtEnd_map hf]
  have hg : groups sb (xs.map f).tail.dropLast = (groups sa xs.tail.dropLast).map (·.map f) := by
    rw [← groups_map hf, List.map_dropLast, List.map_tail]
  rw [split?, split?, List.isEmpty_map, he, hg]
  split
  · rfl
  · split <;> rfl

end Map

/-! ## Nothing is lost -/

section Flatten
variable {α : Type} (symbol? : α → Option Symbol)

theorem groupsAfter_flatten (p : α) (d : Int) (xs : List α) :
    (groupsAfter symbol? p d xs).1 ++ (groupsAfter symbol? p d xs).2.flatten = xs := by
  induction xs generalizing p d with
  | nil => rfl
  | cons x xs ih =>
    have h := ih x (after symbol? d x)
    simp only [groupsAfter]
    split <;> simp [h]

theorem groups_flatten (xs : List α) : (groups symbol? xs).flatten = xs := by
  cases xs with
  | nil => rfl
  | cons x xs => simp [groups, groupsAfter_flatten]

end Flatten

/-! ## No cut inside an expression -/

section Cut
variable {α : Type} {symbol? : α → Option Symbol}

/-- Of what comes before, only whether an operand ends there matters. -/
theorem groupsAfter_congr {p q : α} (h : endsOperand symbol? p = endsOperand symbol? q) (d : Int)
    (xs : List α) : groupsAfter symbol? p d xs = groupsAfter symbol? q d xs := by
  cases xs <;> simp [groupsAfter, h]

/-- Where no operand can start, or none has ended, the group goes on. -/
theorem groupsAfter_cons {p x : α} {d : Int}
    (h : ¬(d = 0 ∧ endsOperand symbol? p ∧ startsOperand symbol? x)) (xs : List α) :
    groupsAfter symbol? p d (x :: xs) =
      (x :: (groupsAfter symbol? x (after symbol? d x) xs).1,
        (groupsAfter symbol? x (after symbol? d x) xs).2) := by
  rw [groupsAfter]
  exact if_neg h

/-- Outside all brackets, an operand that follows another starts a group of its own. -/
theorem groupsAfter_start {p n x : α} (hp : endsOperand symbol? p = true)
    (hn : endsOperand symbol? n = false) (hx : startsOperand symbol? x = true) (xs : List α) :
    groupsAfter symbol? p 0 (x :: xs) =
      ([], (groupsAfter symbol? n 0 (x :: xs)).1 :: (groupsAfter symbol? n 0 (x :: xs)).2) := by
  simp [groupsAfter, hp, hn, hx]

theorem groups_cons {n x : α} (hn : endsOperand symbol? n = false) (xs : List α) :
    groups symbol? (x :: xs) =
      (groupsAfter symbol? n 0 (x :: xs)).1 :: (groupsAfter symbol? n 0 (x :: xs)).2 := by
  simp [groups, groupsAfter, hn]

end Cut

/-- Every expression begins with something that an operand can start with. -/
theorem exists_start (e : Infix) :
    ∃ t ts, e.tokens = t :: ts ∧ startsOperand Token.symbol? t = true := by
  induction e with
  | operand x pos => exact ⟨_, _, rfl, rfl⟩
  | call f args pos => exact ⟨_, _, rfl, rfl⟩
  | bracketed left e right _ => exact ⟨_, _, rfl, rfl⟩
  | binary op pos l r ihl _ =>
    obtain ⟨t, ts, ht, hs⟩ := ihl
    exact ⟨t, ts ++ .symbol (.operator op) pos :: r.tokens, by simp [Infix.tokens, ht], hs⟩

/-- An expression closes no bracket that was open before it. -/
theorem closesAtEnd_tokens (e : Infix) {d : Int} (hd : 0 < d) (rest : List Token) :
    closesAtEnd Token.symbol? d (e.tokens ++ rest) = closesAtEnd Token.symbol? d rest := by
  have h0 : d ≠ 0 := by omega
  induction e generalizing d rest with
  | operand x pos => simp [Infix.tokens, closesAtEnd, after, Token.symbol?, h0]
  | call f args pos => simp [Infix.tokens, closesAtEnd, after, Token.symbol?, h0]
  | bracketed left e right ih =>
    have h1 : d + 1 ≠ 0 := by omega
    have inner := ih (d := d + 1) (by omega) (.symbol .closing right :: rest) h1
    simp [Infix.tokens, closesAtEnd, after, Token.symbol?, h0, h1, inner]
  | binary op pos l r ihl ihr =>
    simp [Infix.tokens, closesAtEnd, after, Token.symbol?, h0, ihl hd _ h0, ihr hd _ h0]

/-- The group that an expression starts or goes on in contains all of it. -/
theorem groupsAfter_tokens (e : Infix) {p q : Token} {d : Int} (hd : 0 ≤ d)
    (hp : d = 0 → endsOperand Token.symbol? p = false) (hq : endsOperand Token.symbol? q = true)
    (rest : List Token) :
    groupsAfter Token.symbol? p d (e.tokens ++ rest) =
      (e.tokens ++ (groupsAfter Token.symbol? q d rest).1,
        (groupsAfter Token.symbol? q d rest).2) := by
  have joined : ∀ x, ¬(d = 0 ∧ endsOperand Token.symbol? p ∧ startsOperand Token.symbol? x) := by
    rintro x ⟨h0, he, -⟩
    simp [hp h0] at he
  -- an element that an operand ends with stands for `q` from there on
  have ends : ∀ {x : Token}, endsOperand Token.symbol? x = true →
      groupsAfter Token.symbol? x d rest = groupsAfter Token.symbol? q d rest :=
    fun hx => groupsAfter_congr (hx.trans hq.symm) d rest
  induction e generalizing p q d rest with
  | operand x pos =>
    rw [Infix.tokens, List.singleton_append, groupsAfter_cons (joined _),
      ← ends (x := .operand x pos) rfl]
    rfl
  | call f args pos =>
    rw [Infix.tokens, List.singleton_append, groupsAfter_cons (joined _),
      ← ends (x := .call f args pos) rfl]
    rfl
  | bracketed left e right ih =>
    -- the depth is not zero before the last bracket, so that nothing is cut up to there
    have h0 : d + 1 ≠ 0 := by omega
    have inner := ih (p := .symbol .opening left) (q := .symbol .closing right) (d := d + 1)
      (by omega) (fun h => absurd h h0) rfl (.symbol .closing right :: rest)
      (fun x h => h0 h.1) fun hx => groupsAfter_congr hx _ _
    have closed := @groupsAfter_cons Token Token.symbol? (.symbol .closing right)
      (.symbol .closing right) (d + 1) (fun h => h0 h.1) rest
    have hd' : after Token.symbol? (d + 1) (.symbol .closing right) = d := by
      simp [after, Token.symbol?]
    rw [hd', ends rfl] at closed
    rw [Infix.tokens, List.cons_append, groupsAfter_cons (joined _), List.append_assoc,
      List.singleton_append]
    have hd'' : after Token.symbol? d (.symbol .opening left) = d + 1 := rfl
    rw [hd'', inner, closed]
    simp
  | binary op pos l r ihl ihr =>
    -- the operator starts no operand, and none has ended when the right one comes
    have left := ihl (q := .operand 0 0) hd hp rfl
      (.symbol (.operator op) pos :: (r.tokens ++ rest)) joined fun hx => groupsAfter_congr hx _ _
    have right := ihr (p := .symbol (.operator op) pos) hd (fun _ => rfl) hq rest
      (fun x h => by simp [endsOperand, Token.symbol?] at h) ends
    have sign := @groupsAfter_cons Token Token.symbol? (.operand 0 0) (.symbol (.operator op) pos) d
      (fun h => by simp [startsOperand, Token.symbol?] at h) (r.tokens ++ rest)
    have hd' : after Token.symbol? d (.symbol (.operator op) pos) = d := rfl
    rw [Infix.tokens, List.append_assoc, List.cons_append, left, sign, hd', right]
    simp

/-- After an operand, each expression of a run is a group of its own. -/
theorem groupsAfter_run (es : List Infix) {p : Token}
    (hp : endsOperand Token.symbol? p = true) :
    groupsAfter Token.symbol? p 0 (es.flatMap Infix.tokens) = ([], es.map Infix.tokens) := by
  induction es generalizing p with
  | nil => rfl
  | cons e es ih =>
    obtain ⟨t, ts, ht, hs⟩ := exists_start e
    let n : Token := .symbol .opening 0
    have whole : groupsAfter Token.symbol? n 0 (e.tokens ++ es.flatMap Infix.tokens) =
        (e.tokens, es.map Infix.tokens) := by
      rw [groupsAfter_tokens e (Int.le_refl 0) (fun _ => rfl) hp, ih hp, List.append_nil]
    calc groupsAfter Token.symbol? p 0 ((e :: es).flatMap Infix.tokens)
        = groupsAfter Token.symbol? p 0 (t :: (ts ++ es.flatMap Infix.tokens)) := by
          rw [List.flatMap_cons, ht, List.cons_append]
      _ = ([], (groupsAfter Token.symbol? n 0 (t :: (ts ++ es.flatMap Infix.tokens))).1 ::
            (groupsAfter Token.symbol? n 0 (t :: (ts ++ es.flatMap Infix.tokens))).2) :=
          groupsAfter_start hp rfl hs _
      _ = ([], (e :: es).map Infix.tokens) := by
          rw [← List.cons_append, ← ht, whole, List.map_cons]

theorem groups_run (es : List Infix) :
    groups Token.symbol? (es.flatMap Infix.tokens) = es.map Infix.tokens := by
  cases es with
  | nil => rfl
  | cons e es =>
    obtain ⟨t, ts, ht, -⟩ := exists_start e
    let n : Token := .symbol .opening 0
    have whole : groupsAfter Token.symbol? n 0 (e.tokens ++ es.flatMap Infix.tokens) =
        (e.tokens, es.map Infix.tokens) := by
      rw [groupsAfter_tokens e (q := .operand 0 0) (Int.le_refl 0) (fun _ => rfl) rfl,
        groupsAfter_run es rfl, List.append_nil]
    calc groups Token.symbol? ((e :: es).flatMap Infix.tokens)
        = groups Token.symbol? (t :: (ts ++ es.flatMap Infix.tokens)) := by
          rw [List.flatMap_cons, ht, List.cons_append]
      _ = (groupsAfter Token.symbol? n 0 (t :: (ts ++ es.flatMap Infix.tokens))).1 ::
            (groupsAfter Token.symbol? n 0 (t :: (ts ++ es.flatMap Infix.tokens))).2 :=
          groups_cons rfl _
      _ = (e :: es).map Infix.tokens := by
          rw [← List.cons_append, ← ht, whole, List.map_cons]

theorem closesAtEnd_run (es : List Infix) {d : Int} (hd : 0 < d) (rest : List Token) :
    closesAtEnd Token.symbol? d (es.flatMap Infix.tokens ++ rest) =
      closesAtEnd Token.symbol? d rest := by
  induction es with
  | nil => rfl
  | cons e es ih => rw [List.flatMap_cons, List.append_assoc, closesAtEnd_tokens e hd, ih]

/-- A run of expressions in brackets splits into these expressions. -/
theorem split?_run (left right : Int) (es : List Infix) :
    split? Token.symbol?
      (.symbol .opening left :: (es.flatMap Infix.tokens ++ [.symbol .closing right])) =
      some (es.map Infix.tokens) := by
  have closes : closesAtEnd Token.symbol? 1
      (es.flatMap Infix.tokens ++ [.symbol .closing right]) = true := by
    rw [closesAtEnd_run es Int.one_pos]
    rfl
  have enclosed : enclosed Token.symbol?
      (.symbol .opening left :: (es.flatMap Infix.tokens ++ [.symbol .closing right])) = true := by
    simpa [Arguments.enclosed, closesAtEnd, after, Token.symbol?] using closes
  simp [split?, enclosed, groups_run]

end Arguments

/-! ## Building calls -/

namespace Context
variable {ctx : Context}

theorem symbol?_piece (t : Token) : (ctx.piece t).symbol? = t.symbol? := by
  cases t <;> simp only [piece] <;> rfl

/-- The call of `f` with these arguments, if it may have as many. -/
def counted (ctx : Context) (f : FunctionName) (pos : Int) (args : List Expr) :
    Except Problem Expr :=
  match ctx.wrongCount? f args.length with
  | some lack => fail (.unsupported f.text lack (some pos))
  | none => .ok (.call f args)

theorem reduceEach_pieces (gs : List (List Token)) :
    ctx.reduceEach (gs.map ctx.pieces) = gs.mapM ctx.build := by
  induction gs with
  | nil => rfl
  | cons g gs ih =>
    rw [List.map_cons, reduceEach, ih, List.mapM_cons]
    rfl

/-- A call builds each of its arguments as a sequence of its own, and then counts them. -/
theorem buildCall_pieces (f : FunctionName) (pos : Int) (args : List Token) :
    ctx.buildCall f pos (ctx.pieces args) =
      match Arguments.split? Token.symbol? args with
      | none => fail (.malformed (.notEnclosed f.text pos))
      | some gs => gs.mapM ctx.build >>= ctx.counted f pos := by
  rw [buildCall, pieces_eq_map, Arguments.split?_map symbol?_piece]
  cases Arguments.split? Token.symbol? args with
  | none => rfl
  | some gs =>
    have pieces : gs.map (·.map ctx.piece) = gs.map ctx.pieces := by
      simp [pieces_eq_map]
    simp only [Option.map_some, pieces, reduceEach_pieces]
    rfl

theorem mapM_build_tokens (h : ctx.Ranked) {es : List Infix} (hs : ∀ e ∈ es, e.Settled ctx) :
    (es.map Infix.tokens).mapM ctx.build = es.mapM (Infix.tree ctx) := by
  induction es with
  | nil => rfl
  | cons e es ih =>
    rw [List.map_cons, List.mapM_cons, List.mapM_cons, build_tokens h (hs e List.mem_cons_self),
      ih fun e he => hs e (List.mem_cons_of_mem _ he)]

/-- A call whose arguments are a run of settled expressions in brackets builds the tree of each of
them, and then counts them. -/
theorem buildCall_run (h : ctx.Ranked) (f : FunctionName) (pos left right : Int) {es : List Infix}
    (hs : ∀ e ∈ es, e.Settled ctx) :
    ctx.buildCall f pos (ctx.pieces
      (.symbol .opening left :: (es.flatMap Infix.tokens ++ [.symbol .closing right]))) =
      es.mapM (Infix.tree ctx) >>= ctx.counted f pos := by
  rw [buildCall_pieces, Arguments.split?_run]
  simp only [mapM_build_tokens h hs]

end Context
end Reckon
