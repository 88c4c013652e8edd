import Reckon.Proofs.Conservation

/-!
Bracket pairs that make no difference. Until a bracket pair closes, nothing that waits below it is
touched, and once it has closed nothing of it waits any more; so a pair with matched contents only
adds to the trees, and does so in the same way within another pair. Main statement: a bracket pair
around one operand, one call or one bracket pair changes no outcome of building, wherever it is put,
and neither does one around a whole sequence that builds (`build_enclosing`).
-/

namespace Reckon

namespace Token

/-- What is one operand as it stands: an operand, a call, or a bracket pair with all inside it. -/
inductive Single : List Token → Prop where
  | operand (x : Float) (pos : Int) : Single [.operand x pos]
  | call (f : FunctionName) (args : List Token) (pos : Int) : Single [.call f args pos]
  | bracketed (left right : Int) {ts : List Token} :
    Matched ts → Single (.symbol .opening left :: (ts ++ [.symbol .closing right]))

/-- The second sequence is the first with one bracket pair more, around a run of a kind: in the
sequence itself, or among the arguments of a call, behind the bracket that these begin with. -/
inductive Enclosing (P : List Token → Prop) : List Token → List Token → Prop where
  | here (before after : List Token) (left right : Int) {run : List Token} :
    P run → Enclosing P (before ++ (run ++ after))
      (before ++ .symbol .opening left :: (run ++ .symbol .closing right :: after))
  | inside (before after : List Token) (f : FunctionName) (pos left : Int)
    {args args' : List Token} :
    Enclosing P args args' →
    Enclosing P (before ++ .call f (.symbol .opening left :: args) pos :: after)
      (before ++ .call f (.symbol .opening left :: args') pos :: after)

/-- More brackets that were open before stay open. -/
theorem depthAfter_add {d d' : Nat} {ts : List Token} (h : depthAfter d ts = some d') (k : Nat) :
    depthAfter (d + k) ts = some (d' + k) := by
  induction ts generalizing d with
  | nil =>
    obtain rfl := Option.some.inj h
    rfl
  | cons t ts ih =>
    cases t with
    | operand x pos => exact ih h
    | call f args pos => exact ih h
    | symbol s pos =>
      cases s with
      | operator op => exact ih h
      | opening =>
        rw [depthAfter, Nat.add_right_comm]
        exact ih h
      | closing =>
        cases d with
        | zero => cases h
        | succ d =>
          rw [Nat.add_right_comm]
          exact ih h

theorem Matched.enclose {ts : List Token} (h : Matched ts) (left right : Int) :
    Matched (.symbol .opening left :: (ts ++ [.symbol .closing right])) := by
  have inner := depthAfter_add h 1
  simp only [Nat.zero_add] at inner
  simp [Matched, depthAfter, depthAfter_append, inner]

theorem Single.matched {run : List Token} (h : Single run) : Matched run := by
  cases h with
  | operand x pos => rfl
  | call f args pos => rfl
  | bracketed left right h => exact h.enclose left right

theorem Single.ne_nil {run : List Token} (h : Single run) : run ≠ [] := by
  cases h <;> simp

end Token

open Token

/-! ## What waits below a bracket -/

namespace Stacks

/-- The stacks with more that waits below. -/
def above (below : List Waiting) (s : Stacks) : Stacks := ⟨s.waiting ++ below, s.trees⟩

/-- Joins by all operators that wait, back to the latest opening bracket. -/
def joinAll : List Waiting → List Expr → Except Problem (List Expr)
  | .operator op pos :: ws, ts => do joinAll ws (← join op pos ts)
  | _, ts => .ok ts

variable {ctx : Context}

theorem pushAll_append (s : Stacks) (ps qs : List Piece) :
    pushAll ctx s (ps ++ qs) = pushAll ctx s ps >>= fun s => pushAll ctx s qs := by
  induction ps generalizing s with
  | nil => rfl
  | cons p ps ih =>
    rw [List.cons_append, pushAll, pushAll]
    cases s.push ctx p with
    | error e => rfl
    | ok s => exact ih s

section Above
variable (below : List Waiting)

/-- An operator that comes reduces nothing below a bracket. -/
theorem reduce_above (op : Operator) (p : Int) (ws : List Waiting) (es : List Expr) :
    reduce ctx op (ws ++ .bracket p :: below) es =
      (reduce ctx op ws es).map (above (.bracket p :: below)) := by
  induction ws generalizing es with
  | nil => rfl
  | cons w ws ih =>
    cases w with
    | bracket q => rfl
    | operator o q =>
      rw [List.cons_append, reduce, reduce]
      split
      · cases join o q es with
        | error e => rfl
        | ok us => exact ih us
      · rfl
      · rfl

/-- A bracket that closes another reaches nothing below that one. -/
theorem close_above {ws : List Waiting} (h : 0 < Waiting.brackets ws) (pos : Int)
    (es : List Expr) :
    close pos (ws ++ below) es = (close pos ws es).map (above below) := by
  induction ws generalizing es with
  | nil => simp [Waiting.brackets] at h
  | cons w ws ih =>
    cases w with
    | bracket q => rfl
    | operator o q =>
      rw [List.cons_append, close, close]
      cases join o q es with
      | error e => rfl
      | ok us => exact ih h us

theorem brackets_reduce {op : Operator} {ws : List Waiting} {es : List Expr} {s : Stacks}
    (h : reduce ctx op ws es = .ok s) : Waiting.brackets s.waiting = Waiting.brackets ws := by
  induction ws generalizing es with
  | nil =>
    obtain rfl := Except.ok.inj h
    rfl
  | cons w ws ih =>
    cases w with
    | bracket q =>
      obtain rfl := Except.ok.inj h
      rfl
    | operator o q =>
      rw [reduce] at h
      split at h
      · obtain ⟨us, -, h⟩ := bind_eq_ok.mp h
        exact ih h
      · obtain rfl := Except.ok.inj h
        rfl
      · cases h

theorem brackets_close {pos : Int} {ws : List Waiting} {es : List Expr} {s : Stacks}
    (h : close pos ws es = .ok s) : Waiting.brackets ws = Waiting.brackets s.waiting + 1 := by
  induction ws generalizing es with
  | nil => cases h
  | cons w ws ih =>
    cases w with
    | bracket q =>
      obtain rfl := Except.ok.inj h
      rfl
    | operator o q =>
      obtain ⟨us, -, h⟩ := bind_eq_ok.mp h
      exact ih h

/-- Nothing below a bracket is touched by one token that does not close the bracket. -/
theorem push_above (ctx : Context) {ws : List Waiting} {t : Token} {d : Nat}
    (h : depthAfter (Waiting.brackets ws) [t] = some d) (p : Int) (es : List Expr) :
    push ctx ⟨ws ++ .bracket p :: below, es⟩ (ctx.piece t) =
      (push ctx ⟨ws, es⟩ (ctx.piece t)).map (above (.bracket p :: below)) ∧
    ∀ s, push ctx ⟨ws, es⟩ (ctx.piece t) = .ok s → Waiting.brackets s.waiting = d := by
  cases t with
  | operand x pos =>
    obtain rfl := Option.some.inj h
    rw [Context.piece]
    refine ⟨rfl, ?_⟩
    rintro s ⟨⟩
    rfl
  | call f args pos =>
    obtain rfl := Option.some.inj h
    rw [Context.piece, push, push]
    cases ctx.buildCall f pos (ctx.pieces args) with
    | error e => exact ⟨rfl, by simp⟩
    | ok t =>
      refine ⟨rfl, ?_⟩
      rintro s ⟨⟩
      rfl
  | symbol sign pos =>
    rw [Context.piece]
    cases sign with
    | opening =>
      obtain rfl := Option.some.inj h
      refine ⟨rfl, ?_⟩
      rintro s ⟨⟩
      rfl
    | closing =>
      cases hb : Waiting.brackets ws with
      | zero =>
        rw [hb] at h
        cases h
      | succ k =>
        rw [hb] at h
        obtain rfl := Option.some.inj h
        refine ⟨close_above _ (by omega) pos es, ?_⟩
        intro s hs
        have one : Waiting.brackets ws = Waiting.brackets s.waiting + 1 := brackets_close hs
        omega
    | operator op =>
      obtain rfl := Option.some.inj h
      rw [push, push, reduce_above]
      cases hr : reduce ctx op ws es with
      | error e => exact ⟨rfl, by simp⟩
      | ok r =>
        have kept : Waiting.brackets r.waiting = Waiting.brackets ws := brackets_reduce hr
        refine ⟨rfl, ?_⟩
        rintro s ⟨⟩
        exact kept

/-- Nothing below a bracket is touched until the bracket closes. -/
theorem pushAll_above (ctx : Context) (ws : List Waiting) {ts : List Token} {d : Nat}
    (h : depthAfter (Waiting.brackets ws) ts = some d) (p : Int) (es : List Expr) :
    pushAll ctx ⟨ws ++ .bracket p :: below, es⟩ (ctx.pieces ts) =
      (pushAll ctx ⟨ws, es⟩ (ctx.pieces ts)).map (above (.bracket p :: below)) ∧
    ∀ s, pushAll ctx ⟨ws, es⟩ (ctx.pieces ts) = .ok s → Waiting.brackets s.waiting = d := by
  induction ts generalizing ws es with
  | nil =>
    obtain rfl := Option.some.inj h
    rw [Context.pieces]
    refine ⟨rfl, ?_⟩
    rintro s ⟨⟩
    rfl
  | cons t ts ih =>
    rw [← List.singleton_append, depthAfter_append, Option.bind_eq_some_iff] at h
    obtain ⟨k, hk, h⟩ := h
    obtain ⟨first, count⟩ := push_above below ctx hk p es
    rw [Context.pieces, pushAll, pushAll, first]
    cases hs : push ctx ⟨ws, es⟩ (ctx.piece t) with
    | error e => exact ⟨rfl, by simp⟩
    | ok s =>
      rw [← count s hs] at h
      exact ih s.waiting h s.trees

end Above

/-! ## Bracket pairs -/

theorem close_joinAll {ws : List Waiting} (h : Waiting.brackets ws = 0) (pos p : Int)
    (below : List Waiting) (es : List Expr) :
    close pos (ws ++ .bracket p :: below) es = (joinAll ws es).map (⟨below, ·⟩) := by
  induction ws generalizing es with
  | nil => rfl
  | cons w ws ih =>
    cases w with
    | bracket q => simp [Waiting.brackets] at h
    | operator o q =>
      rw [List.cons_append, close, joinAll]
      cases join o q es with
      | error e => rfl
      | ok us => exact ih h us

theorem finish_joinAll {ws : List Waiting} (h : Waiting.brackets ws = 0) (es : List Expr) :
    finish ws es = joinAll ws es >>= finish [] := by
  induction ws generalizing es with
  | nil => rfl
  | cons w ws ih =>
    cases w with
    | bracket q => simp [Waiting.brackets] at h
    | operator o q =>
      rw [finish, joinAll]
      cases join o q es with
      | error e => rfl
      | ok us => exact ih h us

/-- What a sequence in a bracket pair of its own makes of the trees before it. -/
def enclosed (ctx : Context) (ts : List Token) (es : List Expr) : Except Problem (List Expr) := do
  let s ← pushAll ctx ⟨[], es⟩ (ctx.pieces ts)
  joinAll s.waiting s.trees

/-- A bracket pair with matched contents makes something of the trees, and leaves what waits. -/
theorem pushAll_enclosed {ts : List Token} (h : Matched ts) (left right : Int)
    (ws : List Waiting) (es : List Expr) :
    pushAll ctx ⟨ws, es⟩
      (ctx.pieces (.symbol .opening left :: (ts ++ [.symbol .closing right]))) =
      (enclosed ctx ts es).map (⟨ws, ·⟩) := by
  obtain ⟨inner, count⟩ := pushAll_above ws ctx [] h left es
  rw [List.nil_append] at inner
  have opened : push ctx ⟨ws, es⟩ (ctx.piece (.symbol .opening left)) =
      .ok ⟨.bracket left :: ws, es⟩ := by
    rw [Context.piece]
    rfl
  rw [Context.pieces, pushAll, opened, ok_bind, Context.pieces_append, pushAll_append, inner,
    enclosed]
  cases hs : pushAll ctx ⟨[], es⟩ (ctx.pieces ts) with
  | error e => rfl
  | ok s =>
    have closed := close_joinAll (count s hs) right left ws s.trees
    rw [map_ok, ok_bind, ok_bind, Context.pieces, Context.pieces, pushAll, Context.piece, push,
      above, closed]
    cases joinAll s.waiting s.trees <;> rfl

/-- So does a single operand, as if it stood in a bracket pair. -/
theorem pushAll_single {run : List Token} (h : Single run) (ws : List Waiting) (es : List Expr) :
    pushAll ctx ⟨ws, es⟩ (ctx.pieces run) = (enclosed ctx run es).map (⟨ws, ·⟩) := by
  cases h with
  | operand x pos => rfl
  | call f args pos =>
    rw [enclosed, Context.pieces, Context.pieces, pushAll, pushAll, Context.piece, push, push]
    cases ctx.buildCall f pos (ctx.pieces args) <;> rfl
  | @bracketed left right ts matched =>
    rw [enclosed, pushAll_enclosed matched, pushAll_enclosed matched]
    cases enclosed ctx ts es <;> rfl

end Stacks

namespace Context
variable {ctx : Context}

/-- In a sequence, a bracket pair around a single operand changes nothing. -/
theorem build_enclosing_single {run : List Token} (h : Single run) (before after : List Token)
    (left right : Int) :
    ctx.build (before ++ .symbol .opening left :: (run ++ .symbol .closing right :: after)) =
      ctx.build (before ++ (run ++ after)) := by
  have same : ∀ s, Stacks.pushAll ctx s
      (ctx.pieces (.symbol .opening left :: (run ++ [.symbol .closing right]))) =
      Stacks.pushAll ctx s (ctx.pieces run) := by
    rintro ⟨ws, es⟩
    rw [Stacks.pushAll_enclosed h.matched, Stacks.pushAll_single h]
  have cut : before ++ .symbol .opening left :: (run ++ .symbol .closing right :: after) =
      before ++ ((.symbol .opening left :: (run ++ [.symbol .closing right])) ++ after) := by
    simp
  rw [cut, build, build, reduceAll, reduceAll]
  simp only [pieces_append, Stacks.pushAll_append, same]

/-- A bracket pair around a whole sequence that builds changes nothing. -/
theorem build_enclosed_whole {ts : List Token} {t : Expr} (h : ctx.build ts = .ok t)
    (left right : Int) :
    ctx.build (.symbol .opening left :: (ts ++ [.symbol .closing right])) = .ok t := by
  have matched : Matched ts := (Config.Tally.run (run_of_build h)).brackets
  rw [build, reduceAll, Stacks.empty, Stacks.pushAll_enclosed matched, Stacks.enclosed]
  obtain ⟨s, hs, finished⟩ := bind_eq_ok.mp h
  have count := (Stacks.pushAll_above [] ctx [] matched 0 []).2 s hs
  rw [Stacks.finish_joinAll count] at finished
  have pushed : Stacks.pushAll ctx ⟨[], []⟩ (ctx.pieces ts) = .ok s := hs
  rw [pushed, ok_bind]
  obtain ⟨es, joined, finished⟩ := bind_eq_ok.mp finished
  rw [joined]
  exact finished

end Context

/-! ## Bracket pairs among arguments -/

namespace Arguments

/-- The two ways of counting open brackets agree on each token. -/
theorem exists_after {k k' : Nat} {t : Token} {ts : List Token}
    (h : depthAfter k (t :: ts) = some k') :
    ∃ j : Nat, depthAfter j ts = some k' ∧ ∀ d : Int, after Token.symbol? (d + k) t = d + j := by
  cases t with
  | operand x pos => exact ⟨k, h, fun _ => rfl⟩
  | call f args pos => exact ⟨k, h, fun _ => rfl⟩
  | symbol s pos =>
    cases s with
    | operator op => exact ⟨k, h, fun _ => rfl⟩
    | opening =>
      refine ⟨k + 1, h, ?_⟩
      intro d
      show d + k + 1 = d + (k + 1 : Nat)
      omega
    | closing =>
      cases k with
      | zero => cases h
      | succ j =>
        refine ⟨j, h, ?_⟩
        intro d
        show d + (j + 1 : Nat) - 1 = d + j
        omega

/-- Matched tokens inside a bracket close nothing around them. -/
theorem closesAtEnd_matched {k k' : Nat} {ts : List Token} (h : depthAfter k ts = some k')
    {d : Int} (hd : 0 < d) (rest : List Token) :
    closesAtEnd Token.symbol? (d + k) (ts ++ rest) = closesAtEnd Token.symbol? (d + k') rest := by
  induction ts generalizing k with
  | nil =>
    obtain rfl := Option.some.inj h
    rfl
  | cons t ts ih =>
    obtain ⟨j, hj, step⟩ := exists_after h
    have open_ : d + j ≠ 0 := by omega
    rw [List.cons_append, closesAtEnd, step, if_neg open_]
    exact ih hj

/-- Inside brackets nothing is cut, whatever comes before. -/
theorem groupsAfter_matched {k k' : Nat} {ts : List Token} (h : depthAfter k ts = some k')
    {d : Int} (hd : 0 < d) (p q : Token) (rest : List Token) :
    groupsAfter Token.symbol? p (d + k) (ts ++ rest) =
      (ts ++ (groupsAfter Token.symbol? q (d + k') rest).1,
        (groupsAfter Token.symbol? q (d + k') rest).2) := by
  induction ts generalizing k p with
  | nil =>
    obtain rfl := Option.some.inj h
    have open_ : d + k ≠ 0 := by omega
    cases rest <;> simp [groupsAfter, open_]
  | cons t ts ih =>
    obtain ⟨j, hj, step⟩ := exists_after h
    have open_ : d + k ≠ 0 := by omega
    rw [List.cons_append, groupsAfter_cons (fun cut => open_ cut.1), step, ih hj]
    rfl

/-- A single operand begins as an operand does, and is not cut inside. -/
theorem exists_start_single {run : List Token} (h : Single run) {q : Token} {d : Int} (hd : 0 ≤ d)
    (hq : endsOperand Token.symbol? q = true) (rest : List Token) :
    ∃ x xs, run = x :: xs ∧ startsOperand Token.symbol? x = true ∧
      groupsAfter Token.symbol? x (after Token.symbol? d x) (xs ++ rest) =
        (xs ++ (groupsAfter Token.symbol? q d rest).1,
          (groupsAfter Token.symbol? q d rest).2) := by
  have ends : ∀ {x : Token}, endsOperand Token.symbol? x = true →
      groupsAfter Token.symbol? x d rest = groupsAfter Token.symbol? q d rest :=
    fun hx => groupsAfter_congr (hx.trans hq.symm) d rest
  cases h with
  | operand x pos => exact ⟨.operand x pos, [], rfl, rfl, ends rfl⟩
  | call f args pos => exact ⟨.call f args pos, [], rfl, rfl, ends rfl⟩
  | @bracketed left right ts matched =>
    refine ⟨.symbol .opening left, ts ++ [.symbol .closing right], rfl, rfl, ?_⟩
    have open_ : d + 1 ≠ 0 := by omega
    have inner := groupsAfter_matched matched (d := d + 1) (by omega) (.symbol .opening left)
      (.symbol .opening left) (.symbol .closing right :: rest)
    have depth : after Token.symbol? (d + 1) (.symbol .closing right) = d := by
      simp [after, Token.symbol?]
    rw [Int.natCast_zero, Int.add_zero, groupsAfter_cons (fun cut => open_ cut.1), depth,
      ends rfl] at inner
    rw [List.append_assoc, List.singleton_append]
    refine inner.trans ?_
    simp

/-- A single operand starts a group if it follows an operand outside brackets, and goes on with the
group if not; what follows it follows an operand. -/
theorem groupsAfter_single {run : List Token} (h : Single run) {p q : Token} {d : Int} (hd : 0 ≤ d)
    (hq : endsOperand Token.symbol? q = true) (rest : List Token) :
    groupsAfter Token.symbol? p d (run ++ rest) =
      if d = 0 ∧ endsOperand Token.symbol? p then
        ([], (run ++ (groupsAfter Token.symbol? q d rest).1) ::
          (groupsAfter Token.symbol? q d rest).2)
      else (run ++ (groupsAfter Token.symbol? q d rest).1,
        (groupsAfter Token.symbol? q d rest).2) := by
  obtain ⟨x, xs, rfl, start, inner⟩ := exists_start_single h hd hq rest
  rw [List.cons_append, groupsAfter, inner]
  simp [start]

/-- One sequence is the other, or has the run `v` in one place where that has `u`. -/
def Replaced (u v : List Token) (g g' : List Token) : Prop :=
  g = g' ∨ ∃ before after, g = before ++ (u ++ after) ∧ g' = before ++ (v ++ after)

theorem Replaced.cons {u v g g' : List Token} (h : Replaced u v g g') (t : Token) :
    Replaced u v (t :: g) (t :: g') := by
  rcases h with rfl | ⟨before, after, rfl, rfl⟩
  · exact .inl rfl
  · exact .inr ⟨t :: before, after, rfl, rfl⟩

theorem after_pos {d : Int} (hd : 0 < d) {t : Token} (h : after Token.symbol? d t ≠ 0) :
    0 < after Token.symbol? d t := by
  unfold after at h ⊢
  split at h <;> omega

/-- A bracket that closes at the end is still open before it. -/
theorem exists_closesAtEnd {before rest : List Token} (nonempty : rest ≠ []) {d : Int} (hd : 0 < d)
    (h : closesAtEnd Token.symbol? d (before ++ rest) = true) :
    ∃ e, 0 < e ∧ closesAtEnd Token.symbol? e rest = true := by
  induction before generalizing d with
  | nil => exact ⟨d, hd, h⟩
  | cons t before ih =>
    rw [List.cons_append, closesAtEnd] at h
    split at h
    · simp [nonempty] at h
    · next h0 => exact ih (after_pos hd h0) h

section Replace
variable {u v : List Token} (hu : Single u) (hv : Single v)
include hu hv

/-- With one single operand in the place of another, the same bracket closes at the end. -/
theorem closesAtEnd_replaced (before after : List Token) {d : Int} (hd : 0 < d) :
    closesAtEnd Token.symbol? d (before ++ (v ++ after)) =
      closesAtEnd Token.symbol? d (before ++ (u ++ after)) := by
  induction before generalizing d with
  | nil =>
    have left := closesAtEnd_matched hv.matched hd after
    have right := closesAtEnd_matched hu.matched hd after
    rw [Int.natCast_zero, Int.add_zero] at left right
    exact left.trans right.symm
  | cons t before ih =>
    rw [List.cons_append, List.cons_append, closesAtEnd, closesAtEnd]
    by_cases h0 : Arguments.after Token.symbol? d t = 0
    · have more : ∀ {w : List Token}, Single w → (before ++ (w ++ after)).isEmpty = false := by
        intro w hw
        simp [hw.ne_nil]
      rw [if_pos h0, if_pos h0, more hu, more hv]
    · rw [if_neg h0, if_neg h0]
      exact ih (after_pos hd h0)

/-- With one single operand in the place of another, only the group that it stands in changes. -/
theorem groupsAfter_replaced (before after : List Token) {p : Token} {d : Int} (hd : 0 ≤ d)
    {rest : List Token}
    (closes : closesAtEnd Token.symbol? (d + 1) (before ++ (u ++ rest)) = true) :
    List.Forall₂ (Replaced u v)
      ((groupsAfter Token.symbol? p d (before ++ (u ++ after))).1 ::
        (groupsAfter Token.symbol? p d (before ++ (u ++ after))).2)
      ((groupsAfter Token.symbol? p d (before ++ (v ++ after))).1 ::
        (groupsAfter Token.symbol? p d (before ++ (v ++ after))).2) := by
  have refl : ∀ gs : List (List Token), List.Forall₂ (Replaced u v) gs gs :=
    fun gs => List.forall₂_same.mpr fun g _ => .inl rfl
  induction before generalizing p d with
  | nil =>
    have placed : ∀ g, Replaced u v (u ++ g) (v ++ g) := fun g => .inr ⟨[], g, rfl, rfl⟩
    rw [List.nil_append, List.nil_append, groupsAfter_single (q := .operand 0 0) hu hd rfl,
      groupsAfter_single (q := .operand 0 0) hv hd rfl]
    split
    · exact .cons (.inl rfl) (.cons (placed _) (refl _))
    · exact .cons (placed _) (refl _)
  | cons t before ih =>
    rw [List.cons_append, closesAtEnd] at closes
    have depth :
        Arguments.after Token.symbol? (d + 1) t = Arguments.after Token.symbol? d t + 1 := by
      unfold Arguments.after
      split <;> omega
    split at closes
    · simp [hu.ne_nil] at closes
    · next h0 =>
      -- the bracket that closes at the end is still open, so the depth inside it is not negative
      have inside := after_pos (by omega) h0
      rw [depth] at closes inside
      obtain ⟨first, others⟩ := List.forall₂_cons.mp (ih (p := t) (by omega) closes)
      rw [List.cons_append, List.cons_append, groupsAfter, groupsAfter]
      simp only
      split
      · exact .cons (.inl rfl) (.cons (first.cons t) others)
      · exact .cons (first.cons t) others

theorem groups_replaced (before after : List Token) {rest : List Token}
    (closes : closesAtEnd Token.symbol? 1 (before ++ (u ++ rest)) = true) :
    List.Forall₂ (Replaced u v) (groups Token.symbol? (before ++ (u ++ after)))
      (groups Token.symbol? (before ++ (v ++ after))) := by
  let n : Token := .symbol .opening 0
  have whole : ∀ {w : List Token}, Single w → groups Token.symbol? (before ++ (w ++ after)) =
      (groupsAfter Token.symbol? n 0 (before ++ (w ++ after))).1 ::
        (groupsAfter Token.symbol? n 0 (before ++ (w ++ after))).2 := by
    intro w hw
    obtain ⟨x, xs, hx⟩ := List.exists_cons_of_ne_nil (l := before ++ (w ++ after)) (by
      simp [hw.ne_nil])
    rw [hx, groups_cons (n := n) rfl]
  rw [whole hu, whole hv]
  exact groupsAfter_replaced hu hv before after (Int.le_refl 0) closes

/-- With one single operand in the place of another behind the first bracket, the tokens still split
or do not, and only the argument that it stands in changes. -/
theorem split?_replaced (before after : List Token) (left : Int) :
    (split? Token.symbol? (.symbol .opening left :: (before ++ (u ++ after))) = none ∧
      split? Token.symbol? (.symbol .opening left :: (before ++ (v ++ after))) = none) ∨
    ∃ gs gs', split? Token.symbol? (.symbol .opening left :: (before ++ (u ++ after))) = some gs ∧
      split? Token.symbol? (.symbol .opening left :: (before ++ (v ++ after))) = some gs' ∧
      List.Forall₂ (Replaced u v) gs gs' := by
  have closed : ∀ ts, enclosed Token.symbol? (.symbol .opening left :: ts) =
      closesAtEnd Token.symbol? 1 ts := by
    intro ts
    simp [enclosed, closesAtEnd, Arguments.after, Token.symbol?]
  have same := closesAtEnd_replaced hu hv before after Int.one_pos
  cases h : closesAtEnd Token.symbol? 1 (before ++ (u ++ after)) with
  | false =>
    rw [h] at same
    exact .inl ⟨by simp [split?, closed, h], by simp [split?, closed, same]⟩
  | true =>
    rw [h] at same
    -- the bracket that closes at the end stands behind the operand
    rcases List.eq_nil_or_concat after with rfl | ⟨args, last, rfl⟩
    · obtain ⟨e, he, ends⟩ := exists_closesAtEnd (by simp [hu.ne_nil]) Int.one_pos h
      have passed := closesAtEnd_matched hu.matched he []
      rw [Int.natCast_zero, Int.add_zero, ends] at passed
      cases passed
    rw [List.concat_eq_append] at h same ⊢
    refine .inr ⟨groups Token.symbol? (before ++ (u ++ args)),
      groups Token.symbol? (before ++ (v ++ args)), ?_, ?_,
      groups_replaced hu hv before args h⟩
    · simp [split?, closed, h]
    · simp [split?, closed, same]

end Replace

end Arguments

namespace Context
variable {ctx : Context}

theorem mapM_build_congr {gs gs' : List (List Token)}
    (h : List.Forall₂ (fun g g' => ctx.build g' = ctx.build g) gs gs') :
    gs'.mapM ctx.build = gs.mapM ctx.build := by
  induction h with
  | nil => rfl
  | cons same _ ih => rw [List.mapM_cons, List.mapM_cons, same, ih]

/-- Among the arguments of a call, a bracket pair around a single operand changes nothing. -/
theorem buildCall_enclosing_single {run : List Token} (h : Single run) (before after : List Token)
    (f : FunctionName) (pos outer left right : Int) :
    ctx.buildCall f pos (ctx.pieces (.symbol .opening outer ::
      (before ++ .symbol .opening left :: (run ++ .symbol .closing right :: after)))) =
      ctx.buildCall f pos (ctx.pieces (.symbol .opening outer :: (before ++ (run ++ after)))) := by
  let wide : List Token := .symbol .opening left :: (run ++ [.symbol .closing right])
  have hwide : Single wide := .bracketed left right h.matched
  have cut (before after : List Token) :
      before ++ .symbol .opening left :: (run ++ .symbol .closing right :: after) =
        before ++ (wide ++ after) := by
    simp [wide]
  rw [cut, buildCall_pieces, buildCall_pieces]
  rcases Arguments.split?_replaced h hwide before after outer with
    ⟨none, none'⟩ | ⟨gs, gs', some, some', each⟩
  · rw [none, none']
  · have built : List.Forall₂ (fun g g' => ctx.build g' = ctx.build g) gs gs' := by
      refine each.imp ?_
      rintro g g' (rfl | ⟨before, after, rfl, rfl⟩)
      · rfl
      · rw [← cut, build_enclosing_single h]
    rw [some, some']
    simp only [mapM_build_congr built]

/-- What is built of a sequence, and of a call whose arguments it goes on with, is the same with a
bracket pair more around a single operand. -/
theorem build_of_enclosing {ts us : List Token} (h : Enclosing Single ts us) :
    ctx.build us = ctx.build ts ∧
      ∀ f pos left, ctx.buildCall f pos (ctx.pieces (.symbol .opening left :: us)) =
        ctx.buildCall f pos (ctx.pieces (.symbol .opening left :: ts)) := by
  induction h with
  | here before after left right single =>
    exact ⟨build_enclosing_single single before after left right, fun f pos outer =>
      buildCall_enclosing_single single before after f pos outer left right⟩
  | @inside before after f pos left args args' _ ih =>
    -- the call brings the same tree or problem, so that the pieces do not change
    have same : ctx.pieces (before ++ .call f (.symbol .opening left :: args') pos :: after) =
        ctx.pieces (before ++ .call f (.symbol .opening left :: args) pos :: after) := by
      simp only [pieces_append, pieces, piece]
      have call := ih.2 f pos left
      simp only [pieces, piece] at call
      rw [call]
    refine ⟨by rw [build, build, same], ?_⟩
    intro g p outer
    rw [pieces, pieces, same]

end Context

/-- A bracket pair more around an operand, a call or a bracket pair with its contents, in a sequence
or among the arguments of a call at any depth, changes neither the tree that is built nor the
problem that building stops with; and one around a whole sequence that builds changes nothing
either. -/
theorem build_enclosing (ctx : Context) :
    (∀ ts us, Enclosing Single ts us → ctx.build us = ctx.build ts) ∧
    ∀ ts t left right, ctx.build ts = .ok t →
      ctx.build (.symbol .opening left :: (ts ++ [.symbol .closing right])) = .ok t := by
  refine ⟨?_, ?_⟩
  · intro ts us h
    exact (Context.build_of_enclosing h).1
  · intro ts t left right h
    exact Context.build_enclosed_whole h left right

/-- The second argument of a call misses an operand with brackets around its `3` as without; and a
sum written after its operands is built in brackets too. -/
theorem build_enclosing_operator_last :
    let ts : List Token := [.call .sin [.symbol .opening 3, .operand 2 4, .operand 3 6,
      .symbol (.operator .add) 8, .symbol .closing 9] 0]
    let us : List Token := [.call .sin [.symbol .opening 3, .operand 2 4, .symbol .opening 5,
      .operand 3 6, .symbol .closing 7, .symbol (.operator .add) 8, .symbol .closing 9] 0]
    let sum : List Token := [.operand 1 1, .operand 2 3, .symbol (.operator .add) 5]
    let t : Expr := .binary .add (.operand 1) (.operand 2)
    (Enclosing Single ts us ∧ Context.standard.build ts = fail (.missingOperand "+" 8) ∧
      Context.standard.build us = fail (.missingOperand "+" 8)) ∧
    Context.standard.build sum = .ok t ∧
      Context.standard.build (.symbol .opening 0 :: (sum ++ [.symbol .closing 6])) = .ok t := by
  intro ts us sum t
  obtain ⟨same, whole⟩ := build_enclosing .standard
  have inner : Enclosing Single [.operand 2 4, .operand 3 6, .symbol (.operator .add) 8,
      .symbol .closing 9] [.operand 2 4, .symbol .opening 5, .operand 3 6, .symbol .closing 7,
      .symbol (.operator .add) 8, .symbol .closing 9] :=
    .here [Token.operand 2 4] [.symbol (.operator .add) 8, .symbol .closing 9] 5 7
      (Single.operand 3 6)
  have enclosing : Enclosing Single ts us := .inside [] [] .sin 0 3 inner
  have fails : Context.standard.build ts = fail (.missingOperand "+" 8) := by rfl
  have built : Context.standard.build sum = .ok t := by rfl
  exact ⟨⟨enclosing, fails, (same ts us enclosing).trans fails⟩, built, whole sum t 0 6 built⟩

end Reckon
