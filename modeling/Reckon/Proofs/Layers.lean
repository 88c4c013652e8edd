import Reckon.Proofs.Blame
import Reckon.Proofs.Brackets

/-!
What waits, and what has been read since. The signs that wait stand one above the other, and what
was read between two of them holds whole bracket pairs only and has been joined as far as it goes:
it has added as many trees as its operands and calls exceed its operators. So an operator that finds
too few trees when it is due follows no operand at all, or is followed by too few. Main statement:
an operator that is said to miss an operand has before it neither an operand nor a call, or behind
it, up to where it is due, no more of them than operators, so that one is missing there; but it need
not be the operand right beside it (`build_blames_operator`).
-/

namespace Reckon

namespace Token

/-- Whether an operand ends where the tokens end. -/
def ended (ts : List Token) : Bool := ts.getLast?.any (Arguments.endsOperand symbol?)

/-- Whether an operand starts where the tokens start. -/
def begun (ts : List Token) : Bool := ts.head?.any (Arguments.startsOperand symbol?)

/-- Somewhere a bracket pair holds nothing. -/
def EmptyPair (ts : List Token) : Prop :=
  ∃ before left right after,
    ts = before ++ .symbol .opening left :: .symbol .closing right :: after

theorem EmptyPair.append {ts : List Token} (h : EmptyPair ts) (us : List Token) :
    EmptyPair (ts ++ us) := by
  obtain ⟨before, left, right, after, rfl⟩ := h
  exact ⟨before, left, right, after ++ us, by simp⟩

/-- Without calls, there is no sequence but the whole. -/
theorem Within.eq_of_noCalls {ts us : List Token} (h : Within ts us)
    (noCalls : ∀ f args pos, .call f args pos ∉ ts) : us = ts := by
  induction h with
  | whole => rfl
  | argument _ hcall _ _ ih =>
    rw [ih] at hcall
    exact absurd hcall (noCalls _ _ _)

theorem Matched.append {ts us : List Token} (h : Matched ts) (h' : Matched us) :
    Matched (ts ++ us) := by
  rw [Matched, depthAfter_append, h, Option.bind_some]
  exact h'

/-- Where operands and calls are no more than operators, or fewer if an operand ended before, there
is a place where an operand is due and none comes. -/
theorem exists_gap {rest : List Token} (hrest : begun rest = false) {p : Token} {ts : List Token}
    (h : (atoms ts).length + (Arguments.endsOperand symbol? p).toNat ≤ (operators ts).length) :
    ∃ r₁ r₂, ts = r₁ ++ r₂ ∧ ended (p :: r₁) = false ∧ begun (r₂ ++ rest) = false := by
  induction ts generalizing p with
  | nil =>
    have open_ : Arguments.endsOperand symbol? p = false := by
      simpa [atoms, operators] using h
    exact ⟨[], [], rfl, open_, hrest⟩
  | cons t ts ih =>
    by_cases here : Arguments.endsOperand symbol? p = false ∧
        Arguments.startsOperand symbol? t = false
    · exact ⟨[], t :: ts, rfl, here.1, here.2⟩
    · -- the operand that is due comes, or none is due, and the count goes on behind this token
      have later : (atoms ts).length + (Arguments.endsOperand symbol? t).toNat ≤
          (operators ts).length := by
        generalize Arguments.endsOperand symbol? p = e at h here
        cases t with
        | operand x pos =>
          have count : (atoms ts).length + 1 + e.toNat ≤ (operators ts).length := h
          change (atoms ts).length + 1 ≤ _
          omega
        | call f args pos =>
          have count : (atoms ts).length + 1 + e.toNat ≤ (operators ts).length := h
          change (atoms ts).length + 1 ≤ _
          omega
        | symbol s pos =>
          cases s with
          | opening =>
            have count : (atoms ts).length + e.toNat ≤ (operators ts).length := h
            exact (Nat.le_add_right _ _).trans count
          | closing =>
            obtain rfl : e = true := by simpa using not_and'.mp here rfl
            exact h
          | operator op =>
            obtain rfl : e = true := by simpa using not_and'.mp here rfl
            exact Nat.le_of_succ_le_succ h
      obtain ⟨r₁, r₂, rfl, gap, begins⟩ := ih later
      exact ⟨t :: r₁, r₂, rfl, by simpa [ended] using gap, begins⟩

/-- Where a bracket is closed, with brackets alone behind it, some pair holds nothing. -/
theorem emptyPair_of_closed (left : Int) {ts : List Token} {d d' : Nat}
    (h : depthAfter (d + 1) ts = some d') (closed : d' ≤ d) (noAtoms : atoms ts = [])
    (noOperators : operators ts = []) : EmptyPair (.symbol .opening left :: ts) := by
  induction ts generalizing d left with
  | nil =>
    cases h
    omega
  | cons t ts ih =>
    cases t with
    | operand x pos => cases noAtoms
    | call f args pos => cases noAtoms
    | symbol s pos =>
      cases s with
      | operator op => cases noOperators
      | closing => exact ⟨[], left, pos, ts, rfl⟩
      | opening =>
        obtain ⟨before, l, r, after, pair⟩ :=
          ih pos (d := d + 1) h (by omega) noAtoms noOperators
        exact ⟨.symbol .opening left :: before, l, r, after, by rw [pair, List.cons_append]⟩

/-- Matched brackets with nothing else among them have a pair that holds nothing. -/
theorem Matched.exists_emptyPair {ts : List Token} (h : Matched ts) (noAtoms : atoms ts = [])
    (noOperators : operators ts = []) (nonempty : ts ≠ []) : EmptyPair ts := by
  cases ts with
  | nil => exact absurd rfl nonempty
  | cons t ts =>
    cases t with
    | operand x pos => cases noAtoms
    | call f args pos => cases noAtoms
    | symbol s pos =>
      cases s with
      | operator op => cases noOperators
      | closing => cases h
      | opening => exact emptyPair_of_closed pos h (Nat.le_refl 0) noAtoms noOperators

end Token

open Token

namespace Config
variable {ctx : Context}

/-- As long as there is no tree, neither an operand nor a call has been read; and all that has been
read waits, unless a bracket pair was empty. -/
def Untouched (c : Config) : Prop :=
  c.trees = [] →
    Token.atoms c.seen = [] ∧ (EmptyPair c.seen ∨ c.seen = (c.waiting.map Waiting.token).reverse)

/-- A sign that is read waits. -/
theorem Untouched.waits {seen : List Token} {ws : List Waiting} {es : List Expr}
    (h : Untouched ⟨seen, ws, es⟩) (w : Waiting) : Untouched ⟨seen ++ [w.token], w :: ws, es⟩ := by
  intro none
  have sign : Token.atoms [w.token] = [] := by cases w <;> rfl
  obtain ⟨atoms, pair | all⟩ := h none
  · exact ⟨by rw [atoms_append, atoms, sign]; rfl, .inl (pair.append _)⟩
  · have all : seen = (ws.map Waiting.token).reverse := all
    exact ⟨by rw [atoms_append, atoms, sign]; rfl, .inr (by simp [all])⟩

theorem untouched_of_run {c : Config} (run : Run ctx .start c) : Untouched c := by
  induction run with
  | refl => exact fun _ => ⟨rfl, .inr rfl⟩
  | tail _ move ih =>
    intro none
    cases move with
    | operand x pos => cases none
    | call _ => cases none
    | join op pos x y => cases none
    | opening pos => exact ih.waits (.bracket pos) none
    | operator op pos => exact ih.waits (.operator op pos) none
    | @closing left right before ws _ =>
      obtain ⟨atoms, pair | seen⟩ := ih none
      · exact ⟨by simpa using atoms, .inl (pair.append _)⟩
      · -- the bracket that is closed was read last, so the pair is empty
        have last : before = (ws.map Waiting.token).reverse ++ [.symbol .opening left] := by
          simpa [Waiting.token] using seen
        have pair : before ++ [.symbol .closing right] =
            (ws.map Waiting.token).reverse ++ [.symbol .opening left, .symbol .closing right] := by
          rw [last, List.append_assoc]
          rfl
        exact ⟨by simpa using atoms, .inl ⟨_, left, right, [], pair⟩⟩

/-- Under each sign that waits lies the configuration that it was read in. What has been read since
holds whole bracket pairs, and has added as many trees as its operands and calls exceed its
operators. -/
inductive Layered : Config → Prop where
  | ground {seen : List Token} {es : List Expr} :
    Matched seen → es.length + (Token.operators seen).length = (Token.atoms seen).length →
    Layered ⟨seen, [], es⟩
  | above (w : Waiting) {before since : List Token} {ws : List Waiting} {es us : List Expr} :
    Layered ⟨before, ws, es⟩ → Untouched ⟨before, ws, es⟩ → Matched since →
    us.length + (Token.operators since).length = es.length + (Token.atoms since).length →
    Layered ⟨before ++ w.token :: since, w :: ws, us⟩

/-- More that is joined as far as it goes belongs to the topmost layer. -/
theorem Layered.extend {seen ts : List Token} {ws : List Waiting} {es us : List Expr}
    (h : Layered ⟨seen, ws, es⟩) (matched : Matched ts)
    (count : us.length + (Token.operators ts).length = es.length + (Token.atoms ts).length) :
    Layered ⟨seen ++ ts, ws, us⟩ := by
  cases h with
  | ground matched' count' =>
    refine .ground (matched'.append matched) ?_
    rw [operators_append, atoms_append, List.length_append, List.length_append]
    omega
  | above w below untouched matched' count' =>
    rw [List.append_assoc, List.cons_append]
    refine .above w below untouched (matched'.append matched) ?_
    rw [operators_append, atoms_append, List.length_append, List.length_append]
    omega

theorem layered_of_run {c : Config} (run : Run ctx .start c) : Layered c := by
  induction run with
  | refl => exact .ground rfl rfl
  | tail run move ih =>
    have untouched := untouched_of_run run
    cases move with
    | operand x pos => exact ih.extend rfl rfl
    | call _ => exact ih.extend rfl rfl
    | opening pos => exact .above (.bracket pos) ih untouched rfl rfl
    | operator op pos => exact .above (.operator op pos) ih untouched rfl rfl
    | closing left right =>
      cases ih with
      | @above _ before since _ es _ below _ matched count =>
        -- the pair and all inside it go to the layer below
        rw [List.append_assoc, List.cons_append]
        refine below.extend (matched.enclose left right) ?_
        simpa [Waiting.token, Token.operators, Token.atoms, symbol?, Symbol.isBracket] using count
    | join op pos x y =>
      cases ih with
      | @above _ before since _ es _ below _ matched count =>
        refine below.extend matched ?_
        simp [Waiting.token, Token.operators, Token.atoms, symbol?, Symbol.isBracket] at count ⊢
        omega

/-- What waits alone has no operand last. -/
theorem ended_waiting (ws : List Waiting) : ended (ws.map Waiting.token).reverse = false := by
  rw [ended, List.getLast?_reverse]
  cases ws with
  | nil => rfl
  | cons w ws => cases w <;> rfl

theorem begun_of_due {op : Operator} {rest : List Token} (h : Due ctx op rest) :
    begun rest = false := by
  cases h <;> rfl

end Config

open Config

/-- An operator that misses an operand, after `before`. Up to where it is due, `right` is read. -/
structure Blamed (ctx : Context) (before : List Token) (op : Operator) (pos : Int)
    (right rest : List Token) : Prop where
  due : Due ctx op rest
  matched : Matched right
  /-- Nothing that could be its left operand comes before it; or behind it, up to where it is due,
  there are no more operands and calls than operators, and so one that is due does not come. -/
  missing :
    (atoms before = [] ∧ (ended before = false ∨ EmptyPair before)) ∨
    ((atoms right).length ≤ (operators right).length ∧
      ∃ r₁ r₂, right = r₁ ++ r₂ ∧ ended (.symbol (.operator op) pos :: r₁) = false ∧
        begun (r₂ ++ rest) = false)

namespace Blamed
variable {ctx : Context} {before right rest : List Token} {op : Operator} {pos : Int}

/-- The operator that finds too few trees when it is due misses an operand where it stands. -/
theorem of_run {seen : List Token} {ws : List Waiting} {es : List Expr}
    (run : Run ctx .start ⟨seen, .operator op pos :: ws, es⟩) (due : Due ctx op rest)
    (short : es.length < 2) :
    ∃ before right, seen = before ++ .symbol (.operator op) pos :: right ∧
      Blamed ctx before op pos right rest := by
  cases layered_of_run run with
  | @above _ before right _ under _ _ untouched matched count =>
    refine ⟨before, right, rfl, due, matched, ?_⟩
    cases under with
    | nil =>
      obtain ⟨none, pair | waits⟩ := untouched rfl
      · exact .inl ⟨none, .inr pair⟩
      · have waits : before = (ws.map Waiting.token).reverse := waits
        exact .inl ⟨none, .inl (by rw [waits, ended_waiting])⟩
    | cons e under =>
      -- a tree was there when the operator came, so that what has come since is too little
      rw [List.length_cons] at count
      have few : (atoms right).length ≤ (operators right).length := by omega
      exact .inr ⟨few, exists_gap (begun_of_due due) few⟩

/-- An operator with no other up to where it is due, in a sequence without an empty bracket pair, is
missing an operand right beside it. -/
theorem beside (h : Blamed ctx before op pos right rest) (alone : operators right = [])
    (full : ¬EmptyPair (before ++ .symbol (.operator op) pos :: (right ++ rest))) :
    ended before = false ∨ begun (right ++ rest) = false := by
  rcases h.missing with ⟨-, missing | pair⟩ | ⟨few, -⟩
  · exact .inl missing
  · exact absurd (pair.append _) full
  · rw [alone, List.length_nil, Nat.le_zero, List.length_eq_zero_iff] at few
    have nothing : right = [] := by
      by_contra nonempty
      obtain ⟨l, left, closed, r, rfl⟩ := h.matched.exists_emptyPair few alone nonempty
      exact full ⟨before ++ .symbol (.operator op) pos :: l, left, closed, r ++ rest, by simp⟩
    rw [nothing]
    exact .inr (begun_of_due h.due)

end Blamed

/-- An operator that is said to miss an operand stands in the sequence or among the arguments of a
call. Before it there is no operand or call at all, or an operand is missing at some place between
it and where it is due, which is beside it where it is the only operator there. -/
theorem build_blames_operator {ctx : Context} {ts : List Token} {word : String} {pos : Int}
    (h : ctx.build ts = fail (.missingOperand word pos)) :
    ∃ us before op right rest, Within ts us ∧
      us = before ++ .symbol (.operator op) pos :: (right ++ rest) ∧ word = op.text ∧
      Blamed ctx before op pos right rest ∧
      (operators right = [] → ¬EmptyPair us →
        ended before = false ∨ begun (right ++ rest) = false) := by
  obtain ⟨us, c, rest, within, run, hseen, hhalt, own⟩ := Context.arises_of_build h
  generalize hp : Problem.failure (.missingOperand word pos) = p at hhalt own
  cases hhalt with
  | call _ =>
    subst hp
    cases own _ _ _ rfl
  | missing op at_ due short =>
    obtain ⟨rfl, rfl⟩ : word = op.text ∧ pos = at_ := by simpa using hp
    obtain ⟨before, right, hread, blamed⟩ := Blamed.of_run run due short
    have whole : us = before ++ .symbol (.operator op) pos :: (right ++ rest) := by
      rw [← hseen, hread, List.append_assoc, List.cons_append]
    refine ⟨us, before, op, right, rest, within, whole, rfl, blamed, ?_⟩
    intro alone full
    exact blamed.beside alone (whole ▸ full)
  | _ => cases hp

/-- The `*` takes both operands, and the `+` that waits below it is blamed, with what is missing
behind the `*`. -/
theorem build_blames_operator_waiting :
    let ts : List Token := [.operand 1 0, .symbol (.operator .add) 1, .operand 2 2,
      .symbol (.operator .mul) 3]
    Context.standard.build ts = fail (.missingOperand "+" 1) ∧
      ∃ us before op right rest, Within ts us ∧
        us = before ++ .symbol (.operator op) 1 :: (right ++ rest) ∧ "+" = op.text ∧
        Blamed .standard before op 1 right rest ∧
        (operators right = [] → ¬EmptyPair us →
          ended before = false ∨ begun (right ++ rest) = false) := by
  intro ts
  have fails : Context.standard.build ts = fail (.missingOperand "+" 1) := by rfl
  exact ⟨fails, build_blames_operator fails⟩

/-- Between `1` and `2`, the `+` of `1+2*` is said to miss an operand. -/
theorem blamed_between_operands :
    let ts : List Token := [.operand 1 0, .symbol (.operator .add) 1, .operand 2 2,
      .symbol (.operator .mul) 3]
    Context.standard.build ts = fail (.missingOperand "+" 1) ∧
      ¬∃ us before op after, Within ts us ∧ us = before ++ .symbol (.operator op) 1 :: after ∧
        "+" = op.text ∧ (ended before = false ∨ begun after = false) := by
  intro ts
  refine ⟨rfl, ?_⟩
  rintro ⟨us, before, op, after, within, here, -, missing⟩
  have here : ts = before ++ .symbol (.operator op) 1 :: after := by
    rw [← within.eq_of_noCalls (by simp [ts]), here]
  match before with
  | [] => simp [ts] at here
  | [x] =>
    obtain ⟨rfl, -, rfl⟩ : .operand 1 0 = x ∧ .add = op ∧
        [.operand 2 2, .symbol (.operator .mul) 3] = after := by simpa [ts] using here
    rcases missing with before | after
    · cases before
    · cases after
  | x :: y :: before =>
    have later : .symbol (.operator op) 1 ∈ ts.drop 2 := by simp [here]
    simp [ts] at later

end Reckon
