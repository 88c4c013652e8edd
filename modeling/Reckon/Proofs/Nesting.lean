import Reckon.Proofs.Lexeme

/-!
Nesting by matching brackets. The scanner keeps a stack of calls with a depth each and moves tokens
between them as brackets come; read the other way, a name takes what stands from the bracket after
it to that bracket's match, or to the end. Main statement: for every text the scanner's tokens are
the text's lexemes nested that way, or the failure of the first lexeme that cannot be read
(`tokenize_eq_nested`).
-/

namespace Reckon
namespace Token

/-- The tokens up to the bracket that closes the last of `depth` open ones, that bracket included,
and the tokens after it. Without such a bracket all tokens are inside. -/
def splitClose : Nat → List Token → List Token × List Token
  | _, [] => ([], [])
  | d, .symbol .opening p :: ts => (splitClose (d + 1) ts).map (.symbol .opening p :: ·) id
  | d, .symbol .closing p :: ts =>
    if d = 1 then ([.symbol .closing p], ts)
    else (splitClose (d - 1) ts).map (.symbol .closing p :: ·) id
  | d, t :: ts => (splitClose d ts).map (t :: ·) id

theorem splitClose_append (d : Nat) (ts : List Token) :
    (splitClose d ts).1 ++ (splitClose d ts).2 = ts := by
  fun_induction splitClose d ts <;> simp_all

theorem length_splitClose (d : Nat) (ts : List Token) :
    (splitClose d ts).1.length + (splitClose d ts).2.length = ts.length := by
  rw [← List.length_append, splitClose_append]

/-- Tokens that were read on their own, with each name given its arguments: what stands from a
bracket right after it to that bracket's match. -/
def nested : List Token → List Token
  | [] => []
  | .call f _ pos :: .symbol .opening p :: ts =>
    let cut := splitClose 1 ts
    .call f (nested (.symbol .opening p :: cut.1)) pos :: nested cut.2
  | .call f _ pos :: ts => .call f [] pos :: nested ts
  | t :: ts => t :: nested ts
  termination_by ts => ts.length
  decreasing_by
    all_goals have := length_splitClose 1
    all_goals grind

mutual

/-- The token, and then those among its arguments, each on its own. -/
def flatten : Token → List Token
  | .call f args pos => .call f [] pos :: flattenAll args
  | t => [t]

def flattenAll : List Token → List Token
  | [] => []
  | t :: ts => flatten t ++ flattenAll ts

end

/-! ## Cutting at a match, twice -/

/-- Closing `d + e` brackets is closing the inner `e`, and then the outer `d`. -/
theorem splitClose_add {d e : Nat} (hd : 0 < d) (he : 0 < e) (ts : List Token) :
    splitClose (d + e) ts =
      (splitClose d (splitClose e ts).2).map ((splitClose e ts).1 ++ ·) id := by
  fun_induction splitClose e ts with
  | case1 => simp [splitClose]
  | case2 e p ts ih =>
    simp [splitClose, Nat.add_assoc, ih]
    rfl
  | case3 p ts =>
    -- the inner part ends here, and the outer one goes on
    have h : d ≠ 0 := by omega
    simp [splitClose, h]
  | case4 e p ts h ih =>
    have h1 : d + e ≠ 1 := by omega
    have h2 : d + e - 1 = d + (e - 1) := by omega
    simp [splitClose, h1, h2, ih (by omega)]
    rfl
  | case5 e t ts h1 h2 ih =>
    simp [splitClose, ih he]
    rfl

/-- What was cut at a match is cut there again, whatever follows a match. -/
theorem splitClose_cut (d e : Nat) (ts : List Token) :
    splitClose e ((splitClose e ts).1 ++ (splitClose d (splitClose e ts).2).1) =
      ((splitClose e ts).1, (splitClose d (splitClose e ts).2).1) := by
  fun_induction splitClose e ts with
  | case1 => simp [splitClose]
  | case2 e p ts ih => simp [splitClose, ih]
  | case3 p ts => simp [splitClose]
  | case4 e p ts h ih => simp [splitClose, h, ih]
  | case5 e t ts h1 h2 ih => simp [splitClose, ih]

/-! ## What the reference makes of a first token -/

/-- Whether a bracket opens at once. -/
def opens : List Token → Bool
  | .symbol .opening _ :: _ => true
  | _ => false

theorem eq_opening_of_opens {ts : List Token} (h : opens ts = true) :
    ∃ p us, ts = .symbol .opening p :: us := by
  unfold opens at h
  split at h
  · exact ⟨_, _, rfl⟩
  · simp at h

theorem opens_splitClose (d : Nat) (ts : List Token) : opens (splitClose d ts).1 = opens ts := by
  fun_cases splitClose d ts with
  | case5 _ t ts =>
    cases t with
    | symbol s p => cases s <;> rfl
    | _ => rfl
  | _ => simp [opens]

theorem nested_call_opening (f : FunctionName) (as : List Token) (pos p : Int) (ts : List Token) :
    nested (.call f as pos :: .symbol .opening p :: ts) =
      .call f (.symbol .opening p :: nested (splitClose 1 ts).1) pos ::
        nested (splitClose 1 ts).2 := by
  rw [nested]
  simp only [List.cons.injEq, Token.call.injEq, true_and, and_true]
  rw [nested] <;> simp

theorem nested_call_other (f : FunctionName) (as : List Token) (pos : Int) {ts : List Token}
    (h : opens ts = false) : nested (.call f as pos :: ts) = .call f [] pos :: nested ts := by
  rw [nested]
  rintro p ts rfl
  simp [opens] at h

theorem nested_operand (x : Float) (pos : Int) (ts : List Token) :
    nested (.operand x pos :: ts) = .operand x pos :: nested ts := by
  rw [nested] <;> simp

theorem nested_symbol (s : Symbol) (pos : Int) (ts : List Token) :
    nested (.symbol s pos :: ts) = .symbol s pos :: nested ts := by
  rw [nested] <;> simp

end Token

/-! ## The stack of calls -/

namespace Nest
open Token

section Open
variable {c : OpenCall} (cs : List OpenCall) (out : List Token)

theorem append_cons (t : Token) (c : OpenCall) :
    append t ⟨c :: cs, out⟩ = ⟨{ c with args := t :: c.args } :: cs, out⟩ := rfl

/-- Where the calls still open end, each is the last argument of the one around it. -/
theorem finish_cons (c : OpenCall) :
    finish ⟨c :: cs, out⟩ = (append c.token ⟨cs, out⟩).finish := by
  cases cs <;> rfl

/-- An open call is settled: nothing but its last bracket ends it. -/
theorem settle_open (h : 0 < c.depth) : settle ⟨c :: cs, out⟩ = ⟨c :: cs, out⟩ := by
  have h0 : c.depth ≠ 0 := by omega
  simp [settle, h0]

theorem push_operand_open (h : 0 < c.depth) (x : Float) (p : Int) :
    push ⟨c :: cs, out⟩ (.operand x p) = append (.operand x p) ⟨c :: cs, out⟩ := by
  rw [push, operand, settle_open cs out h]

theorem push_operator_open (h : 0 < c.depth) (op : Operator) (p : Int) :
    push ⟨c :: cs, out⟩ (.symbol (.operator op) p) =
      append (.symbol (.operator op) p) ⟨c :: cs, out⟩ := by
  rw [push, symbol, settle_open cs out h]

theorem push_closing_open (h : 0 < c.depth) (p : Int) :
    push ⟨c :: cs, out⟩ (.symbol .closing p) =
      (append (.symbol .closing p) ⟨c :: cs, out⟩).lower := by
  rw [push, symbol, settle_open cs out h]

theorem push_call_open (h : 0 < c.depth) (f : FunctionName) (as : List Token) (p : Int) :
    push ⟨c :: cs, out⟩ (.call f as p) = ⟨⟨f, p, 0, []⟩ :: c :: cs, out⟩ := by
  rw [push, call, settle_open cs out h]

end Open

/-- A name that no bracket follows is a call without arguments, from the next token on. -/
theorem foldl_push_pending {n : Nest} {f : FunctionName} {p : Int} {ts : List Token}
    (settled : (n.append (.call f [] p)).settle = n.append (.call f [] p))
    (h : opens ts = false) :
    (ts.foldl push ⟨⟨f, p, 0, []⟩ :: n.calls, n.tokens⟩).finish =
      (ts.foldl push (n.append (.call f [] p))).finish := by
  have hs : settle ⟨⟨f, p, 0, []⟩ :: n.calls, n.tokens⟩ = n.append (.call f [] p) := by
    simp [settle, OpenCall.token]
  cases ts with
  | nil => simp [finish_cons, OpenCall.token]
  | cons t ts =>
    have hp : push ⟨⟨f, p, 0, []⟩ :: n.calls, n.tokens⟩ t = push (n.append (.call f [] p)) t := by
      cases t with
      | operand x q => simp only [push, operand, hs, settled]
      | call g as q => simp only [push, call, hs, settled]
      | symbol s q =>
        cases s with
        | opening => simp [opens] at h
        | closing => simp only [push, symbol, hs, settled]
        | operator op => simp only [push, symbol, hs, settled]
    rw [List.foldl_cons, List.foldl_cons, hp]

/-- The innermost call, as it is once it has taken its share of the tokens to come. -/
def filled (c : OpenCall) (ts : List Token) : Token :=
  .call c.function (c.args.reverse ++ nested (splitClose c.depth ts).1) c.pos

/-- An open call takes the tokens up to its last bracket, and the calls around it take the rest. -/
theorem foldl_push_open : ∀ (ts : List Token) (c : OpenCall) (cs : List OpenCall)
    (out : List Token), 0 < c.depth →
    (ts.foldl push ⟨c :: cs, out⟩).finish =
      ((splitClose c.depth ts).2.foldl push (append (filled c ts) ⟨cs, out⟩)).finish
  | [], c, cs, out, _ => by
    simp [splitClose, filled, nested, finish_cons, OpenCall.token]
  | .operand x p :: ts, c, cs, out, hc => by
    rw [List.foldl_cons, push_operand_open cs out hc, append_cons,
      foldl_push_open ts { c with args := .operand x p :: c.args } cs out hc]
    simp [filled, splitClose, nested_operand]
  | .symbol (.operator op) p :: ts, c, cs, out, hc => by
    rw [List.foldl_cons, push_operator_open cs out hc, append_cons,
      foldl_push_open ts { c with args := .symbol (.operator op) p :: c.args } cs out hc]
    simp [filled, splitClose, nested_symbol]
  | .symbol .opening p :: ts, c, cs, out, hc => by
    rw [List.foldl_cons, push, symbol, opening, foldl_push_open ts
      { c with depth := c.depth + 1, args := .symbol .opening p :: c.args } cs out (by simp)]
    simp [filled, splitClose, nested_symbol]
  | .symbol .closing p :: ts, c, cs, out, hc => by
    rw [List.foldl_cons, push_closing_open cs out hc, append_cons, lower]
    by_cases h1 : c.depth = 1
    · simp [h1, filled, splitClose, nested_symbol, nested, OpenCall.token]
    · have hd : 0 < c.depth - 1 := by omega
      rw [if_neg h1, foldl_push_open ts
        { c with depth := c.depth - 1, args := .symbol .closing p :: c.args } cs out hd]
      simp [h1, filled, splitClose, nested_symbol]
  | .call f as p :: ts, c, cs, out, hc => by
    rw [List.foldl_cons, push_call_open cs out hc]
    cases h : opens ts with
    | true =>
      -- the new call takes its share, and then the call around it goes on with the rest
      obtain ⟨q, us, rfl⟩ := eq_opening_of_opens h
      rw [List.foldl_cons, push, symbol, opening,
        foldl_push_open us ⟨f, p, 1, [.symbol .opening q]⟩ (c :: cs) out Nat.one_pos, append_cons,
        foldl_push_open (splitClose 1 us).2
          { c with args := filled ⟨f, p, 1, [.symbol .opening q]⟩ us :: c.args } cs out hc]
      simp [filled, splitClose, splitClose_add hc Nat.one_pos, nested_call_opening, splitClose_cut]
    | false =>
      rw [foldl_push_pending (n := ⟨c :: cs, out⟩) (settle_open cs out hc) h, append_cons,
        foldl_push_open ts { c with args := .call f [] p :: c.args } cs out hc]
      simp [filled, splitClose, nested_call_other f as p ((opens_splitClose c.depth ts).trans h)]
  termination_by ts => ts.length
  decreasing_by
    all_goals have := length_splitClose 1
    all_goals grind

/-- Outside all calls the tokens are nested as they come. -/
theorem foldl_push_outside : ∀ (ts out : List Token),
    (ts.foldl push ⟨[], out⟩).finish = out.reverse ++ nested ts
  | [], out => by simp [finish, endCalls, nested]
  | .operand x p :: ts, out => by
    have h : push ⟨[], out⟩ (.operand x p) = ⟨[], .operand x p :: out⟩ := rfl
    rw [List.foldl_cons, h, foldl_push_outside ts, nested_operand]
    simp
  | .symbol s p :: ts, out => by
    have h : push ⟨[], out⟩ (.symbol s p) = ⟨[], .symbol s p :: out⟩ := by cases s <;> rfl
    rw [List.foldl_cons, h, foldl_push_outside ts, nested_symbol]
    simp
  | .call f as p :: ts, out => by
    have hp : push ⟨[], out⟩ (.call f as p) = ⟨[⟨f, p, 0, []⟩], out⟩ := rfl
    rw [List.foldl_cons, hp]
    cases h : opens ts with
    | true =>
      obtain ⟨q, us, rfl⟩ := eq_opening_of_opens h
      rw [List.foldl_cons, push, symbol, opening,
        foldl_push_open us ⟨f, p, 1, [.symbol .opening q]⟩ [] out Nat.one_pos, append,
        foldl_push_outside (splitClose 1 us).2, nested_call_opening]
      simp [filled]
    | false =>
      rw [foldl_push_pending (n := ⟨[], out⟩) rfl h, append, foldl_push_outside ts,
        nested_call_other f as p h]
      simp
  termination_by ts => ts.length
  decreasing_by
    all_goals have := length_splitClose 1
    all_goals grind

end Nest

/-! ## Reading a text -/

namespace Token

/-- A token as it was read, without the arguments of a call. -/
def bare : Token → Token
  | .call f _ pos => .call f [] pos
  | t => t

theorem flattenAll_append (ts us : List Token) :
    flattenAll (ts ++ us) = flattenAll ts ++ flattenAll us := by
  induction ts with
  | nil => rfl
  | cons t ts ih => simp [flattenAll, ih]

/-- Nesting neither loses nor adds nor moves a token. -/
theorem flattenAll_nested (ts : List Token) : flattenAll (nested ts) = ts.map bare := by
  fun_induction nested ts with
  | case1 => rfl
  | case2 f as pos p ts cut ihargs ihrest =>
    have h : cut.1 ++ cut.2 = ts := splitClose_append 1 ts
    rw [flattenAll, flatten, ihargs, ihrest, ← h]
    simp [bare]
  | case3 f as pos ts h ih => simp [flattenAll, flatten, ih, bare]
  | case4 t ts h1 h2 ih =>
    cases t with
    | call f as pos => exact absurd rfl (h2 f as pos)
    | _ => simp [flattenAll, flatten, ih, bare]

end Token

namespace Lexeme

/-- A lexeme that can be read: a sign, the name of a function, or a literal. -/
def IsReadable (l : Lexeme) : Prop :=
  match l.mark with
  | .sign _ => True
  | .run cs =>
    (FunctionName.lookup? (String.ofList cs)).isSome ∨
      ∃ x, literal (String.ofList cs) (some l.pos) = .ok x

theorem read_eq_ok_iff {l : Lexeme} : (∃ t, l.read = .ok t) ↔ l.IsReadable := by
  obtain ⟨mark, pos⟩ := l
  cases mark with
  | sign s => simp [read, Mark.read, IsReadable]
  | run cs =>
    simp only [read, Mark.read, IsReadable]
    cases FunctionName.lookup? (String.ofList cs) with
    | some f => simp
    | none => cases literal (String.ofList cs) (some (pos : Int)) <;> simp

theorem pos_of_read {l : Lexeme} {t : Token} (h : l.read = .ok t) : t.pos = l.pos := by
  obtain ⟨mark, pos⟩ := l
  cases mark with
  | sign s => cases h; rfl
  | run cs =>
    simp only [read, Mark.read] at h
    split at h
    · cases h; rfl
    · obtain ⟨x, -, rfl⟩ := map_eq_ok.mp h
      rfl

theorem bare_of_read {l : Lexeme} {t : Token} (h : l.read = .ok t) : t.bare = t := by
  obtain ⟨mark, pos⟩ := l
  cases mark with
  | sign s => cases h; rfl
  | run cs =>
    simp only [read, Mark.read] at h
    split at h
    · cases h; rfl
    · obtain ⟨x, -, rfl⟩ := map_eq_ok.mp h
      rfl

/-- What cannot be read is a run, and the failure shows it. -/
theorem exists_failure {l : Lexeme} (h : ¬l.IsReadable) :
    ∃ cs f, l.mark = .run cs ∧ literal (String.ofList cs) (some l.pos) = .error f ∧
      l.read = .error f ∧ f.text = some (String.ofList cs) ∧ f.pos = some l.pos := by
  obtain ⟨mark, pos⟩ := l
  cases mark with
  | sign s => exact absurd trivial h
  | run cs =>
    simp only [IsReadable, not_or, not_exists, Option.not_isSome_iff_eq_none] at h
    obtain ⟨hname, hnumber⟩ := h
    cases hf : literal (String.ofList cs) (some (pos : Int)) with
    | ok x => exact absurd hf (hnumber x)
    | error f =>
      refine ⟨cs, f, rfl, hf, by simp [read, Mark.read, hname, hf], ?_⟩
      unfold literal notLiteral at hf
      grind [Failure.text, Failure.pos]

end Lexeme

/-! ## Reading lexemes in turn -/

theorem pos_of_map_read {ls : List Lexeme} {ts : List Token}
    (h : ls.map Lexeme.read = ts.map .ok) : ts.map Token.pos = ls.map fun l => (l.pos : Int) := by
  induction ls generalizing ts with
  | nil => simp_all
  | cons l ls ih =>
    cases ts with
    | nil => simp at h
    | cons t ts =>
      obtain ⟨ht, hts⟩ := List.cons.inj h
      rw [List.map_cons, List.map_cons, ih hts, Lexeme.pos_of_read ht]

theorem bare_of_map_read {ls : List Lexeme} {ts : List Token}
    (h : ls.map Lexeme.read = ts.map .ok) : ts.map Token.bare = ts := by
  have hread : ∀ t ∈ ts, t.bare = t := by
    intro t ht
    have hm : Except.ok t ∈ ls.map Lexeme.read := h ▸ List.mem_map_of_mem ht
    obtain ⟨l, -, hl⟩ := List.mem_map.mp hm
    exact Lexeme.bare_of_read hl
  rw [List.map_congr_left hread, List.map_id']

theorem mapM_read_of_readable {ls : List Lexeme} (h : ∀ l ∈ ls, l.IsReadable) :
    ∃ ts, ls.mapM Lexeme.read = .ok ts ∧ ls.map Lexeme.read = ts.map .ok := by
  induction ls with
  | nil => exact ⟨[], rfl, rfl⟩
  | cons l ls ih =>
    obtain ⟨t, ht⟩ := Lexeme.read_eq_ok_iff.mpr (h l List.mem_cons_self)
    obtain ⟨ts, hts, hmap⟩ := ih fun l hl => h l (List.mem_cons_of_mem _ hl)
    exact ⟨t :: ts, by simp [List.mapM_cons, ht, hts], by simp [ht, hmap]⟩

theorem mapM_read_of_not_readable {ls : List Lexeme} (h : ¬∀ l ∈ ls, l.IsReadable) :
    ∃ before l after f, ls = before ++ l :: after ∧ (∀ b ∈ before, b.IsReadable) ∧
      ¬l.IsReadable ∧ l.read = .error f ∧ ls.mapM Lexeme.read = .error f := by
  induction ls with
  | nil => simp at h
  | cons l ls ih =>
    by_cases hl : l.IsReadable
    · obtain ⟨t, ht⟩ := Lexeme.read_eq_ok_iff.mpr hl
      obtain ⟨before, m, after, f, rfl, hb, hm, hf, hM⟩ := ih (by simpa [hl] using h)
      refine ⟨l :: before, m, after, f, rfl, by simpa [hl] using hb, hm, hf, ?_⟩
      rw [List.mapM_cons, ht, hM]
      rfl
    · obtain ⟨cs, f, -, -, hf, -⟩ := Lexeme.exists_failure hl
      refine ⟨[], l, ls, f, rfl, by simp, hl, hf, ?_⟩
      rw [List.mapM_cons, hf]
      rfl

/-- Under a context whose calls may nest, the tokens of a text are its lexemes, nested. -/
theorem Context.tokenize_eq_map_nested {ctx : Context} {separators : String}
    (hs : ctx.separators = .text separators) (hn : ctx.nests = true) (text : String) :
    ctx.tokenize text =
      (((lexemes separators.toList.contains 0 text.toList).mapM Lexeme.read).map
        Token.nested).mapError .failure := by
  have h : (fun ts : List Token => (ts.foldl Nest.push .empty).finish) = Token.nested := by
    funext ts
    exact Nest.foldl_push_outside ts []
  rw [tokenize_nesting hs hn, h]

/-- The scanner agrees with cutting first and nesting afterwards. It succeeds just where every
lexeme can be read; its tokens are then the lexemes in their order, each where it began, with the
arguments of a name reaching from the bracket after it to that bracket's match. Otherwise it fails
as the first lexeme that cannot be read does. -/
theorem tokenize_eq_nested {ctx : Context} {separators : String}
    (hs : ctx.separators = .text separators) (hn : ctx.nests = true) (text : String) :
    let ls := lexemes separators.toList.contains 0 text.toList
    ((∃ ts, ctx.tokenize text = .ok ts) ↔ ∀ l ∈ ls, l.IsReadable) ∧
    (∀ ts, ctx.tokenize text = .ok ts →
      ∃ words, ls.map Lexeme.read = words.map .ok ∧
        words.map Token.pos = ls.map (fun l => (l.pos : Int)) ∧
        ts = Token.nested words ∧ Token.flattenAll ts = words) ∧
    ((¬∀ l ∈ ls, l.IsReadable) →
      ∃ before l after cs f, ls = before ++ l :: after ∧ (∀ b ∈ before, b.IsReadable) ∧
        l.mark = .run cs ∧ FunctionName.lookup? (String.ofList cs) = none ∧
        literal (String.ofList cs) (some l.pos) = .error f ∧
        f.text = some (String.ofList cs) ∧ f.pos = some l.pos ∧
        ctx.tokenize text = .error (.failure f)) := by
  intro ls
  have heq : ctx.tokenize text = ((ls.mapM Lexeme.read).map Token.nested).mapError .failure :=
    Context.tokenize_eq_map_nested hs hn text
  by_cases h : ∀ l ∈ ls, l.IsReadable
  · obtain ⟨words, hw, hmap⟩ := mapM_read_of_readable h
    rw [hw, map_ok, mapError_ok] at heq
    refine ⟨⟨fun _ => h, fun _ => ⟨_, heq⟩⟩, ?_, fun hn => absurd h hn⟩
    intro ts hts
    obtain rfl : Token.nested words = ts := Except.ok.inj (heq.symm.trans hts)
    refine ⟨words, hmap, pos_of_map_read hmap, rfl, ?_⟩
    rw [Token.flattenAll_nested, bare_of_map_read hmap]
  · obtain ⟨before, l, after, f, hls, hb, hl, hf, hM⟩ := mapM_read_of_not_readable h
    obtain ⟨cs, g, hm, hg, hr, htext, hpos⟩ := Lexeme.exists_failure hl
    obtain rfl : f = g := Except.error.inj (hf.symm.trans hr)
    rw [hM, map_error, mapError_error] at heq
    refine ⟨⟨fun ⟨ts, hts⟩ => by simp [heq] at hts, fun h' => absurd h' h⟩, ?_, fun _ => ?_⟩
    · intro ts hts
      simp [heq] at hts
    · refine ⟨before, l, after, cs, f, hls, hb, hm, ?_, hg, htext, hpos, heq⟩
      simpa [Lexeme.IsReadable, hm, hg] using hl

/-- Two calls that never close, one of them inside the other, and a name in capitals. -/
theorem tokenize_unclosed_calls :
    Context.standard.separators = .text " \t\r\n," ∧ Context.standard.nests = true ∧
    ∃ ts, Context.standard.tokenize "sin(x cos(Y" = .ok ts ∧
      ts = [.call .sin [.symbol .opening 3, .call .x [] 4,
        .call .cos [.symbol .opening 9, .call .y [] 10] 6] 0] ∧
      Token.flattenAll ts = [.call .sin [] 0, .symbol .opening 3, .call .x [] 4,
        .call .cos [] 6, .symbol .opening 9, .call .y [] 10] := by
  have hn : Context.standard.nests = true := by decide +kernel
  have hl : lexemes " \t\r\n,".toList.contains 0 "sin(x cos(Y".toList =
      [⟨.run "sin".toList, 0⟩, ⟨.sign .opening, 3⟩, ⟨.run "x".toList, 4⟩, ⟨.run "cos".toList, 6⟩,
        ⟨.sign .opening, 9⟩, ⟨.run "Y".toList, 10⟩] := by decide +kernel
  obtain ⟨hok, hts, -⟩ := @tokenize_eq_nested .standard _ rfl hn "sin(x cos(Y"
  rw [hl] at hok hts
  obtain ⟨ts, h⟩ := hok.mpr (by
    intro l hl
    refine Lexeme.read_eq_ok_iff.mp ?_
    simp only [List.mem_cons, List.not_mem_nil, or_false] at hl
    rcases hl with rfl | rfl | rfl | rfl | rfl | rfl <;> exact ⟨_, rfl⟩)
  obtain ⟨words, hw, -, hnest, hflat⟩ := hts ts h
  have hwords : words = [.call .sin [] 0, .symbol .opening 3, .call .x [] 4, .call .cos [] 6,
      .symbol .opening 9, .call .y [] 10] :=
    (List.map_inj_right fun _ _ => Except.ok.inj).mp (hw.symm.trans rfl)
  refine ⟨rfl, hn, ts, h, ?_, hflat.trans hwords⟩
  rw [hnest, hwords]
  simp [Token.nested, Token.splitClose]

end Reckon
