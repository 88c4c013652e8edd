import Reckon.Proofs.OneLevel
import Reckon.Proofs.Position
import Reckon.Proofs.Spelling

/-!
Texts that differ in spelling only. Two texts whose lexemes show the same marks in turn, up to the
case of letters in function names, are scanned in lockstep: what one scan holds is what the other
holds with its positions moved, so that both end in the same tree, or fail at the same lexeme. Main
statement: such texts compute alike, and separators that are put, dropped or exchanged where they
part nothing make such texts (`compute_respelled`).
-/

namespace Reckon

/-- Marks that say the same: equal ones, and runs that name a function in different cases of its
letters. -/
inductive Mark.Alike : Mark → Mark → Prop where
  | refl (m : Mark) : Alike m m
  | name {f : FunctionName} {a b : List Char} :
    FunctionName.lookup? (String.ofList a) = some f → a.map Char.toLower = b.map Char.toLower →
    Alike (.run a) (.run b)

/-- Lexemes that show marks alike in turn, wherever they stand. -/
def Respelled (ls ms : List Lexeme) : Prop := List.Forall₂ (fun l m => l.mark.Alike m.mark) ls ms

/-- Failures that say the same of two texts: one kind, one text up to the case of letters, the same
details, and positions of corresponding lexemes unless both have none. -/
structure Failure.Alike (ls ms : List Lexeme) (e e' : Failure) : Prop where
  kind : e.kind = e'.kind
  details : e.details = e'.details
  text : e.text.map (·.toList.map Char.toLower) = e'.text.map (·.toList.map Char.toLower)
  pos : e.pos = none ∧ e'.pos = none ∨
    ∃ l m, (l, m) ∈ ls.zip ms ∧ e.pos = some (l.pos : Int) ∧ e'.pos = some (m.pos : Int)

/-- Outcomes for two texts that agree: equal values, equal faults, or failures alike. -/
inductive Agree {α : Type} (ls ms : List Lexeme) : Except Problem α → Except Problem α → Prop where
  | value (a : α) : Agree ls ms (.ok a) (.ok a)
  | failure {e e' : Failure} : e.Alike ls ms e' → Agree ls ms (fail e) (fail e')
  | fault (f : Fault) : Agree ls ms (.error (.fault f)) (.error (.fault f))

/-! ## What is held while positions move -/

namespace Token

theorem moveAll_eq_map (g : Int → Int) (ts : List Token) : moveAll g ts = ts.map (move g) := by
  induction ts with
  | nil => rfl
  | cons t ts ih => rw [moveAll, ih, List.map_cons]

end Token

def OpenCall.move (g : Int → Int) (c : OpenCall) : OpenCall :=
  ⟨c.function, g c.pos, c.depth, Token.moveAll g c.args⟩

def Nest.move (g : Int → Int) (n : Nest) : Nest :=
  ⟨n.calls.map (OpenCall.move g), Token.moveAll g n.tokens⟩

namespace Nest
variable (g : Int → Int)

theorem token_move (c : OpenCall) : (c.move g).token = c.token.move g := by
  simp only [OpenCall.token, OpenCall.move, Token.move, Token.moveAll_eq_map, List.map_reverse]

theorem append_move (t : Token) (n : Nest) :
    (n.move g).append (t.move g) = (n.append t).move g := by
  obtain ⟨_ | ⟨c, cs⟩, ts⟩ := n <;> rfl

theorem settle_move (n : Nest) : (n.move g).settle = n.settle.move g := by
  obtain ⟨_ | ⟨c, cs⟩, ts⟩ := n
  · rfl
  · have same : (c.move g).depth = c.depth := rfl
    simp only [move, List.map_cons, settle, same]
    split
    · rw [token_move]
      exact append_move g c.token ⟨cs, ts⟩
    · rfl

theorem lower_move (n : Nest) : (n.move g).lower = n.lower.move g := by
  obtain ⟨_ | ⟨c, cs⟩, ts⟩ := n
  · rfl
  · have same : (c.move g).depth = c.depth := rfl
    simp only [move, List.map_cons, lower, same]
    split
    · rw [token_move]
      exact append_move g c.token ⟨cs, ts⟩
    · rfl

theorem opening_move (pos : Int) (n : Nest) :
    (n.move g).opening (g pos) = (n.opening pos).move g := by
  obtain ⟨_ | ⟨c, cs⟩, ts⟩ := n <;> rfl

theorem push_move (n : Nest) (t : Token) : (n.move g).push (t.move g) = (n.push t).move g := by
  cases t with
  | operand x pos =>
    simp only [Token.move, push, operand, settle_move]
    exact append_move g (.operand x pos) n.settle
  | call f args pos =>
    simp only [Token.move, push, call, settle_move]
    rfl
  | symbol s pos =>
    cases s with
    | opening => exact opening_move g pos n
    | closing =>
      have appended := append_move g (.symbol .closing pos) n.settle
      simp only [Token.move, push, symbol, settle_move, ← lower_move, ← appended]
    | operator op =>
      simp only [Token.move, push, symbol, settle_move]
      exact append_move g (.symbol (.operator op) pos) n.settle

theorem endCalls_move (last : List Token) (cs : List OpenCall) :
    endCalls (Token.moveAll g last) (cs.map (OpenCall.move g)) =
      Token.moveAll g (endCalls last cs) := by
  induction cs generalizing last with
  | nil => rfl
  | cons c cs ih =>
    have ended := token_move g { c with args := last ++ c.args }
    rw [List.map_cons, endCalls, endCalls, ← ih, Token.moveAll, ← ended]
    simp only [OpenCall.move, Token.moveAll_eq_map, List.map_append]
    rfl

theorem finish_move (n : Nest) : (n.move g).finish = Token.moveAll g n.finish := by
  have ended := endCalls_move g [] n.calls
  rw [Token.moveAll] at ended
  simp only [finish, move, ended, Token.moveAll_eq_map, List.map_reverse, List.map_append]

end Nest

/-! ## Two scans in lockstep -/

theorem Failure.Alike.move {ls ms : List Lexeme} {g : Int → Int} {e : Failure}
    (pos : e.pos = none ∨ ∃ l m, (l, m) ∈ ls.zip ms ∧ e.pos = some (l.pos : Int) ∧
      g l.pos = m.pos) : e.Alike ls ms (e.move g) := by
  have moved : (e.move g).pos = e.pos.map g := by
    fun_cases Failure.pos e <;> rfl
  refine ⟨?_, ?_, ?_, ?_⟩
  · fun_cases Failure.move g e <;> rfl
  · fun_cases Failure.move g e <;> rfl
  · fun_cases Failure.move g e <;> rfl
  · rw [moved]
    rcases pos with none | ⟨l, m, mem, here, there⟩
    · exact .inl ⟨none, by rw [none]; rfl⟩
    · refine .inr ⟨l, m, mem, here, ?_⟩
      rw [here, Option.map_some, there]

/-- A lexeme and its counterpart: they have the same place in two sequences, they say the same, and
moving takes the position of the first to that of the second. -/
structure Counterpart (ls ms : List Lexeme) (g : Int → Int) (l m : Lexeme) : Prop where
  mem : (l, m) ∈ ls.zip ms
  moved : g l.pos = m.pos
  alike : l.mark.Alike m.mark

section Lockstep
variable {ls ms : List Lexeme} {g : Int → Int}

theorem exists_moving (h : ls.Pairwise fun l m => l.pos < m.pos) (ms : List Lexeme) :
    ∃ g : Int → Int, ∀ l m, (l, m) ∈ ls.zip ms → g l.pos = m.pos := by
  induction ls generalizing ms with
  | nil => exact ⟨id, by simp⟩
  | cons l ls ih =>
    obtain ⟨first, rest⟩ := List.pairwise_cons.mp h
    cases ms with
    | nil => exact ⟨id, by simp⟩
    | cons m ms =>
      obtain ⟨g, hg⟩ := ih rest ms
      refine ⟨fun p => if p = l.pos then m.pos else g p, ?_⟩
      intro l' m' mem
      rcases List.mem_cons.mp mem with same | mem
      · obtain ⟨rfl, rfl⟩ := Prod.mk.inj same
        exact if_pos rfl
      · have later := first l' (List.of_mem_zip mem).1
        have other : (l'.pos : Int) ≠ l.pos := by omega
        exact (if_neg other).trans (hg l' m' mem)

/-- Moving can take each of the lexemes of a text to its counterpart. -/
theorem exists_counterparts (sorted : ls.Pairwise fun l m => l.pos < m.pos)
    (h : Respelled ls ms) : ∃ g, List.Forall₂ (Counterpart ls ms g) ls ms := by
  obtain ⟨g, hg⟩ := exists_moving sorted ms
  refine ⟨g, List.forall₂_iff_zip.mpr ⟨h.length_eq, ?_⟩⟩
  intro l m mem
  exact ⟨mem, hg l m mem, List.forall₂_zip h mem⟩

/-- Two scans in lockstep: what the second holds is what the first holds, moved, or both have failed
alike. -/
inductive Lockstep (ls ms : List Lexeme) (g : Int → Int) :
    Except Failure Nest → Except Failure Nest → Prop where
  | held (n : Nest) : Lockstep ls ms g (.ok n) (.ok (n.move g))
  | failed {e e' : Failure} : e.Alike ls ms e' → Lockstep ls ms g (.error e) (.error e')

/-- The name of one function in two cases keeps two scans in lockstep. -/
theorem lockstep_name {nests : Bool} {a b : List Char} {p q : Nat} {f : FunctionName}
    (mem : (⟨.run a, p⟩, ⟨.run b, q⟩) ∈ ls.zip ms) (hg : g p = q)
    (named : FunctionName.lookup? (String.ofList a) = some f)
    (same : a.map Char.toLower = b.map Char.toLower) (n : Nest) :
    Lockstep ls ms g (n.take nests ⟨.run a, p⟩) ((n.move g).take nests ⟨.run b, q⟩) := by
  have named' : FunctionName.lookup? (String.ofList b) = some f := by
    simpa only [FunctionName.lookup?, String.toList_ofList, same] using named
  have calls : (n.move g).calls.isEmpty = n.calls.isEmpty := by
    rw [Nest.move, List.isEmpty_map]
  simp only [Nest.take, Scan.word, named, named', calls]
  split
  · refine .failed ⟨rfl, rfl, ?_, .inr ⟨_, _, mem, rfl, rfl⟩⟩
    simp [Failure.text, same]
  · have held := Nest.push_move g n (.call f [] p)
    simp only [Token.move, hg, Nest.push] at held
    rw [held]
    exact .held _

/-- One lexeme and its counterpart keep two scans in lockstep. -/
theorem lockstep_take {nests : Bool} {l m : Lexeme} (h : Counterpart ls ms g l m) (n : Nest) :
    Lockstep ls ms g (n.take nests l) ((n.move g).take nests m) := by
  obtain ⟨mark, p⟩ := l
  obtain ⟨mark', q⟩ := m
  obtain ⟨mem, hg, alike⟩ := h
  cases alike with
  | name named same => exact lockstep_name mem hg named same n
  | refl =>
    cases mark with
    | sign s =>
      have held := Nest.push_move g n (.symbol s p)
      simp only [Token.move, hg, Nest.push] at held
      simp only [Nest.take, held]
      exact .held _
    | run cs =>
      cases named : FunctionName.lookup? (String.ofList cs) with
      | some f => exact lockstep_name mem hg named rfl n
      | none =>
        have read := literal_move g (String.ofList cs) (some (p : Int))
        rw [Option.map_some, hg] at read
        simp only [Nest.take, Scan.word, named, read]
        cases hl : literal (String.ofList cs) (some (p : Int)) with
        | error e =>
          have place := (failure_of_literal hl).2.1
          exact .failed (.move (.inr ⟨_, _, mem, place, hg⟩))
        | ok x =>
          have held := Nest.push_move g n (.operand x p)
          simp only [Token.move, hg, Nest.push] at held
          simp only [mapError_ok, map_ok, held]
          exact .held _

theorem lockstep_foldlM (nests : Bool) {ls' ms' : List Lexeme}
    (h : List.Forall₂ (Counterpart ls ms g) ls' ms') (n : Nest) :
    Lockstep ls ms g (ls'.foldlM (Nest.take nests) n)
      (ms'.foldlM (Nest.take nests) (n.move g)) := by
  induction h generalizing n with
  | nil => exact .held n
  | cons first _ ih =>
    rw [List.foldlM_cons, List.foldlM_cons]
    have taken : Lockstep ls ms g (n.take nests _) ((n.move g).take nests _) :=
      lockstep_take first n
    generalize n.take nests _ = first, (n.move g).take nests _ = second at taken
    cases taken with
    | held k => exact ih k
    | failed e => exact .failed e

/-- Tokens scanned off lexemes build as they do with positions moved to the counterparts. -/
theorem agree_build {ctx : Context} {ts : List Token}
    (paired : List.Forall₂ (Counterpart ls ms g) ls ms)
    (read : ls.map Lexeme.read = (Token.flattenAll ts).map .ok) :
    Agree ls ms (ctx.build ts) (ctx.build (Token.moveAll g ts)) := by
  rw [Context.build_move]
  cases hb : ctx.build ts with
  | ok t => exact .value t
  | error p =>
    rcases Context.problem_of_build ts p hb with ⟨e, rfl, blames⟩ | ⟨rfl, -⟩
    · refine .failure (.move ?_)
      rcases blames.token with nowhere | ⟨t, ht, w, -, -, here⟩
      · left
        rcases nowhere with rfl | ⟨k, rfl⟩ <;> rfl
      · have member : Except.ok t ∈ ls.map Lexeme.read := by
          rw [read]
          exact List.mem_map_of_mem ht
        obtain ⟨l, hl, hread⟩ := List.mem_map.mp member
        obtain ⟨m, -, counterpart⟩ := exists_of_forall₂ paired hl
        refine .inr ⟨l, m, counterpart.mem, ?_, counterpart.moved⟩
        rw [here, Lexeme.pos_of_read hread]
    · exact .fault _

end Lockstep

/-! ## Evaluating points nowhere -/

/-- Outcomes whose failures have no position. -/
abbrev Placeless {α : Type} : Except Problem α → Prop :=
  Ends (fun _ => True) fun p => ∀ e, p = .failure e → e.pos = none

theorem placeless_inRange (name : String) (args : List Float) (x : Float) :
    Placeless (inRange name args x) := by
  unfold inRange
  split
  · trivial
  · rintro e ⟨⟩
    rfl

theorem placeless_value (s : Symbol) (epsilon x y : Float) : Placeless (s.value epsilon x y) := by
  have quotient : Placeless (quotient epsilon x y) := by
    unfold Reckon.quotient
    split
    · rintro e ⟨⟩
      rfl
    · split
      · rintro e ⟨⟩
      · trivial
  cases s with
  | operator op =>
    have value : Placeless (op.value epsilon x y) := by
      cases op with
      | div => exact quotient
      | _ => trivial
    refine value.bind ?_
    intro z _
    exact placeless_inRange op.text [x, y] z
  | _ => rintro e ⟨⟩

theorem placeless_builtin (b : Builtin) (name : String) (args : List Float) :
    Placeless (b.value name args) := by
  unfold Builtin.value
  split
  · exact placeless_inRange name args _
  · next mishap _ =>
    cases mishap <;> rintro e ⟨⟩ <;> rfl

theorem pos_of_builtin {ctx : Context} {f : FunctionName} {n : Nat} {e : Failure}
    (h : ctx.builtin f n = .error e) : e.pos = none := by
  unfold Context.builtin at h
  split at h
  · obtain rfl := Except.error.inj h
    rfl
  · split at h
    · obtain rfl := Except.error.inj h
      rfl
    · cases h

mutual

theorem placeless_eval (ctx : Context) : ∀ t : Expr, Placeless (t.eval ctx)
  | .operand x => by
    rw [Expr.eval]
    split
    · trivial
    · rintro e ⟨⟩
      rfl
  | .node s l r => by
    rw [Expr.eval]
    refine (placeless_eval ctx l).bind ?_
    intro x _
    refine (placeless_eval ctx r).bind ?_
    intro y _
    exact placeless_value s ctx.epsilon x y
  | .call f args => by
    rw [Expr.eval]
    cases hb : ctx.builtin f args.length with
    | error failure =>
      rintro e ⟨⟩
      exact pos_of_builtin hb
    | ok b =>
      refine (placeless_evalAll ctx args).bind ?_
      intro xs _
      exact placeless_builtin b f.text xs

theorem placeless_evalAll (ctx : Context) : ∀ ts : List Expr, Placeless (Expr.evalAll ctx ts)
  | [] => by
    rw [Expr.evalAll]
    trivial
  | t :: ts => by
    rw [Expr.evalAll]
    refine (placeless_eval ctx t).bind ?_
    intro x _
    refine (placeless_evalAll ctx ts).bind ?_
    intro xs _
    trivial

end

/-! ## Texts that are cut alike -/

section Cutting
variable {separates : Char → Bool}

/-- Whether a text may be cut between two pieces: no run goes on from the first to the second. -/
def Meets (separates : Char → Bool) (u v : List Char) : Prop :=
  (∀ c ∈ u.getLast?, inRun separates c = false) ∨ ∀ c ∈ v.head?, inRun separates c = false

theorem Meets.drop {r left v : List Char} (h : Meets separates (r ++ left) v) :
    Meets separates left v := by
  refine h.imp_left ?_
  intro last c hc
  refine last c ?_
  rw [List.getLast?_append, hc]
  rfl

/-- What comes after a run, in the same piece or in the next, ends it. -/
theorem Meets.ends_run {r left v : List Char} (h : Meets separates (r ++ left) v) (hr : r ≠ [])
    (goes : ∀ c ∈ r, inRun separates c = true) (stops : ∀ c ∈ left.head?, inRun separates c = false)
    (c : Char) (cs : List Char) (hcs : left ++ v = c :: cs) : inRun separates c = false := by
  cases left with
  | cons d ds =>
    obtain ⟨rfl, -⟩ := List.cons.inj hcs
    exact stops d rfl
  | nil =>
    rw [List.append_nil] at h
    rcases h with last | first
    · -- the run is the whole first piece, and its last character goes on it
      have stops := last _ (List.getLast?_eq_getLast_of_ne_nil hr)
      rw [goes _ (List.getLast_mem hr)] at stops
      cases stops
    · refine first c ?_
      rw [List.nil_append] at hcs
      rw [hcs]
      rfl

theorem lexemes_append {u v : List Char} (h : Meets separates u v) (pos : Nat) :
    lexemes separates pos (u ++ v) =
      lexemes separates pos u ++ lexemes separates (pos + u.length) v := by
  fun_induction lexemes separates pos u with
  | case1 => rfl
  | case2 pos c u hc ih =>
    have place : pos + (c :: u).length = pos + 1 + u.length := by
      rw [List.length_cons]
      omega
    rw [List.cons_append, lexemes, if_pos hc, ih (Meets.drop (r := [c]) h), place]
  | case3 pos c u hc s hs ih =>
    have place : pos + (c :: u).length = pos + 1 + u.length := by
      rw [List.length_cons]
      omega
    rw [List.cons_append, lexemes, if_neg hc]
    simp only [hs]
    rw [ih (Meets.drop (r := [c]) h), place, List.cons_append]
  | case4 pos c u hc hs rest ih =>
    let left := u.dropWhile (inRun separates)
    have cut : rest ++ left = u := List.takeWhile_append_dropWhile
    have goes : ∀ d ∈ c :: rest, inRun separates d = true :=
      List.forall_mem_cons.mpr ⟨inRun_of_other hc hs, List.all_eq_true.mp List.all_takeWhile⟩
    have stops : ∀ d ∈ left.head?, inRun separates d = false := by
      intro d hd
      have stop := List.head?_dropWhile_not (inRun separates) u
      rw [show (u.dropWhile (inRun separates)).head? = some d from hd] at stop
      exact stop
    have whole : c :: u = c :: rest ++ left := by rw [List.cons_append, cut]
    have last : Meets separates (c :: rest ++ left) v := whole ▸ h
    have start : pos + (c :: rest).length = pos + 1 + rest.length := by
      rw [List.length_cons]
      omega
    have place : pos + (c :: rest ++ left).length = pos + 1 + rest.length + left.length := by
      rw [List.length_append]
      omega
    rw [whole, List.append_assoc, lexemes_run (List.cons_ne_nil c rest) goes
      (last.ends_run (List.cons_ne_nil c rest) goes stops), start, ih last.drop, place]
    rfl

theorem map_mark_lexemes_pos (p q : Nat) (cs : List Char) :
    (lexemes separates p cs).map Lexeme.mark = (lexemes separates q cs).map Lexeme.mark := by
  fun_induction lexemes separates p cs generalizing q with
  | case1 => rw [lexemes]
  | case2 p c cs hc ih =>
    rw [lexemes, if_pos hc]
    exact ih (q + 1)
  | case3 p c cs hc s hs ih =>
    rw [lexemes, if_neg hc]
    simp only [hs]
    rw [List.map_cons, List.map_cons, ih (q + 1)]
  | case4 p c cs hc hs rest ih =>
    rw [lexemes, if_neg hc]
    simp only [hs]
    rw [List.map_cons, List.map_cons, ih (q + 1 + rest.length)]

/-- Separators between two pieces of a text make no marks; but where a run would go on from one
piece to the next, there have to be some. -/
theorem map_mark_lexemes_gap {u gap v : List Char} (hgap : ∀ c ∈ gap, separates c = true)
    (h : gap ≠ [] ∨ Meets separates u v) (pos : Nat) :
    (lexemes separates pos (u ++ (gap ++ v))).map Lexeme.mark =
      (lexemes separates 0 u).map Lexeme.mark ++ (lexemes separates 0 v).map Lexeme.mark := by
  have meets : Meets separates u (gap ++ v) := by
    cases gap with
    | nil => exact h.resolve_left (absurd rfl)
    | cons c gap =>
      right
      rintro d ⟨⟩
      exact inRun_of_separates (hgap c List.mem_cons_self)
  rw [lexemes_append meets, lexemes_gap hgap, List.map_append, map_mark_lexemes_pos pos 0,
    map_mark_lexemes_pos _ 0 v]

end Cutting

/-! ## Texts that compute alike -/

/-- The lexemes of a text under separators. -/
def lexemesOf (separators text : String) : List Lexeme :=
  lexemes separators.toList.contains 0 text.toList

section Texts
variable {ctx : Context} {separators : String} {a b : String}

theorem agree_parse (h : ctx.separators = .text separators)
    (respelled : Respelled (lexemesOf separators a) (lexemesOf separators b)) :
    Agree (lexemesOf separators a) (lexemesOf separators b) (ctx.parse a) (ctx.parse b) := by
  let lexis : Lexis := ⟨separators.toList.contains, ctx.nests⟩
  have sorted : (lexemesOf separators a).Pairwise fun l m => l.pos < m.pos :=
    pairwise_lexemes separators.toList.contains 0 a.toList
  obtain ⟨g, paired⟩ := exists_counterparts sorted respelled
  have scans := lockstep_foldlM ctx.nests paired .empty
  have empty : Nest.empty.move g = Nest.empty := rfl
  rw [empty] at scans
  have scanA : lexis.scan a.toList = ((lexemesOf separators a).foldlM (Nest.take ctx.nests)
      .empty).map Nest.finish := Lexis.scan_eq_foldlM lexis a.toList
  have scanB : lexis.scan b.toList = ((lexemesOf separators b).foldlM (Nest.take ctx.nests)
      .empty).map Nest.finish := Lexis.scan_eq_foldlM lexis b.toList
  rw [Context.parse, Context.parse, Context.tokenize_text h, Context.tokenize_text h]
  generalize (lexemesOf separators a).foldlM (Nest.take ctx.nests) .empty = x,
    (lexemesOf separators b).foldlM (Nest.take ctx.nests) .empty = y at scans scanA scanB
  cases scans with
  | failed e =>
    rw [scanA, scanB]
    exact .failure e
  | held n =>
    rw [map_ok] at scanA
    rw [map_ok, Nest.finish_move] at scanB
    rw [scanA, scanB]
    exact agree_build paired (Lexis.lexemes_of_scan scanA)

theorem agree_compute (h : ctx.separators = .text separators)
    (respelled : Respelled (lexemesOf separators a) (lexemesOf separators b)) :
    Agree (lexemesOf separators a) (lexemesOf separators b) (ctx.compute a) (ctx.compute b) := by
  have parsed := agree_parse h respelled
  rw [Context.compute, Context.compute]
  generalize ctx.parse a = x, ctx.parse b = y at parsed
  cases parsed with
  | failure e => exact .failure e
  | fault f => exact .fault f
  | value t =>
    simp only [ok_bind]
    cases he : t.eval ctx with
    | ok x => exact .value x
    | error p =>
      cases p with
      | fault f => exact .fault f
      | failure e =>
        have nowhere := (placeless_eval ctx t).of_error he e rfl
        exact .failure ⟨rfl, rfl, rfl, .inl ⟨nowhere, nowhere⟩⟩

end Texts

theorem respelled_of_map_mark {ls ms : List Lexeme}
    (h : ls.map Lexeme.mark = ms.map Lexeme.mark) : Respelled ls ms := by
  have marks : List.Forall₂ (· = ·) (ls.map Lexeme.mark) (ms.map Lexeme.mark) := by
    rw [List.forall₂_eq_eq_eq]
    exact h
  refine (List.forall₂_map_left_iff.mp (List.forall₂_map_right_iff.mp marks)).imp ?_
  intro l m equal
  rw [equal]
  exact .refl _

/-- Under separators that are a text, texts whose lexemes say the same in turn compute alike: they
have equal values, equal faults, or failures that say the same of corresponding lexemes. And such
texts are made by putting, dropping or exchanging separators: any where some are left, and all where
no run ends and goes on. -/
theorem compute_respelled {ctx : Context} {separators : String}
    (h : ctx.separators = .text separators) :
    (∀ a b, Respelled (lexemesOf separators a) (lexemesOf separators b) →
      Agree (lexemesOf separators a) (lexemesOf separators b) (ctx.compute a) (ctx.compute b)) ∧
    ∀ u v gap gap' : List Char, (∀ c ∈ gap ++ gap', c ∈ separators.toList) →
      (gap ≠ [] ∧ gap' ≠ [] ∨ Meets separators.toList.contains u v) →
      let a := String.ofList (u ++ (gap ++ v))
      let b := String.ofList (u ++ (gap' ++ v))
      Respelled (lexemesOf separators a) (lexemesOf separators b) ∧
        Agree (lexemesOf separators a) (lexemesOf separators b) (ctx.compute a)
          (ctx.compute b) := by
  refine ⟨fun a b => agree_compute h, ?_⟩
  intro u v gap gap' separate parted a b
  have marks {gap : List Char} (hgap : ∀ c ∈ gap, c ∈ separators.toList)
      (apart : gap ≠ [] ∨ Meets separators.toList.contains u v) :
      (lexemesOf separators (String.ofList (u ++ (gap ++ v)))).map Lexeme.mark =
        (lexemes separators.toList.contains 0 u ++
          lexemes separators.toList.contains 0 v).map Lexeme.mark := by
    rw [lexemesOf, String.toList_ofList, List.map_append]
    exact map_mark_lexemes_gap (fun c hc => List.contains_iff_mem.mpr (hgap c hc)) apart 0
  obtain ⟨hgap, hgap'⟩ := List.forall_mem_append.mp separate
  have respelled : Respelled (lexemesOf separators a) (lexemesOf separators b) := by
    apply respelled_of_map_mark
    rw [marks hgap (parted.imp_left And.left), marks hgap' (parted.imp_left And.right)]
  exact ⟨respelled, agree_compute h respelled⟩

/-- Capitals and blanks in a call, and a blank dropped between a number and a sign. -/
theorem compute_respelled_capitals :
    let cut := lexemesOf " \t\r\n,"
    Agree (cut "2*SIN( x)") (cut "2*sin(x)") (Context.standard.compute "2*SIN( x)")
      (Context.standard.compute "2*sin(x)") ∧
    Agree (cut "1 +") (cut "1+") (Context.standard.compute "1 +")
      (Context.standard.compute "1+") := by
  intro cut
  have h : Context.standard.separators = .text " \t\r\n," := rfl
  obtain ⟨alike, parted⟩ := compute_respelled h
  have loose : cut "2*SIN( x)" = [⟨.run ['2'], 0⟩, ⟨.sign (.operator .mul), 1⟩,
      ⟨.run ['S', 'I', 'N'], 2⟩, ⟨.sign .opening, 5⟩, ⟨.run ['x'], 7⟩, ⟨.sign .closing, 8⟩] := by
    decide +kernel
  have tight : cut "2*sin(x)" = [⟨.run ['2'], 0⟩, ⟨.sign (.operator .mul), 1⟩,
      ⟨.run ['s', 'i', 'n'], 2⟩, ⟨.sign .opening, 5⟩, ⟨.run ['x'], 6⟩, ⟨.sign .closing, 7⟩] := by
    decide +kernel
  have named : Mark.Alike (.run ['S', 'I', 'N']) (.run ['s', 'i', 'n']) :=
    .name (f := .sin) (by decide) (by decide)
  have respelled : Respelled (cut "2*SIN( x)") (cut "2*sin(x)") := by
    rw [loose, tight]
    exact .cons (.refl _) (.cons (.refl _) (.cons named (.cons (.refl _)
      (.cons (.refl _) (.cons (.refl _) .nil)))))
  have separate : ∀ c ∈ [' '] ++ [], c ∈ " \t\r\n,".toList := by simp
  have meets : Meets " \t\r\n,".toList.contains ['1'] ['+'] := by
    refine .inr ?_
    intro c hc
    obtain rfl := Option.some.inj hc
    decide
  have dropped := (parted ['1'] ['+'] [' '] [] separate (.inr meets)).2
  exact ⟨alike _ _ respelled, dropped⟩

end Reckon
