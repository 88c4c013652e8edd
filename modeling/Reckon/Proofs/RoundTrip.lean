import Reckon.Proofs.Built
import Reckon.Proofs.Rereading

/-!
Writing a tree and reading the text back, where every operator leans left with a positive
precedence. An operand that goes without brackets then binds at least as tightly as its place asks,
so that the text of every tree shows its grouping. Main statement: what is written for a tree parses
to a tree that is equal, and all trees that parse are of the kind this is said of (`parse_render`).
-/

namespace Reckon

/-! ## Contexts and trees -/

/-- Four operators that lean left with positive whole precedences, calls that may nest, and a text
of separators that has a blank and a comma and nothing that words and signs are made of. -/
structure Context.Legible (ctx : Context) (separators : String) : Prop where
  rules : ∀ op : Operator, ∃ p : Int, 0 < p ∧ ctx.operators.value? op.text = some ⟨.int p, .left⟩
  nests : ctx.nests = true
  separates : ctx.separators = .text separators
  space : ' ' ∈ separators.toList
  comma : ',' ∈ separators.toList
  spares : ∀ c ∈ separators.toList,
    c.isAlpha = false ∧ c.isDigit = false ∧ c ≠ '.' ∧ Symbol.ofChar? c = none

namespace Context.Legible
variable {ctx : Context} {separators : String} (h : ctx.Legible separators)
include h

theorem regular : ctx.Regular := by
  refine ⟨?_, ?_⟩
  · intro op
    obtain ⟨p, hp, hrule⟩ := h.rules op
    have hrank : ctx.rank op = p := by simp [rank, precedence, hrule]
    rwa [hrank]
  · intro op
    obtain ⟨p, -, hrule⟩ := h.rules op
    simp [associativity, hrule]

theorem ranked : ctx.Ranked := h.regular.ranked

theorem spaced : ctx.Spaced separators :=
  ⟨h.ranked, h.nests, h.separates, h.space, h.comma, h.spares⟩

end Context.Legible

section RoundTrip
variable {ctx : Context} {separators : String}

/-- What is written for a tree parses to an equal one. -/
theorem Context.parse_written (h : ctx.Legible separators) {t : Expr} (ht : t.Writable ctx) :
    ∃ u, ctx.parse (t.written ctx) = .ok u ∧ u.same t = true := by
  obtain ⟨u, hu, same⟩ := reparse_written h.spaced ht
  exact ⟨u, hu, same.mpr (h.regular.grouped t)⟩

/-! ## What parses can be written -/

/-- The runs of a text are made of what goes on runs. -/
theorem runs_lexemes (separates : Char → Bool) (pos : Nat) (cs : List Char) :
    Runs separates ((lexemes separates pos cs).map Lexeme.mark) := by
  fun_induction lexemes separates pos cs with
  | case1 => exact .nil
  | case2 pos c cs hc ih => exact ih
  | case3 pos c cs hc s hs ih => exact .sign s ih
  | case4 pos c cs hc hs rest ih =>
    refine .run (List.cons_ne_nil c rest) (List.forall_mem_cons.mpr ⟨?_, ?_⟩) ih
    · exact inRun_of_other hc hs
    · exact List.all_eq_true.mp List.all_takeWhile

/-- A run that is read as a number has a finite value that is not negative. -/
theorem nonneg_of_read {separates : Char → Bool} {cs : List Char} {pos p : Int} {x : Float}
    (hin : ∀ c ∈ cs, inRun separates c = true)
    (h : (Mark.run cs).read pos = .ok (.operand x p)) : x.isFinite = true ∧ 0 ≤ x := by
  have unsigned : ∀ c ∈ cs, c ≠ '-' ∧ c ≠ '+' := by
    intro c hc
    have hsign := hin c hc
    constructor <;> rintro rfl <;> simp [inRun, Symbol.ofChar?] at hsign
  rw [Mark.read] at h
  split at h
  · cases h
  · obtain ⟨y, hy, h⟩ := map_eq_ok.mp h
    obtain ⟨rfl, -⟩ := Token.operand.inj h
    unfold literal at hy
    split at hy
    · next n hn =>
      split at hy
      · next finite =>
        obtain rfl := Except.ok.inj hy
        -- a minus would be a sign, and the run has none
        have hneg : n.negative = false := by
          rw [String.toList_ofList, Number.Numeral.read?,
            Number.Numeral.splitSign_of_unsigned unsigned] at hn
          obtain ⟨⟨c, k⟩, -, rfl⟩ := Option.map_eq_some_iff.mp hn
          rfl
        have hval : n.value = Float.ofScientific n.coefficient true n.places := by
          simp [Number.Numeral.value, hneg]
        rw [hval] at finite ⊢
        exact ⟨finite, nonneg_ofScientific finite⟩
      · cases hy
    · cases hy

theorem exists_lexeme_of_mapM {ls : List Lexeme} {ts : List Token}
    (h : ls.mapM Lexeme.read = .ok ts) {t : Token} (ht : t ∈ ts) : ∃ l ∈ ls, l.read = .ok t := by
  induction ls generalizing ts with
  | nil =>
    obtain rfl := Except.ok.inj h
    simp at ht
  | cons l ls ih =>
    rw [List.mapM_cons, bind_eq_ok] at h
    obtain ⟨u, hu, h⟩ := h
    obtain ⟨us, hus, h⟩ := bind_eq_ok.mp h
    obtain rfl := Except.ok.inj h
    rcases List.mem_cons.mp ht with rfl | ht
    · exact ⟨l, List.mem_cons_self, hu⟩
    · obtain ⟨m, hm, hread⟩ := ih hus ht
      exact ⟨m, List.mem_cons_of_mem _ hm, hread⟩

/-- The operands that a text is cut into, at any depth, are finite and not negative. -/
theorem operand_of_tokenize (hs : ctx.separators = .text separators) (hn : ctx.nests = true)
    {text : String} {ts : List Token} (h : ctx.tokenize text = .ok ts) {x : Float} {pos : Int}
    (hx : Token.operand x pos ∈ Token.flattenAll ts) : x.isFinite = true ∧ 0 ≤ x := by
  rw [Context.tokenize_eq_map_nested hs hn, mapError_eq_ok, map_eq_ok] at h
  obtain ⟨words, hwords, rfl⟩ := h
  rw [Token.flattenAll_nested] at hx
  obtain ⟨w, hw, hbare⟩ := List.mem_map.mp hx
  obtain ⟨⟨mark, p⟩, hl, hread⟩ := exists_lexeme_of_mapM hwords hw
  -- only a run is read as an operand, and nesting has not changed it
  cases w with
  | operand y q =>
    obtain ⟨rfl, -⟩ := Token.operand.inj hbare
    cases mark with
    | sign s => cases hread
    | run cs =>
      have hrun := runs_lexemes separators.toList.contains 0 text.toList cs
        (List.mem_map.mpr ⟨_, hl, rfl⟩)
      exact nonneg_of_read hrun.2 hread
  | symbol s q => cases hbare
  | call f args q => cases hbare

theorem Expr.writableAll_of_forall {ts : List Expr} (h : ∀ t ∈ ts, t.Writable ctx) :
    Expr.WritableAll ctx ts := by
  induction ts with
  | nil => trivial
  | cons t ts ih =>
    obtain ⟨ht, hts⟩ := List.forall_mem_cons.mp h
    exact ⟨ht, ih hts⟩

/-- Every tree that parses can be written. -/
theorem Context.writable_of_parse (hs : ctx.separators = .text separators)
    (hn : ctx.nests = true) {text : String} {t : Expr} (h : ctx.parse text = .ok t) :
    t.Writable ctx := by
  obtain ⟨ts, hts, built⟩ := bind_eq_ok.mp h
  have kept : Kept ctx (Expr.Writable ctx) := by
    refine ⟨?_, ?_⟩
    · intro op x y hx hy
      exact ⟨⟨op, rfl⟩, hx, hy⟩
    · intro f args hargs hcount
      exact ⟨hcount, Expr.writableAll_of_forall hargs⟩
  apply holds_of_build kept ?_ built
  intro x pos hx
  exact operand_of_tokenize hs hn hts hx

end RoundTrip

/-- Where all four operators lean left with positive precedences and the separators part words and
arguments, every tree that can be written is rendered as a text that parses, and to an equal tree;
and every tree that parses can be written. -/
theorem parse_render {ctx : Context} {separators : String} (h : ctx.Legible separators) :
    (∀ t : Expr, t.Writable ctx →
      ∃ text u, t.render ctx = .ok text ∧ ctx.parse text = .ok u ∧ u.same t = true) ∧
    ∀ (text : String) (t : Expr), ctx.parse text = .ok t → t.Writable ctx := by
  refine ⟨?_, ?_⟩
  · intro t ht
    obtain ⟨u, hu, same⟩ := Context.parse_written h ht
    refine ⟨t.written ctx, u, ?_, hu, same⟩
    rw [Expr.render, if_pos (ht.decided h.ranked)]
  · intro text t parsed
    exact Context.writable_of_parse h.separates h.nests parsed

/-- Products bind looser than differences, so that one on the left is bracketed, and there is a
semicolon among the separators. -/
theorem parse_render_loose_product :
    let ctx := { Context.standard with
      operators := [("+", ⟨.int 3, .left⟩), ("-", ⟨.int 3, .left⟩), ("*", ⟨.int 1, .left⟩),
        ("/", ⟨.int 2, .left⟩)]
      separators := .text "; ," }
    let t := Expr.binary .sub (.binary .mul (.operand 1) (.operand 2.5))
      (.call .pow [.operand 4, .binary .div (.operand 5) (.operand 6)])
    ctx.Legible "; ," ∧
    ∃ u, t.render ctx = .ok "(1 * 2.5) - pow(4, 5 / 6)" ∧
      ctx.parse "(1 * 2.5) - pow(4, 5 / 6)" = .ok u ∧ u.same t = true := by
  intro ctx t
  have legible : ctx.Legible "; ," := by
    refine ⟨?_, by decide +kernel, rfl, by decide, by decide, ?_⟩
    · intro op
      cases op <;> exact ⟨_, by decide, rfl⟩
    · intro c hc
      have cases : c = ';' ∨ c = ' ' ∨ c = ',' := by simpa using hc
      rcases cases with rfl | rfl | rfl <;> decide
  have writable : t.Writable ctx := by
    refine ⟨⟨.sub, rfl⟩, ⟨⟨.mul, rfl⟩, ?_, ?_⟩, rfl, ?_, ⟨⟨.div, rfl⟩, ?_, ?_⟩, trivial⟩
    all_goals exact ⟨by decide +kernel, by decide +kernel⟩
  obtain ⟨text, u, hrender, hparse, same⟩ := (parse_render legible).1 t writable
  have written : t.render ctx = .ok "(1 * 2.5) - pow(4, 5 / 6)" := by
    rw [Expr.render, if_pos (writable.decided legible.ranked)]
    exact congrArg _ (by decide +kernel)
  obtain rfl := Except.ok.inj (hrender.symm.trans written)
  exact ⟨legible, u, hrender, hparse, same⟩

end Reckon
