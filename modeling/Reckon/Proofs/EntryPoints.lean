import Reckon.Proofs.Numeral
import Reckon.Proofs.OneLevel
import Reckon.PlainDisk
import Reckon.Session

/-!
The one-call entry point against the chain of the three stages. Given a context both work under it.
Without one the stages work under the standard context and the one call under the context that the
settings describe, so that they agree where those two contexts work alike. Main statement: what
becomes of one call is what becomes of the chain under the context that it works under, and of the
chain without a context too if calls may nest and the two contexts work alike; where calls may not
nest, names that crowd others are refused instead (`compute_eq_chained`). It holds over every host.
-/

namespace Reckon

/-- The three stages in turn, up to the first that fails. -/
def chained (given : Option Context) (text : String) : Except Problem Float := do
  let tokens ← tokenize given text
  let tree ← buildTree given tokens
  evaluate given tree

theorem chained_eq_compute (given : Option Context) (text : String) :
    chained given text = (given.getD .standard).compute text := by
  simp only [chained, tokenize, buildTree, evaluate, Context.compute, Context.parse]
  cases (given.getD .standard).tokenize text <;> rfl

/-! ## Contexts that work alike -/

/-- Contexts that cut texts, compare operators, find functions and guard divisions alike. Names,
flags and rules that no expression reaches do not matter. -/
structure Context.Alike (a b : Context) : Prop where
  separators : a.separators = b.separators
  reduces : ∀ waiting incoming, a.reduces waiting incoming = b.reduces waiting incoming
  entries : ∀ f, a.entry? f = b.entry? f
  epsilon : a.epsilon = b.epsilon

namespace Context.Alike
variable {a b : Context}

section
variable (h : a.Alike b)
include h

theorem wrongCount? (f : FunctionName) (given : Nat) :
    a.wrongCount? f given = b.wrongCount? f given := by
  rw [Context.wrongCount?, Context.wrongCount?, h.entries]

theorem builtin (f : FunctionName) (given : Nat) : a.builtin f given = b.builtin f given := by
  rw [Context.builtin, Context.builtin, h.entries, h.wrongCount?]

theorem tokenize (nests : a.nests = b.nests) (text : String) :
    a.tokenize text = b.tokenize text := by
  simp only [Context.tokenize, Context.lexis, h.separators, nests]

theorem reduce (incoming : Operator) (ws : List Waiting) (ts : List Expr) :
    Stacks.reduce a incoming ws ts = Stacks.reduce b incoming ws ts := by
  induction ws generalizing ts with
  | nil => rfl
  | cons w ws ih =>
    cases w with
    | bracket pos => rfl
    | operator op pos => simp only [Stacks.reduce, h.reduces, ih]

theorem push (s : Stacks) (p : Piece) : s.push a p = s.push b p := by
  cases p with
  | tree built => rfl
  | symbol sign pos =>
    cases sign with
    | operator op => simp only [Stacks.push, h.reduce]
    | _ => rfl

theorem pushAll (s : Stacks) (ps : List Piece) :
    Stacks.pushAll a s ps = Stacks.pushAll b s ps := by
  induction ps generalizing s with
  | nil => rfl
  | cons p ps ih => simp only [Stacks.pushAll, h.push, ih]

theorem reduceAll (ps : List Piece) : a.reduceAll ps = b.reduceAll ps := by
  rw [Context.reduceAll, Context.reduceAll, h.pushAll]

theorem reduceEach (gs : List (List Piece)) : a.reduceEach gs = b.reduceEach gs := by
  induction gs with
  | nil => rfl
  | cons g gs ih => rw [Context.reduceEach, Context.reduceEach, h.reduceAll, ih]

theorem buildCall (f : FunctionName) (pos : Int) (args : List Piece) :
    a.buildCall f pos args = b.buildCall f pos args := by
  simp only [Context.buildCall, h.reduceEach, h.wrongCount?]

end

mutual

theorem piece (h : a.Alike b) : ∀ t : Token, a.piece t = b.piece t
  | .operand x pos => rfl
  | .symbol s pos => rfl
  | .call f args pos => by
    rw [Context.piece, Context.piece, h.buildCall, h.pieces args]

theorem pieces (h : a.Alike b) : ∀ ts : List Token, a.pieces ts = b.pieces ts
  | [] => rfl
  | t :: ts => by rw [Context.pieces, Context.pieces, h.piece t, h.pieces ts]

end

theorem build (h : a.Alike b) (ts : List Token) : a.build ts = b.build ts := by
  rw [Context.build, Context.build, h.pieces, h.reduceAll]

mutual

theorem eval (h : a.Alike b) : ∀ t : Expr, t.eval a = t.eval b
  | .operand x => by rw [Expr.eval, Expr.eval]
  | .node s l r => by rw [Expr.eval, Expr.eval, h.eval l, h.eval r, h.epsilon]
  | .call f args => by rw [Expr.eval, Expr.eval, h.builtin, h.evalAll args]

theorem evalAll (h : a.Alike b) : ∀ ts : List Expr, Expr.evalAll a ts = Expr.evalAll b ts
  | [] => by rw [Expr.evalAll, Expr.evalAll]
  | t :: ts => by rw [Expr.evalAll, Expr.evalAll, h.eval t, h.evalAll ts]

end

/-- Alike contexts compute alike what they tokenize alike. -/
theorem compute (h : a.Alike b) {text : String} (same : a.tokenize text = b.tokenize text) :
    a.compute text = b.compute text := by
  simp only [Context.compute, Context.parse, same, h.build, h.eval]

end Context.Alike

/-! ## One call -/

namespace World
variable {Disk : Type} {host : Host Disk} {w : World host} {ctx : Context} {text : String}

/-- Without a context one call works under the context of the settings. -/
theorem compute_settings (h : (w.origin .settings).1 = .ok ctx) :
    (w.compute none text).1 = ctx.compute text := by
  rw [compute]
  split
  · next heq =>
    rw [heq] at h
    obtain rfl := Except.ok.inj h
    rfl
  · next heq =>
    rw [heq] at h
    cases h

theorem compute_unreadable {f : Fault} (h : (w.origin .settings).1 = .error f) :
    (w.compute none text).1 = .error (.fault f) := by
  rw [compute]
  split
  · next heq =>
    rw [heq] at h
    cases h
  · next heq =>
    rw [heq] at h
    obtain rfl := Except.error.inj h
    rfl

/-- Without a context file the context of the settings is the standard one but for nesting. -/
theorem origin_without_file {s : Settings} {w' : World host} (h : w.settings = .ok (s, w'))
    (file : s.contextFile = none ∨ s.contextFile = some "") :
    ∃ ctx, (w.origin .settings).1 = .ok ctx ∧ ctx.Alike .standard ∧
      ctx.nests = s.nestedFunctions := by
  refine ⟨Context.standard.setFlag Context.nestingFlag (.bool s.nestedFunctions), ?_,
    ⟨rfl, fun _ _ => rfl, fun _ => rfl, rfl⟩, ?_⟩
  · rw [origin, h]
    rcases file with file | file <;> simp [Context.ofSettings, file]
  · rw [Context.nests, Context.flag?, Context.setFlag, Table.value?_put, if_pos rfl]
    rfl

end World

/-- Under a context that works as the standard one does except that calls may not nest, a text that
crowds no names has the outcome of the chain, and of another the first crowded name is refused. -/
theorem compute_flat {ctx : Context} (alike : ctx.Alike .standard)
    (off : ctx.nests = false) (text : String) :
    (∀ p, tokenize none text = .error p → ∃ q, ctx.compute text = .error q) ∧
    ∀ ts, tokenize none text = .ok ts →
      ((∀ f p, ¬Token.Crowded ts f p) → ctx.compute text = chained none text) ∧
      ((∃ f p, Token.Crowded ts f p) → ∃ raw p, Token.FirstCrowded text ts raw p ∧
        ctx.compute text = fail (.malformedOperand raw (some p))) := by
  have nests : Context.standard.nests = true := by decide +kernel
  refine ⟨?_, ?_⟩
  · intro p h
    obtain ⟨q, hq⟩ := Context.tokenize_flat_error alike.separators nests off h
    refine ⟨q, ?_⟩
    rw [Context.compute, Context.parse, hq]
    rfl
  · intro ts h
    rcases Context.tokenize_flat alike.separators nests off h with ⟨calm, same⟩ |
      ⟨raw, p, first, refused⟩
    · refine ⟨fun _ => ?_, ?_⟩
      · rw [chained_eq_compute]
        exact alike.compute (same.trans h.symm)
      · rintro ⟨f, p, crowded⟩
        exact absurd crowded (calm f p)
    · obtain ⟨f, -, crowded⟩ := first.crowded
      refine ⟨fun calm => absurd crowded (calm f p), fun _ => ⟨raw, p, first, ?_⟩⟩
      rw [Context.compute, Context.parse, refused]
      rfl

/-- One call and the chain of the three stages, in a world of settings, whatever its host reads from
variables and disks. Given the same context they have the same outcome. Without one the chain works
under the standard context, and the one call under the context of the settings, or fails as these
do; so the outcome is the same where that context works as the standard one does and calls may nest,
and where calls may not nest it is the same for texts that crowd no names, while of other texts the
first crowded name is refused. Without a context file the two contexts work alike, and calls nest as
the settings say. -/
theorem compute_eq_chained {Disk : Type} {host : Host Disk} (w : World host) (text : String) :
    (∀ ctx, (w.compute (some ctx) text).1 = chained (some ctx) text) ∧
    (∀ f, (w.origin .settings).1 = .error f → (w.compute none text).1 = .error (.fault f)) ∧
    (∀ ctx, (w.origin .settings).1 = .ok ctx →
      (w.compute none text).1 = chained (some ctx) text ∧
      (ctx.Alike .standard → ctx.nests = true → (w.compute none text).1 = chained none text) ∧
      (ctx.Alike .standard → ctx.nests = false →
        (∀ p, tokenize none text = .error p → ∃ q, (w.compute none text).1 = .error q) ∧
        ∀ ts, tokenize none text = .ok ts →
          ((∀ f p, ¬Token.Crowded ts f p) → (w.compute none text).1 = chained none text) ∧
          ((∃ f p, Token.Crowded ts f p) → ∃ raw p, Token.FirstCrowded text ts raw p ∧
            (w.compute none text).1 = fail (.malformedOperand raw (some p))))) ∧
    ∀ s w', w.settings = .ok (s, w') → (s.contextFile = none ∨ s.contextFile = some "") →
      ∃ ctx, (w.origin .settings).1 = .ok ctx ∧ ctx.Alike .standard ∧
        ctx.nests = s.nestedFunctions := by
  refine ⟨?_, fun f h => World.compute_unreadable h, ?_,
    fun s w' h file => World.origin_without_file h file⟩
  · intro ctx
    rw [chained_eq_compute]
    rfl
  · intro ctx h
    rw [World.compute_settings h]
    refine ⟨(chained_eq_compute (some ctx) text).symm, ?_, ?_⟩
    · intro alike nests
      have same : ctx.nests = Context.standard.nests := nests.trans (by decide +kernel)
      rw [chained_eq_compute]
      exact alike.compute (alike.tokenize same text)
    · intro alike off
      exact compute_flat alike off text

/-- Calls may not nest and there is no context file: the names of `x + y` do not crowd. With a
context file it is the file's context that one call works under. -/
theorem compute_eq_chained_names :
    (let w : World Host.plain := ⟨[("MATHTREE_NESTED_FUNCTIONS", "0")], ⟨[], []⟩, none⟩
    (∃ s w', w.settings = .ok (s, w') ∧ s.contextFile = none ∧ s.nestedFunctions = false) ∧
      (w.compute none "x + y").1 = chained none "x + y") ∧
    let fields : Table Data := [("name", .text "Loose"), ("epsilon", .float 0.1)]
    let loose := { Context.standard with name := .text "Loose", epsilon := 0.1 }.setFlag
      Context.nestingFlag (.bool true)
    let w : World Host.plain := ⟨[("MATHTREE_CONTEXT_FILE", "/tmp/loose.yaml")],
      ⟨[], [("/tmp/loose.yaml", .record fields)]⟩, none⟩
    (w.origin .settings).1 = .ok loose ∧
      (w.compute none "1 / 0.05").1 = chained (some loose) "1 / 0.05" := by
  constructor
  · intro w
    have off : Settings.switchOfName? "0" = some false := by decide +kernel
    have read : w.settings = .ok (⟨"INFO", "text", none, none, false⟩,
        { w with cache := some ⟨"INFO", "text", none, none, false⟩ }) := by
      simp [w, World.settings, Settings.read_nested, Settings.readSwitch, Settings.switch?, off]
    obtain ⟨-, -, settled, plain⟩ := compute_eq_chained w "x + y"
    obtain ⟨ctx, described, alike, off⟩ := plain _ _ read (.inl rfl)
    let ts := [Token.call .x [] 0, .symbol (.operator .add) 2, .call .y [] 4]
    have cut : lexemes " \t\r\n,".toList.contains 0 "x + y".toList =
        [⟨.run "x".toList, 0⟩, ⟨.sign (.operator .add), 2⟩, ⟨.run "y".toList, 4⟩] := by
      decide +kernel
    have tokens : tokenize none "x + y" = .ok ts := by
      show Context.standard.tokenize "x + y" = .ok ts
      rw [Context.tokenize_eq_map_nested rfl (by decide +kernel), cut]
      have words : List.mapM Lexeme.read [⟨.run "x".toList, 0⟩, ⟨.sign (.operator .add), 2⟩,
          ⟨.run "y".toList, 4⟩] = .ok ts := rfl
      rw [words]
      simp [ts, Token.nested]
    have calm : ∀ f p, ¬Token.Crowded ts f p := by
      rintro f p (⟨g, args, q, hcall, hname⟩ | ⟨before, g, q, after, split⟩)
      · have empty : args = [] := by
          simp only [ts, List.mem_cons, Token.call.injEq, reduceCtorEq, List.not_mem_nil] at hcall
          grind
        rw [empty] at hname
        simp [Token.flattenAll] at hname
      · rcases before with _ | ⟨_, _ | ⟨_, _ | ⟨_, before⟩⟩⟩ <;>
          simp [ts, Token.flattenAll, Token.flatten] at split
    exact ⟨⟨_, _, read, rfl, rfl⟩, (((settled ctx described).2.2 alike off).2 ts tokens).1 calm⟩
  · intro fields loose w
    have parts : Text.components "/tmp/loose.yaml" = ["", "tmp", "loose.yaml"] := by
      decide +kernel
    have place : Text.place "/tmp/loose.yaml" = ["loose.yaml", "tmp", "/"] := by decide +kernel
    have leads : w.disk.files.at? ["loose.yaml", "tmp", "/"] = some (.record fields) := by
      simp [w, Files.at?, place]
    have held : w.disk.files.read "/tmp/loose.yaml" = .ok (.record fields) := by
      refine Files.read_absolute ?_ ?_ ?_ parts ?_ leads
      all_goals decide +kernel
    have described : (w.origin .settings).1 = .ok loose := by
      have settings : w.settings = .ok (⟨"INFO", "text", none, some "/tmp/loose.yaml", true⟩,
          { w with cache := some ⟨"INFO", "text", none, some "/tmp/loose.yaml", true⟩ }) := rfl
      have file : Context.ofFile Host.plain w.disk "/tmp/loose.yaml" =
          .ok { Context.standard with name := .text "Loose", epsilon := 0.1 } := by
        rw [Context.ofFile, Host.data_plain, held]
        rfl
      simp only [World.origin, settings, Context.ofSettings, file]
      rfl
    exact ⟨described, ((compute_eq_chained w "1 / 0.05").2.2.1 loose described).1⟩

/-- Where the environment says that calls may not nest, one call without a context refuses what the
chain without one computes. -/
theorem compute_ne_chained :
    let w : World Host.plain := ⟨[("MATHTREE_NESTED_FUNCTIONS", "0")], ⟨[], []⟩, none⟩
    (w.compute none "abs(abs(1))").1 = fail (.malformedOperand "abs" (some 4)) ∧
      chained none "abs(abs(1))" = .ok 1 := by
  intro w
  have off : Settings.switchOfName? "0" = some false := by decide +kernel
  let flat := Context.standard.setFlag Context.nestingFlag (.bool false)
  have described : (w.origin .settings).1 = .ok flat := by
    simp [w, flat, World.origin, World.settings, Settings.read_nested, Settings.readSwitch,
      Settings.switch?, off, Context.ofSettings]
  have single : flat.nests = false := by decide +kernel
  have cut : lexemes " \t\r\n,".toList.contains 0 "abs(abs(1))".toList =
      [⟨.run "abs".toList, 0⟩, ⟨.sign .opening, 3⟩, ⟨.run "abs".toList, 4⟩, ⟨.sign .opening, 7⟩,
        ⟨.run "1".toList, 8⟩, ⟨.sign .closing, 9⟩, ⟨.sign .closing, 10⟩] := by decide +kernel
  have refused : flat.tokenize "abs(abs(1))" = fail (.malformedOperand "abs" (some 4)) := by
    rw [Context.tokenize_text rfl, single, Lexis.scan_eq_foldlM, cut]
    rfl
  have refuses : (w.compute none "abs(abs(1))").1 = fail (.malformedOperand "abs" (some 4)) := by
    rw [World.compute_settings described, Context.compute, Context.parse, refused]
    rfl
  have one : Lexeme.read ⟨.run "1".toList, 8⟩ = .ok (.operand 1 8) :=
    @Mark.read_written ['1'] none 1 (List.all_eq_true.mp (by decide)) (by decide)
      (by decide +kernel) (by decide +kernel) 8
  have tokens : tokenize none "abs(abs(1))" =
      .ok [.call .abs [.symbol .opening 3, .call .abs [.symbol .opening 7, .operand 1 8,
        .symbol .closing 9] 4, .symbol .closing 10] 0] := by
    show Context.standard.tokenize "abs(abs(1))" = _
    rw [Context.tokenize_eq_map_nested rfl (by decide +kernel), cut]
    have name (pos : Nat) : Lexeme.read ⟨.run "abs".toList, pos⟩ = .ok (.call .abs [] pos) := rfl
    have sign (s : Symbol) (pos : Nat) : Lexeme.read ⟨.sign s, pos⟩ = .ok (.symbol s pos) := rfl
    simp only [List.mapM_cons, List.mapM_nil, name, sign, one]
    simp [Token.nested, Token.splitClose]
  have tree : buildTree none [.call .abs [.symbol .opening 3, .call .abs [.symbol .opening 7,
      .operand 1 8, .symbol .closing 9] 4, .symbol .closing 10] 0] =
      .ok (.call .abs [.call .abs [.operand 1]]) := by rfl
  refine ⟨refuses, ?_⟩
  rw [chained, tokens, ok_bind, tree, ok_bind]
  have value : (evaluate none (.call .abs [.call .abs [.operand 1]])).toOption = some 1 := by
    decide +kernel
  revert value
  cases evaluate none (.call .abs [.call .abs [.operand 1]]) with
  | error f => simp [Except.toOption]
  | ok x => simp [Except.toOption]

end Reckon
