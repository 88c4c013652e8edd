import Reckon.Proofs.Numeral
import Reckon.Proofs.Position
import Reckon.Proofs.Spelling

/-!
Reading a text as an expression. Where every function name is followed by its arguments in brackets,
nesting the flat tokens of an expression gives back its tokens, so that the marks of an expression
determine it. Main statement: a text that spells the marks of a settled expression parses to that
expression's tree (`parse_spelled`).
-/

namespace Reckon

/-- Every name in the expression, at any depth, is followed by a run of expressions in brackets. -/
inductive Infix.Applied : Infix → Prop where
  | operand (x : Float) (pos : Int) : Applied (.operand x pos)
  | call (f : FunctionName) (pos left right : Int) {args : List Infix} :
    (∀ a ∈ args, a.Applied) →
    Applied (.call f
      (.symbol .opening left :: (args.flatMap Infix.tokens ++ [.symbol .closing right])) pos)
  | bracketed (left right : Int) {e : Infix} : e.Applied → Applied (.bracketed left e right)
  | binary (op : Operator) (pos : Int) {l r : Infix} :
    l.Applied → r.Applied → Applied (.binary op pos l r)

namespace Token

theorem flattenAll_flatMap (es : List Infix) :
    flattenAll (es.flatMap Infix.tokens) = es.flatMap fun e => flattenAll e.tokens := by
  induction es with
  | nil => rfl
  | cons e es ih => rw [List.flatMap_cons, flattenAll_append, ih, List.flatMap_cons]

/-- Tokens that leave no bracket open and close none that was open are passed over by a cut. -/
def Balanced (ts : List Token) : Prop :=
  ∀ d, 0 < d → ∀ rest,
    splitClose d (ts ++ rest) = (ts ++ (splitClose d rest).1, (splitClose d rest).2)

theorem Balanced.nil : Balanced [] := fun _ _ _ => rfl

theorem Balanced.append {ts us : List Token} (ht : Balanced ts) (hu : Balanced us) :
    Balanced (ts ++ us) := by
  intro d hd rest
  rw [List.append_assoc, ht d hd, hu d hd, List.append_assoc]

theorem Balanced.cons {t : Token} (ht : t.symbol?.all (!·.isBracket)) {us : List Token}
    (hu : Balanced us) : Balanced (t :: us) := by
  intro d hd rest
  cases t with
  | symbol s pos =>
    cases s with
    | operator op => simp [splitClose, hu d hd]
    | _ => simp [symbol?, Symbol.isBracket] at ht
  | _ => simp [splitClose, hu d hd]

theorem Balanced.enclose {ts : List Token} (ht : Balanced ts) (left right : Int) :
    Balanced (.symbol .opening left :: (ts ++ [.symbol .closing right])) := by
  intro d hd rest
  have h1 : d ≠ 0 := by omega
  simp [splitClose, ht (d + 1) (Nat.succ_pos d), h1]

theorem Balanced.flatMap {α : Type} {f : α → List Token} {as : List α}
    (h : ∀ a ∈ as, Balanced (f a)) : Balanced (as.flatMap f) := by
  induction as with
  | nil => exact .nil
  | cons a as ih =>
    obtain ⟨ha, has⟩ := List.forall_mem_cons.mp h
    exact ha.append (ih has)

theorem flattenAll_call (f : FunctionName) (args : List Token) (pos : Int) :
    flattenAll [.call f args pos] = .call f [] pos :: flattenAll args := by
  simp [flattenAll, flatten]

theorem flattenAll_enclosed (ts : List Token) (left right : Int) :
    flattenAll (.symbol .opening left :: (ts ++ [.symbol .closing right])) =
      .symbol .opening left :: (flattenAll ts ++ [.symbol .closing right]) := by
  simp [flattenAll, flatten, flattenAll_append]

/-- The flat tokens of an expression are balanced. -/
theorem balanced_flattenAll {e : Infix} (h : e.Applied) : Balanced (flattenAll e.tokens) := by
  induction h with
  | operand x pos => exact Balanced.nil.cons rfl
  | binary op pos _ _ ihl ihr =>
    rw [Infix.tokens, flattenAll_append]
    exact ihl.append (ihr.cons rfl)
  | bracketed left right _ ih =>
    rw [Infix.tokens, flattenAll_enclosed]
    exact ih.enclose left right
  | call f pos left right _ ih =>
    rw [Infix.tokens, flattenAll_call, flattenAll_enclosed, flattenAll_flatMap]
    exact ((Balanced.flatMap ih).enclose left right).cons rfl

/-- What nests one by one nests in a row. -/
theorem nested_run {es : List Infix}
    (h : ∀ e ∈ es, ∀ rest, nested (flattenAll e.tokens ++ rest) = e.tokens ++ nested rest)
    (rest : List Token) :
    nested (flattenAll (es.flatMap Infix.tokens) ++ rest) =
      es.flatMap Infix.tokens ++ nested rest := by
  induction es with
  | nil => rfl
  | cons e es ih =>
    obtain ⟨he, hes⟩ := List.forall_mem_cons.mp h
    rw [List.flatMap_cons, flattenAll_append, List.append_assoc, he, ih hes, List.append_assoc]

/-- Nesting goes through an expression and gives its tokens back. -/
theorem nested_flattenAll {e : Infix} (h : e.Applied) (rest : List Token) :
    nested (flattenAll e.tokens ++ rest) = e.tokens ++ nested rest := by
  induction h generalizing rest with
  | operand x pos => exact nested_operand x pos rest
  | @binary op pos l r _ _ ihl ihr =>
    let sign : Token := .symbol (.operator op) pos
    calc nested (flattenAll (Infix.binary op pos l r).tokens ++ rest)
        = nested (flattenAll l.tokens ++ sign :: (flattenAll r.tokens ++ rest)) := by
          rw [Infix.tokens, flattenAll_append, List.append_assoc]
          rfl
      _ = l.tokens ++ sign :: nested (flattenAll r.tokens ++ rest) := by rw [ihl, nested_symbol]
      _ = l.tokens ++ sign :: (r.tokens ++ nested rest) := by rw [ihr]
      _ = (Infix.binary op pos l r).tokens ++ nested rest := by rw [Infix.tokens]; simp [sign]
  | bracketed left right _ ih =>
    rw [Infix.tokens, flattenAll_enclosed, List.cons_append, nested_symbol, List.append_assoc, ih,
      List.singleton_append, nested_symbol]
    simp
  | @call f pos left right args hargs ih =>
    -- the arguments are balanced, so the cut passes over them to the last bracket
    have balanced : Balanced (flattenAll (args.flatMap Infix.tokens)) := by
      rw [flattenAll_flatMap]
      apply Balanced.flatMap
      intro a ha
      exact balanced_flattenAll (hargs a ha)
    rw [Infix.tokens, flattenAll_call, flattenAll_enclosed, List.cons_append, List.cons_append,
      nested_call_opening, List.append_assoc, balanced 1 Nat.one_pos]
    simp [splitClose, nested_run ih, nested_symbol, nested]

end Token

/-! ## What marks read as -/

/-- The marks, read one by one, are the flat tokens of the expression. -/
structure Reads (separates : Char → Bool) (ms : List Mark) (e : Infix) : Prop where
  applied : e.Applied
  runs : Runs separates ms
  read : ms.mapM (Mark.read 0) = .ok (Token.flattenAll e.tokens)

/-- The marks, read one by one, are the flat tokens of the expressions in turn. -/
structure ReadsAll (separates : Char → Bool) (ms : List Mark) (es : List Infix) : Prop where
  applied : ∀ e ∈ es, e.Applied
  runs : Runs separates ms
  read : ms.mapM (Mark.read 0) = .ok (Token.flattenAll (es.flatMap Infix.tokens))

namespace Reads
variable {separates : Char → Bool} {ms ns : List Mark} {e l r : Infix}

theorem numeral (words : SparesWords separates) {whole : List Char}
    {fraction : Option (List Char)} {x : Float}
    (digits : ∀ c ∈ whole ++ fraction.getD [], c.isDigit = true)
    (nonempty : whole ++ fraction.getD [] ≠ [])
    (value : Float.ofScientific (Number.digitsValue (whole ++ fraction.getD [])) true
      (fraction.getD []).length = x) (finite : x.isFinite = true) :
    Reads separates [.run (Number.Numeral.written whole fraction)] (.operand x 0) := by
  refine ⟨.operand x 0,
    .run (Number.Numeral.written_ne_nil nonempty) (words.inRun_written digits) .nil, ?_⟩
  rw [List.mapM_cons, Mark.read_written digits nonempty value finite]
  rfl

theorem bracketed (h : Reads separates ms e) :
    Reads separates (.sign .opening :: (ms ++ [.sign .closing])) (.bracketed 0 e 0) := by
  refine ⟨.bracketed 0 0 h.applied, .sign _ (h.runs.append (.sign _ .nil)), ?_⟩
  rw [List.mapM_cons, List.mapM_append, h.read, Infix.tokens, Token.flattenAll_enclosed]
  rfl

theorem binary (hl : Reads separates ms l) (hr : Reads separates ns r) (op : Operator) :
    Reads separates (ms ++ .sign (.operator op) :: ns) (.binary op 0 l r) := by
  refine ⟨.binary op 0 hl.applied hr.applied, hl.runs.append (.sign _ hr.runs), ?_⟩
  rw [List.mapM_append, List.mapM_cons, hl.read, hr.read, Infix.tokens, Token.flattenAll_append]
  rfl

theorem call (words : SparesWords separates) {es : List Infix} (h : ReadsAll separates ms es)
    {cs : List Char} {f : FunctionName}
    (hf : FunctionName.lookup? (String.ofList cs) = some f) :
    Reads separates (.run cs :: .sign .opening :: (ms ++ [.sign .closing])) (.call f
      (.symbol .opening 0 :: (es.flatMap Infix.tokens ++ [.symbol .closing 0])) 0) := by
  have name : (Mark.run cs).read 0 = .ok (.call f [] 0) := by
    rw [Mark.read, hf]
  refine ⟨.call f 0 0 0 h.applied, .run (ne_nil_of_lookup? hf) (words.inRun_name hf)
    (.sign _ (h.runs.append (.sign _ .nil))), ?_⟩
  rw [List.mapM_cons, List.mapM_cons, List.mapM_append, name, h.read, Infix.tokens,
    Token.flattenAll_call, Token.flattenAll_enclosed]
  rfl

end Reads

theorem ReadsAll.nil {separates : Char → Bool} : ReadsAll separates [] [] :=
  ⟨by simp, .nil, rfl⟩

theorem ReadsAll.cons {separates : Char → Bool} {ms ns : List Mark} {e : Infix} {es : List Infix}
    (h : Reads separates ms e) (hs : ReadsAll separates ns es) :
    ReadsAll separates (ms ++ ns) (e :: es) := by
  refine ⟨List.forall_mem_cons.mpr ⟨h.applied, hs.applied⟩, h.runs.append hs.runs, ?_⟩
  rw [List.mapM_append, h.read, hs.read, List.flatMap_cons, Token.flattenAll_append]
  rfl

/-- A text that spells the marks of an expression is cut into the expression's tokens. -/
theorem Context.tokenize_of_reads {ctx : Context} {separators text : String} {ms : List Mark}
    {e : Infix} (hs : ctx.separators = .text separators) (hn : ctx.nests = true)
    (signs : ∀ s : Symbol, separators.toList.contains s.char = false)
    (spelled : Spelled separators.toList.contains ms text.toList)
    (reads : Reads separators.toList.contains ms e) :
    ∃ ts, ctx.tokenize text = .ok ts ∧ Token.moveAll (fun _ => 0) ts = e.tokens := by
  obtain ⟨ts, tokenized, moved⟩ :=
    tokenize_of_marks hs hn (spelled.map_mark_lexemes signs reads.runs 0) reads.read
  have back := Token.nested_flattenAll reads.applied []
  rw [List.append_nil, Token.nested, List.append_nil] at back
  exact ⟨ts, tokenized, moved.trans back⟩

/-- A text that spells the marks of an expression parses to what is built of the expression's
tokens. -/
theorem Context.parse_of_reads {ctx : Context} {separators text : String} {ms : List Mark}
    {e : Infix} {tree : Expr} (hs : ctx.separators = .text separators) (hn : ctx.nests = true)
    (signs : ∀ s : Symbol, separators.toList.contains s.char = false)
    (spelled : Spelled separators.toList.contains ms text.toList)
    (reads : Reads separators.toList.contains ms e) (built : ctx.build e.tokens = .ok tree) :
    ctx.parse text = .ok tree := by
  obtain ⟨ts, tokenized, moved⟩ := tokenize_of_reads hs hn signs spelled reads
  rw [← moved, build_move, mapError_eq_ok] at built
  rw [parse, tokenized]
  exact built

/-- A text that spells the marks of a settled expression parses to the expression's tree. -/
theorem Context.parse_spelled {ctx : Context} {separators text : String} {ms : List Mark}
    {e : Infix} {tree : Expr} (ranked : ctx.Ranked) (hs : ctx.separators = .text separators)
    (hn : ctx.nests = true) (signs : ∀ s : Symbol, separators.toList.contains s.char = false)
    (spelled : Spelled separators.toList.contains ms text.toList)
    (reads : Reads separators.toList.contains ms e) (settled : e.Settled ctx)
    (built : e.tree ctx = .ok tree) : ctx.parse text = .ok tree :=
  parse_of_reads hs hn signs spelled reads ((build_tokens ranked settled).trans built)

end Reckon
