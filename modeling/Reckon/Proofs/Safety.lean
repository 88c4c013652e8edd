import Reckon.Proofs.Built
import Reckon.Proofs.Descent
import Reckon.Proofs.Source

/-!
What comes out of a calculation. Faults are kept away one by one: separators that are a text can be
looked up, precedences that are whole numbers can be compared, a zero does not get past a zero band
of positive width, and a builtin that its entry asks the right number of arguments for gets as many.
Main statement: under a context that is sound in these four ways every text has a finite value, or a
failure of the stage that failed (`compute_sound`).
-/

namespace Reckon

/-- A context that keeps all faults away from a calculation. -/
structure Context.Sound (ctx : Context) : Prop where
  separators : ∃ s, ctx.separators = .text s
  ranked : ctx.Ranked
  epsilon : 0 < ctx.epsilon
  /-- An entry with a builtin asks for the number of arguments that the builtin takes. -/
  arity : ∀ f entry b, ctx.entry? f = some entry → entry.builtin = some b →
    entry.arity.same (.int b.arity) = true

/-! ## Counts of arguments -/

theorem Amount.eq_of_relation_ofInt {x : Amount} {a : Int} (h : x.relation (.ofInt a) = .equal) :
    ∃ n k, x = .finite n k ∧ n = a * 2 ^ k := by
  cases x with
  | finite n k =>
    refine ⟨n, k, rfl, ?_⟩
    have compared : Relation.ofInts (n * 1) (a * 2 ^ k) = .equal := h
    unfold Relation.ofInts at compared
    split at compared
    · cases compared
    · split at compared
      · next equal => rwa [Int.mul_one] at equal
      · cases compared
  | infinite negative => cases negative <;> cases h
  | nan => cases h

namespace Data

/-- What equals a whole number is a number of that amount. -/
theorem amount?_of_same_int {d : Data} {a : Int} (h : d.same (.int a) = true) :
    ∃ n k, d.amount? = some (.finite n k) ∧ n = a * 2 ^ k := by
  have same : d.sameAmount (.int a) = true := by
    cases d with
    | bool _ => simpa only [Data.same] using h
    | int _ => simpa only [Data.same] using h
    | float _ => simpa only [Data.same] using h
    | _ => simp [Data.same] at h
  have number : (int a).amount? = some (.ofInt a) := rfl
  unfold sameAmount at same
  rw [number] at same
  split at same
  · next x y hx hy =>
    obtain rfl := Option.some.inj hy
    obtain ⟨n, k, rfl, amount⟩ := Amount.eq_of_relation_ofInt (beq_iff_eq.mp same)
    exact ⟨n, k, hx, amount⟩
  · cases same

/-- A value equals at most one whole number. -/
theorem same_int_unique {d : Data} {a b : Int} (ha : d.same (.int a) = true)
    (hb : d.same (.int b) = true) : a = b := by
  obtain ⟨n, k, hn, ha⟩ := amount?_of_same_int ha
  obtain ⟨m, l, hm, hb⟩ := amount?_of_same_int hb
  obtain ⟨rfl, rfl⟩ : n = m ∧ k = l := by simpa [hn] using hm
  have positive : (2 : Int) ^ k ≠ 0 := (Int.pow_pos (by decide)).ne'
  exact Int.eq_of_mul_eq_mul_right positive (ha.symm.trans hb)

theorem not_same_null {d : Data} {a : Int} (h : d.same (.int a) = true) :
    d.same .null = false := by
  cases d with
  | null => simp [Data.same] at h
  | _ => simp [Data.same, sameAmount, amount?]

end Data

/-- A builtin that an entry asks the right number of arguments for gets as many. -/
theorem Context.arity_of_builtin {ctx : Context} {f : FunctionName} {n : Nat} {b : Builtin}
    (arity : ∀ entry, ctx.entry? f = some entry → entry.builtin = some b →
      entry.arity.same (.int b.arity) = true)
    (h : ctx.builtin f n = .ok b) : n = b.arity.toNat := by
  unfold builtin at h
  split at h
  · cases h
  · next b' hb =>
    split at h
    · cases h
    · next count =>
      obtain rfl := Except.ok.inj h
      obtain ⟨entry, hentry, hbuiltin⟩ := Option.bind_eq_some_iff.mp hb
      have asked := arity entry hentry hbuiltin
      have takes : entry.takes n = true := by simpa [wrongCount?, hentry] using count
      rw [FunctionEntry.takes, Data.not_same_null asked, Bool.false_or] at takes
      have given : (n : Int) = b'.arity := Data.same_int_unique takes asked
      omega

/-! ## Evaluating -/

/-- What evaluating may end in: a finite value, or a failure of its own stage. -/
abbrev Evaluates : Except Problem Float → Prop :=
  Ends (fun x => x.isFinite = true) fun p => ∃ f, p = .failure f ∧ f.inStage .evaluate = true

theorem evaluates_inRange (name : String) (args : List Float) (x : Float) :
    Evaluates (inRange name args x) := by
  unfold inRange
  split
  · next finite => exact finite
  · exact ⟨_, rfl, rfl⟩

theorem evaluates_operand (ctx : Context) (x : Float) : Evaluates ((Expr.operand x).eval ctx) := by
  rw [Expr.eval]
  split
  · next finite => exact finite
  · exact ⟨_, rfl, rfl⟩

theorem evaluates_operator (op : Operator) {epsilon : Float} (positive : 0 < epsilon)
    (x y : Float) : Evaluates ((Symbol.operator op).value epsilon x y) := by
  cases op with
  | div =>
    simp only [Symbol.value, Operator.value, quotient_of_pos positive]
    split
    · exact ⟨_, rfl, rfl⟩
    · exact evaluates_inRange _ _ _
  | _ => exact evaluates_inRange _ _ _

theorem evaluates_builtin (b : Builtin) (name : String) {args : List Float}
    (count : args.length = b.arity.toNat) : Evaluates (b.value name args) := by
  unfold Builtin.value
  split
  · exact evaluates_inRange _ _ _
  · next mishap h =>
    rcases Builtin.mishap_of_apply count h with rfl | rfl
    · exact ⟨_, rfl, rfl⟩
    · exact ⟨_, rfl, rfl⟩

theorem inStage_of_builtin {ctx : Context} {f : FunctionName} {n : Nat} {e : Failure}
    (h : ctx.builtin f n = .error e) : e.inStage .evaluate = true := by
  unfold Context.builtin at h
  split at h
  · obtain rfl := Except.error.inj h
    rfl
  · split at h
    · obtain rfl := Except.error.inj h
      rfl
    · cases h

namespace Context.Sound
variable {ctx : Context} (sound : ctx.Sound)

theorem evalAll {args : List Expr} (h : ∀ a ∈ args, Evaluates (a.eval ctx)) :
    Ends (fun xs => xs.length = args.length)
      (fun p => ∃ f, p = .failure f ∧ f.inStage .evaluate = true) (Expr.evalAll ctx args) := by
  induction args with
  | nil => exact rfl
  | cons a args ih =>
    obtain ⟨first, rest⟩ := List.forall_mem_cons.mp h
    rw [Expr.evalAll]
    refine first.bind ?_
    intro x _
    refine (ih rest).bind ?_
    intro xs length
    exact congrArg Nat.succ length

include sound

/-- Joining and calling keep trees such that they evaluate without a fault. -/
theorem kept : Kept ctx fun t => Evaluates (t.eval ctx) where
  binary op x y hx hy := by
    rw [Expr.binary, Expr.eval]
    refine hx.bind ?_
    intro u _
    refine hy.bind ?_
    intro v _
    exact evaluates_operator op sound.epsilon u v
  call f args hargs _ := by
    rw [Expr.eval]
    cases hb : ctx.builtin f args.length with
    | error e => exact ⟨e, rfl, inStage_of_builtin hb⟩
    | ok b =>
      refine (evalAll hargs).bind ?_
      intro xs length
      have count := Context.arity_of_builtin (fun entry => sound.arity f entry b) hb
      exact evaluates_builtin b f.text (length.trans count)

theorem tokenize_error {text : String} {p : Problem} (h : ctx.tokenize text = .error p) :
    ∃ f, p = .failure f ∧ f.inStage .tokenize = true := by
  obtain ⟨separators, hs⟩ := sound.separators
  obtain ⟨f, rfl⟩ : ∃ f, p = .failure f := by
    rw [Context.tokenize_text hs text] at h
    cases hscan : Lexis.scan ⟨separators.toList.contains, ctx.nests⟩ text.toList with
    | ok ts =>
      rw [hscan] at h
      cases h
    | error f =>
      rw [hscan] at h
      exact ⟨f, (Except.error.inj h).symm⟩
  exact ⟨f, rfl, (Context.failure_of_tokenize h).1⟩

end Context.Sound

/-- Under a sound context every text has a finite value, or else a failure of the stage that it came
to. -/
theorem compute_sound {ctx : Context} (sound : ctx.Sound) (text : String) :
    (∃ x, ctx.compute text = .ok x ∧ x.isFinite = true) ∨
    ∃ f, ctx.compute text = fail f ∧
      (ctx.tokenize text = fail f ∧ f.inStage .tokenize = true ∨
      (∃ ts, ctx.tokenize text = .ok ts ∧ ctx.build ts = fail f ∧ f.inStage .build = true) ∨
      ∃ ts t, ctx.tokenize text = .ok ts ∧ ctx.build ts = .ok t ∧ t.eval ctx = fail f ∧
        f.inStage .evaluate = true) := by
  unfold Context.compute Context.parse
  cases hts : ctx.tokenize text with
  | error p =>
    obtain ⟨f, rfl, stage⟩ := sound.tokenize_error hts
    exact .inr ⟨f, rfl, .inl ⟨rfl, stage⟩⟩
  | ok ts =>
    rw [ok_bind]
    cases hbuild : ctx.build ts with
    | error p =>
      obtain ⟨f, rfl, blames⟩ := Context.blames_of_build sound.ranked hbuild
      exact .inr ⟨f, rfl, .inr (.inl ⟨ts, rfl, hbuild, blames.inStage⟩)⟩
    | ok t =>
      rw [ok_bind]
      have evaluated : Evaluates (t.eval ctx) :=
        Context.holds_of_build sound.kept (fun x _ _ => evaluates_operand ctx x) hbuild
      cases heval : t.eval ctx with
      | ok x => exact .inl ⟨x, rfl, evaluated.of_ok heval⟩
      | error p =>
        obtain ⟨f, rfl, stage⟩ := evaluated.of_error heval
        exact .inr ⟨f, rfl, .inr (.inr ⟨ts, t, rfl, hbuild, heval, stage⟩)⟩

theorem Context.standard_sound : Context.standard.Sound where
  separators := ⟨_, rfl⟩
  ranked := standard_ranked
  epsilon := standard_epsilon_pos
  arity := by
    intro f entry b hentry hbuiltin
    cases f <;> obtain rfl := Option.some.inj hentry <;> cases hbuiltin <;>
      exact (Data.same_int _ _).trans (decide_eq_true rfl)

/-- A reserved name is read and built, and fails in being evaluated. -/
theorem compute_sound_reserved_name :
    let f := Failure.unsupported "x" .notImplemented none
    Context.standard.Sound ∧ Context.standard.compute "x" = fail f ∧
      (Context.standard.tokenize "x" = fail f ∧ f.inStage .tokenize = true ∨
      (∃ ts, Context.standard.tokenize "x" = .ok ts ∧ Context.standard.build ts = fail f ∧
        f.inStage .build = true) ∨
      ∃ ts t, Context.standard.tokenize "x" = .ok ts ∧ Context.standard.build ts = .ok t ∧
        t.eval .standard = fail f ∧ f.inStage .evaluate = true) := by
  intro f
  have cut : lexemes " \t\r\n,".toList.contains 0 "x".toList = [⟨.run "x".toList, 0⟩] := by
    decide +kernel
  have tokens : Context.standard.tokenize "x" = .ok [.call .x [] 0] := by
    rw [Context.tokenize_eq_map_nested rfl (by decide +kernel), cut]
    have read : List.mapM Lexeme.read [⟨.run "x".toList, 0⟩] = .ok [.call .x [] 0] := rfl
    rw [read]
    simp [Token.nested]
  have value : Context.standard.compute "x" = fail f := by
    rw [Context.compute, Context.parse, tokens]
    rfl
  refine ⟨Context.standard_sound, value, ?_⟩
  rcases compute_sound Context.standard_sound "x" with ⟨x, hx, -⟩ | ⟨g, hg, stages⟩
  · rw [value] at hx
    cases hx
  · obtain rfl : g = f := Problem.failure.inj (Except.error.inj (hg.symm.trans value))
    exact stages

end Reckon
