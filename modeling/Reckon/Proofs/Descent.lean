import Reckon.Proofs.Double
import Reckon.Proofs.Phrase

/-!
The whole calculation against the textbook. A phrase is written down in any spelling; the scanner
cuts it into runs and signs, nests the calls, splits their arguments, the two stacks group the
operators, and the tree is evaluated: what comes out is the value that descending the grammar gives,
or the failure of the first operation that has none (`compute_spelled`).
-/

namespace Reckon

/-! ## The standard table -/

theorem Context.standard_leansLeft : Context.standard.LeansLeft := by
  intro op
  cases op <;> rfl

/-- The least rank that an operator has outside all brackets of a phrase. -/
def Tier.floor : Tier → Int
  | .sum => 1
  | .term => 2
  | .factor => 3

theorem rank_standard (op : Operator) : Context.standard.rank op + 1 = op.joins.floor := by
  cases op <;> rfl

/-- No letter, digit or point is among the separators of the standard context. -/
theorem sparesWords_standard : SparesWords " \t\r\n,".toList.contains := by
  intro c h
  rw [Bool.eq_false_iff, ne_eq, List.contains_iff_mem]
  intro hc
  have separators : c = ' ' ∨ c = '\t' ∨ c = '\r' ∨ c = '\n' ∨ c = ',' := by simpa using hc
  rcases separators with rfl | rfl | rfl | rfl | rfl <;> exact absurd h (by decide)

/-! ## Reading a phrase -/

theorem Name.lookup?_chars (n : Name) :
    FunctionName.lookup? (String.ofList n.chars) = some n.builtin.function := by
  rw [FunctionName.lookup?, String.toList_ofList, n.spelled]
  cases n.builtin <;> decide

section Reading
variable {separates : Char → Bool}

mutual

/-- The lexemes of a phrase read as its tokens. -/
theorem Phrase.reads (words : SparesWords separates) :
    ∀ {l : Tier} (e : Phrase l), Reads separates e.marks e.grouped
  | _, .literal l => .numeral words l.digits l.nonempty rfl l.finite
  | _, .bracketed e => (e.reads words).bracketed
  | _, .call name args => .call words (args.reads words) name.lookup?_chars
  | _, .term first rest => rest.reads words (first.reads words)
  | _, .sum first rest => rest.reads words (first.reads words)

theorem Links.reads (words : SparesWords separates) :
    ∀ {l : Tier} (rest : Links l) {ms : List Mark} {e : Infix},
      Reads separates ms e → Reads separates (ms ++ rest.marks) (rest.grouped e)
  | _, .done, ms, e, h => by rwa [Links.marks, List.append_nil]
  | _, .more op _ next rest, ms, e, h => by
    have h' := rest.reads words (h.binary (next.reads words) op)
    rwa [List.append_assoc] at h'

theorem Phrases.reads (words : SparesWords separates) :
    ∀ {n : Nat} (args : Phrases n), ReadsAll separates args.marks args.grouped
  | _, .none => .nil
  | _, .more first rest => .cons (first.reads words) (rest.reads words)

end

end Reading

/-! ## Grouping a phrase -/

mutual

/-- The grouping of a phrase is the one that the standard table asks for. -/
theorem Phrase.binds : ∀ {l : Tier} (e : Phrase l), e.grouped.Binds .standard l.floor
  | _, .literal _ => .operand _ _
  | _, .bracketed e => .bracketed e.binds.settled _ _
  | _, .call _ _ => .call _ _ _
  | _, .term first rest => rest.binds (first.binds.mono (by decide))
  | _, .sum first rest => rest.binds (first.binds.mono (by decide))

theorem Links.binds : ∀ {l : Tier} (rest : Links l) {e : Infix},
    e.Binds .standard (l.floor - 1) → (rest.grouped e).Binds .standard (l.floor - 1)
  | _, .done, _, h => h
  | l, .more op joins next rest, e, h => by
    -- what the operator joins has one rank more than the operator
    have hrank : Context.standard.rank op + 1 = l.floor := joins ▸ rank_standard op
    have hbelow : l.floor - 1 = Context.standard.rank op := by omega
    have hnext := next.binds
    refine rest.binds ?_
    rw [hbelow] at h ⊢
    rw [← hrank] at hnext
    exact h.binary Context.standard_leansLeft hnext 0

end

/-- All arguments of a call are grouped as the standard table asks. -/
theorem Phrases.settled : ∀ {n : Nat} (args : Phrases n),
    ∀ e ∈ args.grouped, e.Settled .standard
  | _, .none => by simp [Phrases.grouped]
  | _, .more first rest => by
    rw [Phrases.grouped]
    exact List.forall_mem_cons.mpr ⟨first.binds.settled, rest.settled⟩

/-! ## Evaluating a phrase -/

theorem inRange_eq_finiteOr (name : String) (args : List Float) (x : Float) :
    inRange name args x =
      (finiteOr (.refused name args .outOfRange) x).mapError .failure := by
  unfold inRange finiteOr
  split <;> rfl

theorem Context.standard_epsilon_pos : 0 < Context.standard.epsilon := by decide +kernel

/-- No zero comes past the zero band, so that the quotient of two values is a value or a failure. -/
theorem quotient_of_pos {epsilon : Float} (positive : 0 < epsilon) (x y : Float) :
    quotient epsilon x y =
      if y.abs < epsilon then fail (.divisionByZero y) else .ok (x / y) := by
  unfold quotient
  split
  · rfl
  · next h =>
    rw [if_neg]
    intro h0
    exact h (abs_lt_of_beq_zero h0 positive)

theorem Operator.value_eq_reckon (op : Operator) (x y : Float) :
    (Symbol.operator op).value Context.standard.epsilon x y =
      (op.reckon x y).mapError .failure := by
  cases op with
  | div =>
    simp only [Symbol.value, Operator.value, Operator.reckon,
      quotient_of_pos Context.standard_epsilon_pos]
    split
    · rfl
    · exact inRange_eq_finiteOr _ _ _
  | _ => exact inRange_eq_finiteOr _ _ _

/-- With as many arguments as it takes, a builtin gives a value or leaves its domain or range. -/
theorem Builtin.mishap_of_apply {b : Builtin} {args : List Float} {mishap : Mishap}
    (hn : args.length = b.arity.toNat) (h : b.apply args = .error mishap) :
    mishap = .outsideDomain ∨ mishap = .outOfRange := by
  have hdefined : ∀ x, defined x = .error mishap → mishap = .outsideDomain := by
    intro x hx
    unfold defined at hx
    split at hx
    · exact (Except.error.inj hx).symm
    · cases hx
  -- the mishap of a wrong count of arguments is what the length rules out
  cases b with
  | pow =>
    obtain ⟨x, y, rfl⟩ : ∃ x y, args = [x, y] := by
      match args, hn with
      | [x, y], _ => exact ⟨x, y, rfl⟩
    simp only [apply, power] at h
    split at h
    · exact .inl (Except.error.inj h).symm
    · split at h
      · split at h
        · exact .inl (Except.error.inj h).symm
        · exact .inr (Except.error.inj h).symm
      · cases h
  | sqrt =>
    obtain ⟨x, rfl⟩ := List.length_eq_one_iff.mp hn
    simp only [apply, root] at h
    split at h
    · exact .inl (Except.error.inj h).symm
    · exact .inl (hdefined _ h)
  | ln =>
    obtain ⟨x, rfl⟩ := List.length_eq_one_iff.mp hn
    simp only [apply, logarithm] at h
    split at h
    · exact .inl (Except.error.inj h).symm
    · exact .inl (hdefined _ h)
  | abs =>
    obtain ⟨x, rfl⟩ := List.length_eq_one_iff.mp hn
    cases h
  | _ =>
    obtain ⟨x, rfl⟩ := List.length_eq_one_iff.mp hn
    exact .inl (hdefined _ h)

theorem Builtin.value_eq_reckon (b : Builtin) {args : List Float}
    (hn : args.length = b.arity.toNat) :
    b.value b.name args = (b.reckon args).mapError .failure := by
  unfold value reckon
  cases h : b.apply args with
  | ok x => exact inRange_eq_finiteOr _ _ _
  | error mishap => rcases mishap_of_apply hn h with rfl | rfl <;> rfl

/-- A call under the standard context applies the builtin of its name. -/
theorem Context.builtin_standard (b : Builtin) :
    Context.standard.builtin b.function b.arity.toNat = .ok b := by
  cases b <;> rfl

theorem Context.wrongCount?_standard (b : Builtin) :
    Context.standard.wrongCount? b.function b.arity.toNat = none := by
  cases b <;> rfl

theorem Builtin.text_function (b : Builtin) : b.function.text = b.name := by
  cases b <;> rfl

theorem eval_operand {x : Float} (finite : x.isFinite = true) (ctx : Context) :
    (Expr.operand x).eval ctx = .ok x := by
  rw [Expr.eval, if_pos finite]

theorem eval_binary {op : Operator} {l r : Expr} {u v : Except Failure Float}
    (hl : l.eval .standard = u.mapError .failure) (hr : r.eval .standard = v.mapError .failure) :
    (Expr.binary op l r).eval .standard =
      (do op.reckon (← u) (← v)).mapError .failure := by
  rw [Expr.binary, Expr.eval, hl, hr]
  cases u with
  | error f => rfl
  | ok x =>
    cases v with
    | error f => rfl
    | ok y => exact op.value_eq_reckon x y

theorem Phrases.length_values : ∀ {n : Nat} (args : Phrases n) {xs : List Float},
    args.values = .ok xs → xs.length = n
  | _, .none, xs, h => by
    obtain rfl := Except.ok.inj h
    rfl
  | _, .more first rest, xs, h => by
    rw [Phrases.values, bind_eq_ok] at h
    obtain ⟨x, -, h⟩ := h
    rw [bind_eq_ok] at h
    obtain ⟨ys, hys, h⟩ := h
    obtain rfl := Except.ok.inj h
    rw [List.length_cons, rest.length_values hys]

mutual

/-- A phrase builds, and its tree has the value of the phrase. -/
theorem Phrase.tree_eval : ∀ {l : Tier} (e : Phrase l), ∃ t, e.grouped.tree .standard = .ok t ∧
    t.eval .standard = e.value.mapError .failure
  | _, .literal l => ⟨.operand l.value, rfl, eval_operand l.finite _⟩
  | _, .bracketed e => e.tree_eval
  | _, .call name args => by
    obtain ⟨ts, hts, hlen, hv⟩ := args.tree_eval
    have hcount : Context.standard.counted name.builtin.function 0 ts =
        .ok (.call name.builtin.function ts) := by
      rw [Context.counted, hlen, Name.arity, Context.wrongCount?_standard]
    refine ⟨.call name.builtin.function ts, ?_, ?_⟩
    · rw [Phrase.grouped, Infix.tree, Context.buildCall_run Context.standard_ranked _ _ _ _
        args.settled, hts, ok_bind, hcount]
    · rw [Expr.eval, hlen, Name.arity, Context.builtin_standard, Phrase.value]
      simp only [hv, Builtin.text_function]
      cases hxs : args.values with
      | error f => rfl
      | ok xs => exact name.builtin.value_eq_reckon (args.length_values hxs)
  | _, .term first rest => by
    obtain ⟨t, ht, hv⟩ := first.tree_eval
    exact rest.tree_eval ht hv
  | _, .sum first rest => by
    obtain ⟨t, ht, hv⟩ := first.tree_eval
    exact rest.tree_eval ht hv

theorem Links.tree_eval : ∀ {l : Tier} (rest : Links l) {e : Infix} {t : Expr}
    {v : Except Failure Float}, e.tree .standard = .ok t → t.eval .standard = v.mapError .failure →
    ∃ u, (rest.grouped e).tree .standard = .ok u ∧
      u.eval .standard = (v >>= rest.fold).mapError .failure
  | _, .done, e, t, v, ht, hv => by
    refine ⟨t, ht, ?_⟩
    rw [hv]
    cases v <;> rfl
  | _, .more op _ next rest, e, t, v, ht, hv => by
    -- the tree so far becomes the left operand, as the value so far is the left argument
    obtain ⟨u, hu, hw⟩ := next.tree_eval
    have joined : (Infix.binary op 0 e next.grouped).tree .standard = .ok (.binary op t u) := by
      rw [Infix.tree, ht, hu]
      rfl
    obtain ⟨w, htree, heval⟩ := rest.tree_eval joined (eval_binary hv hw)
    refine ⟨w, htree, ?_⟩
    rw [heval]
    cases v with
    | error f => rfl
    | ok x =>
      simp only [ok_bind, Links.fold]
      cases next.value <;> rfl

theorem Phrases.tree_eval : ∀ {n : Nat} (args : Phrases n), ∃ ts,
    args.grouped.mapM (Infix.tree .standard) = .ok ts ∧ ts.length = n ∧
      Expr.evalAll .standard ts = args.values.mapError .failure
  | _, .none => ⟨[], rfl, rfl, rfl⟩
  | _, .more first rest => by
    obtain ⟨t, ht, hv⟩ := first.tree_eval
    obtain ⟨ts, hts, hlen, hvs⟩ := rest.tree_eval
    refine ⟨t :: ts, ?_, ?_, ?_⟩
    · rw [Phrases.grouped, List.mapM_cons, ht, hts]
      rfl
    · rw [List.length_cons, hlen]
    · rw [Expr.evalAll, hv, hvs, Phrases.values]
      cases first.value with
      | error f => rfl
      | ok x => cases rest.values <;> rfl

end

/-! ## The whole calculation -/

/-- Every spelling of a sum, under the standard context, parses, and computes what descending the
grammar gives: the same value, or the failure of the first operation that has none. -/
theorem compute_spelled (e : Phrase .sum) {text : String}
    (h : Spelled " \t\r\n,".toList.contains e.marks text.toList) :
    (∃ tree, Context.standard.parse text = .ok tree) ∧
    Context.standard.compute text = e.value.mapError .failure := by
  obtain ⟨tree, htree, hval⟩ := e.tree_eval
  have nests : Context.standard.nests = true := by decide +kernel
  have signs : ∀ s : Symbol, " \t\r\n,".toList.contains s.char = false := by
    intro s
    cases s with
    | operator op => cases op <;> decide +kernel
    | _ => decide +kernel
  have parsed : Context.standard.parse text = .ok tree :=
    Context.parse_spelled Context.standard_ranked rfl nests signs h
      (e.reads sparesWords_standard) e.binds.settled htree
  refine ⟨⟨tree, parsed⟩, ?_⟩
  calc Context.standard.compute text = tree.eval .standard := by
        rw [Context.compute, parsed, ok_bind]
    _ = e.value.mapError .failure := hval

/-- A product with a call in mixed letters, separators where none are needed and one at the end. -/
theorem compute_spelled_call :
    Spelled " \t\r\n,".toList.contains
      [.run ['2'], .sign (.operator .mul), .run ['a', 'B', 's'], .sign .opening, .run ['1'],
        .sign (.operator .sub), .run ['.', '5'], .sign .closing]
      "2 *aBs(1-\t.5),".toList ∧
    Context.standard.compute "2 *aBs(1-\t.5)," = .ok 1 := by
  let two : Literal :=
    ⟨['2'], none, List.all_eq_true.mp (by decide), by decide, by decide +kernel⟩
  let one : Literal :=
    ⟨['1'], none, List.all_eq_true.mp (by decide), by decide, by decide +kernel⟩
  let half : Literal :=
    ⟨[], some ['5'], List.all_eq_true.mp (by decide), by decide, by decide +kernel⟩
  let difference : Phrase .sum :=
    .sum (.term (.literal one) .done) (.more .sub rfl (.term (.literal half) .done) .done)
  let product : Phrase .sum :=
    .sum (.term (.literal two) (.more .mul rfl
      (.call ⟨.abs, ['a', 'B', 's'], by decide⟩ (.more difference .none)) .done)) .done
  have spelled : Spelled " \t\r\n,".toList.contains product.marks "2 *aBs(1-\t.5),".toList := by
    refine .run [] ['2'] (by simp) (by rintro r rest h; cases h) ?_
    refine .sign [' '] (.operator .mul) (List.all_eq_true.mp (by decide)) ?_
    refine .run [] ['a', 'B', 's'] (by simp) (by rintro r rest h; cases h) ?_
    refine .sign [] .opening (by simp) ?_
    refine .run [] ['1'] (by simp) (by rintro r rest h; cases h) ?_
    refine .sign [] (.operator .sub) (by simp) ?_
    refine .run ['\t'] ['.', '5'] (List.all_eq_true.mp (by decide))
      (by rintro r rest h; cases h) ?_
    refine .sign [] .closing (by simp) ?_
    exact .nil [','] (List.all_eq_true.mp (by decide))
  have value : product.value = .ok 1 := by
    have found : product.value.toOption = some 1 := by decide +kernel
    cases hv : product.value with
    | error f =>
      rw [hv] at found
      cases found
    | ok x =>
      rw [hv] at found
      exact congrArg _ (Option.some.inj found)
  refine ⟨spelled, ?_⟩
  rw [(compute_spelled product spelled).2, value]
  rfl

end Reckon
