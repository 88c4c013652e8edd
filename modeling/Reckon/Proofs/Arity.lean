import Reckon.Proofs.Built

/-!
Trees that fit the context they were built under. The builder counts the arguments of a call after
they are built, the evaluator counts them again before they are evaluated, and both ask the same
entry; so what has been built never fails in the second count. Main statement: in a tree that was
built, each call has as many arguments as its entry asks for and each node is one of the four
operators, so that no tree in it can fail for a count or for a bracket, and it finds a function
unsupported only at a call whose name has no implementation (`build_fits`).
-/

namespace Reckon

namespace Expr

/-- The trees in a tree: itself, and what its nodes and calls are made of. -/
inductive Subtree (t : Expr) : Expr → Prop where
  | whole : Subtree t t
  | left {s : Symbol} {l r : Expr} : Subtree t (.node s l r) → Subtree t l
  | right {s : Symbol} {l r : Expr} : Subtree t (.node s l r) → Subtree t r
  | argument {f : FunctionName} {args : List Expr} {a : Expr} :
    Subtree t (.call f args) → a ∈ args → Subtree t a

theorem Subtree.trans {t u v : Expr} (h : Subtree t u) (h' : Subtree u v) : Subtree t v := by
  induction h' with
  | whole => exact h
  | left _ ih => exact ih.left
  | right _ ih => exact ih.right
  | argument _ ha ih => exact ih.argument ha

/-- All nodes of the tree are operators, and all its calls have as many arguments as they may. -/
inductive Fits (ctx : Context) : Expr → Prop where
  | operand (x : Float) : Fits ctx (.operand x)
  | binary (op : Operator) {l r : Expr} : Fits ctx l → Fits ctx r → Fits ctx (.binary op l r)
  | call (f : FunctionName) {args : List Expr} :
    (∀ a ∈ args, Fits ctx a) → ctx.wrongCount? f args.length = none → Fits ctx (.call f args)

theorem Fits.subtree {ctx : Context} {t u : Expr} (h : Fits ctx t) (hu : Subtree t u) :
    Fits ctx u := by
  induction hu with
  | whole => exact h
  | left _ ih =>
    cases ih with
    | binary op hl hr => exact hl
  | right _ ih =>
    cases ih with
    | binary op hl hr => exact hr
  | argument _ ha ih =>
    cases ih with
    | call f each count => exact each _ ha

theorem kept_fits (ctx : Context) : Kept ctx (Fits ctx) where
  binary op _ _ hx hy := .binary op hx hy
  call f _ each count := .call f each count

/-! ## What evaluating a tree that fits may stop with -/

/-- The problems of evaluating a tree that fits. A function is unsupported only where a call in the
tree has no implementation for its name. -/
inductive Stumbles (ctx : Context) (t : Expr) : Problem → Prop where
  | divisionByZero (y : Float) : Stumbles ctx t (.failure (.divisionByZero y))
  | refused (name : String) (args : List Float) (why : Refusal) :
    Stumbles ctx t (.failure (.refused name args why))
  | zeroDivision : Stumbles ctx t (.fault .zeroDivision)
  | argumentCount : Stumbles ctx t (.fault .argumentCount)
  | notImplemented {f : FunctionName} {args : List Expr} :
    Subtree t (.call f args) → (ctx.entry? f).bind FunctionEntry.builtin = none →
    Stumbles ctx t (.failure (.unsupported f.text .notImplemented none))

theorem Stumbles.mono {ctx : Context} {t u : Expr} {p : Problem} (h : Stumbles ctx u p)
    (hu : Subtree t u) : Stumbles ctx t p := by
  cases h with
  | divisionByZero y => exact .divisionByZero y
  | refused name args why => exact .refused name args why
  | zeroDivision => exact .zeroDivision
  | argumentCount => exact .argumentCount
  | notImplemented hcall none => exact .notImplemented (hu.trans hcall) none

section
variable {ctx : Context} {t : Expr}

theorem stumbles_inRange (name : String) (args : List Float) (x : Float) :
    Ends (fun _ => True) (Stumbles ctx t) (inRange name args x) := by
  unfold inRange
  split
  · trivial
  · exact .refused name args _

theorem stumbles_quotient (epsilon x y : Float) :
    Ends (fun _ => True) (Stumbles ctx t) (quotient epsilon x y) := by
  unfold quotient
  split
  · exact .divisionByZero y
  · split
    · exact .zeroDivision
    · trivial

theorem stumbles_operator (op : Operator) (epsilon x y : Float) :
    Ends (fun _ => True) (Stumbles ctx t) ((Symbol.operator op).value epsilon x y) := by
  have value : Ends (fun _ => True) (Stumbles ctx t) (op.value epsilon x y) := by
    cases op with
    | div => exact stumbles_quotient epsilon x y
    | _ => trivial
  exact value.bind fun z _ => stumbles_inRange op.text [x, y] z

theorem stumbles_builtin (b : Builtin) (name : String) (args : List Float) :
    Ends (fun _ => True) (Stumbles ctx t) (b.value name args) := by
  unfold Builtin.value
  split
  · exact stumbles_inRange name args _
  · next mishap _ =>
    cases mishap with
    | argumentCount => exact .argumentCount
    | outsideDomain => exact .refused name args _
    | outOfRange => exact .refused name args _
    | zeroDivision => exact .zeroDivision

theorem stumbles_evalAll {es : List Expr}
    (h : ∀ e ∈ es, Ends (fun _ => True) (Stumbles ctx t) (e.eval ctx)) :
    Ends (fun _ => True) (Stumbles ctx t) (evalAll ctx es) := by
  induction es with
  | nil => trivial
  | cons e es ih =>
    obtain ⟨first, rest⟩ := List.forall_mem_cons.mp h
    rw [evalAll]
    refine first.bind ?_
    intro x _
    refine (ih rest).bind ?_
    intro xs _
    trivial

end

/-- The second count of a call's arguments cannot fail where the first did not. -/
theorem builtin_of_count {ctx : Context} {f : FunctionName} {n : Nat} {b : Builtin}
    (implemented : (ctx.entry? f).bind FunctionEntry.builtin = some b)
    (count : ctx.wrongCount? f n = none) : ctx.builtin f n = .ok b := by
  simp [Context.builtin, implemented, count]

theorem Fits.stumbles {ctx : Context} {t : Expr} (h : Fits ctx t) :
    Ends (fun _ => True) (Stumbles ctx t) (t.eval ctx) := by
  induction h with
  | operand x =>
    rw [eval]
    split
    · trivial
    · exact .refused _ _ _
  | @binary op l r _ _ ihl ihr =>
    have left : Ends (fun _ => True) (Stumbles ctx (.binary op l r)) (l.eval ctx) :=
      ihl.mono (fun _ h => h) fun p hp => hp.mono (.left .whole)
    have right : Ends (fun _ => True) (Stumbles ctx (.binary op l r)) (r.eval ctx) :=
      ihr.mono (fun _ h => h) fun p hp => hp.mono (.right .whole)
    rw [Expr.binary, eval]
    refine left.bind ?_
    intro x _
    refine right.bind ?_
    intro y _
    exact stumbles_operator op ctx.epsilon x y
  | @call f args each count ih =>
    have values : Ends (fun _ => True) (Stumbles ctx (.call f args)) (evalAll ctx args) := by
      apply stumbles_evalAll
      intro a ha
      exact (ih a ha).mono (fun _ h => h) fun p hp => hp.mono (.argument .whole ha)
    rw [eval]
    cases hb : (ctx.entry? f).bind FunctionEntry.builtin with
    | none =>
      rw [Context.builtin, hb]
      exact .notImplemented .whole hb
    | some b =>
      rw [builtin_of_count hb count]
      exact values.bind fun xs _ => stumbles_builtin b f.text xs

end Expr

theorem fits_of_build {ctx : Context} {ts : List Token} {t : Expr} (h : ctx.build ts = .ok t) :
    Expr.Fits ctx t :=
  Context.holds_of_build (Expr.kept_fits ctx) (fun x _ _ => .operand x) h

/-- What an entry asks for is what a call may have. -/
theorem FunctionEntry.arity_of_takes {entry : FunctionEntry} {n : Nat} (h : entry.takes n = true) :
    entry.arity = .null ∨ entry.arity.same (.int n) = true := by
  rw [takes, Bool.or_eq_true] at h
  rcases h with null | count
  · left
    cases ha : entry.arity with
    | null => rfl
    | _ => simp [ha, Data.same, Data.sameAmount, Data.amount?] at null
  · exact .inr count

/-- In a tree that was built, every call has the number of arguments that its entry asks for, if it
asks for one, and every node is an operator. Evaluating any tree in it therefore stops at no bracket
and for no count of arguments of its own, and finds a function unsupported only at a call whose name
has no entry or an entry without an implementation. -/
theorem build_fits {ctx : Context} {ts : List Token} {t : Expr} (h : ctx.build ts = .ok t)
    {u : Expr} (hu : Expr.Subtree t u) :
    (∀ f args entry, u = .call f args → ctx.entry? f = some entry →
      (entry.arity = .null ∨ entry.arity.same (.int args.length) = true) ∧
      ∀ n : Int, entry.arity = .int n → args.length = n) ∧
    (∀ s l r, u = .node s l r → ∃ op, s = .operator op) ∧
    ∀ p, u.eval ctx = .error p →
      (∀ s, p ≠ .fault (.notEvaluable s)) ∧
      ∀ name lack pos, p = .failure (.unsupported name lack pos) →
        lack = .notImplemented ∧ pos = none ∧
          ∃ f args, Expr.Subtree u (.call f args) ∧ name = f.text ∧
            ∀ entry, ctx.entry? f = some entry → entry.builtin = none := by
  have fits : Expr.Fits ctx u := (fits_of_build h).subtree hu
  refine ⟨?_, ?_, ?_⟩
  · rintro f args entry rfl hentry
    cases fits with
    | call f each count =>
      have takes : entry.takes args.length = true := by
        simpa [Context.wrongCount?, hentry] using count
      refine ⟨FunctionEntry.arity_of_takes takes, ?_⟩
      intro n hn
      have equal := FunctionEntry.takes_int hn args.length
      rw [takes] at equal
      exact (of_decide_eq_true equal.symm).symm
  · rintro s l r rfl
    cases fits with
    | binary op _ _ => exact ⟨op, rfl⟩
  · intro p hp
    have stumbles : Expr.Stumbles ctx u p := fits.stumbles.of_error hp
    refine ⟨?_, ?_⟩
    · rintro s rfl
      cases stumbles
    · rintro name lack pos rfl
      cases stumbles with
      | @notImplemented f args hcall none =>
        refine ⟨rfl, rfl, f, args, hcall, rfl, ?_⟩
        intro entry hentry
        simpa [hentry] using none

/-- A reserved name among the arguments of a call: what is built has two arguments, as the entry
asks, and fails in being evaluated, for the reserved name alone. -/
theorem build_fits_reserved_argument :
    let ts : List Token := [.call .pow [.symbol .opening 3, .operand 2 4, .call .x [] 6,
      .symbol .closing 7] 0]
    let t : Expr := .call .pow [.operand 2, .call .x []]
    let p : Problem := .failure (.unsupported "x" .notImplemented none)
    Context.standard.build ts = .ok t ∧ Expr.Subtree t (.call .x []) ∧ t.eval .standard = .error p ∧
      Context.standard.entry? .pow = some ⟨.int 2, some .pow⟩ ∧
      (([.operand 2, .call .x []] : List Expr).length : Int) = 2 ∧
      ∃ f args, Expr.Subtree t (.call f args) ∧ "x" = f.text ∧
        ∀ entry, Context.standard.entry? f = some entry → entry.builtin = none := by
  intro ts t p
  have built : Context.standard.build ts = .ok t := by rfl
  have inside : Expr.Subtree t (.call .x []) := .argument .whole (by simp)
  have evaluated : t.eval .standard = .error p := by rfl
  have entry : Context.standard.entry? .pow = some ⟨.int 2, some .pow⟩ := by rfl
  obtain ⟨counts, -, stops⟩ := build_fits built .whole
  exact ⟨built, inside, evaluated, entry, (counts .pow _ _ rfl entry).2 2 rfl,
    ((stops p evaluated).2 "x" .notImplemented none rfl).2.2⟩

end Reckon
