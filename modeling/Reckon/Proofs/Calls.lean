import Mathlib.Data.List.Flatten
import Mathlib.Data.List.Forall2
import Reckon.Proofs.Arguments
import Reckon.Proofs.Nesting

/-!
Calls, one inside the other. An argument is a sequence that is built as if it stood alone, so that
what is true of a sequence once it is true of all arguments in it is true of every sequence. Main
statements: sequences may be treated from the inside out (`induction_on_arguments`), and a call is
built just if its arguments are and are as many as it may have (`of_buildCall_ok`,
`of_buildCall_error`).
-/

namespace Reckon

theorem mapM_eq_ok {ε α β : Type} {f : α → Except ε β} {xs : List α} {ys : List β} :
    xs.mapM f = .ok ys ↔ List.Forall₂ (fun x y => f x = .ok y) xs ys := by
  induction xs generalizing ys with
  | nil => cases ys <;> simp
  | cons x xs ih =>
    rw [List.mapM_cons]
    simp only [bind_eq_ok, pure_eq_ok, Except.ok.injEq, List.forall₂_cons_left_iff]
    constructor
    · rintro ⟨y, hy, zs, hzs, rfl⟩
      exact ⟨y, zs, hy, ih.mp hzs, rfl⟩
    · rintro ⟨y, zs, hy, hzs, rfl⟩
      exact ⟨y, hy, zs, ih.mpr hzs, rfl⟩

theorem exists_of_forall₂ {α β : Type} {R : α → β → Prop} {xs : List α} {ys : List β}
    (h : List.Forall₂ R xs ys) {x : α} (hx : x ∈ xs) : ∃ y ∈ ys, R x y := by
  induction h with
  | nil => cases hx
  | @cons a b _ _ hab _ ih =>
    rcases List.mem_cons.mp hx with rfl | hx
    · exact ⟨b, List.mem_cons_self, hab⟩
    · obtain ⟨y, hy, hxy⟩ := ih hx
      exact ⟨y, List.mem_cons_of_mem _ hy, hxy⟩

/-- A traversal fails as one of its steps does. -/
theorem exists_mem_of_mapM_error {ε α β : Type} {f : α → Except ε β} {xs : List α} {e : ε}
    (h : xs.mapM f = .error e) : ∃ x ∈ xs, f x = .error e := by
  induction xs with
  | nil => cases h
  | cons x xs ih =>
    rw [List.mapM_cons] at h
    cases hx : f x with
    | error e' =>
      rw [hx] at h
      obtain rfl : e' = e := Except.error.inj h
      exact ⟨x, List.mem_cons_self, hx⟩
    | ok y =>
      cases hxs : xs.mapM f with
      | error e' =>
        rw [hx, hxs] at h
        obtain rfl : e' = e := Except.error.inj h
        obtain ⟨z, hz, hf⟩ := ih hxs
        exact ⟨z, List.mem_cons_of_mem _ hz, hf⟩
      | ok ys =>
        rw [hx, hxs] at h
        cases h

/-! ## What a split says of the tokens -/

namespace Arguments

theorem exists_closing {ts : List Token} {d : Int} (hd : 0 < d)
    (h : closesAtEnd Token.symbol? d ts = true) :
    ∃ us right, ts = us ++ [.symbol .closing right] := by
  induction ts generalizing d with
  | nil => cases h
  | cons t ts ih =>
    rw [closesAtEnd] at h
    by_cases h0 : after Token.symbol? d t = 0
    · -- from above zero, only a closing bracket comes down to it
      have last : ts = [] := by simpa [h0] using h
      cases t with
      | symbol s pos =>
        cases s with
        | closing => exact ⟨[], pos, by rw [last]; rfl⟩
        | opening => simp [after, Token.symbol?] at h0; omega
        | operator op => simp [after, Token.symbol?] at h0; omega
      | _ => simp [after, Token.symbol?] at h0; omega
    · have above : 0 < after Token.symbol? d t := by
        unfold after at h0 ⊢
        split at h0 <;> omega
      obtain ⟨us, right, rfl⟩ := ih above (by simpa [h0] using h)
      exact ⟨t :: us, right, rfl⟩

/-- Tokens that split are none, or the arguments one after the other between two brackets. -/
theorem eq_of_split? {ts : List Token} {gs : List (List Token)}
    (h : split? Token.symbol? ts = some gs) :
    ts = [] ∧ gs = [] ∨
      ∃ left right, ts = .symbol .opening left :: (gs.flatten ++ [.symbol .closing right]) := by
  unfold split? at h
  split at h
  · next empty => exact .inl ⟨List.isEmpty_iff.mp empty, (Option.some.inj h).symm⟩
  · split at h
    · next enclosed =>
      obtain rfl := Option.some.inj h
      refine .inr ?_
      cases ts with
      | nil => cases enclosed
      | cons t ts =>
        simp only [Arguments.enclosed, Bool.and_eq_true, beq_iff_eq] at enclosed
        obtain ⟨first, closes⟩ := enclosed
        cases t with
        | symbol s left =>
          obtain rfl : s = .opening := Option.some.inj first
          have inner : closesAtEnd Token.symbol? 1 ts = true := by
            simpa [closesAtEnd, after, Token.symbol?] using closes
          obtain ⟨us, right, rfl⟩ := exists_closing Int.one_pos inner
          exact ⟨left, right, by simp [groups_flatten]⟩
        | _ => cases first
    · cases h

end Arguments

/-! ## Sequences inside sequences -/

namespace Token

theorem flattenAll_eq_flatMap (ts : List Token) : flattenAll ts = ts.flatMap flatten := by
  induction ts with
  | nil => rfl
  | cons t ts ih => rw [flattenAll, ih, List.flatMap_cons]

/-- What a token of a sequence holds is held by the sequence. -/
theorem flatten_sublist {ts : List Token} {t : Token} (h : t ∈ ts) :
    (flatten t).Sublist (flattenAll ts) := by
  rw [flattenAll_eq_flatMap]
  exact List.sublist_flatten_of_mem (List.mem_map_of_mem h)

/-- The sequences that a sequence is made of: itself, and the arguments of the calls in any of
them. -/
inductive Within (ts : List Token) : List Token → Prop where
  | whole : Within ts ts
  | argument {us : List Token} {f : FunctionName} {args : List Token} {pos : Int}
    {gs : List (List Token)} {g : List Token} :
    Within ts us → .call f args pos ∈ us → Arguments.split? symbol? args = some gs → g ∈ gs →
    Within ts g

/-- What is inside an argument is inside the whole. -/
theorem Within.trans {ts us vs : List Token} (h : Within ts us) (h' : Within us vs) :
    Within ts vs := by
  induction h' with
  | whole => exact h
  | argument _ hcall hsplit hg ih => exact .argument ih hcall hsplit hg

/-- An argument's tokens, at any depth, stand in the sequence behind the name of the call. -/
theorem sublist_flattenAll {ts args g : List Token} {gs : List (List Token)} {f : FunctionName}
    {pos : Int} (hcall : .call f args pos ∈ ts)
    (hsplit : Arguments.split? symbol? args = some gs) (hg : g ∈ gs) :
    (.call f [] pos :: flattenAll g).Sublist (flattenAll ts) := by
  have inside : (flattenAll g).Sublist (flattenAll args) := by
    rcases Arguments.eq_of_split? hsplit with ⟨-, rfl⟩ | ⟨left, right, rfl⟩
    · cases hg
    · have h : g.Sublist (.symbol .opening left :: (gs.flatten ++ [.symbol .closing right])) :=
        ((List.sublist_flatten_of_mem hg).trans (List.sublist_append_left _ _)).cons _
      rw [flattenAll_eq_flatMap, flattenAll_eq_flatMap]
      exact h.flatMap _
  have call := flatten_sublist hcall
  rw [flatten] at call
  exact (inside.cons_cons _).trans call

/-- Sequences from the inside out: what is true of a sequence once it is true of all arguments of
its calls is true of every sequence. -/
@[elab_as_elim]
theorem induction_on_arguments {P : List Token → Prop}
    (step : ∀ ts, (∀ f args pos gs g, .call f args pos ∈ ts →
      Arguments.split? symbol? args = some gs → g ∈ gs → P g) → P ts) :
    ∀ ts, P ts := by
  intro ts
  -- the tokens of an argument, counted at every depth, are fewer than those of the sequence
  induction hn : (flattenAll ts).length using Nat.strongRecOn generalizing ts with
  | _ n ih =>
    apply step
    intro f args pos gs g hcall hsplit hg
    have shorter := (sublist_flattenAll hcall hsplit hg).length_le
    rw [List.length_cons] at shorter
    exact ih _ (by omega) g rfl

end Token

/-! ## Building calls -/

namespace Context
variable {ctx : Context} {f : FunctionName} {pos : Int} {args : List Token}

theorem argumentCount_of_wrongCount? {given : Nat} {lack : Lack}
    (h : ctx.wrongCount? f given = some lack) :
    ∃ expected, lack = .argumentCount expected given := by
  obtain ⟨entry, -, h⟩ := Option.bind_eq_some_iff.mp h
  split at h
  · cases h
  · exact ⟨entry.arity, (Option.some.inj h).symm⟩

/-- A call that builds has the trees of its arguments, as many as it may have. -/
theorem of_buildCall_ok {e : Expr} (h : ctx.buildCall f pos (ctx.pieces args) = .ok e) :
    ∃ gs es, Arguments.split? Token.symbol? args = some gs ∧
      List.Forall₂ (fun g t => ctx.build g = .ok t) gs es ∧
      ctx.wrongCount? f es.length = none ∧ e = .call f es := by
  rw [buildCall_pieces] at h
  split at h
  · cases h
  · next gs hsplit =>
    obtain ⟨es, hes, h⟩ := bind_eq_ok.mp h
    unfold counted at h
    split at h
    · cases h
    · next count => exact ⟨gs, es, hsplit, mapM_eq_ok.mp hes, count, (Except.ok.inj h).symm⟩

/-- A call that does not build is not enclosed, or has an argument that does not build, or too many
or too few. -/
theorem of_buildCall_error {p : Problem} (h : ctx.buildCall f pos (ctx.pieces args) = .error p) :
    p = .failure (.malformed (.notEnclosed f.text pos)) ∨
    (∃ gs g, Arguments.split? Token.symbol? args = some gs ∧ g ∈ gs ∧ ctx.build g = .error p) ∨
    ∃ expected given,
      p = .failure (.unsupported f.text (.argumentCount expected given) (some pos)) := by
  rw [buildCall_pieces] at h
  split at h
  · exact .inl (Except.error.inj h).symm
  · next gs hsplit =>
    cases hes : gs.mapM ctx.build with
    | error q =>
      rw [hes] at h
      obtain rfl : q = p := Except.error.inj h
      obtain ⟨g, hg, hbuild⟩ := exists_mem_of_mapM_error hes
      exact .inr (.inl ⟨gs, g, hsplit, hg, hbuild⟩)
    | ok es =>
      rw [hes, ok_bind] at h
      unfold counted at h
      split at h
      · next lack count =>
        obtain ⟨expected, rfl⟩ := argumentCount_of_wrongCount? count
        exact .inr (.inr ⟨expected, es.length, (Except.error.inj h).symm⟩)
      · cases h

end Context
end Reckon
