import Reckon.Proofs.Calls
import Reckon.Proofs.Run

/-!
What holds of every tree that gets built. The builder makes trees in three ways only: an operand
becomes a leaf, an operator joins two trees, and a call takes the trees of its arguments once they
are counted. Main statement: what holds of the leaves of a token sequence and is kept by joining and
by calling holds of the tree that is built of it (`holds_of_build`).
-/

namespace Reckon

/-- A property of trees that is kept by joining trees and by calling a function on as many as the
context lets it have. -/
structure Kept (ctx : Context) (P : Expr → Prop) : Prop where
  binary : ∀ op x y, P x → P y → P (.binary op x y)
  call : ∀ f args, (∀ a ∈ args, P a) → ctx.wrongCount? f args.length = none → P (.call f args)

variable {ctx : Context} {P : Expr → Prop}

/-- What holds of the trees of all operands and calls that a run reads holds of the trees it leaves
on the stack. -/
theorem Config.holds_of_run (kept : Kept ctx P) {c : Config} (run : Run ctx .start c) :
    (∀ t ∈ c.seen, ∀ e, ctx.piece t = .tree (.ok e) → P e) → ∀ e ∈ c.trees, P e := by
  induction run with
  | refl => simp [start]
  | tail _ move ih =>
    intro seen
    cases move with
    | operand x pos =>
      have leaf : ctx.piece (.operand x pos) = .tree (.ok (.operand x)) := by rw [Context.piece]
      have earlier := ih fun t ht => seen t (List.mem_append_left _ ht)
      exact List.forall_mem_cons.mpr ⟨seen _ (by simp) _ leaf, earlier⟩
    | @call f args pos e _ _ _ built =>
      have call : ctx.piece (.call f args pos) = .tree (.ok e) := by rw [Context.piece, built]
      have earlier := ih fun t ht => seen t (List.mem_append_left _ ht)
      exact List.forall_mem_cons.mpr ⟨seen _ (by simp) _ call, earlier⟩
    | join op pos x y =>
      obtain ⟨hy, hx, rest⟩ :=
        List.forall_mem_cons.mp (ih seen) |>.imp_right List.forall_mem_cons.mp
      exact List.forall_mem_cons.mpr ⟨kept.binary op x y hx hy, rest⟩
    | _ => exact ih fun t ht => seen t (List.mem_append_left _ ht)

namespace Context

/-- What holds of the leaves of a token sequence, and is kept by joining and by calling, holds of
its tree. -/
theorem holds_of_build (kept : Kept ctx P) {ts : List Token} {t : Expr}
    (leaves : ∀ x pos, Token.operand x pos ∈ Token.flattenAll ts → P (.operand x))
    (h : ctx.build ts = .ok t) : P t := by
  induction ts using Token.induction_on_arguments generalizing t with
  | step ts ih =>
    refine Config.holds_of_run kept (run_of_build h) ?_ t (List.mem_singleton_self t)
    intro a ha e built
    cases a with
    | symbol s pos =>
      rw [piece] at built
      cases built
    | operand x pos =>
      rw [piece] at built
      obtain rfl := Except.ok.inj (Piece.tree.inj built)
      exact leaves x pos ((Token.flatten_sublist ha).subset List.mem_cons_self)
    | call f args pos =>
      rw [piece] at built
      obtain ⟨gs, es, hsplit, hes, count, rfl⟩ := of_buildCall_ok (Piece.tree.inj built)
      refine kept.call f es ?_ count
      intro e he
      obtain ⟨g, hg, hbuild⟩ := exists_of_forall₂ hes.flip he
      refine ih f args pos gs g ha hsplit hg ?_ hbuild
      intro x p hx
      exact leaves x p
        ((Token.sublist_flattenAll ha hsplit hg).subset (List.mem_cons_of_mem _ hx))

end Context
end Reckon
