import Reckon.Proofs.Calls
import Reckon.Proofs.Run

/-!
What building blames. Whatever waits on the stacks was read from the sequence, so that a failure can
only name a sign or a call that stands there, at some depth of calls. Main statements: a problem
arises in one of the sequences that the tokens are made of (`arises_of_build`); and where building
stops, it stops with a failure of its own stage that blames one of the tokens or none, unless it had
to compare precedences that have no order (`problem_of_build`).
-/

namespace Reckon

/-- The token that waits. -/
def Waiting.token : Waiting → Token
  | operator op pos => .symbol (.operator op) pos
  | bracket pos => .symbol .opening pos

/-- The failures that building the tokens may end in. Each blames one of them by its word and
position, or else speaks of the sequence as a whole. -/
inductive Blames (ts : List Token) : Failure → Prop where
  | notEnclosed {f : FunctionName} {pos : Int} :
    .call f [] pos ∈ ts → Blames ts (.malformed (.notEnclosed f.text pos))
  | wrongCount {f : FunctionName} {pos : Int} (expected : Data) (given : Nat) :
    .call f [] pos ∈ ts →
    Blames ts (.unsupported f.text (.argumentCount expected given) (some pos))
  | unmatched {pos : Int} : .symbol .closing pos ∈ ts → Blames ts (.unmatchedClose pos)
  | missing {op : Operator} {pos : Int} :
    .symbol (.operator op) pos ∈ ts → Blames ts (.missingOperand op.text pos)
  | neverClosed {pos : Int} : .symbol .opening pos ∈ ts → Blames ts (.malformed (.neverClosed pos))
  | empty : Blames ts (.malformed .empty)
  | several (count : Nat) : Blames ts (.malformed (.severalTrees count))

namespace Blames
variable {ts us : List Token} {f : Failure}

theorem mono (h : Blames ts f) (sub : ts ⊆ us) : Blames us f := by
  cases h with
  | notEnclosed h => exact .notEnclosed (sub h)
  | wrongCount expected given h => exact .wrongCount expected given (sub h)
  | unmatched h => exact .unmatched (sub h)
  | missing h => exact .missing (sub h)
  | neverClosed h => exact .neverClosed (sub h)
  | empty => exact .empty
  | several count => exact .several count

theorem inStage (h : Blames ts f) : f.inStage .build = true := by cases h <;> rfl

end Blames

namespace Token

theorem symbol_mem_flattenAll {ts : List Token} {s : Symbol} {pos : Int}
    (h : .symbol s pos ∈ ts) : .symbol s pos ∈ flattenAll ts :=
  (flatten_sublist h).subset List.mem_cons_self

theorem call_mem_flattenAll {ts args : List Token} {f : FunctionName} {pos : Int}
    (h : .call f args pos ∈ ts) : .call f [] pos ∈ flattenAll ts :=
  (flatten_sublist h).subset List.mem_cons_self

theorem Within.flattenAll_subset {ts us : List Token} (h : Within ts us) :
    flattenAll us ⊆ flattenAll ts := by
  induction h with
  | whole => exact List.Subset.refl _
  | argument _ hcall hsplit hg ih =>
    intro t ht
    exact ih ((sublist_flattenAll hcall hsplit hg).subset (List.mem_cons_of_mem _ ht))

end Token

/-- The problems of a call itself, which are none of its arguments'. -/
inductive Problem.OfCall (f : FunctionName) (pos : Int) : Problem → Prop where
  | notEnclosed : OfCall f pos (.failure (.malformed (.notEnclosed f.text pos)))
  | wrongCount (expected : Data) (given : Nat) :
    OfCall f pos (.failure (.unsupported f.text (.argumentCount expected given) (some pos)))

namespace Config
variable {ctx : Context}

/-- What waits has been read. -/
theorem mem_seen_of_run {c : Config} (h : Run ctx .start c) :
    ∀ w ∈ c.waiting, w.token ∈ c.seen := by
  induction h with
  | refl => simp [start]
  | tail _ move ih =>
    cases move with
    | operand x pos => exact fun w hw => List.mem_append_left _ (ih w hw)
    | call _ => exact fun w hw => List.mem_append_left _ (ih w hw)
    | closing left right =>
      exact fun w hw => List.mem_append_left _ (ih w (List.mem_cons_of_mem _ hw))
    | join op pos x y => exact fun w hw => ih w (List.mem_cons_of_mem _ hw)
    | opening pos =>
      intro w hw
      rcases List.mem_cons.mp hw with rfl | hw
      · exact List.mem_append_right _ (List.mem_singleton_self _)
      · exact List.mem_append_left _ (ih w hw)
    | operator op pos =>
      intro w hw
      rcases List.mem_cons.mp hw with rfl | hw
      · exact List.mem_append_right _ (List.mem_singleton_self _)
      · exact List.mem_append_left _ (ih w hw)

end Config

namespace Context
variable {ctx : Context}

theorem not_ranked_of_reduces {op incoming : Operator} (h : ctx.reduces op incoming = none) :
    ¬ctx.Ranked := by
  intro ranked
  rw [reduces_of_ranked ranked] at h
  cases h

/-- A problem arises in the sequence, or in an argument of a call at some depth: the builder halts
there, and if at a call, for a problem of the call itself. -/
theorem arises_of_build {ts : List Token} {p : Problem} (h : ctx.build ts = .error p) :
    ∃ us c rest, Token.Within ts us ∧ Config.Run ctx .start c ∧ c.seen ++ rest = us ∧
      Config.Halt ctx c rest p ∧
      ∀ f args pos, rest.head? = some (.call f args pos) → p.OfCall f pos := by
  induction ts using Token.induction_on_arguments with
  | step ts ih =>
    obtain ⟨c, rest, run, hseen, hhalt⟩ := stops_of_build h
    by_cases own : ∀ f args pos, rest.head? = some (.call f args pos) → p.OfCall f pos
    · exact ⟨ts, c, rest, .whole, run, hseen, hhalt, own⟩
    · simp only [not_forall] at own
      obtain ⟨f, args, pos, first, other⟩ := own
      cases hhalt with
      | @call _ _ _ _ _ left failed =>
        obtain ⟨rfl, rfl, rfl⟩ := Token.call.inj (Option.some.inj first)
        have member : .call _ _ _ ∈ ts := hseen ▸ List.mem_append_right _ List.mem_cons_self
        rcases of_buildCall_error failed with
          rfl | ⟨gs, g, hsplit, hg, hbuild⟩ | ⟨expected, given, rfl⟩
        · exact absurd .notEnclosed other
        · obtain ⟨us, c, rest, within, arises⟩ := ih _ _ _ gs g member hsplit hg hbuild
          exact ⟨us, c, rest, (Token.Within.argument .whole member hsplit hg).trans within, arises⟩
        · exact absurd (.wrongCount expected given) other
      | missing op p due short => cases due <;> cases first
      | _ => cases first

/-- Where building stops, it blames a token or none, or had to compare what has no order. -/
theorem problem_of_build (ts : List Token) : ∀ p, ctx.build ts = .error p →
    (∃ f, p = .failure f ∧ Blames (Token.flattenAll ts) f) ∨
      p = .fault .wrongType ∧ ¬ctx.Ranked := by
  intro p h
  obtain ⟨us, c, rest, within, run, hseen, hhalt, own⟩ := arises_of_build h
  have waits : ∀ w ∈ c.waiting, w.token ∈ us := by
    intro w hw
    rw [← hseen]
    exact List.mem_append_left _ (Config.mem_seen_of_run run w hw)
  have next : ∀ t left, rest = t :: left → t ∈ us := by
    rintro t left rfl
    rw [← hseen]
    exact List.mem_append_right _ List.mem_cons_self
  have blamed : (∃ f, p = .failure f ∧ Blames (Token.flattenAll us) f) ∨
      p = .fault .wrongType ∧ ¬ctx.Ranked := by
    cases hhalt with
    | @call f args pos _ _ _ _ =>
      have member := Token.call_mem_flattenAll (next _ _ rfl)
      cases own f args pos rfl with
      | notEnclosed => exact .inl ⟨_, rfl, .notEnclosed member⟩
      | wrongCount expected given => exact .inl ⟨_, rfl, .wrongCount expected given member⟩
    | unmatched pos =>
      exact .inl ⟨_, rfl, .unmatched (Token.symbol_mem_flattenAll (next _ _ rfl))⟩
    | missing op pos =>
      have member := waits _ List.mem_cons_self
      exact .inl ⟨_, rfl, .missing (Token.symbol_mem_flattenAll member)⟩
    | unordered order => exact .inr ⟨rfl, not_ranked_of_reduces order⟩
    | neverClosed pos =>
      have member := waits _ List.mem_cons_self
      exact .inl ⟨_, rfl, .neverClosed (Token.symbol_mem_flattenAll member)⟩
    | empty => exact .inl ⟨_, rfl, .empty⟩
    | several _ => exact .inl ⟨_, rfl, .several _⟩
  rcases blamed with ⟨f, rfl, blames⟩ | fault
  · exact .inl ⟨f, rfl, blames.mono within.flattenAll_subset⟩
  · exact .inr fault

/-- Under whole precedences, all that building stops with is a failure. -/
theorem blames_of_build (h : ctx.Ranked) {ts : List Token} {p : Problem}
    (hbuild : ctx.build ts = .error p) :
    ∃ f, p = .failure f ∧ Blames (Token.flattenAll ts) f := by
  rcases problem_of_build ts p hbuild with failure | ⟨-, ranked⟩
  · exact failure
  · exact absurd h ranked

end Context
end Reckon
