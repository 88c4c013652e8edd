import Reckon.Proofs.Layers

/-!
Brackets without a partner. The arguments of a call are cut from the inside of one bracket pair
where no other is open, so that each of them is matched; and a matched sequence is never said to
have a bracket too many. Main statement: what is said about a bracket is said about one of the
sequence itself, never about one of an argument, and names the first that closes nothing, or the
last that is not closed (`build_blames_bracket`).
-/

namespace Reckon

namespace Token

/-- A bracket that is opened right before the sequence has its partner in it. -/
def Closes (ts : List Token) : Prop :=
  ∃ run right after, ts = run ++ .symbol .closing right :: after ∧ Matched run

/-- Every bracket that is opened in the sequence has its partner in it. -/
def AllClosed (ts : List Token) : Prop :=
  ∀ before left after, ts = before ++ .symbol .opening left :: after → Closes after

/-- Where more brackets close than were open, the first that is too many comes when all are
closed. -/
theorem exists_surplus {d : Nat} {ts : List Token} (h : depthAfter d ts = none) :
    ∃ run right after, ts = run ++ .symbol .closing right :: after ∧ depthAfter d run = some 0 := by
  induction ts generalizing d with
  | nil => cases h
  | cons t ts ih =>
    -- a token that leaves `d'` brackets open goes to the front of what comes up to that bracket
    have step : ∀ d', (∀ us, depthAfter d (t :: us) = depthAfter d' us) →
        ∃ run right after, t :: ts = run ++ .symbol .closing right :: after ∧
          depthAfter d run = some 0 := by
      intro d' passes
      obtain ⟨run, right, after, rfl, closed⟩ := ih ((passes ts).symm.trans h)
      exact ⟨t :: run, right, after, rfl, (passes run).trans closed⟩
    cases t with
    | operand x pos => exact step d fun _ => by rw [depthAfter] <;> simp
    | call f args pos => exact step d fun _ => by rw [depthAfter] <;> simp
    | symbol s pos =>
      cases s with
      | operator op => exact step d fun _ => by rw [depthAfter] <;> simp
      | opening => exact step (d + 1) fun _ => rfl
      | closing =>
        cases d with
        | zero => exact ⟨[], pos, ts, rfl, rfl⟩
        | succ d => exact step d fun _ => rfl

theorem closes_iff {ts : List Token} : Closes ts ↔ depthAfter 0 ts = none := by
  constructor
  · rintro ⟨run, right, after, rfl, matched⟩
    rw [depthAfter_append, matched]
    rfl
  · exact exists_surplus

theorem Matched.not_closes {ts : List Token} (h : Matched ts) : ¬Closes ts := by
  rw [closes_iff, h]
  exact Option.some_ne_none 0

theorem Matched.allClosed {ts : List Token} (h : Matched ts) : AllClosed ts := by
  rintro before left after rfl
  rw [Matched, depthAfter_append, Option.bind_eq_some_iff] at h
  obtain ⟨d, -, h⟩ := h
  rw [closes_iff]
  cases later : depthAfter 0 after with
  | none => rfl
  | some k =>
    -- the bracket would still be open at the end
    have deeper := depthAfter_add later (d + 1)
    rw [Nat.zero_add] at deeper
    cases deeper.symm.trans h

theorem AllClosed.suffix (us : List Token) {ts : List Token} (h : AllClosed (us ++ ts)) :
    AllClosed ts := by
  rintro before left after rfl
  exact h (us ++ before) left after (List.append_assoc ..).symm

/-- Where all brackets that open are closed, none is open at the end. -/
theorem AllClosed.eq_zero : ∀ {ts : List Token} {d : Nat}, AllClosed ts →
    depthAfter 0 ts = some d → d = 0
  | [], _, _, h => (Option.some.inj h).symm
  | .operand x pos :: ts, _, closed, h => eq_zero (suffix [.operand x pos] closed) h
  | .call f args pos :: ts, _, closed, h => eq_zero (suffix [.call f args pos] closed) h
  | .symbol (.operator op) pos :: ts, _, closed, h =>
    eq_zero (suffix [.symbol (.operator op) pos] closed) h
  | .symbol .closing _ :: _, _, _, h => by cases h
  | .symbol .opening left :: ts, d, closed, h => by
    obtain ⟨run, right, after, hts, matched⟩ := closed [] left ts rfl
    have pair : .symbol .opening left :: ts =
        (.symbol .opening left :: (run ++ [.symbol .closing right])) ++ after := by simp [hts]
    have shorter : after.length < ts.length + 1 := by
      rw [hts, List.length_append, List.length_cons]
      omega
    rw [pair] at closed h
    rw [depthAfter_append, matched.enclose left right, Option.bind_some] at h
    exact eq_zero (closed.suffix _) h
  termination_by ts => ts.length

/-- Before the first bracket that closes nothing, each one that closes comes when one is open. -/
theorem Matched.not_allClosed {ts before after : List Token} {pos : Int} (h : Matched ts)
    (split : ts = before ++ .symbol .closing pos :: after) : ¬AllClosed before := by
  intro closed
  rw [split, Matched, depthAfter_append, Option.bind_eq_some_iff] at h
  obtain ⟨d, depth, h⟩ := h
  obtain rfl := closed.eq_zero depth
  cases h

end Token

open Token

/-! ## Brackets among arguments -/

namespace Arguments

/-- What stands before the last bracket, which closes the one that is open around it, closes all
others. -/
theorem depthAfter_of_closesAtEnd {k : Nat} {ts : List Token} {right : Int}
    (h : closesAtEnd symbol? (k + 1 : Nat) (ts ++ [.symbol .closing right]) = true) :
    depthAfter k ts = some 0 := by
  induction ts generalizing k with
  | nil =>
    cases k with
    | zero => rfl
    | succ k =>
      have open_ : after symbol? (k + 1 + 1 : Nat) (.symbol .closing right) ≠ 0 := by
        show ((k + 1 + 1 : Nat) : Int) - 1 ≠ 0
        omega
      rw [List.nil_append, closesAtEnd, if_neg open_] at h
      cases h
  | cons t ts ih =>
    rw [List.cons_append, closesAtEnd] at h
    split at h
    · simp at h
    · next open_ =>
      cases t with
      | operand x pos => exact ih h
      | call f args pos => exact ih h
      | symbol s pos =>
        cases s with
        | operator op => exact ih h
        | opening => exact ih (k := k + 1) h
        | closing =>
          have depth : after symbol? (k + 1 : Nat) (.symbol .closing pos) = k := by
            show ((k + 1 : Nat) : Int) - 1 = k
            omega
          rw [depth] at h open_
          cases k with
          | zero => exact absurd rfl open_
          | succ k => exact ih h

/-- Groups that are cut outside all brackets are matched. The first closes what was open before. -/
theorem matched_groupsAfter {p : Token} {k : Nat} {ts : List Token}
    (h : depthAfter k ts = some 0) :
    depthAfter k (groupsAfter symbol? p k ts).1 = some 0 ∧
      ∀ g ∈ (groupsAfter symbol? p k ts).2, Matched g := by
  induction ts generalizing p k with
  | nil => exact ⟨h, by simp [groupsAfter]⟩
  | cons t ts ih =>
    rw [← List.singleton_append, depthAfter_append, Option.bind_eq_some_iff] at h
    obtain ⟨j, first, h⟩ := h
    have depth : after symbol? k t = j := by
      obtain ⟨i, same, step⟩ := exists_after first
      obtain rfl := Option.some.inj same
      simpa using step 0
    obtain ⟨group, groups⟩ := ih (p := t) h
    have joined : depthAfter k (t :: (groupsAfter symbol? t j ts).1) = some 0 := by
      rw [← List.singleton_append, depthAfter_append, first]
      exact group
    rw [groupsAfter, depth]
    simp only
    split
    · next cut =>
      obtain rfl : k = 0 := by exact_mod_cast cut.1
      exact ⟨rfl, List.forall_mem_cons.mpr ⟨joined, groups⟩⟩
    · exact ⟨joined, groups⟩

/-- The arguments of a call are matched. -/
theorem matched_of_split? {args g : List Token} {gs : List (List Token)}
    (h : split? symbol? args = some gs) (hg : g ∈ gs) : Matched g := by
  rcases eq_of_split? h with ⟨-, rfl⟩ | ⟨left, right, rfl⟩
  · cases hg
  · have inner : closesAtEnd symbol? (0 + 1 : Nat) (gs.flatten ++ [.symbol .closing right]) = true ∧
        groups symbol? gs.flatten = gs := by
      rw [split?] at h
      simpa [enclosed, closesAtEnd, after, symbol?] using h
    obtain ⟨closes, cut⟩ := inner
    have matched := depthAfter_of_closesAtEnd closes
    rw [← cut] at hg
    cases hts : gs.flatten with
    | nil =>
      rw [hts] at hg
      cases hg
    | cons t ts =>
      rw [hts] at hg matched
      rw [groups_cons (n := .symbol .opening 0) rfl] at hg
      obtain ⟨first, others⟩ := matched_groupsAfter (p := .symbol .opening 0) matched
      rcases List.mem_cons.mp hg with rfl | hg
      · exact first
      · exact others g hg

end Arguments

/-! ## What is said about brackets -/

/-- The failures that are about one bracket without a partner. -/
inductive Failure.OfBracket : Failure → Prop where
  | unmatched (pos : Int) : OfBracket (.unmatchedClose pos)
  | neverClosed (pos : Int) : OfBracket (.malformed (.neverClosed pos))

/-- The failure is about a bracket of the sequence: one that closes when none is open any more, or
one that is open when all after it are closed. -/
inductive Failure.Surplus (ts : List Token) : Failure → Prop where
  | unmatched {before after : List Token} {pos : Int} :
    ts = before ++ .symbol .closing pos :: after → Matched before →
    Surplus ts (.unmatchedClose pos)
  | neverClosed {before after : List Token} {pos : Int} :
    ts = before ++ .symbol .opening pos :: after → Matched after →
    Surplus ts (.malformed (.neverClosed pos))

open Failure

theorem Failure.Surplus.not_matched {ts : List Token} {e : Failure} (h : Surplus ts e) :
    ¬Matched ts := by
  intro whole
  cases h with
  | unmatched split matched => exact whole.not_allClosed split matched.allClosed
  | neverClosed split matched => exact matched.not_closes (whole.allClosed _ _ _ split)

namespace Context
variable {ctx : Context}

/-- Arguments are matched, so that a failure about a bracket is about one of the sequence. -/
theorem surplus_of_build {ts : List Token} {e : Failure} (about : OfBracket e)
    (h : ctx.build ts = fail e) : Surplus ts e := by
  obtain ⟨us, c, rest, within, run, hseen, hhalt, own⟩ := arises_of_build h
  have surplus : Surplus us e := by
    generalize hp : Problem.failure e = p at hhalt own
    cases hhalt with
    | call _ =>
      subst hp
      cases own _ _ _ rfl <;> cases about
    | unmatched pos =>
      obtain rfl := Problem.failure.inj hp
      exact .unmatched hseen.symm (Config.Tally.run run).brackets
    | neverClosed pos =>
      obtain rfl := Problem.failure.inj hp
      cases Config.layered_of_run run with
      | above _ _ _ matched _ => exact .neverClosed (by rw [← hseen, List.append_nil]; rfl) matched
    | unordered _ => cases hp
    | missing _ _ _ _ | empty | several _ =>
      obtain rfl := Problem.failure.inj hp
      cases about
  cases within with
  | whole => exact surplus
  | argument _ _ hsplit hg =>
    exact absurd (Arguments.matched_of_split? hsplit hg) surplus.not_matched

/-- Neither a call nor any of its arguments ends with a failure about a bracket. -/
theorem buildCall_ne_bracket {e : Failure} (about : OfBracket e) (f : FunctionName)
    (args : List Token) (pos : Int) :
    ctx.buildCall f pos (ctx.pieces args) ≠ fail e ∧
      ∀ gs g, Arguments.split? symbol? args = some gs → g ∈ gs → ctx.build g ≠ fail e := by
  have argument : ∀ gs g, Arguments.split? symbol? args = some gs → g ∈ gs →
      ctx.build g ≠ fail e := by
    intro gs g hsplit hg hbuild
    exact (surplus_of_build about hbuild).not_matched (Arguments.matched_of_split? hsplit hg)
  refine ⟨?_, argument⟩
  intro failed
  rcases of_buildCall_error failed with other | ⟨gs, g, hsplit, hg, hbuild⟩ | ⟨_, _, other⟩
  · obtain rfl := Problem.failure.inj other
    cases about
  · exact argument gs g hsplit hg hbuild
  · obtain rfl := Problem.failure.inj other
    cases about

/-- Under whole precedences, what is not matched fails in building. -/
theorem fails_of_not_matched (h : ctx.Ranked) {ts : List Token} (unmatched : ¬Matched ts) :
    ∃ e, ctx.build ts = fail e ∧ e.inStage .build = true := by
  cases hbuild : ctx.build ts with
  | ok t => exact absurd (Config.Tally.run (run_of_build hbuild)).brackets unmatched
  | error p =>
    obtain ⟨e, rfl, blames⟩ := blames_of_build h hbuild
    exact ⟨e, rfl, blames.inStage⟩

end Context

/-- A bracket that is said to close nothing is the first before which all that open are closed. One
that is said to be never closed is the last without a partner. Both stand in the sequence itself,
as neither is said of a call or an argument, whatever tokens the call was given. And a sequence with
a bracket that has no partner fails in building. -/
theorem build_blames_bracket {ctx : Context} (h : ctx.Ranked) (ts : List Token) :
    (∀ pos, ctx.build ts = fail (.unmatchedClose pos) →
      ∃ before after, ts = before ++ .symbol .closing pos :: after ∧ AllClosed before ∧
        ∀ first p between, before = first ++ .symbol .closing p :: between → ¬AllClosed first) ∧
    (∀ pos, ctx.build ts = fail (.malformed (.neverClosed pos)) →
      ∃ before after, ts = before ++ .symbol .opening pos :: after ∧ ¬Closes after ∧
        AllClosed after) ∧
    (∀ e, OfBracket e → ∀ f args pos, ctx.buildCall f pos (ctx.pieces args) ≠ fail e ∧
      ∀ gs g, Arguments.split? symbol? args = some gs → g ∈ gs → ctx.build g ≠ fail e) ∧
    (¬Matched ts → ∃ e, ctx.build ts = fail e ∧ e.inStage .build = true) := by
  refine ⟨?_, ?_, ?_, Context.fails_of_not_matched h⟩
  · intro pos hbuild
    cases Context.surplus_of_build (.unmatched pos) hbuild with
    | @unmatched before after _ split matched =>
      refine ⟨before, after, split, matched.allClosed, ?_⟩
      intro first p between earlier
      exact matched.not_allClosed earlier
  · intro pos hbuild
    cases Context.surplus_of_build (.neverClosed pos) hbuild with
    | @neverClosed before after _ split matched =>
      exact ⟨before, after, split, matched.not_closes, matched.allClosed⟩
  · intro e about f args pos
    exact Context.buildCall_ne_bracket about f args pos

/-- Of `(1))(` the second closing bracket is blamed, and of `((1)(` the last opening one, behind a
pair that is closed; a call whose tokens are brackets the wrong way round is not enclosed. -/
theorem build_blames_bracket_last_opened :
    Context.standard.Ranked ∧
    (let ts : List Token := [.symbol .opening 0, .operand 1 1, .symbol .closing 2,
      .symbol .closing 3, .symbol .opening 4]
    Context.standard.build ts = fail (.unmatchedClose 3) ∧
      ∃ before after, ts = before ++ .symbol .closing 3 :: after ∧ AllClosed before ∧
        ∀ first p between, before = first ++ .symbol .closing p :: between → ¬AllClosed first) ∧
    (let ts : List Token := [.symbol .opening 0, .symbol .opening 1, .operand 1 2,
      .symbol .closing 3, .symbol .opening 4]
    Context.standard.build ts = fail (.malformed (.neverClosed 4)) ∧
      ∃ before after, ts = before ++ .symbol .opening 4 :: after ∧ ¬Closes after ∧
        AllClosed after) ∧
    let args : List Token := [.symbol .closing 3, .symbol .opening 4]
    Context.standard.build [.call .sin args 0] = fail (.malformed (.notEnclosed "sin" 0)) ∧
      ∀ pos, Context.standard.buildCall .sin 0 (Context.standard.pieces args) ≠
        fail (.unmatchedClose pos) := by
  refine ⟨Context.standard_ranked, ?_, ?_, ?_⟩
  · intro ts
    have built : Context.standard.build ts = fail (.unmatchedClose 3) := by rfl
    exact ⟨built, (build_blames_bracket Context.standard_ranked ts).1 3 built⟩
  · intro ts
    have built : Context.standard.build ts = fail (.malformed (.neverClosed 4)) := by rfl
    exact ⟨built, (build_blames_bracket Context.standard_ranked ts).2.1 4 built⟩
  · intro args
    refine ⟨by rfl, ?_⟩
    intro pos
    have calls := (build_blames_bracket Context.standard_ranked args).2.2.1
    exact (calls _ (.unmatched pos) .sin args 0).1

end Reckon
