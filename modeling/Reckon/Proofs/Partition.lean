import Reckon.Proofs.Matching

/-!
Cuts between arguments. A bracket pair's contents never close more brackets than they open, so that
the depth at any place inside is a matter of the brackets before it. Main statement: argument tokens
split just if they are none or one bracket pair, and then into matched groups that together are the
contents of the pair, cut wherever an operand ends outside all brackets and another starts
(`split?_partition`).
-/

namespace Reckon

namespace Token

/-- By how many a token changes the number of open brackets. -/
def rise (t : Token) : Int :=
  match t.symbol? with
  | some .opening => 1
  | some .closing => -1
  | _ => 0

/-- How many more brackets a sequence opens than it closes. -/
def height (ts : List Token) : Int := (ts.map rise).sum

/-- As many brackets close as open, and no beginning of the sequence closes more than it opens. -/
def Paired (ts : List Token) : Prop := height ts = 0 ∧ ∀ us, us <+: ts → 0 ≤ height us

theorem height_nil : height [] = 0 := rfl

theorem height_cons (t : Token) (ts : List Token) : height (t :: ts) = rise t + height ts :=
  List.sum_cons

/-- The beginnings of a list with one more element in front. -/
theorem forall_prefix_cons {α : Type} {P : List α → Prop} {x : α} {xs : List α} :
    (∀ us, us <+: x :: xs → P us) ↔ P [] ∧ ∀ us, us <+: xs → P (x :: us) := by
  constructor
  · intro h
    exact ⟨h [] List.nil_prefix, fun us hus => h (x :: us) (List.cons_prefix_cons.mpr ⟨rfl, hus⟩)⟩
  · rintro ⟨nil, cons⟩ us hus
    rcases List.prefix_cons_iff.mp hus with rfl | ⟨vs, rfl, hvs⟩
    · exact nil
    · exact cons vs hvs

/-- A token changes the depth by its rise, and no bracket closes when none is open. -/
theorem depthAfter_cons (d : Nat) (t : Token) (ts : List Token) :
    depthAfter d (t :: ts) =
      if 0 ≤ d + t.rise then depthAfter (d + t.rise).toNat ts else none := by
  have level (h : t.rise = 0) (same : depthAfter d (t :: ts) = depthAfter d ts) :
      depthAfter d (t :: ts) =
        if 0 ≤ d + t.rise then depthAfter (d + t.rise).toNat ts else none := by
    rw [h, Int.add_zero, if_pos (Int.natCast_nonneg d), Int.toNat_natCast, same]
  cases t with
  | operand x pos => exact level rfl rfl
  | call f args pos => exact level rfl rfl
  | symbol s pos =>
    cases s with
    | operator op => exact level rfl rfl
    | opening =>
      have up : rise (.symbol .opening pos) = 1 := rfl
      rw [up, if_pos (by omega)]
      rfl
    | closing =>
      have down : rise (.symbol .closing pos) = -1 := rfl
      rw [down]
      cases d with
      | zero => rfl
      | succ d =>
        have depth : ((d + 1 : Nat) + -1 : Int).toNat = d := by omega
        rw [if_pos (by omega), depth]
        rfl

/-- What is open after a sequence is what its height says, if the height never falls below zero. -/
theorem depthAfter_eq_some_iff {d k : Nat} {ts : List Token} :
    depthAfter d ts = some k ↔ (k : Int) = d + height ts ∧ ∀ us, us <+: ts → 0 ≤ d + height us := by
  induction ts generalizing d with
  | nil =>
    rw [depthAfter, Option.some.injEq, height_nil, Int.add_zero, Int.natCast_inj]
    constructor
    · rintro rfl
      refine ⟨rfl, ?_⟩
      intro us hus
      rw [List.prefix_nil.mp hus, height_nil, Int.add_zero]
      exact Int.natCast_nonneg d
    · exact fun h => h.1.symm
  | cons t ts ih =>
    simp only [depthAfter_cons, forall_prefix_cons, height_cons, height_nil, Int.add_zero,
      ← Int.add_assoc]
    split
    · next h =>
      rw [ih, Int.toNat_of_nonneg h]
      simp only [Int.natCast_nonneg, true_and]
    · next h =>
      constructor
      · intro none
        cases none
      · rintro ⟨-, -, rising⟩
        have first := rising [] List.nil_prefix
        rw [height_nil, Int.add_zero] at first
        exact absurd first h

theorem matched_iff {ts : List Token} : Matched ts ↔ Paired ts := by
  rw [Matched, depthAfter_eq_some_iff, Paired]
  simp only [Int.natCast_zero, Int.zero_add, eq_comm]

end Token

open Token

namespace Arguments

theorem after_eq (d : Int) (t : Token) : after symbol? d t = d + t.rise := by
  unfold after rise
  generalize t.symbol? = s
  match s with
  | some .opening => rfl
  | some .closing => rfl
  | some (.operator op) => exact (Int.add_zero d).symm
  | none => exact (Int.add_zero d).symm

/-- A run from the first on ends where a group does just if the place is outside all brackets, right
behind the end of an operand and in front of the start of another. -/
theorem cut_iff (p : Token) (d : Int) (before : List Token) (y : Token) (rest : List Token) :
    (∃ gs hs, (groupsAfter symbol? p d (before ++ y :: rest)).2 = gs ++ hs ∧
      (groupsAfter symbol? p d (before ++ y :: rest)).1 ++ gs.flatten = before) ↔
    d + height before = 0 ∧ endsOperand symbol? (before.getLastD p) = true ∧
      startsOperand symbol? y = true := by
  induction before generalizing p d with
  | nil =>
    rw [height_nil, Int.add_zero, List.nil_append, List.getLastD_nil, groupsAfter]
    simp only
    split
    · next cut => exact ⟨fun _ => cut, fun _ => ⟨[], _, rfl, rfl⟩⟩
    · next joined =>
      constructor
      · rintro ⟨gs, hs, -, h⟩
        cases h
      · exact fun cut => absurd cut joined
  | cons x before ih =>
    rw [height_cons, ← Int.add_assoc, ← after_eq, List.getLastD_cons, ← ih, List.cons_append,
      groupsAfter]
    simp only
    split
    · -- a group begins here: those before the place are one more
      constructor
      · rintro ⟨gs, hs, split, h⟩
        cases gs with
        | nil => cases h
        | cons g gs =>
          obtain ⟨rfl, rest⟩ := List.cons.inj split
          exact ⟨gs, hs, rest, (List.cons.inj h).2⟩
      · rintro ⟨gs, hs, split, h⟩
        refine ⟨_ :: gs, hs, congrArg _ split, ?_⟩
        rw [List.flatten_cons, List.nil_append, List.cons_append, h]
    · simp only [List.cons_append, List.cons.injEq, true_and]

/-- A group begins with the token that it is cut in front of. -/
theorem ne_nil_of_mem_groupsAfter {p : Token} {d : Int} {xs g : List Token}
    (h : g ∈ (groupsAfter symbol? p d xs).2) : g ≠ [] := by
  induction xs generalizing p d with
  | nil => cases h
  | cons x xs ih =>
    rw [groupsAfter] at h
    simp only at h
    split at h
    · rcases List.mem_cons.mp h with rfl | h
      · exact List.cons_ne_nil _ _
      · exact ih h
    · exact ih h

theorem ne_nil_of_mem_groups {xs g : List Token} (h : g ∈ groups symbol? xs) : g ≠ [] := by
  cases xs with
  | nil => cases h
  | cons x xs =>
    rcases List.mem_cons.mp h with rfl | h
    · exact List.cons_ne_nil _ _
    · exact ne_nil_of_mem_groupsAfter h

theorem endsOperand_iff {t : Token} :
    endsOperand symbol? t = true ↔ t.symbol? = none ∨ t.symbol? = some .closing := by
  unfold endsOperand
  split <;> simp_all

theorem startsOperand_iff {t : Token} :
    startsOperand symbol? t = true ↔ t.symbol? = none ∨ t.symbol? = some .opening := by
  unfold startsOperand
  split <;> simp_all

/-- Between two neighbours, the groups are cut where an operand ends outside all brackets and
another starts. -/
theorem groups_cut_iff (before : List Token) (x y : Token) (rest : List Token) :
    (∃ gs hs, groups symbol? (before ++ x :: y :: rest) = gs ++ hs ∧ gs.flatten = before ++ [x]) ↔
    height (before ++ [x]) = 0 ∧ (x.symbol? = none ∨ x.symbol? = some .closing) ∧
      (y.symbol? = none ∨ y.symbol? = some .opening) := by
  rw [← endsOperand_iff, ← startsOperand_iff]
  -- the first token of all, and those between it and the place
  obtain ⟨first, others, hfirst⟩ := List.exists_cons_of_ne_nil (List.concat_ne_nil x before)
  have last : others.getLastD first = x := by
    rw [← List.getLastD_cons (a := x), ← hfirst, List.getLastD_concat]
  have whole : before ++ x :: y :: rest = first :: (others ++ y :: rest) := by
    rw [← List.cons_append, ← hfirst, List.append_assoc, List.singleton_append]
  have cut := cut_iff first (after symbol? 0 first) others y rest
  rw [last, after_eq, Int.zero_add, ← height_cons, ← hfirst] at cut
  rw [← cut, whole, hfirst, groups, after_eq, Int.zero_add]
  simp only
  constructor
  · rintro ⟨gs, hs, split, h⟩
    cases gs with
    | nil => cases h
    | cons g gs =>
      obtain ⟨rfl, rest⟩ := List.cons.inj split
      exact ⟨gs, hs, rest, (List.cons.inj h).2⟩
  · rintro ⟨gs, hs, split, h⟩
    refine ⟨_ :: gs, hs, congrArg _ split, ?_⟩
    rw [List.flatten_cons, List.cons_append, h]

/-- A bracket pair splits into the groups of its contents. -/
theorem split?_pair {inner : List Token} (h : Matched inner) (left right : Int) :
    split? symbol? (.symbol .opening left :: (inner ++ [.symbol .closing right])) =
      some (groups symbol? inner) := by
  have closes := closesAtEnd_matched h Int.one_pos [.symbol .closing right]
  have last : closesAtEnd symbol? 1 [.symbol .closing right] = true := rfl
  rw [Int.natCast_zero, Int.add_zero, last] at closes
  have enclosed : enclosed symbol?
      (.symbol .opening left :: (inner ++ [.symbol .closing right])) = true := by
    simpa [Arguments.enclosed, closesAtEnd, after, symbol?] using closes
  simp [split?, enclosed]

/-- Tokens that split are none, or a bracket pair around the groups. -/
theorem pair_of_split? {ts : List Token} {gs : List (List Token)}
    (h : split? symbol? ts = some gs) :
    ts = [] ∧ gs = [] ∨ ∃ left right,
      ts = .symbol .opening left :: (gs.flatten ++ [.symbol .closing right]) ∧
        Matched gs.flatten ∧ gs = groups symbol? gs.flatten := by
  rcases eq_of_split? h with empty | ⟨left, right, rfl⟩
  · exact .inl empty
  · have matched := Matched.flatten fun g hg => matched_of_split? h hg
    rw [split?_pair matched] at h
    exact .inr ⟨left, right, rfl, matched, (Option.some.inj h).symm⟩

end Arguments

open Arguments

/-- The arguments of a call split into no groups if there are no tokens, and do not split, so that
the call fails, just if the tokens do not begin with a bracket that the last one closes. Otherwise
the groups are the tokens between these two, each group has a token and is matched, and between two
neighbours there is a cut just if no bracket is open there, an operand, a call or a closing bracket
comes before, and an operand, a call or an opening bracket after. -/
theorem split?_partition (args : List Token) :
    split? symbol? ([] : List Token) = some [] ∧
    (split? symbol? args = none ↔ args ≠ [] ∧ ¬∃ left inner right,
      args = .symbol .opening left :: (inner ++ [.symbol .closing right]) ∧ Paired inner) ∧
    (split? symbol? args = none → ∀ (ctx : Context) (f : FunctionName) (pos : Int),
      ctx.buildCall f pos (ctx.pieces args) = fail (.malformed (.notEnclosed f.text pos))) ∧
    ∀ gs, split? symbol? args = some gs →
      gs.flatten = args.tail.dropLast ∧ (∀ g ∈ gs, g ≠ [] ∧ Paired g) ∧
      ∀ before x y after, args.tail.dropLast = before ++ x :: y :: after →
        ((∃ hs ks, gs = hs ++ ks ∧ hs.flatten = before ++ [x]) ↔
          height (before ++ [x]) = 0 ∧ (x.symbol? = none ∨ x.symbol? = some .closing) ∧
            (y.symbol? = none ∨ y.symbol? = some .opening)) := by
  refine ⟨rfl, ⟨?_, ?_⟩, ?_, ?_⟩
  · intro refused
    constructor
    · rintro rfl
      cases refused
    · rintro ⟨left, inner, right, rfl, paired⟩
      rw [split?_pair (matched_iff.mpr paired)] at refused
      cases refused
  · rintro ⟨nonempty, unpaired⟩
    cases h : split? symbol? args with
    | none => rfl
    | some gs =>
      rcases pair_of_split? h with ⟨empty, -⟩ | ⟨left, right, pair, matched, -⟩
      · exact absurd empty nonempty
      · exact absurd ⟨left, gs.flatten, right, pair, matched_iff.mp matched⟩ unpaired
  · intro refused ctx f pos
    rw [Context.buildCall_pieces, refused]
  · intro gs h
    have contents : gs.flatten = args.tail.dropLast ∧ gs = groups symbol? gs.flatten := by
      rcases pair_of_split? h with ⟨rfl, rfl⟩ | ⟨left, right, rfl, -, cut⟩
      · exact ⟨rfl, rfl⟩
      · exact ⟨by rw [List.tail_cons, List.dropLast_concat], cut⟩
    obtain ⟨inside, cut⟩ := contents
    refine ⟨inside, ?_, ?_⟩
    · intro g hg
      refine ⟨?_, matched_iff.mp (matched_of_split? h hg)⟩
      rw [cut] at hg
      exact ne_nil_of_mem_groups hg
    · intro before x y rest between
      rw [cut, inside, between]
      exact groups_cut_iff before x y rest

/-- Two bracket pairs next to each other are two arguments inside a pair, with a cut between them,
and no arguments without one, as the first bracket is closed before the last. -/
theorem split?_partition_pairs :
    let one : List Token := [.symbol .opening 4, .operand 1 5, .symbol .closing 6]
    let two : List Token := [.symbol .opening 7, .operand 2 8, .symbol .closing 9]
    (let args : List Token := .symbol .opening 3 :: (one ++ two ++ [.symbol .closing 10])
    split? symbol? args = some [one, two] ∧ (∀ g ∈ [one, two], g ≠ [] ∧ Paired g) ∧
      ∃ hs ks, [one, two] = hs ++ ks ∧ hs.flatten = one) ∧
    split? symbol? (one ++ two) = none ∧
    ∀ ctx : Context,
      ctx.buildCall .sin 0 (ctx.pieces (one ++ two)) =
        fail (.malformed (.notEnclosed "sin" 0)) := by
  intro one two
  constructor
  · intro args
    have split : split? symbol? args = some [one, two] := rfl
    obtain ⟨-, groups, cuts⟩ := (split?_partition args).2.2.2 [one, two] split
    refine ⟨split, groups, ?_⟩
    have cut := cuts [.symbol .opening 4, .operand 1 5] (.symbol .closing 6) (.symbol .opening 7)
      [.operand 2 8, .symbol .closing 9] rfl
    exact cut.mpr ⟨rfl, .inr rfl, .inr rfl⟩
  · have refused : split? symbol? (one ++ two) = none := rfl
    refine ⟨refused, ?_⟩
    intro ctx
    exact (split?_partition (one ++ two)).2.2.1 refused ctx .sin 0

end Reckon
