import Reckon.Proofs.Blame

/-!
Where failures point. A lexeme is a piece of the text, a token has the position of its lexeme, and a
failure of reading or building names a lexeme or a token. Main statement: the text of such a failure
stands in the expression at the failure's position, up to the case of letters, and only an empty
expression and one that leaves several trees point nowhere (`parse_blames_slice`).
-/

namespace Reckon

/-! ## Lexemes are pieces of the text -/

/-- The characters that show a mark. -/
def Mark.chars : Mark → List Char
  | sign s => [s.char]
  | run cs => cs

theorem exists_slice_of_mem_lexemes {separates : Char → Bool} {pos : Nat} {cs : List Char}
    {l : Lexeme} (h : l ∈ lexemes separates pos cs) :
    ∃ before after, cs = before ++ (l.mark.chars ++ after) ∧ l.pos = pos + before.length := by
  fun_induction lexemes separates pos cs with
  | case1 => simp at h
  | case2 pos c cs _ ih =>
    obtain ⟨before, after, rfl, hpos⟩ := ih h
    exact ⟨c :: before, after, rfl, by simp [hpos]; omega⟩
  | case3 pos c cs _ s hs ih =>
    rcases List.mem_cons.mp h with rfl | h
    · exact ⟨[], cs, by simp [Mark.chars, Symbol.eq_char_of_ofChar? hs], rfl⟩
    · obtain ⟨before, after, rfl, hpos⟩ := ih h
      exact ⟨c :: before, after, rfl, by simp [hpos]; omega⟩
  | case4 pos c cs _ _ rest ih =>
    have cut : rest ++ cs.dropWhile (inRun separates) = cs := List.takeWhile_append_dropWhile
    rcases List.mem_cons.mp h with rfl | h
    · exact ⟨[], cs.dropWhile (inRun separates), by simp [Mark.chars, cut], rfl⟩
    · obtain ⟨before, after, hcs, hpos⟩ := ih h
      refine ⟨c :: (rest ++ before), after, ?_, by simp [hpos]; omega⟩
      rw [List.cons_append, List.append_assoc, ← hcs, cut]

/-- The text, in any case of its letters, stands in the expression at a position. -/
def StandsAt (text word : String) (pos : Int) : Prop :=
  0 ≤ pos ∧ pos + word.length ≤ text.length ∧
    ((text.toList.drop pos.toNat).take word.length).map Char.toLower =
      word.toList.map Char.toLower

theorem standsAt_of_mem_lexemes {separates : Char → Bool} {text word : String} {l : Lexeme}
    (h : l ∈ lexemes separates 0 text.toList)
    (shown : l.mark.chars.map Char.toLower = word.toList.map Char.toLower) :
    StandsAt text word l.pos := by
  obtain ⟨before, after, htext, hpos⟩ := exists_slice_of_mem_lexemes h
  have length : l.mark.chars.length = word.length := by
    rw [← List.length_map Char.toLower, shown, List.length_map, String.length_toList]
  have total := congrArg List.length htext
  simp only [List.length_append, String.length_toList] at total
  refine ⟨by omega, by omega, ?_⟩
  have start : (l.pos : Int).toNat = before.length := by omega
  rw [start, htext, List.drop_left, ← length, List.take_left, shown]

/-! ## Tokens of lexemes -/

/-- What a failure shows of a token. -/
def Token.word? : Token → Option String
  | operand _ _ => none
  | symbol s _ => some s.text
  | call f _ _ => some f.text

/-- A token that is read of a lexeme shows the lexeme's characters, up to case. -/
theorem Lexeme.chars_of_read {l : Lexeme} {t : Token} {word : String} (h : l.read = .ok t)
    (hw : t.word? = some word) :
    l.mark.chars.map Char.toLower = word.toList.map Char.toLower := by
  obtain ⟨mark, pos⟩ := l
  cases mark with
  | sign s =>
    obtain rfl := Except.ok.inj h
    obtain rfl := Option.some.inj hw
    simp [Mark.chars, Symbol.text]
  | run cs =>
    simp only [read, Mark.read] at h
    split at h
    · next f hf =>
      obtain rfl := Except.ok.inj h
      obtain rfl := Option.some.inj hw
      have small := FunctionName.text_of_lookup? hf
      rw [String.toList_ofList] at small
      -- the name is in small letters already
      have fixed : f.text.toList.map Char.toLower = f.text.toList := by cases f <;> decide
      rw [Mark.chars, small, fixed]
    · obtain ⟨x, -, rfl⟩ := map_eq_ok.mp h
      cases hw

/-- A failure of reading a literal shows all of it, where it stands. -/
theorem failure_of_literal {raw : String} {pos : Option Int} {f : Failure}
    (h : literal raw pos = .error f) :
    f.text = some raw ∧ f.pos = pos ∧ f.inStage .tokenize = true := by
  unfold literal at h
  split at h
  · split at h
    · cases h
    · obtain rfl := Except.error.inj h
      exact ⟨rfl, rfl, rfl⟩
  · obtain rfl := Except.error.inj h
    unfold notLiteral
    split <;> exact ⟨rfl, rfl, rfl⟩

/-! ## Reading, whether or not calls may nest -/

namespace Nest

/-- Where calls may not nest, reading is the same or fails. -/
theorem take_nesting_of_take {nests : Bool} {n m : Nest} {l : Lexeme} (h : n.take nests l = .ok m) :
    n.take true l = .ok m := by
  obtain ⟨mark, pos⟩ := l
  cases mark with
  | sign s => exact h
  | run cs =>
    simp only [take, Scan.word] at h ⊢
    split at h
    · exact h
    · split at h
      · cases h
      · exact h

theorem foldlM_take_nesting_of_take {nests : Bool} {n m : Nest} {ls : List Lexeme}
    (h : ls.foldlM (take nests) n = .ok m) : ls.foldlM (take true) n = .ok m := by
  induction ls generalizing n with
  | nil => exact h
  | cons l ls ih =>
    rw [List.foldlM_cons] at h ⊢
    obtain ⟨k, hk, h⟩ := bind_eq_ok.mp h
    rw [take_nesting_of_take hk]
    exact ih h

/-- What cannot be taken is a run, and the failure shows it. -/
theorem failure_of_take {nests : Bool} {n : Nest} {l : Lexeme} {f : Failure}
    (h : n.take nests l = .error f) :
    f.text = some (String.ofList l.mark.chars) ∧ f.pos = some l.pos ∧
      f.inStage .tokenize = true := by
  obtain ⟨mark, pos⟩ := l
  cases mark with
  | sign s => cases h
  | run cs =>
    simp only [take, Scan.word] at h
    split at h
    · cases hf : literal (String.ofList cs) (some (pos : Int)) with
      | ok x =>
        rw [hf] at h
        cases h
      | error e =>
        rw [hf] at h
        obtain rfl : e = f := Except.error.inj h
        exact failure_of_literal hf
    · split at h
      · obtain rfl := Except.error.inj h
        exact ⟨rfl, rfl, rfl⟩
      · cases h

theorem failure_of_foldlM_take {nests : Bool} {n : Nest} {ls : List Lexeme} {f : Failure}
    (h : ls.foldlM (take nests) n = .error f) :
    ∃ l ∈ ls, f.text = some (String.ofList l.mark.chars) ∧ f.pos = some l.pos ∧
      f.inStage .tokenize = true := by
  induction ls generalizing n with
  | nil => cases h
  | cons l ls ih =>
    rw [List.foldlM_cons] at h
    cases hl : n.take nests l with
    | error e =>
      rw [hl] at h
      obtain rfl : e = f := Except.error.inj h
      exact ⟨l, List.mem_cons_self, failure_of_take hl⟩
    | ok m =>
      rw [hl] at h
      obtain ⟨k, hk, shown⟩ := ih h
      exact ⟨k, List.mem_cons_of_mem _ hk, shown⟩

end Nest

theorem map_eq_of_mapM_eq_ok {ε α β : Type} {f : α → Except ε β} {xs : List α} {ys : List β}
    (h : xs.mapM f = .ok ys) : xs.map f = ys.map .ok := by
  have each : List.Forall₂ (· = ·) (xs.map f) (ys.map Except.ok) :=
    List.forall₂_map_left_iff.mpr (List.forall₂_map_right_iff.mpr (mapM_eq_ok.mp h))
  rwa [List.forall₂_eq_eq_eq] at each

/-- Tokens are scanned off lexemes, in order and each at its lexeme's position. -/
theorem Lexis.lexemes_of_scan {lexis : Lexis} {cs : List Char} {ts : List Token}
    (h : lexis.scan cs = .ok ts) :
    (lexemes lexis.separates 0 cs).map Lexeme.read = (Token.flattenAll ts).map .ok := by
  rw [Lexis.scan_eq_foldlM] at h
  obtain ⟨n, hn, rfl⟩ := map_eq_ok.mp h
  have read := Nest.foldlM_take_nesting_of_take hn
  rw [Nest.foldlM_take_nesting] at read
  obtain ⟨words, hwords, rfl⟩ := map_eq_ok.mp read
  have hmap := map_eq_of_mapM_eq_ok hwords
  have nested : (words.foldl Nest.push .empty).finish = Token.nested words :=
    Nest.foldl_push_outside words []
  rw [nested, Token.flattenAll_nested, bare_of_map_read hmap, hmap]

namespace Context
variable {ctx : Context} {text : String}

/-- Tokens are read of lexemes, in order and each at its lexeme's position. -/
theorem lexemes_of_tokenize {ts : List Token} (h : ctx.tokenize text = .ok ts) :
    ∃ separates, (lexemes separates 0 text.toList).map Lexeme.read =
      (Token.flattenAll ts).map .ok := by
  unfold tokenize at h
  split at h
  · next holds _ =>
    exact ⟨(ctx.lexis holds).separates, Lexis.lexemes_of_scan (mapError_eq_ok.mp h)⟩
  · split at h
    · next empty =>
      obtain rfl := Except.ok.inj h
      obtain rfl := String.isEmpty_iff.mp empty
      exact ⟨fun _ => true, by simp [lexemes, Token.flattenAll]⟩
    · cases h

/-- What tokenizing fails with is a failure of its stage, and shows a whole lexeme. -/
theorem failure_of_tokenize {f : Failure} (h : ctx.tokenize text = fail f) :
    f.inStage .tokenize = true ∧
    ∃ separates, ∃ l ∈ lexemes separates 0 text.toList,
      f.text = some (String.ofList l.mark.chars) ∧ f.pos = some l.pos := by
  unfold tokenize at h
  split at h
  · next holds _ =>
    rw [Lexis.scan_eq_foldlM] at h
    cases hn : List.foldlM (Nest.take (ctx.lexis holds).nests) .empty
        (lexemes (ctx.lexis holds).separates 0 text.toList) with
    | ok n =>
      rw [hn] at h
      cases h
    | error e =>
      rw [hn] at h
      obtain rfl : e = f := Problem.failure.inj (Except.error.inj h)
      obtain ⟨l, hl, htext, hpos, stage⟩ := Nest.failure_of_foldlM_take hn
      exact ⟨stage, _, l, hl, htext, hpos⟩
  · split at h <;> cases h

end Context

/-! ## Where failures point -/

/-- A failure of building either speaks of the sequence as a whole, or has the word and the position
of a token. -/
theorem Blames.token {ts : List Token} {f : Failure} (h : Blames ts f) :
    (f = .malformed .empty ∨ ∃ k, f = .malformed (.severalTrees k)) ∨
      ∃ t ∈ ts, ∃ w, t.word? = some w ∧ f.text = some w ∧ f.pos = some t.pos := by
  cases h with
  | notEnclosed h => exact .inr ⟨_, h, _, rfl, rfl, rfl⟩
  | wrongCount expected given h => exact .inr ⟨_, h, _, rfl, rfl, rfl⟩
  | unmatched h => exact .inr ⟨_, h, _, rfl, rfl, rfl⟩
  | missing h => exact .inr ⟨_, h, _, rfl, rfl, rfl⟩
  | neverClosed h => exact .inr ⟨_, h, _, rfl, rfl, rfl⟩
  | empty => exact .inl (.inl rfl)
  | several k => exact .inl (.inr ⟨k, rfl⟩)

/-- A failure of reading or building a text either points nowhere, because the text is empty or
leaves several trees, or has a text and a position where it stands. -/
theorem standsAt_of_parse {ctx : Context} {text : String} {f : Failure}
    (h : ctx.parse text = fail f) :
    (f = .malformed .empty ∨ ∃ k, f = .malformed (.severalTrees k)) ∨
      ∃ w p, f.text = some w ∧ f.pos = some p ∧ StandsAt text w p := by
  rw [Context.parse] at h
  cases hts : ctx.tokenize text with
  | error q =>
    rw [hts] at h
    obtain rfl := Except.error.inj h
    obtain ⟨-, separates, l, hl, htext, hpos⟩ := Context.failure_of_tokenize hts
    refine .inr ⟨_, _, htext, hpos, standsAt_of_mem_lexemes hl ?_⟩
    rw [String.toList_ofList]
  | ok ts =>
    rw [hts] at h
    rcases Context.problem_of_build ts _ h with ⟨e, he, blames⟩ | ⟨fault, -⟩
    · obtain rfl := Problem.failure.inj he
      rcases blames.token with nowhere | ⟨t, ht, w, hw, htext, hpos⟩
      · exact .inl nowhere
      · obtain ⟨separates, hread⟩ := Context.lexemes_of_tokenize hts
        have member : Except.ok t ∈ (lexemes separates 0 text.toList).map Lexeme.read := by
          rw [hread]
          exact List.mem_map_of_mem ht
        obtain ⟨l, hl, read⟩ := List.mem_map.mp member
        refine .inr ⟨w, t.pos, htext, hpos, ?_⟩
        rw [Lexeme.pos_of_read read]
        exact standsAt_of_mem_lexemes hl (Lexeme.chars_of_read read hw)
    · cases fault

/-- The text of a failure of reading or building stands in the expression where the failure points;
and all of these failures have a text and point somewhere, except where the expression is empty or
leaves several trees. -/
theorem parse_blames_slice {ctx : Context} {text : String} {f : Failure}
    (h : ctx.parse text = fail f) :
    (∀ p, f.pos = some p → ∃ w, f.text = some w ∧ StandsAt text w p) ∧
      (f.pos.isSome ∧ f.text.isSome ∨ f = .malformed .empty ∨
        ∃ k, f = .malformed (.severalTrees k)) := by
  rcases standsAt_of_parse h with nowhere | ⟨w, p, htext, hpos, stands⟩
  · refine ⟨?_, .inr nowhere⟩
    intro p hp
    rcases nowhere with rfl | ⟨k, rfl⟩ <;> cases hp
  · refine ⟨?_, .inl (by simp [htext, hpos])⟩
    intro q hq
    obtain rfl := Option.some.inj (hpos.symm.trans hq)
    exact ⟨w, htext, stands⟩

/-- A call in capitals that never closes is blamed by its name, where its capitals stand. -/
theorem parse_blames_slice_capitals :
    let f := Failure.malformed (.notEnclosed "sin" 2)
    Context.standard.parse "x*SIN(y" = fail f ∧
      ∃ w, f.text = some w ∧ StandsAt "x*SIN(y" w 2 := by
  intro f
  have cut : lexemes " \t\r\n,".toList.contains 0 "x*SIN(y".toList =
      [⟨.run "x".toList, 0⟩, ⟨.sign (.operator .mul), 1⟩, ⟨.run "SIN".toList, 2⟩,
        ⟨.sign .opening, 5⟩, ⟨.run "y".toList, 6⟩] := by decide +kernel
  have tokens : Context.standard.tokenize "x*SIN(y" =
      .ok [.call .x [] 0, .symbol (.operator .mul) 1,
        .call .sin [.symbol .opening 5, .call .y [] 6] 2] := by
    rw [Context.tokenize_eq_map_nested rfl (by decide +kernel), cut]
    have read : List.mapM Lexeme.read [⟨.run "x".toList, 0⟩, ⟨.sign (.operator .mul), 1⟩,
        ⟨.run "SIN".toList, 2⟩, ⟨.sign .opening, 5⟩, ⟨.run "y".toList, 6⟩] =
        .ok [.call .x [] 0, .symbol (.operator .mul) 1, .call .sin [] 2, .symbol .opening 5,
          .call .y [] 6] := rfl
    rw [read]
    simp [Token.nested, Token.splitClose]
  have h : Context.standard.parse "x*SIN(y" = fail f := by
    rw [Context.parse, tokens]
    rfl
  exact ⟨h, (parse_blames_slice h).1 2 rfl⟩

end Reckon
