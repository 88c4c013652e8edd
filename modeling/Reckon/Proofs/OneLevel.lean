import Mathlib.Data.List.Induction
import Reckon.Proofs.Source

/-!
Calls that may not nest. Every name opens a call, and where calls may not nest a name is refused
while one is open. A name stays open until the next token shows that it has no arguments; so not
only the names among the arguments of another are refused, but also a name right after another. Main
statement: the tokens are those that are read where calls may nest, or the first such name is
refused (`tokenize_one_level`).
-/

namespace Reckon
namespace Token

/-- The name at `p` is among the arguments of a call. -/
def Inside (ts : List Token) (f : FunctionName) (p : Int) : Prop :=
  ∃ g args q, .call g args q ∈ ts ∧ .call f [] p ∈ flattenAll args

/-- The name at `p` comes right after another one. -/
def Follows (ts : List Token) (f : FunctionName) (p : Int) : Prop :=
  ∃ before g q after, flattenAll ts = before ++ .call g [] q :: .call f [] p :: after

/-- The name at `p` comes when another call has not ended. -/
def Crowded (ts : List Token) (f : FunctionName) (p : Int) : Prop := Inside ts f p ∨ Follows ts f p

/-- The first crowded name among the tokens of a text, as it is written. -/
structure FirstCrowded (text : String) (ts : List Token) (raw : String) (p : Int) : Prop where
  stands : ∃ before after, text.toList = before ++ (raw.toList ++ after) ∧ p = before.length
  crowded : ∃ f, FunctionName.lookup? raw = some f ∧ Crowded ts f p
  first : ∀ f q, Crowded ts f q → p ≤ q

/-- There is no call among the tokens. -/
def CallFree (ts : List Token) : Prop := ∀ f args p, .call f args p ∉ ts

/-- No call has calls among its arguments. -/
def Flat (ts : List Token) : Prop := ∀ f args p, .call f args p ∈ ts → CallFree args

section Inside
variable {ts us args : List Token} {f : FunctionName} {p q : Int}

theorem CallFree.nil : CallFree [] := by simp [CallFree]

theorem CallFree.cons {t : Token} (ht : ∀ f args p, t ≠ .call f args p) (h : CallFree ts) :
    CallFree (t :: ts) := by
  intro f args p hm
  rcases List.mem_cons.mp hm with rfl | hm
  · exact ht f args p rfl
  · exact h f args p hm

theorem CallFree.reverse (h : CallFree ts) : CallFree ts.reverse := by
  simpa [CallFree] using h

theorem flattenAll_of_callFree (h : CallFree ts) : flattenAll ts = ts := by
  induction ts with
  | nil => rfl
  | cons t ts ih =>
    have rest : CallFree ts := fun f args p hm => h f args p (List.mem_cons_of_mem _ hm)
    rw [flattenAll, ih rest]
    cases t with
    | call f args p => exact absurd List.mem_cons_self (h f args p)
    | _ => rfl

theorem Flat.nil : Flat [] := by simp [Flat]

theorem Flat.cons {t : Token} (ht : ∀ f args p, t = .call f args p → CallFree args)
    (h : Flat ts) : Flat (t :: ts) := by
  intro f args p hm
  rcases List.mem_cons.mp hm with rfl | hm
  · exact ht f args p rfl
  · exact h f args p hm

theorem Flat.cons_call (hargs : CallFree args) (h : Flat ts) : Flat (.call f args p :: ts) := by
  refine h.cons ?_
  rintro _ _ _ ⟨⟩
  exact hargs

theorem Flat.reverse (h : Flat ts) : Flat ts.reverse := by
  simpa [Flat] using h

theorem Flat.not_inside (h : Flat ts) : ¬Inside ts f p := by
  rintro ⟨g, args, q, hcall, hf⟩
  have free := h g args q hcall
  rw [flattenAll_of_callFree free] at hf
  exact free f [] p hf

theorem inside_append : Inside (ts ++ us) f p ↔ Inside ts f p ∨ Inside us f p := by
  simp only [Inside, List.mem_append]
  grind

theorem inside_call_cons {g : FunctionName} :
    Inside (.call g args q :: ts) f p ↔ .call f [] p ∈ flattenAll args ∨ Inside ts f p := by
  simp only [Inside, List.mem_cons, Token.call.injEq]
  grind

/-- A name is where one of the tokens was that were nested. -/
theorem exists_of_mem_nested (h : .call f [] p ∈ flattenAll (nested ts)) :
    ∃ t ∈ ts, t.pos = p := by
  rw [flattenAll_nested] at h
  obtain ⟨t, ht, hbare⟩ := List.mem_map.mp h
  refine ⟨t, ht, ?_⟩
  cases t with
  | call f' args' p' =>
    obtain ⟨-, -, rfl⟩ := Token.call.inj hbare
    rfl
  | _ => cases hbare

theorem exists_of_inside_nested (h : Inside (nested ts) f p) : ∃ t ∈ ts, t.pos = p := by
  obtain ⟨g, args, q, hcall, hf⟩ := h
  obtain ⟨before, after, split⟩ := List.append_of_mem hcall
  apply exists_of_mem_nested (f := f)
  rw [split, flattenAll_append, flattenAll, flatten]
  simp [hf]

end Inside

/-- Every name comes when no call is open. -/
def Alone (words : List Token) : Prop :=
  ∀ before f args p after, words = before ++ .call f args p :: after →
    (before.foldl Nest.push .empty).calls = []

theorem alone_nil : Alone [] := by
  intro before f args p after h
  simp at h

theorem alone_concat {ws : List Token} {t : Token} :
    Alone (ws ++ [t]) ↔ Alone ws ∧
      ∀ f args p, t = .call f args p → (ws.foldl Nest.push .empty).calls = [] := by
  constructor
  · intro h
    refine ⟨?_, ?_⟩
    · rintro before f args p after rfl
      exact h before f args p (after ++ [t]) (by simp)
    · rintro f args p rfl
      exact h ws f args p [] rfl
  · rintro ⟨hws, ht⟩ before f args p after split
    rcases List.eq_nil_or_concat after with rfl | ⟨rest, u, rfl⟩
    · obtain ⟨rfl, last⟩ := List.append_inj' split rfl
      exact ht f args p (List.cons.inj last).1
    · rw [List.concat_eq_append, ← List.cons_append, ← List.append_assoc] at split
      exact hws before f args p rest (List.append_inj' split rfl).1

end Token

/-! ## The stack while every name comes alone -/

namespace Nest
open Token

/-- The stack after a last token while every name has come alone: at most one call is open, no call
has calls among its arguments, and a call without brackets was the last token. -/
inductive Shallow : Option Token → Nest → Prop where
  | outside (last : Option Token) {out : List Token} : Flat out → Shallow last ⟨[], out⟩
  | pending (f : FunctionName) (as : List Token) (p : Int) {out : List Token} :
    Flat out → Shallow (some (.call f as p)) ⟨[⟨f, p, 0, []⟩], out⟩
  | inside (last : Option Token) (f : FunctionName) (p : Int) {d : Nat} {args out : List Token} :
    0 < d → CallFree args → Flat out → Shallow last ⟨[⟨f, p, d, args⟩], out⟩

/-- One more token, a name only if no call is open. -/
theorem shallow_push {last : Option Token} {n : Nest} (h : n.Shallow last) (t : Token)
    (alone : ∀ f as p, t = .call f as p → n.calls = []) : (n.push t).Shallow (some t) := by
  cases h with
  | outside _ flat =>
    cases t with
    | operand x p => exact .outside _ (flat.cons (by simp))
    | symbol s p =>
      have other : ∀ f args q, Token.symbol s p = .call f args q → CallFree args := by simp
      cases s <;> exact .outside _ (flat.cons other)
    | call f as p => exact .pending f as p flat
  | pending f as p flat =>
    have settled : Flat (.call f [] p :: _) := flat.cons_call .nil
    cases t with
    | operand x q => exact .outside _ (settled.cons (by simp))
    | call g bs q => cases alone g bs q rfl
    | symbol s q =>
      cases s with
      | opening => exact .inside _ f p Nat.one_pos (CallFree.nil.cons (by simp)) flat
      | closing => exact .outside _ (settled.cons (by simp))
      | operator op => exact .outside _ (settled.cons (by simp))
  | @inside _ f p d args out hd free flat =>
    cases t with
    | operand x q =>
      rw [push_operand_open [] out hd, append_cons]
      exact .inside _ f p hd (free.cons (by simp)) flat
    | call g bs q => cases alone g bs q rfl
    | symbol s q =>
      cases s with
      | opening => exact .inside _ f p (Nat.succ_pos d) (free.cons (by simp)) flat
      | operator op =>
        rw [push_operator_open [] out hd, append_cons]
        exact .inside _ f p hd (free.cons (by simp)) flat
      | closing =>
        rw [push_closing_open [] out hd, append_cons, lower]
        have closed : CallFree (.symbol .closing q :: args) := free.cons (by simp)
        split
        · exact .outside _ (flat.cons_call closed.reverse)
        · next hd' =>
          have left : 0 < d - 1 := Nat.sub_pos_of_lt (Nat.lt_of_le_of_ne hd (Ne.symm hd'))
          exact .inside _ f p left closed flat

theorem shallow_of_alone {words : List Token} (h : Alone words) :
    (words.foldl push .empty).Shallow words.getLast? := by
  induction words using List.reverseRecOn with
  | nil => exact .outside _ .nil
  | append_singleton ws t ih =>
    obtain ⟨hws, ht⟩ := alone_concat.mp h
    rw [List.foldl_append, List.getLast?_concat]
    exact shallow_push (ih hws) t ht

theorem Shallow.flat_finish {last : Option Token} {n : Nest} (h : n.Shallow last) :
    Flat n.finish := by
  cases h with
  | outside _ flat => exact flat.reverse
  | pending f as p flat =>
    have settled : Flat (.call f [] p :: _) := flat.cons_call .nil
    exact settled.reverse
  | @inside _ f p d args out hd free flat =>
    have settled : Flat (.call f args.reverse p :: out) := flat.cons_call free.reverse
    exact settled.reverse

/-- A name that comes while a call is open. If that call has brackets, its arguments go on with the
name up to its last bracket, and the rest comes after it; if not, it was the last token and ends. -/
theorem Shallow.finish_of_busy {last : Option Token} {n : Nest} (h : n.Shallow last)
    (busy : n.calls ≠ []) (f : FunctionName) (as : List Token) (p : Int) (after : List Token) :
    ∃ out g args inner outer q, Flat out ∧ CallFree args ∧
      inner ++ outer = .call f as p :: after ∧
      ((Token.call f as p :: after).foldl Nest.push n).finish =
        out ++ .call g (args ++ nested inner) q :: nested outer ∧
      ((∃ bs, last = some (.call g bs q)) ∨ .call f as p ∈ inner) := by
  cases h with
  | outside => exact absurd rfl busy
  | @pending g bs q out flat =>
    refine ⟨out.reverse, g, [], [], .call f as p :: after, q, flat.reverse, .nil, rfl, ?_,
      .inl ⟨bs, rfl⟩⟩
    rw [foldl_push_pending (n := ⟨[], out⟩) rfl rfl, append, foldl_push_outside]
    simp [nested]
  | @inside _ g q d args out hd free flat =>
    refine ⟨out.reverse, g, args.reverse, .call f as p :: (splitClose d after).1,
      (splitClose d after).2, q, flat.reverse, free.reverse, ?_, ?_, .inr List.mem_cons_self⟩
    · rw [List.cons_append, splitClose_append]
    · rw [foldl_push_open _ ⟨g, q, d, args⟩ [] out hd, append, foldl_push_outside]
      simp [filled, splitClose]

end Nest

/-! ## Crowded names -/

section Crowded
open Token
variable {words before after as : List Token} {f g : FunctionName} {p q : Int}

/-- Tokens whose names all come alone have no crowded name. -/
theorem not_crowded_of_alone (bare : words.map bare = words) (h : Alone words) :
    ¬Crowded (nested words) g q := by
  have run : (words.foldl Nest.push .empty).finish = nested words :=
    Nest.foldl_push_outside words []
  rintro (inside | ⟨before, g', r, after, split⟩)
  · rw [← run] at inside
    exact (Nest.shallow_of_alone h).flat_finish.not_inside inside
  · rw [flattenAll_nested, bare] at split
    have closed := h (before ++ [.call g' [] r]) g [] q after (by simp [split])
    rw [List.foldl_append] at closed
    cases closed

section First
variable (alone : Alone before) (busy : (before.foldl Nest.push .empty).calls ≠ [])
include alone busy

/-- What is nested of tokens with a first name that does not come alone. -/
theorem nested_of_busy (f : FunctionName) (as : List Token) (p : Int) (after : List Token) :
    ∃ out g args inner outer q, Flat out ∧ CallFree args ∧
      inner ++ outer = .call f as p :: after ∧
      nested (before ++ .call f as p :: after) =
        out ++ .call g (args ++ nested inner) q :: nested outer ∧
      ((∃ bs, before.getLast? = some (.call g bs q)) ∨ .call f as p ∈ inner) := by
  have parts := (Nest.shallow_of_alone alone).finish_of_busy busy f as p after
  have run := Nest.foldl_push_outside (before ++ .call f as p :: after) []
  rw [List.foldl_append] at run
  rwa [show Nest.empty = ⟨[], []⟩ from rfl, run] at parts

/-- The first name that does not come alone is crowded. -/
theorem crowded_of_busy : Crowded (nested (before ++ .call f as p :: after)) f p := by
  obtain ⟨out, g, args, inner, outer, q, -, -, -, parts, pending | member⟩ :=
    nested_of_busy alone busy f as p after
  · obtain ⟨bs, last⟩ := pending
    obtain ⟨ws, rfl⟩ := List.getLast?_eq_some_iff.mp last
    refine .inr ⟨ws.map bare, g, q, after.map bare, ?_⟩
    rw [flattenAll_nested]
    simp [bare]
  · refine .inl ?_
    rw [parts, inside_append, inside_call_cons]
    refine .inr (.inl ?_)
    rw [flattenAll_append, flattenAll_nested]
    exact List.mem_append_right _ (List.mem_map.mpr ⟨_, member, rfl⟩)

/-- No name before it is. -/
theorem le_of_crowded
    (unread : (before ++ .call f as p :: after).map bare = before ++ .call f as p :: after)
    (sorted : (before ++ .call f as p :: after).Pairwise fun t u => t.pos < u.pos)
    (h : Crowded (nested (before ++ .call f as p :: after)) g q) : p ≤ q := by
  have least : ∀ t ∈ Token.call f as p :: after, p ≤ t.pos := by
    intro t ht
    rcases List.mem_cons.mp ht with rfl | ht
    · exact Int.le_refl _
    · have later := (List.pairwise_cons.mp (List.pairwise_append.mp sorted).2.1).1 t ht
      exact Int.le_of_lt later
  rcases h with inside | ⟨ws, g', r, us, split⟩
  · obtain ⟨out, g', args, inner, outer, r, flat, free, cut, parts, -⟩ :=
      nested_of_busy alone busy f as p after
    rw [parts, inside_append, inside_call_cons, flattenAll_append, flattenAll_of_callFree free]
      at inside
    -- what is done when the name comes has no names inside
    rcases inside with inside | member | inside
    · exact absurd inside flat.not_inside
    · rcases List.mem_append.mp member with member | member
      · exact absurd member (free g [] q)
      · obtain ⟨t, ht, rfl⟩ := exists_of_mem_nested member
        exact least t (cut ▸ List.mem_append_left _ ht)
    · obtain ⟨t, ht, rfl⟩ := exists_of_inside_nested inside
      exact least t (cut ▸ List.mem_append_right _ ht)
  · -- a name right after another does not come alone, so it is not before the first
    rw [flattenAll_nested, unread] at split
    have split : before ++ .call f as p :: after =
        (ws ++ [.call g' [] r]) ++ .call g [] q :: us := by simp [split]
    rcases List.append_eq_append_iff.mp split with ⟨vs, hws, hafter⟩ | ⟨vs, rfl, hafter⟩
    · exact least (.call g [] q) (hafter ▸ by simp)
    · cases vs with
      | nil =>
        obtain ⟨hcall, -⟩ := List.cons.inj hafter
        obtain ⟨-, -, rfl⟩ := Token.call.inj hcall
        exact Int.le_refl _
      | cons v vs =>
        obtain ⟨rfl, -⟩ := List.cons.inj hafter
        have closed := alone _ g [] q vs rfl
        rw [List.foldl_append] at closed
        cases closed

end First

end Crowded

/-! ## Reading where calls may not nest -/

/-- Lexemes begin one after another. -/
theorem pairwise_lexemes (separates : Char → Bool) (pos : Nat) (cs : List Char) :
    (lexemes separates pos cs).Pairwise fun l m => l.pos < m.pos := by
  have from_ : ∀ {pos : Nat} {cs : List Char}, ∀ l ∈ lexemes separates pos cs, pos ≤ l.pos := by
    intro pos cs l hl
    obtain ⟨before, -, -, hpos⟩ := exists_slice_of_mem_lexemes hl
    omega
  fun_induction lexemes separates pos cs with
  | case1 => exact .nil
  | case2 pos c cs _ ih => exact ih
  | case3 pos c cs _ s _ ih =>
    refine .cons ?_ ih
    intro l hl
    exact from_ l hl
  | case4 pos c cs _ _ rest ih =>
    refine .cons ?_ ih
    intro l hl
    have := from_ l hl
    simp only
    omega

namespace Nest
open Token

/-- Where calls may not nest, a token is taken as it is where they may, unless it is a name and a
call is open. -/
theorem take_alone {n : Nest} {l : Lexeme} {t : Token} (read : l.read = .ok t)
    (alone : ∀ f as p, t = .call f as p → n.calls = []) : n.take false l = .ok (n.push t) := by
  obtain ⟨mark, pos⟩ := l
  cases mark with
  | sign s =>
    obtain rfl := Except.ok.inj read
    rfl
  | run cs =>
    simp only [Lexeme.read, Mark.read] at read
    simp only [take, Scan.word]
    split at read
    · next f hf =>
      obtain rfl := Except.ok.inj read
      simp [hf, alone f [] pos rfl, push]
    · next hf =>
      obtain ⟨x, hx, rfl⟩ := map_eq_ok.mp read
      simp [hf, hx, push]

theorem take_busy {n : Nest} {l : Lexeme} {f : FunctionName} {as : List Token} {p : Int}
    (read : l.read = .ok (.call f as p)) (busy : n.calls ≠ []) :
    FunctionName.lookup? (String.ofList l.mark.chars) = some f ∧ p = l.pos ∧
      n.take false l = .error (.malformedOperand (String.ofList l.mark.chars) (some l.pos)) := by
  obtain ⟨mark, pos⟩ := l
  cases mark with
  | sign s => cases read
  | run cs =>
    simp only [Lexeme.read, Mark.read] at read
    split at read
    · next g hg =>
      obtain ⟨rfl, rfl, rfl⟩ := Token.call.inj (Except.ok.inj read)
      exact ⟨hg, rfl, by simp [take, Scan.word, Mark.chars, hg, busy]⟩
    · obtain ⟨x, -, same⟩ := map_eq_ok.mp read
      cases same

/-- Where calls may not nest, all tokens are taken if every name comes alone; if not, the first that
does not is refused. -/
theorem foldlM_take_flat {ls : List Lexeme} {words : List Token}
    (read : ls.map Lexeme.read = words.map .ok) :
    (Alone words ∧ ls.foldlM (take false) .empty = .ok (words.foldl push .empty)) ∨
      ∃ l ∈ ls, ∃ before f as after, words = before ++ .call f as l.pos :: after ∧ Alone before ∧
        (before.foldl push .empty).calls ≠ [] ∧
        FunctionName.lookup? (String.ofList l.mark.chars) = some f ∧
        ls.foldlM (take false) .empty =
          .error (.malformedOperand (String.ofList l.mark.chars) (some l.pos)) := by
  induction ls using List.reverseRecOn generalizing words with
  | nil =>
    obtain rfl := List.map_eq_nil_iff.mp read.symm
    exact .inl ⟨alone_nil, rfl⟩
  | append_singleton ls l ih =>
    rw [List.map_append] at read
    obtain ⟨ws, us, rfl, hws, hus⟩ := List.map_eq_append_iff.mp read.symm
    obtain ⟨t, rfl, ht⟩ := List.map_eq_singleton_iff.mp hus
    rw [List.foldlM_append]
    rcases ih hws.symm with ⟨alone, taken⟩ | ⟨m, hm, before, f, as, after, rfl, first⟩
    · rw [taken, ok_bind, List.foldlM_cons, List.foldl_append]
      by_cases free : ∀ f as p, t = .call f as p → (ws.foldl push .empty).calls = []
      · refine .inl ⟨alone_concat.mpr ⟨alone, free⟩, ?_⟩
        rw [take_alone ht.symm free]
        rfl
      · simp only [not_forall] at free
        obtain ⟨f, as, p, rfl, busy⟩ := free
        obtain ⟨name, rfl, refused⟩ := take_busy ht.symm busy
        refine .inr ⟨l, by simp, ws, f, as, [], rfl, alone, busy, name, ?_⟩
        rw [refused]
        rfl
    · obtain ⟨alone, busy, name, refused⟩ := first
      refine .inr ⟨m, List.mem_append_left _ hm, before, f, as, after ++ [t], by simp, alone, busy,
        name, ?_⟩
      rw [refused]
      rfl

end Nest

section Scan
open Token
variable {separates : Char → Bool} {cs : List Char}

/-- Where calls may nest, the tokens are words read one by one and then nested. -/
theorem Lexis.exists_words {ts : List Token} (h : Lexis.scan ⟨separates, true⟩ cs = .ok ts) :
    ∃ words, (lexemes separates 0 cs).map Lexeme.read = words.map .ok ∧ ts = nested words := by
  rw [scan_eq_mapM rfl] at h
  obtain ⟨words, read, rfl⟩ := map_eq_ok.mp h
  exact ⟨words, map_eq_of_mapM_eq_ok read, Nest.foldl_push_outside words []⟩

/-- What is read where calls may not nest is read where they may. -/
theorem Lexis.scan_nesting_of_scan {ts : List Token}
    (h : Lexis.scan ⟨separates, false⟩ cs = .ok ts) : Lexis.scan ⟨separates, true⟩ cs = .ok ts := by
  rw [scan_eq_foldlM] at h ⊢
  obtain ⟨n, hn, rfl⟩ := map_eq_ok.mp h
  rw [Nest.foldlM_take_nesting_of_take hn]
  rfl

/-- Where calls may not nest, the tokens are the same or the first crowded name is refused. -/
theorem Lexis.scan_flat {text : String} {ts : List Token}
    (h : Lexis.scan ⟨separates, true⟩ text.toList = .ok ts) :
    ((∀ f p, ¬Crowded ts f p) ∧ Lexis.scan ⟨separates, false⟩ text.toList = .ok ts) ∨
      ∃ raw p, FirstCrowded text ts raw p ∧
        Lexis.scan ⟨separates, false⟩ text.toList = .error (.malformedOperand raw (some p)) := by
  obtain ⟨words, read, rfl⟩ := exists_words h
  have unread := bare_of_map_read read
  rw [scan_eq_foldlM]
  rcases Nest.foldlM_take_flat read with ⟨alone, taken⟩ |
    ⟨l, hl, before, f, as, after, split, first⟩
  · refine .inl ⟨fun f p => not_crowded_of_alone unread alone, ?_⟩
    rw [taken, map_ok]
    exact congrArg _ (Nest.foldl_push_outside words [])
  · obtain ⟨alone, busy, name, refused⟩ := first
    have sorted : words.Pairwise fun t u => t.pos < u.pos := by
      have positions := (pairwise_lexemes separates 0 text.toList).map (fun l => (l.pos : Int))
        (fun _ _ h => Int.ofNat_lt.mpr h)
      rw [← pos_of_map_read read] at positions
      exact List.pairwise_map.mp positions
    subst split
    refine .inr ⟨String.ofList l.mark.chars, l.pos,
      ⟨?_, ⟨f, name, crowded_of_busy alone busy⟩, ?_⟩, ?_⟩
    · obtain ⟨before, after, slice, hpos⟩ := exists_slice_of_mem_lexemes hl
      refine ⟨before, after, ?_, by omega⟩
      rw [String.toList_ofList, slice]
    · intro g p hp
      exact le_of_crowded alone busy unread sorted hp
    · rw [refused]
      rfl

end Scan

section OneLevel
variable {ctx flat : Context} (hs : flat.separators = ctx.separators) (hn : ctx.nests = true)
  (hf : flat.nests = false) {text : String}
include hs hn hf

/-- A text that cannot be read where calls may nest cannot be read where they may not. -/
theorem Context.tokenize_flat_error {p : Problem} (h : ctx.tokenize text = .error p) :
    ∃ q, flat.tokenize text = .error q := by
  cases hh : ctx.separators.holds? with
  | none =>
    simp only [tokenize, hs, hh] at h ⊢
    exact ⟨p, h⟩
  | some holds =>
    simp only [tokenize, hs, hh, lexis, hn, hf] at h ⊢
    cases hflat : Lexis.scan ⟨fun c => holds (String.singleton c), false⟩ text.toList with
    | error f => exact ⟨.failure f, rfl⟩
    | ok ts =>
      rw [Lexis.scan_nesting_of_scan hflat] at h
      cases h

theorem Context.tokenize_flat {ts : List Token} (h : ctx.tokenize text = .ok ts) :
    ((∀ f p, ¬Token.Crowded ts f p) ∧ flat.tokenize text = .ok ts) ∨
      ∃ raw p, Token.FirstCrowded text ts raw p ∧
        flat.tokenize text = fail (.malformedOperand raw (some p)) := by
  cases hh : ctx.separators.holds? with
  | none =>
    -- only the empty text is read, and it has no names
    simp only [tokenize, hs, hh] at h ⊢
    refine .inl ⟨?_, h⟩
    split at h
    · obtain rfl := Except.ok.inj h
      have none (f p) : ¬Token.Crowded (Token.nested []) f p :=
        not_crowded_of_alone rfl Token.alone_nil
      rwa [Token.nested] at none
    · cases h
  | some holds =>
    simp only [tokenize, hs, hh, lexis, hn, hf] at h ⊢
    rw [mapError_eq_ok] at h
    rcases Lexis.scan_flat h with ⟨calm, taken⟩ | ⟨raw, p, first, refused⟩
    · refine .inl ⟨calm, ?_⟩
      rw [taken]
      rfl
    · refine .inr ⟨raw, p, first, ?_⟩
      rw [refused]
      rfl

end OneLevel

/-- With the same separators, but where calls may not nest. A text that cannot be read stays so. One
that can be read has the same tokens, unless names stand among the arguments of a call or right
after another name; the first of these is then refused as it is written, where it stands. -/
theorem tokenize_one_level {ctx flat : Context} (hs : flat.separators = ctx.separators)
    (hn : ctx.nests = true) (hf : flat.nests = false) (text : String) :
    (∀ p, ctx.tokenize text = .error p → ∃ q, flat.tokenize text = .error q) ∧
    ∀ ts, ctx.tokenize text = .ok ts →
      ((∀ f p, ¬Token.Crowded ts f p) → flat.tokenize text = .ok ts) ∧
      ((∃ f p, Token.Crowded ts f p) → ∃ raw p, Token.FirstCrowded text ts raw p ∧
        flat.tokenize text = fail (.malformedOperand raw (some p))) := by
  refine ⟨fun p h => Context.tokenize_flat_error hs hn hf h, ?_⟩
  intro ts h
  rcases Context.tokenize_flat hs hn hf h with ⟨calm, same⟩ | ⟨raw, p, first, refused⟩
  · refine ⟨fun _ => same, ?_⟩
    rintro ⟨f, p, crowded⟩
    exact absurd crowded (calm f p)
  · obtain ⟨f, -, crowded⟩ := first.crowded
    exact ⟨fun calm => absurd crowded (calm f p), fun _ => ⟨raw, p, first, refused⟩⟩

/-- The name among the arguments of `sin(x)` is refused. -/
theorem tokenize_one_level_argument :
    let flat := Context.standard.setFlag Context.nestingFlag (.bool false)
    let ts := [Token.call .sin [.symbol .opening 3, .call .x [] 4, .symbol .closing 5] 0]
    flat.separators = Context.standard.separators ∧ Context.standard.nests = true ∧
      flat.nests = false ∧ Context.standard.tokenize "sin(x)" = .ok ts ∧
      ∃ raw, FunctionName.lookup? raw = some .x ∧
        flat.tokenize "sin(x)" = fail (.malformedOperand raw (some 4)) := by
  intro flat ts
  have nests : Context.standard.nests = true := by decide +kernel
  have off : flat.nests = false := by decide +kernel
  have cut : lexemes " \t\r\n,".toList.contains 0 "sin(x)".toList =
      [⟨.run "sin".toList, 0⟩, ⟨.sign .opening, 3⟩, ⟨.run "x".toList, 4⟩,
        ⟨.sign .closing, 5⟩] := by decide +kernel
  have tokens : Context.standard.tokenize "sin(x)" = .ok ts := by
    rw [Context.tokenize_eq_map_nested rfl nests, cut]
    have read : List.mapM Lexeme.read [⟨.run "sin".toList, 0⟩, ⟨.sign .opening, 3⟩,
        ⟨.run "x".toList, 4⟩, ⟨.sign .closing, 5⟩] =
        .ok [.call .sin [] 0, .symbol .opening 3, .call .x [] 4, .symbol .closing 5] := rfl
    rw [read]
    simp [ts, Token.nested, Token.splitClose]
  have inside : Token.Crowded ts .x 4 :=
    .inl ⟨.sin, _, 0, List.mem_cons_self, by simp [Token.flattenAll, Token.flatten]⟩
  obtain ⟨raw, p, first, refused⟩ :=
    ((@tokenize_one_level .standard flat rfl nests off "sin(x)").2 ts tokens).2 ⟨_, _, inside⟩
  obtain ⟨f, name, crowded⟩ := first.crowded
  have only : f = .x ∧ p = 4 := by
    rcases crowded with ⟨g, args, q, hcall, hname⟩ | ⟨ws, g, q, us, split⟩
    · obtain ⟨rfl, rfl, rfl⟩ := Token.call.inj (List.mem_singleton.mp hcall)
      simpa [Token.flattenAll, Token.flatten] using hname
    · rcases ws with _ | ⟨_, _ | ⟨_, _ | ⟨_, _ | ⟨_, ws⟩⟩⟩⟩ <;>
        simp [ts, Token.flattenAll, Token.flatten] at split
  obtain ⟨rfl, rfl⟩ := only
  exact ⟨rfl, nests, off, tokens, raw, name, refused⟩

/-- A name right after another is refused, though it is among no arguments. -/
theorem tokenize_names_in_a_row :
    let flat := Context.standard.setFlag Context.nestingFlag (.bool false)
    Context.standard.tokenize "x y" = .ok [.call .x [] 0, .call .y [] 2] ∧
      flat.tokenize "x y" = fail (.malformedOperand "y" (some 2)) := by
  intro flat
  have nests : Context.standard.nests = true := by decide +kernel
  have off : flat.nests = false := by decide +kernel
  have cut : lexemes " \t\r\n,".toList.contains 0 "x y".toList =
      [⟨.run "x".toList, 0⟩, ⟨.run "y".toList, 2⟩] := by decide +kernel
  refine ⟨?_, ?_⟩
  · rw [Context.tokenize_eq_map_nested rfl nests, cut]
    have read : List.mapM Lexeme.read [⟨.run "x".toList, 0⟩, ⟨.run "y".toList, 2⟩] =
        .ok [.call .x [] 0, .call .y [] 2] := rfl
    rw [read]
    simp [Token.nested]
  · rw [Context.tokenize_text rfl, off, Lexis.scan_eq_foldlM, cut]
    rfl

end Reckon
