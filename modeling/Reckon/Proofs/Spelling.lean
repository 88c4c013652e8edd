import Reckon.Proofs.Lexeme

/-!
Spellings: the texts that a sequence of marks can be written as. Separators may stand anywhere
between marks and must stand between two runs, which would else be one. Main statement: cutting a
text gives back the marks that it spells (`map_mark_lexemes`).
-/

namespace Reckon

/-- Whether marks whose first may be a run can be written as these characters after a run: a
separator comes first then. -/
def Apart (separates : Char → Bool) (ms : List Mark) (cs : List Char) : Prop :=
  ∀ r rest, ms = .run r :: rest → ∃ c ds, cs = c :: ds ∧ separates c = true

/-- The characters spell the marks: each mark in turn, with any separators before, between and
after them, and with at least one between two runs. -/
inductive Spelled (separates : Char → Bool) : List Mark → List Char → Prop where
  | nil (gap : List Char) : (∀ c ∈ gap, separates c = true) → Spelled separates [] gap
  | sign (gap : List Char) (s : Symbol) {ms : List Mark} {cs : List Char} :
    (∀ c ∈ gap, separates c = true) → Spelled separates ms cs →
    Spelled separates (.sign s :: ms) (gap ++ s.char :: cs)
  | run (gap r : List Char) {ms : List Mark} {cs : List Char} :
    (∀ c ∈ gap, separates c = true) → Apart separates ms cs → Spelled separates ms cs →
    Spelled separates (.run r :: ms) (gap ++ (r ++ cs))

/-- The runs among the marks have characters, and all of these go on runs. -/
def Runs (separates : Char → Bool) (ms : List Mark) : Prop :=
  ∀ r, Mark.run r ∈ ms → r ≠ [] ∧ ∀ c ∈ r, inRun separates c = true

namespace Runs
variable {separates : Char → Bool} {ms ns : List Mark}

theorem nil : Runs separates [] := by simp [Runs]

theorem append (hm : Runs separates ms) (hn : Runs separates ns) : Runs separates (ms ++ ns) := by
  intro r hr
  rcases List.mem_append.mp hr with h | h
  · exact hm r h
  · exact hn r h

theorem sign (s : Symbol) (h : Runs separates ms) : Runs separates (.sign s :: ms) := by
  intro r hr
  exact h r (by simpa using hr)

theorem run {r : List Char} (hr : r ≠ []) (hin : ∀ c ∈ r, inRun separates c = true)
    (h : Runs separates ms) : Runs separates (.run r :: ms) := by
  intro s hs
  rcases List.mem_cons.mp hs with hs | hs
  · obtain rfl := Mark.run.inj hs
    exact ⟨hr, hin⟩
  · exact h s hs

theorem tail {m : Mark} (h : Runs separates (m :: ms)) : Runs separates ms := by
  intro r hr
  exact h r (List.mem_cons_of_mem _ hr)

end Runs

section Cutting
variable {separates : Char → Bool}

theorem lexemes_gap {gap : List Char} (h : ∀ c ∈ gap, separates c = true) (pos : Nat)
    (cs : List Char) :
    lexemes separates pos (gap ++ cs) = lexemes separates (pos + gap.length) cs := by
  induction gap generalizing pos with
  | nil => rfl
  | cons c gap ih =>
    obtain ⟨hc, hgap⟩ := List.forall_mem_cons.mp h
    have place : pos + 1 + gap.length = pos + (gap.length + 1) := by omega
    rw [List.cons_append, lexemes, if_pos hc, ih hgap, List.length_cons, place]

theorem lexemes_sign {s : Symbol} (h : separates s.char = false) (pos : Nat) (cs : List Char) :
    lexemes separates pos (s.char :: cs) = ⟨.sign s, pos⟩ :: lexemes separates (pos + 1) cs := by
  rw [lexemes, if_neg (by simp [h]), Symbol.ofChar?_char]

theorem lexemes_run {r cs : List Char} (hr : r ≠ []) (hin : ∀ c ∈ r, inRun separates c = true)
    (hcs : ∀ c ds, cs = c :: ds → inRun separates c = false) (pos : Nat) :
    lexemes separates pos (r ++ cs) = ⟨.run r, pos⟩ :: lexemes separates (pos + r.length) cs := by
  obtain ⟨c, r, rfl⟩ := List.exists_cons_of_ne_nil hr
  obtain ⟨hfirst, hrest⟩ := List.forall_mem_cons.mp hin
  have hc : separates c = false ∧ Symbol.ofChar? c = none := by simpa [inRun] using hfirst
  have taken : cs.takeWhile (inRun separates) = [] ∧ cs.dropWhile (inRun separates) = cs := by
    cases cs with
    | nil => exact ⟨rfl, rfl⟩
    | cons d ds => simp [hcs d ds rfl]
  rw [List.cons_append, lexemes, if_neg (by simp [hc.1])]
  have place : pos + 1 + r.length = pos + (r.length + 1) := by omega
  simp only [hc.2, List.takeWhile_append_of_pos hrest, List.dropWhile_append_of_pos hrest, taken,
    List.append_nil, List.length_cons, place]

/-- What follows a run in a spelling ends it. -/
theorem Spelled.ends_run {ms : List Mark} {cs : List Char} (h : Spelled separates ms cs)
    (ha : Apart separates ms cs) (c : Char) (ds : List Char) (hcs : cs = c :: ds) :
    inRun separates c = false := by
  cases h with
  | nil gap hgap => exact inRun_of_separates (hgap c (by simp [hcs]))
  | sign gap s hgap _ =>
    -- the first separator ends the run, or else the sign does
    cases gap with
    | nil =>
      obtain ⟨rfl, -⟩ := List.cons.inj hcs
      exact inRun_of_sign (Symbol.ofChar?_char s)
    | cons d gap =>
      obtain ⟨rfl, -⟩ := List.cons.inj hcs
      exact inRun_of_separates (hgap d List.mem_cons_self)
  | run gap r _ _ _ =>
    -- nothing but a separator parts two runs
    obtain ⟨d, es, hd, hs⟩ := ha r _ rfl
    obtain ⟨rfl, -⟩ := List.cons.inj (hcs.symm.trans hd)
    exact inRun_of_separates hs

/-- Cutting a text gives back the marks it spells, if no sign is a separator and runs are made of
what goes on runs. -/
theorem Spelled.map_mark_lexemes (signs : ∀ s : Symbol, separates s.char = false)
    {ms : List Mark} {cs : List Char} (h : Spelled separates ms cs)
    (runs : Runs separates ms) (pos : Nat) :
    (lexemes separates pos cs).map Lexeme.mark = ms := by
  induction h generalizing pos with
  | nil gap hgap =>
    have h := lexemes_gap hgap pos []
    rw [List.append_nil] at h
    rw [h]
    simp [lexemes]
  | sign gap s hgap _ ih =>
    rw [lexemes_gap hgap, lexemes_sign (signs s), List.map_cons, ih runs.tail]
  | run gap r hgap ha hs ih =>
    obtain ⟨hr, hin⟩ := runs r List.mem_cons_self
    rw [lexemes_gap hgap, lexemes_run hr hin (hs.ends_run ha), List.map_cons, ih runs.tail]

end Cutting

end Reckon
