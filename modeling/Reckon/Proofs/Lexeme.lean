import Reckon.Calculator
import Reckon.Proofs.Outcome

/-!
Lexemes: what a text is cut into before any call is nested. A sign is a lexeme of its own, and
between signs and separators every longest run of other characters is one. The scanner buffers one
character after the other and hands a run on only when something ends it; a lexeme is cut off
whole. Main statement: the scanner takes the lexemes of a text in turn (`scan_eq_foldlM`), and where
calls may nest it reads them all first and pushes what they read as (`scan_eq_mapM`).
-/

namespace Reckon

/-- What a lexeme shows: a sign, or a run of characters. -/
inductive Mark where
  | sign (s : Symbol)
  | run (cs : List Char)
  deriving DecidableEq, Repr

/-- A mark and where it begins. -/
structure Lexeme where
  mark : Mark
  pos : Nat
  deriving DecidableEq, Repr

/-- Whether a character goes on a run: it is neither a separator nor a sign. -/
def inRun (separates : Char → Bool) (c : Char) : Bool :=
  !separates c && (Symbol.ofChar? c).isNone

/-- The lexemes of the characters from `pos` on. -/
def lexemes (separates : Char → Bool) (pos : Nat) : List Char → List Lexeme
  | [] => []
  | c :: cs =>
    if separates c then lexemes separates (pos + 1) cs
    else
      match Symbol.ofChar? c with
      | some s => ⟨.sign s, pos⟩ :: lexemes separates (pos + 1) cs
      | none =>
        let rest := cs.takeWhile (inRun separates)
        ⟨.run (c :: rest), pos⟩ ::
          lexemes separates (pos + 1 + rest.length) (cs.dropWhile (inRun separates))
  termination_by cs => cs.length
  decreasing_by
    · simp
    · simp
    · exact Nat.lt_succ_of_le (List.dropWhile_suffix _).length_le

/-- What a mark at `pos` reads as on its own: a sign, a number, or a name that has no arguments
yet. -/
def Mark.read (pos : Int) : Mark → Except Failure Token
  | .sign s => .ok (.symbol s pos)
  | .run cs =>
    match FunctionName.lookup? (String.ofList cs) with
    | some f => .ok (.call f [] pos)
    | none => (literal (String.ofList cs) (some pos)).map fun x => .operand x pos

def Lexeme.read (l : Lexeme) : Except Failure Token := l.mark.read l.pos

namespace Nest

/-- Takes one lexeme. -/
def take (nests : Bool) (n : Nest) (l : Lexeme) : Except Failure Nest :=
  match l.mark with
  | .sign s => .ok (n.symbol s l.pos)
  | .run cs => Scan.word nests (String.ofList cs) l.pos n

/-- Takes one token that was read on its own. -/
def push (n : Nest) : Token → Nest
  | .operand x pos => n.operand x pos
  | .symbol s pos => n.symbol s pos
  | .call f _ pos => n.call f pos

theorem take_nesting (n : Nest) (l : Lexeme) : n.take true l = l.read.map n.push := by
  obtain ⟨mark, pos⟩ := l
  cases mark with
  | sign s => rfl
  | run cs =>
    simp only [take, Lexeme.read, Mark.read, Scan.word]
    cases FunctionName.lookup? (String.ofList cs) with
    | some f => rfl
    | none => cases literal (String.ofList cs) (some (pos : Int)) <;> rfl

theorem foldlM_take_nesting (n : Nest) (ls : List Lexeme) :
    ls.foldlM (take true) n = (ls.mapM Lexeme.read).map (·.foldl push n) := by
  induction ls generalizing n with
  | nil => rfl
  | cons l ls ih =>
    rw [List.foldlM_cons, List.mapM_cons, take_nesting]
    cases l.read with
    | error f => rfl
    | ok t =>
      simp only [map_ok, ok_bind, ih]
      cases ls.mapM Lexeme.read <;> rfl

end Nest

/-! ## The scanner's buffer -/

section Buffer
variable {separates : Char → Bool} {c : Char}

theorem inRun_of_separates (h : separates c) : inRun separates c = false := by simp [inRun, h]

theorem inRun_of_sign {s : Symbol} (h : Symbol.ofChar? c = some s) :
    inRun separates c = false := by simp [inRun, h]

theorem inRun_of_other (hc : ¬separates c) (hs : Symbol.ofChar? c = none) :
    inRun separates c = true := by simp [inRun, hc, hs]

/-- The lexemes a scan has still to take: those of the characters to come, the first of which may
be the rest of the run it has begun. -/
def Scan.pending (separates : Char → Bool) (s : Scan) (pos : Nat) (cs : List Char) : List Lexeme :=
  if s.run.isEmpty then lexemes separates pos cs
  else
    let rest := cs.takeWhile (inRun separates)
    ⟨.run (s.run.reverse ++ rest), s.start⟩ ::
      lexemes separates (pos + rest.length) (cs.dropWhile (inRun separates))

/-- What ends a run leaves the lexemes after it. -/
theorem Scan.pending_of_end (s : Scan) (pos : Nat) (cs : List Char)
    (hc : inRun separates c = false) :
    s.pending separates pos (c :: cs) =
      (if s.run.isEmpty then [] else [⟨.run s.run.reverse, s.start⟩]) ++
        lexemes separates pos (c :: cs) := by
  unfold pending
  split <;> simp [hc]

/-- Ending the run takes its lexeme. -/
theorem Scan.flush_eq (nests : Bool) (s : Scan) :
    s.flush nests =
      ((if s.run.isEmpty then [] else [⟨.run s.run.reverse, s.start⟩] : List Lexeme).foldlM
        (Nest.take nests) s.nest).map fun n => ⟨n, [], s.start⟩ := by
  unfold flush
  split
  · next h =>
    obtain ⟨n, run, start⟩ := s
    obtain rfl : run = [] := by simpa using h
    rfl
  · simp only [List.foldlM_cons, List.foldlM_nil, Nest.take]
    cases word nests (String.ofList s.run.reverse) s.start s.nest <;> rfl

theorem Scan.pending_flushed (n : Nest) (start pos : Nat) (cs : List Char) :
    Scan.pending separates ⟨n, [], start⟩ pos cs = lexemes separates pos cs := rfl

end Buffer

theorem Scan.consume_eq (lexis : Lexis) (pos : Nat) (cs : List Char) (s : Scan) :
    Scan.consume lexis pos cs s =
      ((s.pending lexis.separates pos cs).foldlM (Nest.take lexis.nests) s.nest).map
        Nest.finish := by
  -- what is pending says what the buffer holds, so the induction is for any buffer
  induction cs generalizing pos s with
  | nil =>
    rw [consume, flush_eq]
    unfold pending
    split
    · simp [lexemes]
    · simp only [lexemes, List.foldlM_cons, List.foldlM_nil, List.takeWhile_nil, List.append_nil,
        List.dropWhile_nil]
      cases Nest.take lexis.nests s.nest _ <;> rfl
  | cons c cs ih =>
    rw [consume, feed]
    split
    · next hc =>
      rw [pending_of_end s pos cs (inRun_of_separates hc), lexemes, if_pos hc, flush_eq,
        List.foldlM_append]
      cases List.foldlM (Nest.take lexis.nests) s.nest _ with
      | error f => rfl
      | ok n => simp [ih, pending_flushed]
    · next hc =>
      split
      · next sign hs =>
        rw [pending_of_end s pos cs (inRun_of_sign hs), lexemes, if_neg hc, flush_eq,
          List.foldlM_append]
        simp only [hs]
        cases List.foldlM (Nest.take lexis.nests) s.nest _ with
        | error f => rfl
        | ok n => simp [ih, pending_flushed, Nest.take]
      · next hs =>
        -- the character goes into the buffer, and nothing that is pending changes
        have hr : inRun lexis.separates c = true := inRun_of_other hc hs
        rw [ok_bind, ih]
        congr 2
        unfold pending
        by_cases h : s.run.isEmpty
        · obtain hrun : s.run = [] := by simpa using h
          rw [lexemes, if_neg hc]
          simp [hs, hrun]
        · simp [h, hr, Nat.add_assoc, Nat.add_comm 1]

/-- The scanner takes the lexemes of a text in turn. -/
theorem Lexis.scan_eq_foldlM (lexis : Lexis) (cs : List Char) :
    lexis.scan cs =
      ((lexemes lexis.separates 0 cs).foldlM (Nest.take lexis.nests) .empty).map Nest.finish :=
  Scan.consume_eq lexis 0 cs .initial

/-- Where calls may nest, whether a lexeme can be read does not depend on the others. -/
theorem Lexis.scan_eq_mapM {lexis : Lexis} (h : lexis.nests = true) (cs : List Char) :
    lexis.scan cs =
      ((lexemes lexis.separates 0 cs).mapM Lexeme.read).map fun ts =>
        (ts.foldl Nest.push .empty).finish := by
  rw [scan_eq_foldlM, h, Nest.foldlM_take_nesting]
  cases (lexemes lexis.separates 0 cs).mapM Lexeme.read <;> rfl

/-! ## Under a context -/

theorem occursIn_singleton (c : Char) (cs : List Char) :
    Data.occursIn [c] cs = cs.contains c := by
  induction cs with
  | nil => rfl
  | cons d cs ih =>
    rw [List.contains_cons, ← ih]
    simp [Data.occursIn, List.isPrefixOf]

/-- A context whose separators are a text separates at the characters of that text. -/
theorem Context.tokenize_text {ctx : Context} {separators : String}
    (h : ctx.separators = .text separators) (text : String) :
    ctx.tokenize text =
      (Lexis.scan ⟨separators.toList.contains, ctx.nests⟩ text.toList).mapError .failure := by
  have separates : (fun c => Data.occursIn (String.singleton c).toList separators.toList) =
      separators.toList.contains := by
    funext c
    rw [String.toList_singleton, occursIn_singleton]
  have hl : ctx.lexis (fun t => Data.occursIn t.toList separators.toList) =
      ⟨separators.toList.contains, ctx.nests⟩ := by
    rw [lexis, separates]
  simp only [tokenize, h, Data.holds?, hl]

/-- Under a context whose calls may nest, a text is read lexeme by lexeme and then nested. -/
theorem Context.tokenize_nesting {ctx : Context} {separators : String}
    (h : ctx.separators = .text separators) (hn : ctx.nests = true) (text : String) :
    ctx.tokenize text =
      (((lexemes separators.toList.contains 0 text.toList).mapM Lexeme.read).map fun ts =>
        (ts.foldl Nest.push .empty).finish).mapError .failure := by
  rw [tokenize_text h, Lexis.scan_eq_mapM hn]

end Reckon
