/-!
Lines of text, each ended by a line feed. Main statement: a text without line feeds is one line
(`linesFrom_of_no_feed`).
-/

namespace Reckon.Text

/-- The lines of `cs`, where `before` holds the current line so far, its latest character first. -/
def linesFrom (before : List Char) : List Char → List (List Char)
  | [] => if before.isEmpty then [] else [before.reverse]
  | c :: cs => if c = '\n' then before.reverse :: linesFrom [] cs else linesFrom (c :: before) cs

/-- The lines of a text, without their ends. -/
def lines (s : String) : List String := (linesFrom [] s.toList).map String.ofList

/-- The characters with a line feed for every carriage return, alone or before a line feed. -/
def feeds : List Char → List Char
  | [] => []
  | '\r' :: '\n' :: cs => '\n' :: feeds cs
  | c :: cs => (if c = '\r' then '\n' else c) :: feeds cs

theorem linesFrom_of_no_feed {before cs : List Char} (h : '\n' ∉ cs)
    (hne : before ≠ [] ∨ cs ≠ []) : linesFrom before cs = [before.reverse ++ cs] := by
  induction cs generalizing before with
  | nil => simp_all [linesFrom]
  | cons c cs ih =>
    have hc : c ≠ '\n' := fun he => h (by simp [he])
    rw [linesFrom, if_neg hc, ih (fun hm => h (by simp [hm])) (by simp)]
    simp

end Reckon.Text
