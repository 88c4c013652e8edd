import Reckon.Text.CaseTable

/-!
Small letters of text. Every character is mapped on its own, except that a capital sigma becomes the
final form at the end of a word and `İ` becomes two characters.
-/

namespace Reckon.Text

/-- The small form of one character, sigma and `İ` apart. -/
def smallChar (c : Char) : Char :=
  if c.toNat < 0x80 then c.toLower
  else
    match smallForms.find? fun (first, last, step, _) =>
        first ≤ c.toNat && c.toNat ≤ last && (c.toNat - first) % step == 0 with
    | some (_, _, _, shift) => Char.ofNat (c.toNat + shift).toNat
    | none => c

def inRanges (ranges : List (Nat × Nat)) (c : Char) : Bool :=
  ranges.any fun r => r.1 ≤ c.toNat && c.toNat ≤ r.2

/-- Whether the first character that is not skipped is a letter with case. -/
def meetsCased (cs : List Char) : Bool :=
  match cs.dropWhile (inRanges ignorableRanges) with
  | [] => false
  | c :: _ => inRanges casedRanges c

/-- The small letters of `cs`, where `before` holds what precedes them, nearest first. -/
def smallFrom (before : List Char) : List Char → List Char
  | [] => []
  | c :: cs =>
    (if c.toNat = 0x3A3 then
      [if meetsCased before && !meetsCased cs then Char.ofNat 0x3C2 else Char.ofNat 0x3C3]
    else if c.toNat = 0x130 then ['i', Char.ofNat 0x307]
    else [smallChar c]) ++ smallFrom (c :: before) cs

/-- The text in small letters. -/
def small (s : String) : String := String.ofList (smallFrom [] s.toList)

end Reckon.Text
