/-!
Paths: their components, and the places they lead to when nothing on the way is a link. A place is
given by the components above it, the nearest first.
-/

namespace Reckon.Text

/-- Whether a component names nothing by itself: it stays where it is or goes up. -/
def isStep (component : String) : Bool := component == "" || component == "." || component == ".."

/-- Whether a component is longer than a name can be. -/
def isLongName (component : String) : Bool := 255 < component.utf8ByteSize

/-- Whether a path is longer than one can be. -/
def isLongPath (path : String) : Bool := 4095 < path.utf8ByteSize

/-- What stands between slashes. -/
def parts : List Char → List (List Char)
  | [] => [[]]
  | c :: cs =>
    if c = '/' then [] :: parts cs
    else
      match parts cs with
      | [] => [[c]]
      | p :: ps => (c :: p) :: ps

/-- The components of a path in turn. -/
def components (path : String) : List String := (parts path.toList).map String.ofList

/-- The components of a path that lead somewhere else. -/
def moves (path : String) : List String := (components path).filter fun c => c ≠ "" ∧ c ≠ "."

/-- Where a component leads to. Above the directory that paths begin in, double dots pile up; above
the root there is nothing. -/
def step (place : List String) (component : String) : List String :=
  if component = "" ∨ component = "." then place
  else if component = ".." then
    match place with
    | ["/"] => ["/"]
    | [] | ".." :: _ => ".." :: place
    | _ :: above => above
  else component :: place

/-- The place a path begins at. -/
def start (path : String) : List String := if path.toList.head? = some '/' then ["/"] else []

/-- The place a path leads to. -/
def place (path : String) : List String := (moves path).foldl step (start path)

/-- The places that components pass, from the first one to the last. -/
def trail (place : List String) : List String → List (List String)
  | [] => [place]
  | c :: cs => place :: trail (step place c) cs

/-- The components of a path that stays below the directory it begins in. -/
def components? (path : String) : Option (List String) :=
  match (place path).reverse with
  | "/" :: _ | ".." :: _ => none
  | cs => some cs

/-- Whether a path is too long to be written to: a component is, or what comes before the last one,
or the way to its place. -/
def isTooLong (path : String) : Bool :=
  let cs := moves path
  cs.any isLongName || isLongPath ("/".intercalate cs.dropLast) ||
    isLongPath ("/".intercalate (place path).reverse)

/-- Whether components lead from a place to a directory, once every place before the last component
is made one. -/
def isDirectory (place : List String) (cs : List String) : Bool :=
  let last := cs.foldl step place
  last.all (fun c => c == ".." || c == "/") || (trail place cs.dropLast).contains last

example : isDirectory [] ["a", "..", "a"] = true := by decide
example : isDirectory [] ["a", "..", "b", "c"] = false := by decide
example : isDirectory [] [".."] = true := by decide

/-- Whether a path that is written to leads to a directory. -/
def endsAtDirectory (path : String) : Bool := isDirectory (start path) (moves path)

/-- The last component, without its last extension. Leading dots begin no extension. -/
def stem (path : String) : String :=
  let name := (components path).getLast?.getD ""
  let cs := name.toList
  let dots := cs.takeWhile (· == '.')
  let body := cs.dropWhile (· == '.')
  if body.contains '.' then
    String.ofList (dots ++ (body.reverse.dropWhile (· != '.')).tail.reverse)
  else name

end Reckon.Text
