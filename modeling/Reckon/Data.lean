import Reckon.Number.Layout
import Reckon.Table
import Reckon.Text.Quoted

/-!
Structured values: what a context file, a log record and a failure's details hold.
-/

namespace Reckon

inductive Data where
  | null
  | bool (b : Bool)
  | int (i : Int)
  | float (x : Float)
  | text (s : String)
  | list (items : List Data)
  | record (fields : List (String × Data))
  deriving Inhabited

namespace Data

/-- Whether a value counts as true: neither null nor false, zero or empty. -/
def truthy : Data → Bool
  | null => false
  | bool b => b
  | int i => i ≠ 0
  | float x => !(x == 0)
  | text s => !s.isEmpty
  | list items => !items.isEmpty
  | record fields => !fields.isEmpty

/-- What a value yields when its elements are listed: items, characters or keys. -/
def elements? : Data → Option (List Data)
  | list items => some items
  | text s => some (s.toList.map fun c => text (String.singleton c))
  | record fields => some (fields.map fun kv => text kv.1)
  | _ => none

/-- Whether a value is this text. -/
def isText (s : String) : Data → Bool
  | text t => t == s
  | _ => false

/-- Whether part of a text is this one. -/
def occursIn (part : List Char) : List Char → Bool
  | [] => part.isEmpty
  | c :: cs => part.isPrefixOf (c :: cs) || occursIn part cs

/-- The test whether a text is in this value: a part of a text, an item of a list, a key of a
record. No other value holds texts. -/
def holds? : Data → Option (String → Bool)
  | text s => some fun t => occursIn t.toList s.toList
  | list items => some fun t => items.any (isText t)
  | record fields => some fun t => fields.any fun kv => kv.1 == t
  | _ => none

mutual

/-- A value as it is spelled inside a message. -/
def spelled : Data → String
  | null => "None"
  | bool b => if b then "True" else "False"
  | int i => toString i
  | float x => Number.text x
  | text s => Text.quoted s
  | list items => "[" ++ ", ".intercalate (spelledItems items) ++ "]"
  | record fields => "\x7b" ++ ", ".intercalate (spelledFields fields) ++ "\x7d"

def spelledItems : List Data → List String
  | [] => []
  | d :: ds => d.spelled :: spelledItems ds

def spelledFields : List (String × Data) → List String
  | [] => []
  | (k, d) :: fs => (Text.quoted k ++ ": " ++ d.spelled) :: spelledFields fs

end

/-- Values between parentheses; a single one is followed by a comma. -/
def tuple : List Data → String
  | [d] => "(" ++ d.spelled ++ ",)"
  | ds => "(" ++ ", ".intercalate (spelledItems ds) ++ ")"

/-- A value put into running text: a text as it is, any other as it is spelled. -/
def plain : Data → String
  | text s => s
  | d => d.spelled

/-- A text or nothing. -/
def ofText? (s : Option String) : Data := s.elim null text

/-- A whole number or nothing. -/
def ofInt? (i : Option Int) : Data := i.elim null int

/-- Whether a value can be a key: neither a list nor a record. -/
def isKey : Data → Bool
  | list _ => false
  | record _ => false
  | _ => true

end Data
end Reckon
