import Reckon.Data

/-!
Data as JSON text on one line: a blank after each comma and colon, and nothing but printable ASCII.
-/

namespace Reckon.Data

/-- A code unit of sixteen bits. -/
def jsonUnit (n : Nat) : List Char := '\\' :: 'u' :: Text.hexDigits 4 n

/-- A code point beyond the first plane, as two units. -/
def jsonPair (n : Nat) : List Char :=
  jsonUnit (0xD800 + (n - 0x10000) / 0x400) ++ jsonUnit (0xDC00 + (n - 0x10000) % 0x400)

/-- One character inside a JSON string. -/
def jsonChar (c : Char) : List Char :=
  if c = '"' ∨ c = '\\' then ['\\', c]
  else if c = '\n' then ['\\', 'n']
  else if c = '\r' then ['\\', 'r']
  else if c = '\t' then ['\\', 't']
  else if c = '\x08' then ['\\', 'b']
  else if c = '\x0c' then ['\\', 'f']
  else if 0x20 ≤ c.toNat ∧ c.toNat < 0x7F then [c]
  else if c.toNat < 0x10000 then jsonUnit c.toNat
  else jsonPair c.toNat

def jsonText (s : String) : String :=
  String.ofList ('"' :: (s.toList.flatMap jsonChar ++ ['"']))

mutual

def json : Data → String
  | null => "null"
  | bool b => if b then "true" else "false"
  | int i => toString i
  | float x => Number.logged.write x
  | text s => jsonText s
  | list items => "[" ++ ", ".intercalate (jsonItems items) ++ "]"
  | record fields => "\x7b" ++ ", ".intercalate (jsonFields fields) ++ "\x7d"

def jsonItems : List Data → List String
  | [] => []
  | d :: ds => d.json :: jsonItems ds

def jsonFields : List (String × Data) → List String
  | [] => []
  | (k, d) :: fs => (jsonText k ++ ": " ++ d.json) :: jsonFields fs

end

end Reckon.Data
