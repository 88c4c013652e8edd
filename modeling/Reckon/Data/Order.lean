import Reckon.Data

/-!
The order of values: numbers and truth values by their exact amount, texts by code points, lists
item by item. All other values, and values of two types, have none. Main statement: whole numbers
stand in their own order (`relation?_int`).
-/

namespace Reckon

/-- How one value stands to another. -/
inductive Relation where
  | less
  | equal
  | greater
  /-- One of the two is no number, though it is of a number's type. -/
  | unordered
  deriving DecidableEq, Repr

namespace Relation

def ofInts (a b : Int) : Relation :=
  if a < b then less else if a = b then equal else greater

theorem ofInts_less (a b : Int) : (ofInts a b == less) = decide (a < b) := by
  unfold ofInts
  split
  · next h => simp [h]
  · next h => split <;> simp [h]

theorem ofInts_equal (a b : Int) : (ofInts a b == equal) = decide (a = b) := by
  unfold ofInts
  split
  · next h => simp [Int.ne_of_lt h]
  · split
    · next h => simp [h]
    · next h => simp [h]

theorem ofInts_greater (a b : Int) : (ofInts a b == greater) = decide (b < a) := by
  unfold ofInts
  split
  · next h => simp [Int.lt_asymm h]
  · split
    · next h => simp [h]
    · have h : b < a := by omega
      simp [h]

end Relation

/-- What a number is exactly. -/
inductive Amount where
  /-- The number `numerator / 2 ^ halvings`. -/
  | finite (numerator : Int) (halvings : Nat)
  | infinite (negative : Bool)
  | nan
  deriving DecidableEq, Repr

namespace Amount

def ofInt (i : Int) : Amount := finite i 0

def ofFloat (x : Float) : Amount :=
  match Number.Binary.ofFloat x with
  | .nan => nan
  | .infinite negative => infinite negative
  | .finite negative m q =>
    let n : Int := (m * Nat.pow 2 q.toNat : Nat)
    finite (if negative then -n else n) (-q).toNat

def relation : Amount → Amount → Relation
  | finite a j, finite b k => .ofInts (a * Int.pow 2 k) (b * Int.pow 2 j)
  | infinite m, infinite n => if m = n then .equal else if m then .less else .greater
  | infinite m, finite .. => if m then .less else .greater
  | finite .., infinite n => if n then .greater else .less
  | _, _ => .unordered

end Amount

namespace Data

/-- The amount of a number; a truth value counts one or zero. -/
def amount? : Data → Option Amount
  | bool b => some (.ofInt (if b then 1 else 0))
  | int i => some (.ofInt i)
  | float x => some (.ofFloat x)
  | _ => none

/-- The whole number that a value amounts to. -/
def whole? (d : Data) : Option Int :=
  match d.amount? with
  | some (.finite n k) => if n % Int.pow 2 k = 0 then some (n / Int.pow 2 k) else none
  | _ => none

/-- Whether two values are numbers of one amount. -/
def sameAmount (a b : Data) : Bool :=
  match a.amount?, b.amount? with
  | some x, some y => x.relation y == .equal
  | _, _ => false

mutual

/-- Whether two values are equal: numbers by amount, records whatever the order of their fields. -/
def same : Data → Data → Bool
  | null, null => true
  | text s, text t => s == t
  | list as, list bs => sameItems as bs
  | record fs, record gs => fs.length == gs.length && sameFields gs fs
  | bool a, d => sameAmount (bool a) d
  | int a, d => sameAmount (int a) d
  | float a, d => sameAmount (float a) d
  | _, _ => false

def sameItems : List Data → List Data → Bool
  | [], [] => true
  | a :: as, b :: bs => same a b && sameItems as bs
  | _, _ => false

/-- Whether each of some fields has an equal in `gs`. -/
def sameFields (gs : Table Data) : List (String × Data) → Bool
  | [] => true
  | (k, d) :: fs => ((gs.value? k).elim false fun e => same d e) && sameFields gs fs

end

mutual

/-- How two values stand to each other, if their types have an order. -/
def relation? : Data → Data → Option Relation
  | int a, int b => some (.ofInts a b)
  | text s, text t => some (if s < t then .less else if s = t then .equal else .greater)
  | list as, list bs => itemsRelation? as bs
  | a, b =>
    match a.amount?, b.amount? with
    | some x, some y => some (x.relation y)
    | _, _ => none

/-- The first items that differ decide, or else the lengths. -/
def itemsRelation? : List Data → List Data → Option Relation
  | [], [] => some .equal
  | [], _ => some .less
  | _, [] => some .greater
  | a :: as, b :: bs => if same a b then itemsRelation? as bs else relation? a b

end

theorem relation?_int (a b : Int) : relation? (int a) (int b) = some (.ofInts a b) := by
  simp [relation?]

theorem same_int (a b : Int) : same (int a) (int b) = decide (a = b) := by
  have unit : Int.pow 2 0 = 1 := rfl
  simp only [same, sameAmount, amount?, Amount.ofInt, Amount.relation, Relation.ofInts, unit]
  grind

end Data
end Reckon
