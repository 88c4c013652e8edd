import Reckon.Failure

/-!
Messages: a template whose marks `%s`, `%d` and `%%` take the arguments in order. Without arguments
a template is a message as it stands.
-/

namespace Reckon

structure Message where
  template : String
  args : List Data

namespace Message

/-- A number without its fraction, as `%d` writes it. -/
def wholeOf : Data → Except Fault Int
  | .int i => .ok i
  | .bool b => .ok (if b then 1 else 0)
  | .float x =>
    match Number.Binary.ofFloat x with
    | .finite negative m q =>
      let n : Nat := m * Nat.pow 2 q.toNat / Nat.pow 2 (-q).toNat
      .ok (if negative then -(n : Int) else n)
    | .infinite _ => .error (.tooLarge .whole)
    | .nan => .error .notWhole
  | _ => .error .wrongType

/-- Fills the marks of a template; every argument must be used unless `spare` allows some left. -/
def fill (spare : Bool) : List Char → List Data → Except Fault String
  | [], args => if args.isEmpty || spare then .ok "" else .error .wrongType
  | '%' :: '%' :: cs, args => ("%" ++ ·) <$> fill spare cs args
  | '%' :: 's' :: cs, d :: args => (d.plain ++ ·) <$> fill spare cs args
  | '%' :: 'd' :: cs, d :: args => do
    let n ← wholeOf d
    (toString n ++ ·) <$> fill spare cs args
  | ['%'], _ => .error .incompleteMark
  | '%' :: _, _ => .error .wrongType
  | c :: cs, args => (String.singleton c ++ ·) <$> fill spare cs args

/-- The filled template. A single record that is not empty names values and may stay unused. -/
def text (m : Message) : Except Fault String :=
  match m.args with
  | [] => .ok m.template
  | [.record (_ :: _)] => fill true m.template.toList m.args
  | _ => fill false m.template.toList m.args

end Message
end Reckon
