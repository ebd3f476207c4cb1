import AccessPolicy.Document.Decimal
import AccessPolicy.Document.Unfit

/-!
# What documents say

A document is a value: nothing, a truth value, a number, a date, a text, bytes, a sequence or a
mapping. Mappings keep the order of their entries and bind every key once; two keys are the same
when they are equal as values, and there `true` counts as one, `false` as zero, and a number with a
point as the integer that it may be.

A collection may hold itself. So a value shows a document down to some depth only, and a collection
below that is `deeper`.
-/

namespace AccessPolicy.Document

/-- A value that a document, or a part of one, stands for. -/
inductive Value where
  | null
  | bool (b : Bool)
  | int (n : Int)
  | decimal (d : Decimal)
  | date (m : Moment)
  | text (s : String)
  | bytes (bs : List UInt8)
  | sequence (items : List Value)
  | mapping (entries : List (Value × Value))
  /-- A collection whose parts are out of view. -/
  | deeper
  deriving Repr, Inhabited

namespace Value

/-- A truth value or an integer as an integer. -/
def integer? : Value → Option Int
  | .bool b => some (if b then 1 else 0)
  | .int n => some n
  | _ => none

/-- The text that a value is. -/
def text? : Value → Option String
  | .text s => some s
  | _ => none

/-- Whether a value may be a key: a collection may not. -/
def isKey : Value → Bool
  | .sequence _ | .mapping _ | .deeper => false
  | _ => true

/-- Whether two keys are the same. -/
def sameKey (a b : Value) : Bool :=
  match a, b with
  | .null, .null => true
  | .text s, .text t => s == t
  | .bytes s, .bytes t => s == t
  | .date s, .date t => s.same t
  | .decimal (.finite _ 0 _), .decimal (.finite _ 0 _) => true
  | .decimal c, .decimal d => c == d
  | .decimal d, other | other, .decimal d =>
    match other.integer? with
    | some n => d.isInt n
    | none => false
  | a, b =>
    match a.integer?, b.integer? with
    | some m, some n => m == n
    | _, _ => false

/-- Binds a key: in its place when it is bound already, at the end otherwise. -/
def bind (key : Value) (value : α) : List (Value × α) → List (Value × α)
  | [] => [(key, value)]
  | (k, v) :: rest => if sameKey k key then (k, value) :: rest else (k, v) :: bind key value rest

/-- One byte as it is shown between two `quote`s. -/
def byteText (quote : Char) (b : UInt8) : List Char :=
  if b < 0x80 then
    let c := Char.ofNat b.toNat
    Text.escapeChar quote c
  else Text.codePointEscape b.toNat

/-- Bytes as they are shown: between quotes, as characters where these are ASCII. -/
def bytesText (bs : List UInt8) : String :=
  let quote := Text.quoteFor (bs.map fun b => Char.ofNat b.toNat)
  String.ofList ('b' :: quote :: bs.flatMap (byteText quote) ++ [quote])

/-- An integer as it is shown; one of too many digits is not. -/
def integerText (n : Int) : String :=
  let digits := toString n.natAbs
  if digitLimit < digits.length then "<unprintable int object>"
  else if n < 0 then "-" ++ digits
  else digits

/-- What a value is shown as, where it is a key: nothing else needs to be. -/
def keyText : Value → String
  | .text s => s
  | .bytes bs => bytesText bs
  | .bool b => if b then "True" else "False"
  | .int n => integerText n
  | .decimal d => d.text
  | .date m => m.text
  | .null | .sequence _ | .mapping _ | .deeper => "None"

end Value
end AccessPolicy.Document
