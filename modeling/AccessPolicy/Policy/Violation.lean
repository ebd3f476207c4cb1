import AccessPolicy.Document.Value

/-!
# What is wrong with documents

A document is first read as a value and then checked against the shape that is needed. The check
does not stop at the first part that does not fit: it reports every *violation*, each with its
place. A place is told by the steps to it, from the whole document or from a part that one is in
(`Violation.within`).
-/

namespace AccessPolicy

open Document (Value)

/-- What is wrong with a part of a document. -/
inductive ViolationKind where
  | notMapping
  | notText
  /-- Bytes that encode no text. -/
  | notUnicode
  | notSequence
  | notPath
  | notRecord
  | keyNotText
  deriving DecidableEq, Repr

/-- What is wrong with a value that should be a text, and is not made one. -/
def ViolationKind.ofNoText : Value → ViolationKind
  | .bytes _ => .notUnicode
  | _ => .notText

/-- The word for what is wrong. -/
def ViolationKind.code : ViolationKind → String
  | .notMapping => "dict_type"
  | .notText => "string_type"
  | .notUnicode => "string_unicode"
  | .notSequence => "list_type"
  | .notPath => "path_type"
  | .notRecord => "model_type"
  | .keyNotText => "invalid_key"

/-- A step on the way to a part of a document. -/
inductive PlaceStep where
  | name (s : String)
  | number (n : Int)
  deriving DecidableEq, Repr

/-- Something wrong, and the way to it. -/
structure Violation where
  kind : ViolationKind
  place : List PlaceStep
  deriving DecidableEq, Repr

/-- A violation within a part, told from outside of that part. -/
def Violation.within (place : List PlaceStep) (violation : Violation) : Violation :=
  ⟨violation.kind, place ++ violation.place⟩

namespace PlaceStep

/-- The step that leads from an entry to its key. -/
def key : PlaceStep := .name "[key]"

/-- Whether an integer has 64 bits. -/
def isSmall (n : Int) : Bool := -Int.pow 2 63 ≤ n && n < Int.pow 2 63

/-- The step to the entry of a key: small integers are numbers, as truth values are, and all else
is written out. -/
def ofKey : Value → PlaceStep
  | .bool b => .number (if b then 1 else 0)
  | .int n => if isSmall n then .number n else .name (Value.int n).keyText
  | key => .name key.keyText

end PlaceStep
end AccessPolicy
