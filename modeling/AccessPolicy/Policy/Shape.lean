import AccessPolicy.Dict
import AccessPolicy.Policy.Violation

/-!
# Shapes

A *shape* says what a part of a document has to be and what is made of it: a text, a path, a list,
a mapping from texts, or a record of named fields. What a shape makes of a value is *checked*: it is
there, or there is a list of everything that is wrong.

Checks of several parts are put together so that nothing of what is wrong gets lost (`both`,
`collect`): the items of a list by their index, the entries of a mapping in their order, and of an
entry the key before the value (`checkItems`, `checkEntries`). The fields of a record come in the
order in which the record declares them, wherever they stand in the mapping (`Fields.checkWith`).
-/

namespace AccessPolicy

open Document (Value)

/-! ## Checked parts -/

/-- What is made of a part, or everything that is wrong with it. -/
abbrev Checked (α : Type) := Except (List Violation) α

/-- What is wrong with a part. -/
def violations : Checked α → List Violation
  | .ok _ => []
  | .error found => found

/-- The check of a part, told from outside of that part. -/
def within (place : List PlaceStep) (r : Checked α) : Checked α :=
  r.mapError fun found => found.map (Violation.within place)

/-- Two parts together. -/
def both (f : α → β → γ) : Checked α → Checked β → Checked γ
  | .ok a, .ok b => .ok (f a b)
  | a, b => .error (violations a ++ violations b)

/-- Many parts together. -/
def collect : List (Checked α) → Checked (List α)
  | [] => .ok []
  | r :: rest => both List.cons r (collect rest)

/-- Checks the items of a list. -/
def checkItems (item : Value → Checked α) (items : List Value) : Checked (List α) :=
  collect (items.zipIdx.map fun (x, index) => within [.number index] (item x))

/-- Checks the entries of a mapping, the key of each before its value. -/
def checkEntries (key : Value → Checked String) (value : Value → Checked α)
    (entries : List (Value × Value)) : Checked (Dict α) :=
  (collect (entries.map fun (k, x) => both Prod.mk (within [PlaceStep.ofKey k, .key] (key k))
    (within [PlaceStep.ofKey k] (value x)))).map Dict.ofList

/-! ## Shapes -/

/-- The shape that a part of a document has to have for it to be made an `α`. -/
inductive Shape : Type → Type 1 where
  | text : Shape String
  | path : Shape String
  | list {α : Type} (item : Shape α) : Shape (List α)
  /-- A mapping whose keys are texts. -/
  | mapping {α : Type} (value : Shape α) : Shape (Dict α)

/-- Fields by name in the order of their declaration, each with what stands for it where it is left
out. -/
inductive Fields : Type → Type 1 where
  | nil : Fields Unit
  | field {α β : Type} (name : String) (shape : Shape α) (absent : α) (rest : Fields β) :
      Fields (α × β)

/-- The value under a name. -/
def field? (entries : List (Value × Value)) (name : String) : Option Value :=
  (entries.find? fun (key, _) => key.text? = some name).map Prod.snd

namespace Fields

/-- The names of the fields. -/
def names : {α : Type} → Fields α → List String
  | _, .nil => []
  | _, .field name _ _ rest => name :: rest.names

/-- Checks the fields one after the other. -/
def checkWith (check : {α : Type} → Shape α → Value → Checked α) :
    {α : Type} → Fields α → List (Value × Value) → Checked α
  | _, .nil, _ => .ok ()
  | _, .field name shape absent rest, entries =>
    both Prod.mk
      (match field? entries name with
        | some x => within [.name name] (check shape x)
        | none => .ok absent)
      (rest.checkWith check entries)

end Fields

/-- What is made of a mapping by its fields; entries under other names are kept by name only. -/
structure Record (α : Type) where
  fields : α
  extra : List String

/-- The names of the entries that are under no field. A key that is no text of its own counts by the
text that is made of it, and is never that of a field. -/
def extraNames (key : Value → Checked String) (names : List String)
    (entries : List (Value × Value)) : List String :=
  let isField (name : String) := names.contains name && (field? entries name).isSome
  ((entries.filterMap fun (k, _) => (key k).toOption).filter (!isField ·)).eraseDups

end AccessPolicy
