import AccessPolicy.Document.Load
import AccessPolicy.Loader

/-!
# The loader of the program

Documents are read as `Document.load` does, and shapes are checked by recursion on the shape
(`Shape.check`). Bytes count as the text that they encode; nothing else is converted: a number is no
text.
-/

namespace AccessPolicy

open Document (Value Malformed)

/-- What a text that gives no value ends the reading with. -/
def Document.Malformed.readError : Malformed → ReadError
  | .unfit why => .unfit why.message
  | .emptyNumber => .stray .missingItem "string index out of range"
  | .noTruthValue word => .stray .missingKey (Text.quote word)
  | .noDate => .stray .missingAttribute "'NoneType' object has no attribute 'groupdict'"
  | .dateMapping => .stray .wrongType "expected string or bytes-like object, got 'list'"
  | .tooManyPlaces => .stray .tooLarge "int too large to convert to float"
  | .escapeTooLarge => .stray .tooLarge "Python int too large to convert to C int"
  | _ => .noDocument

/-- The text that a value counts as. -/
def textOfValue : Value → Except ViolationKind String
  | .text s => .ok s
  | .bytes bs =>
    match String.fromUTF8? ⟨bs.toArray⟩ with
    | some s => .ok s
    | none => .error (.ofNoText (.bytes bs))
  | v => .error (.ofNoText v)

/-- The text that a value counts as, or what is wrong with it. -/
def checkText (v : Value) : Checked String :=
  (textOfValue v).mapError fun kind => [⟨kind, []⟩]

/-- What a shape makes of a value. -/
def Shape.check : {α : Type} → Shape α → Value → Checked α
  | _, .text, v => checkText v
  | _, .path, v => (textOfValue v).mapError fun _ => [⟨.notPath, []⟩]
  | _, .list item, v =>
    match v with
    | .sequence items => checkItems item.check items
    | _ => .error [⟨.notSequence, []⟩]
  | _, .mapping value, v =>
    match v with
    | .mapping entries => checkEntries checkText value.check entries
    | _ => .error [⟨.notMapping, []⟩]

/-- What fields make of a value. A key that is no text is the one thing reported. -/
def Fields.check (fields : Fields α) : Value → Checked (Record α)
  | .mapping entries =>
    match entries.find? fun (key, _) => (checkText key).toOption.isNone with
    | some (key, _) => .error [⟨.keyNotText, [PlaceStep.ofKey key]⟩]
    | none => (fields.checkWith Shape.check entries).map
        (⟨·, extraNames checkText fields.names entries⟩)
  | _ => .error [⟨.notRecord, []⟩]

namespace Loader

/-- How deep one has to look into a document: policy files are items of a sequence in a mapping, and
so are the rules of a config entries of a mapping in one. -/
def documentDepth : Nat := 3

/-- The loader of the program. -/
def standard : Loader where
  document text := (Document.load documentDepth text).mapError Malformed.readError
  validate := Shape.check
  validateRecord := Fields.check

end Loader
end AccessPolicy
