import AccessPolicy.Policy.Shape

/-!
# Loaders

The program does not read documents by itself. A *loader* makes a value of a text and checks values
against shapes, and to the rest of the program any loader will do: what comes of rules, of sessions
and of builds is stated about all of them.

What a document comes to does depend on the loader. What is known about loaders is
`Loader.Documented`, what they have in common, and `Loader.Verbatim`, that nothing in the document
at hand is made a text that is none.
-/

namespace AccessPolicy

open Document (Value)

/-- Kinds of errors that nobody looks out for. -/
inductive ErrorKind where
  | missingKey
  | missingItem
  | missingAttribute
  | wrongType
  | tooLarge
  | other (name : String)
  deriving DecidableEq, Repr

/-- Why there is no value of a text. -/
inductive ReadError where
  /-- The text is no document. -/
  | noDocument
  /-- A part of it is not what it has to be, and the reader says so as anyone would. -/
  | unfit (message : String)
  /-- The reader came upon something that it is not made for. -/
  | stray (kind : ErrorKind) (message : String)
  deriving DecidableEq, Repr

/-- Whether callers look out for an error. -/
def ReadError.isExpected : ReadError → Bool
  | .noDocument | .unfit _ => true
  | .stray _ _ => false

/-- What reads documents and checks their shapes. -/
structure Loader where
  /-- The value of the one document that a text holds. -/
  document : String → Except ReadError Value
  /-- What a shape makes of a value. -/
  validate : {α : Type} → Shape α → Value → Checked α
  /-- What fields make of a value. -/
  validateRecord : {α : Type} → Fields α → Value → Checked (Record α)

namespace Document

/-- No two of the keys are the same. -/
def BindsOnce {α : Type} (entries : List (Value × α)) : Prop :=
  entries.Pairwise fun a b => Value.sameKey a.1 b.1 = false

/-- A value is a part of another, or that value itself. -/
inductive Within (x : Value) : Value → Prop
  | here : Within x x
  | item {items : List Value} {y : Value} (hmem : y ∈ items) (h : Within x y) :
      Within x (.sequence items)
  | key {entries : List (Value × Value)} {k y : Value} (hmem : (k, y) ∈ entries)
      (h : Within x k) : Within x (.mapping entries)
  | value {entries : List (Value × Value)} {k y : Value} (hmem : (k, y) ∈ entries)
      (h : Within x y) : Within x (.mapping entries)

/-- The mappings that are parts of a value bind every key once. -/
def BindsOnceWithin (v : Value) : Prop :=
  ∀ entries, Within (.mapping entries) v → BindsOnce entries

end Document

namespace Loader

/-- What loaders have in common. Mappings bind every key once. A text is a text and a path. Lists and
mappings are checked part by part in the order of the document, and what is none is that one
violation. So it is with records, whose keys have to be texts, but that their fields are checked in
the order of their declaration. -/
structure Documented (L : Loader) : Prop where
  bindsOnce {text : String} {v : Value} (h : L.document text = .ok v) : Document.BindsOnceWithin v
  text (s : String) : L.validate .text (.text s) = .ok s
  path (s : String) : L.validate .path (.text s) = .ok s
  list {α : Type} (item : Shape α) (items : List Value) :
    L.validate (.list item) (.sequence items) = checkItems (L.validate item) items
  notList {α : Type} (item : Shape α) {v : Value} (h : ∀ items, v ≠ .sequence items) :
    L.validate (.list item) v = .error [⟨.notSequence, []⟩]
  mapping {α : Type} (value : Shape α) (entries : List (Value × Value)) :
    L.validate (.mapping value) (.mapping entries) =
      checkEntries (L.validate .text) (L.validate value) entries
  notMapping {α : Type} (value : Shape α) {v : Value} (h : ∀ entries, v ≠ .mapping entries) :
    L.validate (.mapping value) v = .error [⟨.notMapping, []⟩]
  record {α : Type} (fields : Fields α) {entries : List (Value × Value)}
    (h : ∀ key x, (key, x) ∈ entries → ∃ s, L.validate .text key = .ok s) :
    L.validateRecord fields (.mapping entries) = (fields.checkWith L.validate entries).map
      (⟨·, extraNames (L.validate .text) fields.names entries⟩)
  badKey {α : Type} (fields : Fields α) {entries : List (Value × Value)}
    (h : ¬ ∀ key x, (key, x) ∈ entries → ∃ s, L.validate .text key = .ok s) :
    ∃ found, L.validateRecord fields (.mapping entries) = .error found
  notRecord {α : Type} (fields : Fields α) {v : Value} (h : ∀ entries, v ≠ .mapping entries) :
    L.validateRecord fields v = .error [⟨.notRecord, []⟩]

/-- No part of the value is made a text, or a path, that is no text. -/
def Verbatim (L : Loader) (v : Value) : Prop :=
  ∀ x, Document.Within x v → (∀ s, x ≠ .text s) →
    L.validate .text x = .error [⟨.ofNoText x, []⟩] ∧ L.validate .path x = .error [⟨.notPath, []⟩]

end Loader
end AccessPolicy
