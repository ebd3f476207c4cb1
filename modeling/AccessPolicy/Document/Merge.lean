import AccessPolicy.Document.Node

/-!
# Merging mappings

An entry whose key is the merge key gives way to the entries of the mapping, or of the mappings,
that it names. They go in front of all others, those of the first of several mappings last, so
that what the mapping binds itself counts most, and the first of several mappings more than those
after it. A mapping that is merged is itself merged before. The default key is made a text.

A mapping may name itself, directly or through others. Each merge key is taken out before the
mappings that it names are looked at, so no key is followed twice and merging ends.
-/

namespace AccessPolicy.Document

namespace Nodes

/-- The tag of the node at a place. -/
def tagAt (ns : Nodes) (place : Nat) : Tag :=
  match ns[place]? with
  | some node => node.tag
  | none => .other

/-- What the node at a place holds. -/
def contentAt (ns : Nodes) (place : Nat) : Content :=
  match ns[place]? with
  | some node => node.content
  | none => .text ""

/-- The entries of the mapping at a place. -/
def entriesAt (ns : Nodes) (place : Nat) : List (Nat × Nat) :=
  match contentAt ns place with
  | .mapping entries => entries
  | _ => []

/-- The same nodes with other entries in the mapping at a place. -/
def setEntries (ns : Nodes) (place : Nat) (entries : List (Nat × Nat)) : Nodes :=
  ns.modify place fun node => { node with content := .mapping entries }

/-- The same nodes with another tag at a place. -/
def setTag (ns : Nodes) (place : Nat) (tag : Tag) : Nodes :=
  ns.modify place fun node => { node with tag }

/-- The number of entries of all mappings, and one more: no chain of merges is as long. -/
def mergeDepth (ns : Nodes) : Nat :=
  ns.foldl (fun n node => match node.content with
    | .mapping entries => n + entries.length
    | _ => n) 1

end Nodes

/-- How the mapping at a place gets rid of its merge keys. -/
abbrev Merging := Nodes → Nat → Except Malformed Nodes

/-- The entries that mappings bring in, those of the first last. -/
def bringInAll (merge : Merging) (brought : List (Nat × Nat)) :
    List Nat → Nodes → Except Malformed (Nodes × List (Nat × Nat))
  | [], ns => .ok (ns, brought)
  | item :: rest, ns =>
    match ns.contentAt item with
    | .mapping _ => do
      let ns ← merge ns item
      bringInAll merge (ns.entriesAt item ++ brought) rest ns
    | _ => .error .badMerge

/-- The entries that a merge key with this value brings in. -/
def bringIn (merge : Merging) (value : Nat) (ns : Nodes) :
    Except Malformed (Nodes × List (Nat × Nat)) :=
  match ns.contentAt value with
  | .mapping _ => bringInAll merge [] [value] ns
  | .sequence items => bringInAll merge [] items ns
  | .text _ => .error .badMerge

/-- Adds entries in front of those of the mapping at a place. -/
def prepend (brought : List (Nat × Nat)) (place : Nat) (ns : Nodes) : Nodes :=
  if brought.isEmpty then ns else ns.setEntries place (brought ++ ns.entriesAt place)

/-- Goes through the entries of the mapping at a place, from the one at `index` on, after merge keys
that have brought in `brought`. Where a chain of merges comes back to the mapping, it has no merge key
left after that, so there are never more steps than entries at first. -/
def mergeFrom (merge : Merging) (place : Nat) :
    (steps index : Nat) → (brought : List (Nat × Nat)) → Nodes → Except Malformed Nodes
  | 0, _, brought, ns => .ok (prepend brought place ns)
  | steps + 1, index, brought, ns =>
    match (ns.entriesAt place)[index]? with
    | none => .ok (prepend brought place ns)
    | some (key, value) =>
      match ns.tagAt key with
      | .merge => do
        let rest := (ns.entriesAt place).eraseIdx index
        let (ns, entries) ← bringIn merge value (ns.setEntries place rest)
        mergeFrom merge place steps index (brought ++ entries) ns
      | .default => mergeFrom merge place steps (index + 1) brought (ns.setTag key .text)
      | _ => mergeFrom merge place steps (index + 1) brought ns

/-- Whether a key has to be looked at when mappings are merged. -/
def isSpecial (ns : Nodes) (key : Nat) : Bool :=
  match ns.tagAt key with
  | .merge | .default => true
  | _ => false

/-- Merges the mapping at a place, through a chain of no more than `depth` mappings. -/
def mergeWithin : (depth : Nat) → Merging
  | 0, _, _ => .error .badMerge
  | depth + 1, ns, place =>
    let entries := ns.entriesAt place
    if entries.any fun (key, _) => isSpecial ns key then
      mergeFrom (mergeWithin depth) place entries.length 0 [] ns
    else .ok ns

end AccessPolicy.Document
