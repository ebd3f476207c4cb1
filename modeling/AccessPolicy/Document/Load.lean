import AccessPolicy.Document.Merge

/-!
# Reading a document

The nodes of a document are made into what they stand for. The node that holds all others comes
first. A scalar is read at once; a collection waits in a queue until all collections before it are
done, and only then are its parts looked at. So where several parts are wrong, one nearer to the
top is reported before any deeper down.

A part that is repeated is made once. What comes out refers to parts by place, as the nodes do, and
`view` shows it as a value down to some depth.
-/

namespace AccessPolicy.Document

/-- What a node stands for; parts are named by their places. -/
inductive Part where
  | scalar (v : Value)
  | sequence (items : List Nat)
  | mapping (entries : List (Value × Nat))
  /-- The keys of a mapping of which only these count. -/
  | keys (keys : List Value)
  | pairs (items : List (Nat × Nat))
  /-- A collection whose parts are not looked at yet. -/
  | waiting
  deriving Repr, Inhabited

/-- The state while nodes are made into parts. -/
structure Assembly where
  nodes : Nodes
  /-- What the nodes stand for, as far as it is made, by place. -/
  parts : Array (Option Part)
  /-- The places of all collections met so far, in order. -/
  queue : Array Nat
  /-- More than the mappings in any chain of merges. -/
  mergeDepth : Nat

namespace Assembly

/-- Nothing is made yet. -/
def start (nodes : Nodes) : Assembly :=
  ⟨nodes, Array.replicate nodes.size none, #[], nodes.mergeDepth⟩

/-- What the node at a place stands for, if it is made. -/
def part? (a : Assembly) (place : Nat) : Option Part := (a.parts[place]?).join

/-- Says what the node at a place stands for. -/
def setPart (a : Assembly) (place : Nat) (part : Part) : Assembly :=
  { a with parts := a.parts.setIfInBounds place (some part) }

/-- The text of the node at a place. That of a mapping is the value of its default key. -/
def textAt (ns : Nodes) : (fuel place : Nat) → Except Malformed String
  | 0, _ => .error .unsuitableTag
  | fuel + 1, place =>
    match ns.contentAt place with
    | .text s => .ok s
    | .sequence _ => .error .unsuitableTag
    | .mapping entries =>
      match entries.find? fun (key, _) => ns.tagAt key = .default with
      | some (_, value) => textAt ns fuel value
      | none => .error .unsuitableTag

/-- Makes the node at a place, unless it is made already; a collection has to wait. -/
def make (a : Assembly) (place : Nat) : Except Malformed Assembly :=
  if (a.part? place).isSome then .ok a
  else match a.nodes.tagAt place with
    | .sequence | .mapping | .set | .pairs =>
      let a := a.setPart place .waiting
      .ok { a with queue := a.queue.push place }
    | tag => do
      let text ← textAt a.nodes (a.nodes.size + 1) place
      if tag = .date ∧ a.nodes.contentAt place ≠ .text text then .error .dateMapping
      else .ok (a.setPart place (.scalar (← readScalar tag place text)))

/-- The key that the node at a place is. -/
def keyAt (a : Assembly) (place : Nat) : Except Malformed Value :=
  match a.part? place with
  | some (.scalar v) => .ok v
  | _ => .error .collectionKey

/-- Makes the key and the value of each entry, and binds the keys one after the other. -/
def makeEntries (a : Assembly) (bound : List (Value × Nat)) :
    List (Nat × Nat) → Except Malformed (Assembly × List (Value × Nat))
  | [] => .ok (a, bound)
  | (key, value) :: rest => do
    let a ← a.make key
    let k ← a.keyAt key
    let a ← a.make value
    a.makeEntries (Value.bind k value bound) rest

/-- Makes the key and the value of the single entry of each mapping. -/
def makePairs (a : Assembly) (pairs : List (Nat × Nat)) :
    List Nat → Except Malformed (Assembly × List (Nat × Nat))
  | [] => .ok (a, pairs.reverse)
  | item :: rest =>
    match a.nodes.contentAt item with
    | .mapping [(key, value)] => do
      let a ← a.make key
      let a ← a.make value
      a.makePairs ((key, value) :: pairs) rest
    | _ => .error .badPair

/-- Makes the parts of the collection at a place. -/
def fill (a : Assembly) (place : Nat) : Except Malformed Assembly :=
  match a.nodes.tagAt place, a.nodes.contentAt place with
  | .sequence, .sequence items => do
    let a ← items.foldlM make a
    .ok (a.setPart place (.sequence items))
  | .pairs, .sequence items => do
    let (a, pairs) ← a.makePairs [] items
    .ok (a.setPart place (.pairs pairs))
  | tag, .mapping _ =>
    if tag = .mapping ∨ tag = .set then do
      let nodes ← mergeWithin a.mergeDepth a.nodes place
      let (a, entries) ← { a with nodes }.makeEntries [] (nodes.entriesAt place)
      .ok (a.setPart place
        (if tag = .set then .keys (entries.map Prod.fst) else .mapping entries))
    else .error .unsuitableTag
  | _, _ => .error .unsuitableTag

/-- Makes the parts of all collections in the queue from the one at `next` on; every node is in it no
more than once. -/
def fillFrom : (fuel next : Nat) → Assembly → Except Malformed Assembly
  | 0, _, a => .ok a
  | fuel + 1, next, a =>
    match a.queue[next]? with
    | none => .ok a
    | some place => do fillFrom fuel (next + 1) (← a.fill place)

/-- Makes the node at a place and all of its parts. -/
def ofNodes (nodes : Nodes) (root : Nat) : Except Malformed Assembly := do
  fillFrom (nodes.size + 1) 0 (← (start nodes).make root)

/-- The value that the node at a place stands for, down to a depth. -/
def view (a : Assembly) : (depth place : Nat) → Value
  | 0, place =>
    match a.part? place with
    | some (.scalar v) => v
    | _ => .deeper
  | depth + 1, place =>
    match a.part? place with
    | some (.scalar v) => v
    | some (.sequence items) => .sequence (items.map (a.view depth))
    | some (.mapping entries) => .mapping (entries.map fun (key, value) => (key, a.view depth value))
    | some (.keys keys) => .sequence keys
    | some (.pairs items) => .sequence (items.map fun _ => .deeper)
    | some .waiting | none => .deeper

end Assembly

/-- The value of the one document that a text holds, down to a depth; nothing, where it holds none. -/
def load (depth : Nat) (text : String) : Except Malformed Value := do
  let tree ← Tree.ofTokens (tokens (← glyphs text))
  match tree.root with
  | none => .ok .null
  | some root => do
    let a ← Assembly.ofNodes tree.nodes root
    .ok (a.view depth root)

end AccessPolicy.Document
