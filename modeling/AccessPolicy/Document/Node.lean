import AccessPolicy.Document.Scalar
import AccessPolicy.Document.Token

/-!
# The nodes of a document

Tokens make *nodes*: scalars and collections, each maybe with an anchor, by which an alias may
repeat it, and a tag, which says what it is to be. The nodes are kept in one array, and collections
name their parts by their places in it. So a node that is repeated is there once, and a collection
may be a part of itself.

Block collections end at a `closeBlock` and bracketed ones at their bracket. Items with dashes may
also stand below a key without being indented; these end at anything that is no dash. Where a node
may be left out, one that says nothing stands for it.
-/

namespace AccessPolicy.Document

/-! ## Tags -/

/-- The short forms of tags that are always known. -/
def standardHandles : List (String × String) := [("!", "!"), ("!!", "tag:yaml.org,2002:")]

/-- The full names of tags. -/
def Tag.names : List (String × Tag) := [
  ("tag:yaml.org,2002:null", .null),
  ("tag:yaml.org,2002:bool", .bool),
  ("tag:yaml.org,2002:int", .int),
  ("tag:yaml.org,2002:float", .float),
  ("tag:yaml.org,2002:timestamp", .date),
  ("tag:yaml.org,2002:str", .text),
  ("tag:yaml.org,2002:binary", .binary),
  ("tag:yaml.org,2002:seq", .sequence),
  ("tag:yaml.org,2002:map", .mapping),
  ("tag:yaml.org,2002:set", .set),
  ("tag:yaml.org,2002:omap", .pairs),
  ("tag:yaml.org,2002:pairs", .pairs),
  ("tag:yaml.org,2002:merge", .merge),
  ("tag:yaml.org,2002:value", .default)]

/-- A tag as it is written: none, one that leaves it to the look of the node, or a name. -/
inductive WrittenTag where
  | none
  | byLook
  | named (tag : Tag)
  deriving DecidableEq, Repr

/-- The tag that a token writes, with the short forms known. -/
def WrittenTag.ofToken (handles : List (String × String)) (handle : Option String)
    (suffix : String) : Except Malformed WrittenTag :=
  let name := match handle with
    | .none => some suffix
    | some handle => (handles.lookup handle).map (· ++ suffix)
  match name with
  | .none => .error .unsuitableTag
  | some "!" => .ok .byLook
  | some name => .ok (.named ((Tag.names.lookup name).getD .other))

namespace WrittenTag

/-- What a text is to be: in quotes a text, where no tag says anything else. -/
def ofText (tag : WrittenTag) (plain : Bool) (content : String) : Tag :=
  match tag with
  | .none => if plain then Tag.ofLook content else .text
  | .byLook => Tag.ofLook content
  | .named tag => tag

/-- What a collection is to be, where no tag says anything else. -/
def ofCollection (tag : WrittenTag) (usual : Tag) : Tag :=
  match tag with
  | .none | .byLook => usual
  | .named tag => tag

end WrittenTag

/-! ## Nodes -/

/-- What a node holds; parts are named by their places. -/
inductive Content where
  | text (s : String)
  | sequence (items : List Nat)
  | mapping (entries : List (Nat × Nat))
  deriving DecidableEq, Repr, Inhabited

/-- A part of a document, and what it is to be. -/
structure Node where
  tag : Tag
  content : Content
  deriving DecidableEq, Repr, Inhabited

/-- The nodes of a document. -/
abbrev Nodes := Array Node

/-! ## Reading -/

/-- The tokens that are left, the nodes so far, and those that aliases may repeat. -/
structure Reader where
  tokens : List Token
  nodes : Nodes
  anchors : List (String × Nat)

namespace Reader

/-- Leaves out the next token. -/
def skip (r : Reader) : Reader := { r with tokens := r.tokens.drop 1 }

/-- Whether one of these tokens comes next. -/
def atOneOf (r : Reader) (ts : List Token) : Bool :=
  match r.tokens with
  | [] => false
  | t :: _ => ts.contains t

/-- What is wrong where the next token does not suit. -/
def problem (r : Reader) : Malformed :=
  match r.tokens with
  | .broken why :: _ => why
  | _ => .unexpectedToken

/-- Nothing may follow what cannot be cut into tokens. -/
def checkWhole (r : Reader) : Except Malformed Unit :=
  match r.tokens with
  | .broken why :: _ => .error why
  | _ => .ok ()

/-- Adds a node and gives its place. -/
def push (r : Reader) (node : Node) : Nat × Reader :=
  (r.nodes.size, { r with nodes := r.nodes.push node })

/-- Adds a node, maybe with an anchor, and gives its place. No two nodes may have the same anchor. -/
def add (r : Reader) (anchor : Option String) (node : Node) : Except Malformed (Nat × Reader) :=
  match anchor with
  | none => .ok (r.push node)
  | some name =>
    if (r.anchors.lookup name).isSome then .error .duplicateAnchor
    else
      let (place, r) := r.push node
      .ok (place, { r with anchors := (name, place) :: r.anchors })

/-- Adds a node that says nothing. -/
def addAbsent (r : Reader) : Nat × Reader := r.push ⟨.null, .text ""⟩

/-- Says what the node at a place holds. -/
def fill (r : Reader) (place : Nat) (content : Content) : Reader :=
  { r with nodes := r.nodes.modify place fun node => { node with content } }

/-- Reads the anchor and the tag of a node, in any order. -/
def properties (handles : List (String × String)) (r : Reader) :
    Except Malformed (Option String × WrittenTag × Reader) :=
  match r.tokens with
  | .anchor _ :: .broken why :: _ | .tag _ _ :: .broken why :: _ => .error why
  | .anchor name :: .tag handle suffix :: rest | .tag handle suffix :: .anchor name :: rest => do
    .ok (some name, ← WrittenTag.ofToken handles handle suffix, { r with tokens := rest })
  | .anchor name :: rest => .ok (some name, .none, { r with tokens := rest })
  | .tag handle suffix :: rest => do
    .ok (none, ← WrittenTag.ofToken handles handle suffix, { r with tokens := rest })
  | _ => .ok (none, .none, r)

end Reader

/-- Where a node stands, which decides what it may be. -/
inductive Position where
  /-- On lines of its own: anything but items that are not indented. -/
  | block
  /-- After a key: also items that are not indented. -/
  | afterKey
  /-- Between brackets: no block collection. -/
  | flow
  deriving DecidableEq, Repr

mutual

/-- Reads a node and gives its place. -/
def node (handles : List (String × String)) (position : Position) :
    (fuel : Nat) → Reader → Except Malformed (Nat × Reader)
  | 0, r => .error r.problem
  | fuel + 1, r =>
    match r.tokens with
    | .alias name :: _ =>
      match r.anchors.lookup name with
      | some place => .ok (place, r.skip)
      | none => .error .undefinedAlias
    | _ => do
      let (anchor, tag, r) ← r.properties handles
      let sequence (read : Reader → Except Malformed (List Nat × Reader)) := do
        let (place, r) ← r.add anchor ⟨tag.ofCollection .sequence, .sequence []⟩
        let (items, r) ← read r
        pure (place, r.fill place (.sequence items))
      let mapping (read : Reader → Except Malformed (List (Nat × Nat) × Reader)) := do
        let (place, r) ← r.add anchor ⟨tag.ofCollection .mapping, .mapping []⟩
        let (entries, r) ← read r
        pure (place, r.fill place (.mapping entries))
      match r.tokens, position with
      | .text plain content :: _, _ => r.skip.add anchor ⟨tag.ofText plain content, .text content⟩
      | .openBracket :: _, _ => sequence fun r => flowItems handles fuel true r.skip
      | .openBrace :: _, _ => mapping fun r => flowEntries handles fuel true r.skip
      | .dash :: _, .afterKey => sequence fun r => looseItems handles fuel r
      | .openSequence :: _, .block | .openSequence :: _, .afterKey =>
        sequence fun r => blockItems handles fuel r.skip
      | .openMapping :: _, .block | .openMapping :: _, .afterKey =>
        mapping fun r => blockEntries handles fuel r.skip
      | _, _ =>
        if anchor.isNone && tag = .none then .error r.problem
        else do
          r.checkWhole
          r.add anchor ⟨tag.ofText true "", .text ""⟩

/-- Reads a node, unless one of the tokens that may follow it comes first. -/
def optionalNode (handles : List (String × String)) (position : Position) :
    (fuel : Nat) → (followers : List Token) → Reader → Except Malformed (Nat × Reader)
  | 0, _, r => .error r.problem
  | fuel + 1, followers, r =>
    if r.atOneOf followers then .ok r.addAbsent else node handles position fuel r

/-- Reads the items of an indented sequence. -/
def blockItems (handles : List (String × String)) :
    (fuel : Nat) → Reader → Except Malformed (List Nat × Reader)
  | 0, r => .error r.problem
  | fuel + 1, r =>
    match r.tokens with
    | .dash :: _ => do
      let (item, r) ← optionalNode handles .block fuel [.dash, .closeBlock] r.skip
      let (items, r) ← blockItems handles fuel r
      .ok (item :: items, r)
    | .closeBlock :: _ => .ok ([], r.skip)
    | _ => .error r.problem

/-- Reads the items of a sequence that is not indented. -/
def looseItems (handles : List (String × String)) :
    (fuel : Nat) → Reader → Except Malformed (List Nat × Reader)
  | 0, r => .error r.problem
  | fuel + 1, r =>
    match r.tokens with
    | .dash :: _ => do
      let (item, r) ← optionalNode handles .block fuel [.dash, .key, .colon, .closeBlock] r.skip
      let (items, r) ← looseItems handles fuel r
      .ok (item :: items, r)
    | _ => do
      r.checkWhole
      .ok ([], r)

/-- Reads the value of an entry, where there is a colon. -/
def entryValue (handles : List (String × String)) (position : Position) :
    (fuel : Nat) → (followers : List Token) → Reader → Except Malformed (Nat × Reader)
  | 0, _, r => .error r.problem
  | fuel + 1, followers, r =>
    match r.tokens with
    | .colon :: _ => optionalNode handles position fuel followers r.skip
    | _ => do
      r.checkWhole
      .ok r.addAbsent

/-- Reads the entries of an indented mapping. -/
def blockEntries (handles : List (String × String)) :
    (fuel : Nat) → Reader → Except Malformed (List (Nat × Nat) × Reader)
  | 0, r => .error r.problem
  | fuel + 1, r =>
    match r.tokens with
    | .key :: _ => do
      let followers : List Token := [.key, .colon, .closeBlock]
      let (key, r) ← optionalNode handles .afterKey fuel followers r.skip
      let (value, r) ← entryValue handles .afterKey fuel followers r
      let (entries, r) ← blockEntries handles fuel r
      .ok ((key, value) :: entries, r)
    | .closeBlock :: _ => .ok ([], r.skip)
    | _ => .error r.problem

/-- Reads an entry after the mark of its key, between brackets that end with `close`. -/
def flowEntry (handles : List (String × String)) :
    (fuel : Nat) → (close : Token) → Reader → Except Malformed ((Nat × Nat) × Reader)
  | 0, _, r => .error r.problem
  | fuel + 1, close, r => do
    let (key, r) ← optionalNode handles .flow fuel [.colon, .comma, close] r
    let (value, r) ← entryValue handles .flow fuel [.comma, close] r
    .ok ((key, value), r)

/-- Reads the items of a sequence between brackets; an entry there is a mapping of its own. -/
def flowItems (handles : List (String × String)) :
    (fuel : Nat) → (first : Bool) → Reader → Except Malformed (List Nat × Reader)
  | 0, _, r => .error r.problem
  | fuel + 1, first, r =>
    match r.tokens with
    | .closeBracket :: _ => .ok ([], r.skip)
    | t :: _ =>
      if !first && t ≠ .comma then .error r.problem
      else
        let r := if first then r else r.skip
        match r.tokens with
        | .closeBracket :: _ => .ok ([], r.skip)
        | .key :: _ => do
          let (place, r) ← r.skip.add none ⟨.mapping, .mapping []⟩
          let (entry, r) ← flowEntry handles fuel .closeBracket r
          let (items, r) ← flowItems handles fuel false (r.fill place (.mapping [entry]))
          .ok (place :: items, r)
        | _ => do
          let (item, r) ← node handles .flow fuel r
          let (items, r) ← flowItems handles fuel false r
          .ok (item :: items, r)
    | [] => .error .unexpectedToken

/-- Reads the entries of a mapping between braces; a key may stand there alone. -/
def flowEntries (handles : List (String × String)) :
    (fuel : Nat) → (first : Bool) → Reader → Except Malformed (List (Nat × Nat) × Reader)
  | 0, _, r => .error r.problem
  | fuel + 1, first, r =>
    match r.tokens with
    | .closeBrace :: _ => .ok ([], r.skip)
    | t :: _ =>
      if !first && t ≠ .comma then .error r.problem
      else
        let r := if first then r else r.skip
        match r.tokens with
        | .closeBrace :: _ => .ok ([], r.skip)
        | .key :: _ => do
          let (entry, r) ← flowEntry handles fuel .closeBrace r.skip
          let (entries, r) ← flowEntries handles fuel false r
          .ok (entry :: entries, r)
        | _ => do
          let (key, r) ← node handles .flow fuel r
          let (value, r) := r.addAbsent
          let (entries, r) ← flowEntries handles fuel false r
          .ok ((key, value) :: entries, r)
    | [] => .error .unexpectedToken

end

/-! ## Documents -/

/-- The short forms of tags that the directives of a document give, and the tokens after them. -/
def directiveHandles (versionGiven : Bool) (handles : List (String × String)) :
    List Token → Except Malformed (List (String × String) × List Token)
  | .directive (.version major _) :: rest =>
    if versionGiven ∨ major ≠ 1 then .error .badDirective
    else directiveHandles true handles rest
  | .directive (.tagHandle handle expansion) :: rest =>
    if (handles.lookup handle).isSome then .error .badDirective
    else directiveHandles versionGiven ((handle, expansion) :: handles) rest
  | .directive .unknown :: rest => directiveHandles versionGiven handles rest
  | rest => .ok (handles, rest)

/-- A document: the nodes, and the place of the one that holds all others; nothing, where the document
is left out. -/
structure Tree where
  nodes : Nodes
  root : Option Nat

/-- Reads the node of a document. -/
def documentNode (handles : List (String × String)) (ts : List Token) :
    Except Malformed (Tree × List Token) := do
  let (root, r) ← node handles .block (3 * ts.length + 3) ⟨ts, #[], []⟩
  .ok (⟨r.nodes, some root⟩, r.tokens)

/-- Whether the content of a document is left out. -/
def isLeftOut : List Token → Bool
  | [] | .directive _ :: _ | .documentStart :: _ | .documentEnd :: _ => true
  | _ => false

/-- What is wrong where a document should start and does not. -/
def startProblem : List Token → Malformed
  | .broken why :: _ => why
  | _ => .unexpectedToken

/-- Reads a document, with the marks in front of it. -/
def documentTree (ts : List Token) : Except Malformed (Tree × List Token) :=
  match ts with
  | [] => .ok (⟨#[], none⟩, [])
  | .directive _ :: _ | .documentStart :: _ => do
    let (handles, rest) ← directiveHandles false [] ts
    match rest with
    | .documentStart :: rest =>
      if isLeftOut rest then .ok (⟨#[], none⟩, rest)
      else documentNode (handles ++ standardHandles) rest
    | rest => .error (startProblem rest)
  | _ => documentNode standardHandles ts

/-- What follows a document: nothing but marks of its end. -/
def checkEnd : List Token → Except Malformed Unit
  | [] => .ok ()
  | .documentEnd :: rest => checkEnd rest
  | .broken why :: _ => .error why
  | _ => .error .secondDocument

/-- The one document that tokens make. -/
def Tree.ofTokens (ts : List Token) : Except Malformed Tree := do
  let (tree, rest) ← documentTree ts
  checkEnd rest
  .ok tree

end AccessPolicy.Document
