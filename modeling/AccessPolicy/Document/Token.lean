import AccessPolicy.Document.Text

/-!
# The tokens of a document

A document is cut into tokens, its marks and texts, and indentation becomes tokens too: a block
collection is opened where a dash, a question mark or a key stands deeper than what is around it,
and closed in front of the first token that stands less deep.

That a text is a key shows only at the colon behind it. So every token that could begin a key leaves
an empty *cell* in front of it; the colon fills the cell with the mark of a key, and with the
opening of a mapping where it is the first key of one. A key ends on its line, within 1024
characters. Where a line must be a key, because it is indented like the keys of a mapping around
it, the colon may not be missing.

What cannot be cut any further ends in a `broken` token. It stands as early as it shows: in front of
anything that could still have become a key there.
-/

namespace AccessPolicy.Document

/-- A line in front of a document. -/
inductive Directive where
  /-- The version of the document language, up to its point and from there. -/
  | version (major minor : Nat)
  /-- A short form of tags. -/
  | tagHandle (handle expansion : String)
  /-- Any other, which says nothing here. -/
  | unknown
  deriving DecidableEq, Repr

/-- A part of a document. -/
inductive Token where
  | directive (d : Directive)
  | documentStart
  | documentEnd
  | openSequence
  | openMapping
  | closeBlock
  | openBracket
  | closeBracket
  | openBrace
  | closeBrace
  | comma
  | dash
  | key
  | colon
  | alias (name : String)
  | anchor (name : String)
  | tag (handle : Option String) (suffix : String)
  | text (plain : Bool) (content : String)
  /-- The place from which on nothing can be cut. -/
  | broken (why : Malformed)
  deriving DecidableEq, Repr

/-- Something that is a key if a colon follows. -/
structure KeyCandidate where
  /-- The cell in front of it. -/
  cell : Nat
  /-- Whether the colon may not be missing. -/
  required : Bool
  /-- Where it begins. -/
  start : Glyph

/-- Whether something can no longer be a key when a token begins at `g`. -/
def KeyCandidate.isStale (k : KeyCandidate) (g : Glyph) : Bool :=
  k.start.line ≠ g.line || g.index - k.start.index > 1024

/-- The state between two tokens. -/
structure Cutting where
  /-- The tokens so far, in cells, the last cell first. -/
  cells : List (List Token)
  /-- The number of cells. -/
  count : Nat
  /-- The columns of the open block collections, the innermost first. -/
  columns : List Nat
  /-- Whether a key may begin here. -/
  keyMayBegin : Bool
  /-- The possible key inside the innermost brackets. -/
  candidate : Option KeyCandidate
  /-- The possible keys outside of each pair of open brackets, the innermost first. -/
  outer : List (Option KeyCandidate)

namespace Cutting

/-- Nothing is cut yet. -/
def start : Cutting := ⟨[], 0, [], true, none, []⟩

/-- Whether brackets are open. -/
def inFlow (s : Cutting) : Bool := !s.outer.isEmpty

/-- Adds a cell. -/
def pushCell (s : Cutting) (cell : List Token) : Cutting :=
  { s with cells := cell :: s.cells, count := s.count + 1 }

/-- Adds a token. -/
def push (s : Cutting) (t : Token) : Cutting := s.pushCell [t]

/-- Adds one and the same token several times. -/
def pushTimes (s : Cutting) (t : Token) : Nat → Cutting
  | 0 => s
  | n + 1 => (s.push t).pushTimes t n

/-- Puts other tokens into a cell. -/
def setCell (s : Cutting) (cell : Nat) (ts : List Token) : Cutting :=
  { s with cells := s.cells.set (s.count - 1 - cell) ts }

/-- The column that lines inside the innermost block collection are indented to at least. -/
def innerColumn (s : Cutting) : Nat :=
  match s.columns with
  | [] => 0
  | column :: _ => column + 1

/-- Whether a block collection at this column would be inside all open ones. -/
def isDeeper (s : Cutting) (column : Nat) : Bool := s.innerColumn ≤ column

/-- Closes the block collections deeper than a column; inside brackets there are none. -/
def closeDeeper (s : Cutting) (column : Nat) : Cutting :=
  if s.inFlow then s
  else
    let closed := (s.columns.takeWhile (column < ·)).length
    { s with columns := s.columns.drop closed }.pushTimes .closeBlock closed

/-- Closes all block collections; inside brackets there are none. -/
def closeAll (s : Cutting) : Cutting :=
  if s.inFlow then s
  else { s with columns := [] }.pushTimes .closeBlock s.columns.length

/-- Gives up on the possible key inside the innermost brackets. -/
def dropCandidate (s : Cutting) : Except Malformed Cutting :=
  match s.candidate with
  | some ⟨_, true, _⟩ => .error .missingValueMark
  | _ => .ok { s with candidate := none }

/-- Forgets what can no longer be a key. -/
def forgetStale (g : Glyph) : Option KeyCandidate → Except Malformed (Option KeyCandidate)
  | none => .ok none
  | some k =>
    if !k.isStale g then .ok (some k)
    else if k.required then .error .missingValueMark
    else .ok none

/-- Forgets every key that is too far away from a token that begins at `g`. -/
def dropStale (s : Cutting) (g : Glyph) : Except Malformed Cutting := do
  let candidate ← forgetStale g s.candidate
  let outer ← s.outer.mapM (forgetStale g)
  .ok { s with candidate, outer }

/-- Notes that what begins at `g` may be a key. -/
def noteCandidate (s : Cutting) (g : Glyph) : Except Malformed Cutting :=
  if s.keyMayBegin then do
    let s ← s.dropCandidate
    let required := !s.inFlow && s.columns.head? = some g.column
    .ok { s.pushCell [] with candidate := some ⟨s.count, required, g⟩ }
  else .ok s

/-- Adds a token that may be a key, or the property of one. -/
def pushCandidate (s : Cutting) (g : Glyph) (t : Token) : Except Malformed Cutting := do
  let s ← s.noteCandidate g
  .ok { s.push t with keyMayBegin := false }

/-- Opens brackets, which may be a key as a whole. -/
def openFlow (s : Cutting) (g : Glyph) (t : Token) : Except Malformed Cutting := do
  let s ← s.noteCandidate g
  .ok { s.push t with keyMayBegin := true, candidate := none, outer := s.candidate :: s.outer }

/-- Closes brackets. -/
def closeFlow (s : Cutting) (t : Token) : Except Malformed Cutting := do
  let s ← s.dropCandidate
  match s.outer with
  | [] => .error .unexpectedToken
  | candidate :: outer => .ok { s.push t with keyMayBegin := false, candidate, outer }

/-- Adds a comma between brackets. -/
def pushComma (s : Cutting) : Except Malformed Cutting := do
  let s ← s.dropCandidate
  .ok { s.push .comma with keyMayBegin := true }

/-- Opens a block collection at a column, where it is deeper than the open ones. -/
def openBlock (s : Cutting) (column : Nat) (t : Token) : Cutting :=
  if s.isDeeper column then { s.push t with columns := column :: s.columns } else s

/-- Adds the dash of an item, which may not stand between brackets. -/
def pushDash (s : Cutting) (g : Glyph) : Except Malformed Cutting := do
  if s.inFlow || !s.keyMayBegin then .error .misplacedKey
  else
    let s ← (s.openBlock g.column .openSequence).dropCandidate
    .ok { s.push .dash with keyMayBegin := true }

/-- Adds a mark of a key or of a value that belongs to no candidate. -/
def pushMark (s : Cutting) (g : Glyph) (t : Token) : Except Malformed Cutting := do
  if s.inFlow then
    let s ← s.dropCandidate
    .ok { s.push t with keyMayBegin := false }
  else if s.keyMayBegin then
    let s ← (s.openBlock g.column .openMapping).dropCandidate
    .ok { s.push t with keyMayBegin := true }
  else .error .misplacedKey

/-- Adds a colon: what may be a key in front of it is one. -/
def pushColon (s : Cutting) (g : Glyph) : Except Malformed Cutting :=
  match s.candidate with
  | none => s.pushMark g .colon
  | some k =>
    let opens := !s.inFlow && s.isDeeper k.start.column
    let marks := if opens then [Token.openMapping, .key] else [.key]
    let s := { s.setCell k.cell marks with
      columns := if opens then k.start.column :: s.columns else s.columns
      keyMayBegin := false
      candidate := none }
    .ok (s.push .colon)

/-- Adds a mark between documents, or a directive. -/
def pushBoundary (s : Cutting) (t : Token) : Except Malformed Cutting := do
  let s ← s.closeAll.dropCandidate
  .ok { s.push t with keyMayBegin := false }

/-- The tokens in the first cells. -/
def tokensUpTo (s : Cutting) (cell : Nat) : List Token :=
  (s.cells.drop (s.count - cell)).reverse.flatten

/-- The tokens, once the document has ended. -/
def finish (s : Cutting) : Except Malformed (List Token) := do
  let s ← s.closeAll.dropCandidate
  .ok (s.tokensUpTo s.count)

/-- The cells in front of what could still be a key when `gs` is left. -/
def openCells (s : Cutting) (gs : List Glyph) : List Nat :=
  (s.candidate :: s.outer).filterMap fun candidate =>
    (candidate.filter fun k => !gs.head?.any k.isStale).map (·.cell)

/-- The tokens where nothing can be cut from the glyphs that are left. -/
def breakOff (s : Cutting) (gs : List Glyph) (why : Malformed) : List Token :=
  s.tokensUpTo ((s.openCells gs).foldl min s.count) ++ [.broken why]

end Cutting

/-! ## Names -/

/-- A character of a name: an ASCII letter or digit, a hyphen or an underscore. -/
def isNameChar (c : Char) : Bool := c.isAlphanum || c = '-' || c = '_'

/-- A character of a tag. -/
def isTagChar (c : Char) : Bool := c.isAlphanum || "-;/?:@&=+$,_.!~*'()[]%".toList.contains c

/-- Whether a name may end in front of these glyphs. -/
def endsName (gs : List Glyph) : Bool :=
  atSeparator gs || nextIs (fun c => "?:,]\x7d%@".toList.contains c || c = '\u0060') gs

/-- Reads the name of an anchor or an alias. -/
def anchorName (gs : List Glyph) : Except Malformed (String × List Glyph) :=
  match spanChars isNameChar gs with
  | ([], _) => .error .badProperty
  | (name, left) => if endsName left then .ok (String.ofList name, left) else .error .badProperty

/-- The characters that bytes encode. -/
def decodeBytes (bytes : List UInt8) : Option (List Char) :=
  (String.fromUTF8? ⟨bytes.toArray⟩).map String.toList

/-- A tag with its escapes undone, after the bytes `pending` that escapes have given so far. An escape
is a percent sign and two hexadecimal digits, and gives a byte of the encoded text. -/
def unescapeTag (pending : List UInt8) : List Char → Option (List Char)
  | '%' :: a :: b :: rest => do
    let byte := UInt8.ofNat (16 * (← hexValue? a) + (← hexValue? b))
    unescapeTag (pending ++ [byte]) rest
  | '%' :: _ => none
  | c :: rest => do return (← decodeBytes pending) ++ c :: (← unescapeTag [] rest)
  | [] => decodeBytes pending

/-- Reads characters of a tag, at least one. -/
def tagChars (problem : Malformed) (gs : List Glyph) : Except Malformed (String × List Glyph) :=
  match spanChars isTagChar gs with
  | ([], _) => .error problem
  | (text, left) =>
    match unescapeTag [] text with
    | some text => .ok (String.ofList text, left)
    | none => .error problem

/-- Reads the handle of a tag after its first exclamation mark: another one right away, a name
between two, or nothing. -/
def tagHandle (problem : Malformed) (gs : List Glyph) : Except Malformed (String × List Glyph) :=
  match spanChars isNameChar gs with
  | (name, left) =>
    if nextIs (· = '!') left then
      .ok ("!" ++ String.ofList name ++ "!", left.drop 1)
    else if name.isEmpty && nextIs (· = ' ') left then .ok ("!", left)
    else .error problem

/-- Whether a second exclamation mark stands in the same word. -/
def hasHandle (gs : List Glyph) : Bool :=
  (spanChars (fun c => !(c = ' ' || isBreak c)) gs).1.contains '!'

/-- Reads a tag after its exclamation mark. -/
def tagToken (gs : List Glyph) : Except Malformed (Token × List Glyph) := do
  let (token, left) ←
    if nextIs (· = '<') gs then do
      let (text, left) ← tagChars .badProperty (gs.drop 1)
      if nextIs (· = '>') left then pure (Token.tag none text, left.drop 1)
      else throw .badProperty
    else if atSeparator gs then pure (Token.tag none "!", gs)
    else if hasHandle gs then do
      let (handle, left) ← tagHandle .badProperty gs
      let (text, left) ← tagChars .badProperty left
      pure (Token.tag (some handle) text, left)
    else do
      let (text, left) ← tagChars .badProperty gs
      pure (Token.tag (some "!") text, left)
  if atSpaceOrLineEnd left then .ok (token, left) else .error .badProperty

/-! ## Directives -/

/-- Reads a number in decimal digits. -/
def directiveNumber (gs : List Glyph) : Except Malformed (Nat × List Glyph) :=
  match spanChars Char.isDigit gs with
  | ([], _) => .error .badDirective
  | (digits, left) =>
    .ok (digits.foldl (fun n c => 10 * n + (c.toNat - '0'.toNat)) 0, left)

/-- Reads the version in a directive. -/
def versionDirective (gs : List Glyph) : Except Malformed (Directive × List Glyph) := do
  let (major, left) ← directiveNumber (skipChars (· = ' ') gs)
  if nextIs (· = '.') left then
    let (minor, left) ← directiveNumber (left.drop 1)
    if atSpaceOrLineEnd left then return (.version major minor, left)
  throw .badDirective

/-- Reads the short form of tags in a directive. -/
def tagDirective (gs : List Glyph) : Except Malformed (Directive × List Glyph) := do
  let gs := skipChars (· = ' ') gs
  if nextIs (· = '!') gs then
    let (handle, left) ← tagHandle .badDirective (gs.drop 1)
    if nextIs (· = ' ') left then
      let (expansion, left) ← tagChars .badDirective (skipChars (· = ' ') left)
      if atSpaceOrLineEnd left then return (.tagHandle handle expansion, left)
  throw .badDirective

/-- Reads a directive after its percent sign. -/
def directive (gs : List Glyph) : Except Malformed (Directive × List Glyph) := do
  let (name, left) := spanChars isNameChar gs
  if name.isEmpty || !atSpaceOrLineEnd left then throw .badDirective
  let (d, left) ←
    if name = "YAML".toList then versionDirective left
    else if name = "TAG".toList then tagDirective left
    else pure (Directive.unknown, skipChars (fun c => !isBreak c) left)
  return (d, ← restOfLine .badDirective left)

/-! ## Cutting -/

/-- Skips spaces, comments and line breaks, and says whether a line was broken. -/
def skipToToken : (inComment broken : Bool) → List Glyph → Bool × List Glyph
  | _, broken, [] => (broken, [])
  | inComment, broken, g :: rest =>
    if isBreak g.char then skipToToken false true rest
    else if inComment then skipToToken true broken rest
    else if g.char = ' ' then skipToToken false broken rest
    else if g.char = '#' then skipToToken true broken rest
    else (broken, g :: rest)

/-- A character that has a meaning of its own at the start of a token. -/
def isIndicator (c : Char) : Bool :=
  "-?:,[]\x7b\x7d#&*!|>'\"%@".toList.contains c || c = '\u0060'

/-- Whether a plain text begins here. -/
def startsPlain (inFlow : Bool) (g : Glyph) (rest : List Glyph) : Bool :=
  !(isSeparator g.char || isIndicator g.char)
    || (!atSeparator rest && (g.char = '-' || (!inFlow && (g.char = '?' || g.char = ':'))))

namespace Cutting

/-- Adds a plain text. -/
def pushPlain (s : Cutting) (fuel : Nat) (g : Glyph) (rest : List Glyph) :
    Except Malformed (Cutting × List Glyph) := do
  let t := plainText s.inFlow s.innerColumn fuel (g :: rest)
  let s ← s.pushCandidate g (.text true (String.ofList t.text))
  .ok ({ s with keyMayBegin := t.breaksLine }, t.rest)

/-- Adds a quoted text. -/
def pushQuoted (s : Cutting) (fuel : Nat) (g : Glyph) (rest : List Glyph) :
    Except Malformed (Cutting × List Glyph) := do
  let (text, left) ← quotedText (g.char = '"') fuel rest
  .ok (← s.pushCandidate g (.text false (String.ofList text)), left)

/-- Adds a block text. -/
def pushBlockText (s : Cutting) (fuel : Nat) (g : Glyph) (rest : List Glyph) :
    Except Malformed (Cutting × List Glyph) := do
  let (text, left) ← blockText (g.char = '>') s.innerColumn fuel rest
  let s ← s.dropCandidate
  .ok ({ s.push (.text false (String.ofList text)) with keyMayBegin := true }, left)

/-- Cuts off the token that begins with `g`. -/
def pushNext (s : Cutting) (fuel : Nat) (g : Glyph) (rest : List Glyph) :
    Except Malformed (Cutting × List Glyph) := do
  if g.char = '%' ∧ g.column = 0 then
    let (d, left) ← directive rest
    return (← s.pushBoundary (.directive d), left)
  if let some left := afterMarker? '-' (g :: rest) then
    return (← s.pushBoundary .documentStart, left)
  if let some left := afterMarker? '.' (g :: rest) then
    return (← s.pushBoundary .documentEnd, left)
  if g.char = '[' then return (← s.openFlow g .openBracket, rest)
  if g.char = '\x7b' then return (← s.openFlow g .openBrace, rest)
  if g.char = ']' then return (← s.closeFlow .closeBracket, rest)
  if g.char = '\x7d' then return (← s.closeFlow .closeBrace, rest)
  if g.char = ',' then return (← s.pushComma, rest)
  if g.char = '-' ∧ atSeparator rest then return (← s.pushDash g, rest)
  if g.char = '?' ∧ (s.inFlow ∨ atSeparator rest) then return (← s.pushMark g .key, rest)
  if g.char = ':' ∧ (s.inFlow ∨ atSeparator rest) then return (← s.pushColon g, rest)
  if g.char = '*' then
    let (name, left) ← anchorName rest
    return (← s.pushCandidate g (.alias name), left)
  if g.char = '&' then
    let (name, left) ← anchorName rest
    return (← s.pushCandidate g (.anchor name), left)
  if g.char = '!' then
    let (token, left) ← tagToken rest
    return (← s.pushCandidate g token, left)
  if (g.char = '|' ∨ g.char = '>') ∧ !s.inFlow then return ← s.pushBlockText fuel g rest
  if g.char = '\'' ∨ g.char = '"' then return ← s.pushQuoted fuel g rest
  if startsPlain s.inFlow g rest then return ← s.pushPlain fuel g rest
  throw .unexpectedCharacter

/-- Cuts off the next token, which begins with `g`, after a gap that breaks the line or does not. -/
def pushAfterGap (s : Cutting) (fuel : Nat) (breaksLine : Bool) (g : Glyph) (rest : List Glyph) :
    Except Malformed (Cutting × List Glyph) := do
  let s := { s with keyMayBegin := s.keyMayBegin || (breaksLine && !s.inFlow) }
  let s ← s.dropStale g
  (s.closeDeeper g.column).pushNext fuel g rest

/-- Cuts glyphs into tokens; each takes at least one glyph, so `fuel` may be any number greater than
theirs. -/
def tokensFrom (s : Cutting) : (fuel : Nat) → List Glyph → List Token
  | fuel, gs =>
    match skipToToken false false gs, fuel with
    | (_, []), _ =>
      match s.finish with
      | .ok ts => ts
      | .error why => s.breakOff gs why
    | (_, _ :: _), 0 => s.breakOff gs .unexpectedCharacter
    | (breaksLine, g :: rest), fuel + 1 =>
      match s.pushAfterGap (fuel + 1) breaksLine g rest with
      | .ok (s, left) => s.tokensFrom fuel left
      | .error why => s.breakOff gs why

end Cutting

/-- Leaves out a byte order mark at the very start. -/
def skipByteOrderMark : List Glyph → List Glyph
  | [] => []
  | g :: rest => if g.char = byteOrderMark then rest else g :: rest

/-- The tokens of a document. -/
def tokens (gs : List Glyph) : List Token :=
  Cutting.start.tokensFrom (gs.length + 1) (skipByteOrderMark gs)

end AccessPolicy.Document
