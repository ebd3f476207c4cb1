import AccessPolicy.Document.Glyph

/-!
# Texts in documents

A document writes a text in one of four ways: plain, between single or double quotes, or as an
indented block. Each reader takes the glyphs from the text on, and gives the text and the glyphs
after it.

* A *plain* text has no marks of its own. It ends where something else could begin: in front of a
  colon that is followed by a separator, a comment, or a line that is not indented enough; inside
  brackets also in front of the characters that structure them.
* A *quoted* text ends at its closing quote. Only double quotes know escapes; in single quotes, the
  quote itself is written twice.
* Plain and quoted texts are folded: a line break stands for a space, and of several line breaks
  the first counts for nothing.
* A *block* text holds every line that is indented enough, literally (`|`) or folded (`>`), and
  says by `-` or `+` what becomes of the line breaks at its end.

The readers that go round take `fuel` for it; any number greater than that of the glyphs is enough.
-/

namespace AccessPolicy.Document

/-! ## Plain texts -/

/-- A character that structures bracketed collections. -/
def isFlowMark (c : Char) : Bool :=
  c = ',' || c = '[' || c = ']' || c = '\x7b' || c = '\x7d'

/-- Whether a plain text stops in front of these glyphs, within a line. -/
def plainStops (inFlow : Bool) : List Glyph → Bool
  | [] => true
  | g :: rest =>
    isSeparator g.char
      || (g.char = ':' && (atSeparator rest || (inFlow && nextIs isFlowMark rest)))
      || (inFlow && (g.char = '?' || isFlowMark g.char))

/-- The characters up to where a plain text stops. -/
def plainChunk (inFlow : Bool) : List Glyph → List Char × List Glyph
  | [] => ([], [])
  | g :: rest =>
    if plainStops inFlow (g :: rest) then ([], g :: rest)
    else
      let (taken, left) := plainChunk inFlow rest
      (g.char :: taken, left)

/-- The further line breaks of a gap between two lines of a plain text; nothing where a document
marker ends the text. -/
def plainBreaks : List Glyph → Option (List Char) × List Glyph
  | [] => (some [], [])
  | g :: rest =>
    if g.char = ' ' then plainBreaks rest
    else if isBreak g.char then
      if atMarker rest then (none, rest)
      else
        let (breaks, left) := plainBreaks rest
        (breaks.map (g.char :: ·), left)
    else (some [], g :: rest)

/-- What stands between two parts of a plain text. -/
structure Gap where
  /-- The text that it stands for; empty where the plain text has ended. -/
  text : List Char
  /-- The glyphs after it. -/
  rest : List Glyph
  /-- Whether it breaks the line. -/
  breaksLine : Bool

/-- Reads the gap after a part of a plain text. -/
def plainGap (gs : List Glyph) : Gap :=
  match spanChars (· = ' ') gs with
  | (spaces, []) => ⟨spaces, [], false⟩
  | (spaces, g :: rest) =>
    if isBreak g.char then
      if atMarker rest then ⟨[], rest, true⟩
      else match plainBreaks rest with
        | (none, left) => ⟨[], left, true⟩
        | (some breaks, left) => ⟨folded g.char breaks, left, true⟩
    else ⟨spaces, g :: rest, false⟩

/-- Whether a plain text cannot go on after a gap. -/
def endsPlain (inFlow : Bool) (indent : Nat) (gap : Gap) : Bool :=
  gap.text.isEmpty || match gap.rest with
    | [] => true
    | g :: _ => g.char = '#' || (!inFlow && g.column < indent)

/-- A text, the glyphs after it, and whether a line break stands between the two. -/
structure PlainText where
  text : List Char
  rest : List Glyph
  breaksLine : Bool

/-- Reads the parts of a plain text, after a gap that is not yet part of it. -/
def plainParts (inFlow : Bool) (indent : Nat) : (fuel : Nat) → Gap → PlainText
  | 0, gap => ⟨[], gap.rest, gap.breaksLine⟩
  | fuel + 1, gap =>
    match plainChunk inFlow gap.rest with
    | ([], _) => ⟨[], gap.rest, gap.breaksLine⟩
    | (chunk, left) =>
      let next := plainGap left
      if endsPlain inFlow indent next then ⟨gap.text ++ chunk, next.rest, next.breaksLine⟩
      else
        let others := plainParts inFlow indent fuel next
        ⟨gap.text ++ chunk ++ others.text, others.rest, others.breaksLine⟩

/-- Reads a plain text whose further lines have `indent` columns in front of them. -/
def plainText (inFlow : Bool) (indent fuel : Nat) (gs : List Glyph) : PlainText :=
  plainParts inFlow indent fuel ⟨[], gs, false⟩

/-! ## Quoted texts -/

/-- The line breaks after a line break inside quotes. -/
def quotedBreaks : (fuel : Nat) → List Glyph → Except Malformed (List Char × List Glyph)
  | 0, gs => .ok ([], gs)
  | fuel + 1, gs =>
    if atMarker gs then .error .unclosedQuote
    else match skipChars isSpacing gs with
      | [] => .ok ([], [])
      | g :: rest =>
        if isBreak g.char then do
          let (breaks, left) ← quotedBreaks fuel rest
          .ok (g.char :: breaks, left)
        else .ok ([], g :: rest)

/-- The character that a backslash and one character stand for. -/
def simpleEscape? : Char → Option Char
  | '0' => some '\x00'
  | 'a' => some '\x07'
  | 'b' => some '\x08'
  | 't' | '\t' => some '\t'
  | 'n' => some '\n'
  | 'v' => some '\x0B'
  | 'f' => some '\x0C'
  | 'r' => some '\r'
  | 'e' => some '\x1B'
  | ' ' => some ' '
  | '"' => some '"'
  | '\\' => some '\\'
  | '/' => some '/'
  | 'N' => some '\u0085'
  | '_' => some '\u00A0'
  | 'L' => some '\u2028'
  | 'P' => some '\u2029'
  | _ => none

/-- The number of hexadecimal digits after a backslash and one character. -/
def escapeWidth? : Char → Option Nat
  | 'x' => some 2
  | 'u' => some 4
  | 'U' => some 8
  | _ => none

/-- The number that `width` hexadecimal digits write, after the digits `value`. -/
def hexNumber : (width value : Nat) → List Glyph → Except Malformed (Nat × List Glyph)
  | 0, value, gs => .ok (value, gs)
  | _ + 1, _, [] => .error .unknownEscape
  | width + 1, value, g :: rest =>
    match hexValue? g.char with
    | some digit => hexNumber width (16 * value + digit) rest
    | none => .error .unknownEscape

/-- The number that an escape writes in hexadecimal digits, and the glyphs after it; the glyphs are
those after the backslash. -/
def numericEscape? : List Glyph → Option (Except Malformed (Nat × List Glyph))
  | [] => none
  | g :: rest => (escapeWidth? g.char).map fun width => hexNumber width 0 rest

/-- Whether a number is the first half of a character that is written in two halves. -/
def isFirstHalf (n : Nat) : Bool := 0xD800 ≤ n && n < 0xDC00

/-- Whether a number is the second half of a character that is written in two halves. -/
def isSecondHalf (n : Nat) : Bool := 0xDC00 ≤ n && n < 0xE000

/-- The second half of a character, where an escape for one comes next, and the glyphs after it. -/
def secondHalf? : List Glyph → Option (Nat × List Glyph)
  | [] => none
  | g :: rest =>
    if g.char ≠ '\\' then none
    else match numericEscape? rest with
      | some (.ok (n, left)) => if isSecondHalf n then some (n, left) else none
      | _ => none

/-- The character of a code point. Two escapes in a row may write the halves of one character; a
half that stands alone is replaced. -/
def ofCodePoint (n : Nat) (gs : List Glyph) : Except Malformed (Char × List Glyph) :=
  if n.isValidChar then .ok (Char.ofNat n, gs)
  else if 0x80000000 ≤ n then .error .escapeTooLarge
  else if 0x110000 ≤ n then .error (.unfit .noCharacter)
  else if isFirstHalf n then
    match secondHalf? gs with
    | some (m, left) => .ok (Char.ofNat (0x10000 + 0x400 * (n - 0xD800) + (m - 0xDC00)), left)
    | none => .ok ('\uFFFD', gs)
  else .ok ('\uFFFD', gs)

/-- What the glyphs after a backslash stand for. -/
def escape (fuel : Nat) (gs : List Glyph) : Except Malformed (List Char × List Glyph) :=
  match numericEscape? gs with
  | some written => do
    let (n, left) ← written
    let (c, left) ← ofCodePoint n left
    .ok ([c], left)
  | none =>
    match gs with
    | [] => .error .unknownEscape
    | g :: rest =>
      match simpleEscape? g.char with
      | some c => .ok ([c], rest)
      | none =>
        if isBreak g.char then quotedBreaks fuel rest
        else .error .unknownEscape

/-- The spaces and line breaks at a place inside quotes, as the text that they stand for. -/
def quotedGap (fuel : Nat) (gs : List Glyph) : Except Malformed (List Char × List Glyph) :=
  match spanChars isSpacing gs with
  | (_, []) => .error .unclosedQuote
  | (spaces, g :: rest) =>
    if isBreak g.char then do
      let (breaks, left) ← quotedBreaks fuel rest
      .ok (folded g.char breaks, left)
    else .ok (spaces, g :: rest)

/-- Reads a quoted text after its opening quote. -/
def quotedText (double : Bool) : (fuel : Nat) → List Glyph →
    Except Malformed (List Char × List Glyph)
  | 0, _ => .error .unclosedQuote
  | _ + 1, [] => .error .unclosedQuote
  | fuel + 1, g :: rest =>
    let prepend (part : List Char) (left : List Glyph) := do
      let (others, left) ← quotedText double fuel left
      .ok (part ++ others, left)
    if isSeparator g.char then do
      let (gap, left) ← quotedGap (fuel + 1) (g :: rest)
      prepend gap left
    else if double then
      if g.char = '"' then .ok ([], rest)
      else if g.char = '\\' then do
        let (part, left) ← escape (fuel + 1) rest
        prepend part left
      else prepend [g.char] rest
    else if g.char = '\'' then
      match rest with
      | ⟨'\'', _, _, _⟩ :: left => prepend ['\''] left
      | _ => .ok ([], rest)
    else prepend [g.char] rest

/-! ## Block texts -/

/-- What becomes of the line breaks at the end of a block text. -/
inductive Chomping where
  /-- The last line keeps its break. -/
  | clip
  /-- None stays. -/
  | strip
  /-- All stay. -/
  | keep
  deriving DecidableEq, Repr

/-- The chomping that a sign stands for. -/
def chompingSign? (c : Char) : Option Chomping :=
  if c = '+' then some .keep else if c = '-' then some .strip else none

/-- Reads a digit from one to nine; a zero is an error. -/
def indentDigit : List Glyph → Except Malformed (Option Nat × List Glyph)
  | [] => .ok (none, [])
  | g :: rest =>
    if g.char = '0' then .error .blockHeader
    else if g.char.isDigit then .ok (some (g.char.toNat - '0'.toNat), rest)
    else .ok (none, g :: rest)

/-- Reads a sign, where there is one. -/
def chompingMark : List Glyph → Option Chomping × List Glyph
  | [] => (none, [])
  | g :: rest =>
    match chompingSign? g.char with
    | some chomping => (some chomping, rest)
    | none => (none, g :: rest)

/-- Reads the rest of a line, which may hold spaces and a comment, and its end. -/
def restOfLine (problem : Malformed) (gs : List Glyph) : Except Malformed (List Glyph) :=
  let gs := skipChars (· = ' ') gs
  let gs := if nextIs (· = '#') gs then skipChars (fun c => !isBreak c) gs else gs
  if atLineEnd gs then .ok (gs.drop 1) else .error problem

/-- Reads the first line of a block text after its mark: a sign and a digit, in any order. -/
def blockHeader (gs : List Glyph) : Except Malformed (Chomping × Option Nat × List Glyph) := do
  let (before, gs) := chompingMark gs
  let (indent, gs) ← indentDigit gs
  let (after, gs) := match before, indent with
    | none, some _ => chompingMark gs
    | _, _ => (none, gs)
  if atSpaceOrLineEnd gs then
    .ok ((before.or after).getD .clip, indent, ← restOfLine .blockHeader gs)
  else .error .blockHeader

/-- The line breaks in front of a line of a block text, and the glyphs from that line on; up to
`indent` spaces of each line are left out. -/
def blockBreaks (indent : Nat) : List Glyph → List Char × List Glyph
  | [] => ([], [])
  | g :: rest =>
    if g.char = ' ' ∧ g.column < indent then blockBreaks indent rest
    else if isBreak g.char then
      let (breaks, left) := blockBreaks indent rest
      (g.char :: breaks, left)
    else ([], g :: rest)

/-- The line breaks in front of the first line of a block text, the glyphs from that line on, and
the deepest indentation up to there. -/
def blockStart (deepest : Nat) : List Glyph → List Char × List Glyph × Nat
  | [] => ([], [], deepest)
  | g :: rest =>
    if g.char = ' ' then blockStart (max deepest (g.column + 1)) rest
    else if isBreak g.char then
      let (breaks, left, deepest) := blockStart deepest rest
      (g.char :: breaks, left, deepest)
    else ([], g :: rest, deepest)

/-- The line breaks at the end of a block text. -/
def chomped (chomping : Chomping) (last others : List Char) : List Char :=
  match chomping with
  | .clip => last
  | .strip => []
  | .keep => last ++ others

/-- Whether a line of a block text, indented by `indent`, begins here. -/
def atBlockLine (indent : Nat) : List Glyph → Bool
  | [] => false
  | g :: _ => g.column = indent

/-- Reads the lines of a block text, in front of which stand the line breaks `breaks`, after a line
that ends with the break `last`. -/
def blockLines (fold : Bool) (chomping : Chomping) (indent : Nat) :
    (fuel : Nat) → (last breaks : List Char) → List Glyph → List Char × List Glyph
  | 0, last, breaks, gs => (chomped chomping last breaks, gs)
  | fuel + 1, last, breaks, gs =>
    if atBlockLine indent gs then
      let (line, left) := spanChars (fun c => !isBreak c) gs
      let ended := chars (left.take 1)
      let (nextBreaks, left) := blockBreaks indent (left.drop 1)
      let joins := fold && ended = ['\n'] && !nextIs isSpacing gs && !nextIs isSpacing left
      let separator :=
        if !atBlockLine indent left then []
        else if !joins then ended
        else if nextBreaks.isEmpty then [' ']
        else []
      let (others, left) := blockLines fold chomping indent fuel ended nextBreaks left
      (breaks ++ line ++ separator ++ others, left)
    else (chomped chomping last breaks, gs)

/-- Reads a block text after its mark. Its lines have one column in front of them, and `outer`
columns where that is more. -/
def blockText (fold : Bool) (outer fuel : Nat) (gs : List Glyph) :
    Except Malformed (List Char × List Glyph) := do
  let (chomping, increment, gs) ← blockHeader gs
  let least := max outer 1
  let (indent, breaks, gs) := match increment with
    | some n =>
      let indent := least + n - 1
      (indent, blockBreaks indent gs)
    | none =>
      let (breaks, left, deepest) := blockStart 0 gs
      (max least deepest, breaks, left)
  .ok (blockLines fold chomping indent fuel [] breaks gs)

end AccessPolicy.Document
