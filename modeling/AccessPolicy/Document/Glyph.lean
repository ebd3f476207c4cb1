import AccessPolicy.Document.Unfit

/-!
# The characters of a document

A document is read as a list of *glyphs*: its characters, each with the place where it stands.
Indentation has a meaning in documents, so every later stage asks for columns; having them on the
characters keeps each reader a function of the rest of the text alone.

Line breaks come in several spellings. Carriage return, newline and the two together, and the
next-line character U+0085, are all one newline here; the line and paragraph separators U+2028 and
U+2029 break lines too, but stay what they are.
-/

namespace AccessPolicy.Document

/-- Why a text is no document. -/
inductive Malformed where
  /-- A character that documents may not hold. -/
  | forbiddenCharacter
  /-- A character that can start nothing here. -/
  | unexpectedCharacter
  /-- A quoted text without its closing quote, or broken off by a document marker. -/
  | unclosedQuote
  /-- A backslash in front of something that is no escape. -/
  | unknownEscape
  /-- A block text whose first line is not understood. -/
  | blockHeader
  /-- An anchor, an alias or a tag that is not understood. -/
  | badProperty
  /-- A directive that is not understood. -/
  | badDirective
  /-- A key of a mapping, or an item of a sequence, where none may stand. -/
  | misplacedKey
  /-- A line that starts like the keys above it and is none. -/
  | missingValueMark
  /-- A part of the document where another is needed. -/
  | unexpectedToken
  /-- An alias of nothing. -/
  | undefinedAlias
  /-- Two anchors of one name. -/
  | duplicateAnchor
  /-- More than one document. -/
  | secondDocument
  /-- A tag that nothing is known about, or that does not suit what it stands on. -/
  | unsuitableTag
  /-- A key that is a collection. -/
  | collectionKey
  /-- A merge of something that is no mapping. -/
  | badMerge
  /-- Binary data that is not written in base 64. -/
  | badBinary
  /-- An item of an ordered mapping that is no mapping with a single entry. -/
  | badPair
  /-- Nothing where a number has to begin. -/
  | emptyNumber
  /-- A word that is to be a truth value and is none. -/
  | noTruthValue (word : String)
  /-- A text that is to be a date and is none. -/
  | noDate
  /-- A date whose text is the default of a mapping. -/
  | dateMapping
  /-- A number in base 60 with more places than approximate numbers reach. -/
  | tooManyPlaces
  /-- An escape of a number far beyond those of all characters. -/
  | escapeTooLarge
  /-- A scalar that is not what it has to be. -/
  | unfit (why : Unfit)
  deriving DecidableEq, Repr

/-- A character with its place: the characters before it in the document, the lines before it, and
the characters before it on its line. -/
structure Glyph where
  char : Char
  index : Nat
  line : Nat
  column : Nat
  deriving DecidableEq, Repr

/-- A character that a document may hold. -/
def isAllowed (c : Char) : Bool :=
  let n := c.toNat
  n = 0x09 || n = 0x0A || n = 0x0D || (0x20 ≤ n && n ≤ 0x7E) || n = 0x85
    || (0xA0 ≤ n && n ≤ 0xD7FF) || (0xE000 ≤ n && n ≤ 0xFFFD) || 0x10000 ≤ n

/-- A character that ends a line, once line breaks are unified. -/
def isBreak (c : Char) : Bool := c = '\n' || c = '\u2028' || c = '\u2029'

/-- A space or a tab. -/
def isSpacing (c : Char) : Bool := c = ' ' || c = '\t'

/-- A character that separates: a space, a tab or a line break. -/
def isSeparator (c : Char) : Bool := isSpacing c || isBreak c

/-- The value of a hexadecimal digit. -/
def hexValue? (c : Char) : Option Nat :=
  if '0' ≤ c ∧ c ≤ '9' then some (c.toNat - '0'.toNat)
  else if 'a' ≤ c ∧ c ≤ 'f' then some (c.toNat - 'a'.toNat + 10)
  else if 'A' ≤ c ∧ c ≤ 'F' then some (c.toNat - 'A'.toNat + 10)
  else none

/-- The byte order mark, which takes no room on its line. -/
def byteOrderMark : Char := '\uFEFF'

/-- Writes every line break that is not U+2028 or U+2029 as a newline. -/
def unifyBreaks : List Char → List Char
  | [] => []
  | '\r' :: '\n' :: rest => '\n' :: unifyBreaks rest
  | c :: rest => (if c = '\r' ∨ c = '\u0085' then '\n' else c) :: unifyBreaks rest

/-- Characters with their places, from a given place on. -/
def place (index line column : Nat) : List Char → List Glyph
  | [] => []
  | c :: rest =>
    ⟨c, index, line, column⟩ ::
      (if isBreak c then place (index + 1) (line + 1) 0 rest
       else place (index + 1) line (if c = byteOrderMark then column else column + 1) rest)

/-- The glyphs of a text. -/
def glyphs (text : String) : Except Malformed (List Glyph) :=
  if text.toList.all isAllowed then .ok (place 0 0 0 (unifyBreaks text.toList))
  else .error .forbiddenCharacter

/-- The characters of glyphs. -/
def chars (gs : List Glyph) : List Char := gs.map (·.char)

/-- Whether the next character satisfies a test. -/
def nextIs (test : Char → Bool) : List Glyph → Bool
  | [] => false
  | g :: _ => test g.char

/-- Whether a separator or the end of the document comes next. -/
def atSeparator : List Glyph → Bool
  | [] => true
  | g :: _ => isSeparator g.char

/-- Whether a line break or the end of the document comes next. -/
def atLineEnd : List Glyph → Bool
  | [] => true
  | g :: _ => isBreak g.char

/-- Whether a space, a line break or the end of the document comes next. -/
def atSpaceOrLineEnd : List Glyph → Bool
  | [] => true
  | g :: _ => g.char = ' ' || isBreak g.char

/-- What follows three characters `mark` and stands in front of a separator, at the start of a
line. -/
def afterMarker? (mark : Char) : List Glyph → Option (List Glyph)
  | a :: b :: c :: rest =>
    if a.column = 0 ∧ a.char = mark ∧ b.char = mark ∧ c.char = mark ∧ atSeparator rest then some rest
    else none
  | _ => none

/-- Whether the document starts or ends here: `---` or `...` at the start of a line. -/
def atMarker (gs : List Glyph) : Bool :=
  (afterMarker? '-' gs).isSome || (afterMarker? '.' gs).isSome

/-- Splits glyphs in front of the first whose character fails a test. -/
def spanChars (test : Char → Bool) : List Glyph → List Char × List Glyph
  | [] => ([], [])
  | g :: rest =>
    if test g.char then
      let (taken, left) := spanChars test rest
      (g.char :: taken, left)
    else ([], g :: rest)

/-- The glyphs after those that pass a test. -/
def skipChars (test : Char → Bool) (gs : List Glyph) : List Glyph :=
  gs.dropWhile fun g => test g.char

/-- What one line break and the breaks that follow it stand for inside a text that is folded over
lines: a single newline is a space, and of several newlines the first counts for nothing. -/
def folded (first : Char) (others : List Char) : List Char :=
  if first ≠ '\n' then first :: others
  else if others = [] then [' ']
  else others

end AccessPolicy.Document
