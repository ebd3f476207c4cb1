/-!
# Paths

A path is a list of names, counted from the root or from wherever one stands. Two slashes in front
of the first name are a root of their own; any other number of slashes is one. Names that are empty
or a single dot say nothing and are left out, while two dots stay, since where they lead depends on
what is there.
-/

namespace AccessPolicy

/-- Where a path starts. -/
inductive PathRoot where
  /-- Wherever one stands. -/
  | here
  /-- One slash, or three and more. -/
  | slash
  /-- Exactly two slashes. -/
  | doubleSlash
  deriving DecidableEq, Repr

/-- A start and the names from there on. -/
structure Path where
  root : PathRoot
  names : List String
  deriving DecidableEq, Repr

/-- The start of a path, told by the slashes in front of it. -/
def PathRoot.ofChars (cs : List Char) : PathRoot :=
  match (cs.takeWhile (· = '/')).length with
  | 0 => .here
  | 2 => .doubleSlash
  | _ => .slash

/-- A start as it is written. -/
def PathRoot.text : PathRoot → String
  | .here => ""
  | .slash => "/"
  | .doubleSlash => "//"

namespace Path

/-- The names between slashes, empty ones included. -/
def splitNames (text : String) : List String :=
  (text.toList.splitOn '/').map String.ofList

/-- The path that a text writes. -/
def ofString (text : String) : Path :=
  ⟨.ofChars text.toList, (splitNames text).filter fun name => name ≠ "" ∧ name ≠ "."⟩

/-- Whether a path does not depend on where one stands. -/
def isAbsolute (p : Path) : Bool := p.root ≠ .here

/-- The path `p`, from the end of `base` on if it depends on where one stands. -/
def under (p base : Path) : Path :=
  if p.isAbsolute then p else ⟨base.root, base.names ++ p.names⟩

/-- A path as it is written; a dot where nothing else would be. -/
def text (p : Path) : String :=
  let written := p.root.text ++ "/".intercalate p.names
  if written = "" then "." else written

end Path
end AccessPolicy
