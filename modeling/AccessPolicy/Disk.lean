import AccessPolicy.Path

/-!
# Files

What is there to read. To the rest of the program a `Disk` only says what a path leads to, as the
path is written.

A `FileTree` is a disk that is known in full: files under absolute names, and the directory in which
one stands. Every file is inside directories, which are there because it is. A path is followed name
by name, and each name but the last has to be a directory; two dots lead back to the directory around
one, and to the root itself from there.

Files hold bytes. Their text is UTF-8 without exception, and every way to break a line is read as a
newline.
-/

namespace AccessPolicy

/-- What a path leads to. -/
inductive DiskEntry where
  | directory
  | file (bytes : ByteArray)

/-- What each path leads to, if it leads anywhere. -/
structure Disk where
  find? : String → Option DiskEntry

/-- Files by their names from the root, and the names of the directory in which one stands. -/
structure FileTree where
  workingDirectory : List String
  files : List (List String × ByteArray)

namespace FileTree

/-- Whether a directory has this place: something is inside of it. -/
def isDirectory (t : FileTree) (place : List String) : Bool :=
  place.isPrefixOf t.workingDirectory
    || t.files.any fun (file, _) => place.isPrefixOf file && place.length < file.length

/-- What has this place, given by the names from the root on. -/
def entryAt (t : FileTree) (place : List String) : Option DiskEntry :=
  match t.files.lookup place with
  | some bytes => some (.file bytes)
  | none => if t.isDirectory place then some .directory else none

/-- The place to which names lead from a place, each but the last through a directory. -/
def follow (t : FileTree) : (place names : List String) → Option (List String)
  | place, [] => some place
  | place, name :: names =>
    match t.entryAt place with
    | some .directory =>
      if name = "" ∨ name = "." then t.follow place names
      else if name = ".." then t.follow place.dropLast names
      else t.follow (place ++ [name]) names
    | _ => none

/-- What a path leads to; an empty one leads nowhere. -/
def find? (t : FileTree) (path : String) : Option DiskEntry :=
  if path = "" then none
  else
    let start := if path.toList.head? = some '/' then [] else t.workingDirectory
    (t.follow start (Path.splitNames path)).bind t.entryAt

/-- The disk that holds the files. -/
def disk (t : FileTree) : Disk := ⟨t.find?⟩

end FileTree

/-- Reads every way to break a line as a newline. -/
def unifyLineEnds : List Char → List Char
  | [] => []
  | '\r' :: '\n' :: rest => '\n' :: unifyLineEnds rest
  | c :: rest => (if c = '\r' then '\n' else c) :: unifyLineEnds rest

/-- The text of a file, if its bytes are one. -/
def textOfBytes? (bytes : ByteArray) : Option String :=
  (String.fromUTF8? bytes).map fun text => String.ofList (unifyLineEnds text.toList)

end AccessPolicy
