import AccessPolicy.CommandLine.Standard

/-!
# The program

Reads the files that the words of the command line name, runs the command, and shows its rows and
notes.
-/

namespace AccessPolicy.CommandLine

/-- What a word leads to, if it is a path. -/
def readEntry (word : String) : IO (Option DiskEntry) := do
  try
    return some (.file (← IO.FS.readBinFile word))
  catch
    | .inappropriateType .. => return some .directory
    | _ => return none

/-- The disk as far as the words name it. -/
def readDisk (words : List String) : IO Disk := do
  let entries ← words.mapM fun word => return (word, ← readEntry word)
  let known := entries ++ entries.map fun (word, entry) => ((Path.ofString word).text, entry)
  return ⟨fun path => (known.lookup path).join⟩

/-- Shows an outcome and gives its exit code. -/
def present (outcome : Outcome) : IO UInt32 := do
  for note in outcome.notes do
    IO.eprintln note
  for row in shownRows outcome.rows do
    IO.println ("  ".intercalate row)
  return UInt32.ofNat outcome.exitCode

end AccessPolicy.CommandLine

/-- Runs the program on the words of its command line. -/
def main (words : List String) : IO UInt32 := do
  match AccessPolicy.CommandLine.run .standard (← AccessPolicy.CommandLine.readDisk words) words with
  | .ok outcome => AccessPolicy.CommandLine.present outcome
  | .error (.fault _) =>
    IO.eprintln "The rules refer to each other without end."
    return 1
  | .error (.load e) =>
    IO.eprintln ("The policy file cannot be read. " ++ e.detail)
    return 1
