import AccessPolicy.CommandLine
import AccessPolicy.Loader.Standard

/-!
# What the program comes with

The program reads documents with its own loader, and words as `readWords` does.
-/

namespace AccessPolicy.CommandLine

/-- What the program takes for what comes from elsewhere. -/
def Packages.standard : Packages := { Loader.standard with readWords := CommandLine.readWords }

end AccessPolicy.CommandLine
