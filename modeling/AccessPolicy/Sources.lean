import AccessPolicy.Disk
import AccessPolicy.Policy
import AccessPolicy.RuleSet

/-!
# Rule sets from files

The sources of a rule set are policy files, in order, and then the rules that a config holds itself.
Each source is stored on top of what came before, so the last one that has a name decides its rule.
The first source that cannot be read, or that holds a text that is no rule, ends the whole. Files
are read with whatever loader there is.
-/

namespace AccessPolicy

/-- Why no rule set comes from a file. -/
inductive LoadError where
  /-- No file of this path is there; `what` says what it was to be. -/
  | notFound (what : String) (path : String)
  | isDirectory
  | notText
  | document (error : DocumentError)
  | rule (error : RuleError)
  deriving DecidableEq, Repr

/-- Whether it is known that a file which is there may give no rule set for this reason. -/
def LoadError.isExpected : LoadError → Bool
  | .notFound _ _ | .isDirectory => false
  | .document (.unread why) => why.isExpected
  | .notText | .document (.invalid _) | .rule _ => true

/-- What is known about an error of reading, in words. -/
def LoadError.detail : LoadError → String
  | .document (.unread (.stray _ message)) => message
  | .notFound what path => what ++ " not found: " ++ path
  | _ => ""

/-- Reads the text of a file. -/
def Disk.readText (d : Disk) (what : String) (path : Path) : Except LoadError String :=
  match d.find? path.text with
  | none => .error (.notFound what path.text)
  | some .directory => .error .isDirectory
  | some (.file bytes) =>
    match textOfBytes? bytes with
    | some text => .ok text
    | none => .error .notText

/-- Reads a policy file. -/
def Disk.readPolicy (d : Disk) (L : Loader) (path : Path) : Except LoadError (Dict String) :=
  match d.readText "Policy file" path with
  | .error e => .error e
  | .ok text => (AccessPolicy.readPolicy L text).mapError .document

/-- Reads a policy file and reports that it is loaded, once it is known to be a policy. -/
def Disk.loadPolicy (d : Disk) (L : Loader) (path : Path) :
    List LogEntry × Except LoadError (Dict String) :=
  match d.readPolicy L path with
  | .error e => ([], .error e)
  | .ok rules => ([.loaded rules.size path.text], .ok rules)

/-- Reads a config file. -/
def Disk.readConfig (d : Disk) (L : Loader) (path : Path) : Except LoadError Config :=
  match d.readText "Policy config" path with
  | .error e => .error e
  | .ok text => (AccessPolicy.readConfig L text).mapError .document

/-- What comes of building a rule set. -/
structure Build where
  /-- The rule set with everything that was stored. -/
  ruleSet : RuleSet
  /-- What was reported, in order. -/
  log : List LogEntry
  /-- What ended the whole, if anything did. -/
  error : Option LoadError

namespace Build

/-- Nothing is built yet. -/
def start : Build := ⟨RuleSet.fresh, [], none⟩

/-- Stores the rules of a source on top. -/
def addRules (b : Build) (rules : Dict String) : Build :=
  let update := b.ruleSet.addRules rules.entries
  ⟨update.ruleSet, b.log ++ update.log, update.error.map .rule⟩

/-- Reads a policy file and stores its rules on top. -/
def addFile (b : Build) (L : Loader) (d : Disk) (path : Path) : Build :=
  match d.loadPolicy L path with
  | (log, .error e) => { b with log := b.log ++ log, error := some e }
  | (log, .ok rules) => { b with log := b.log ++ log }.addRules rules

/-- Reads policy files one after the other, up to the first that fails. -/
def addFiles (b : Build) (L : Loader) (d : Disk) : List Path → Build
  | [] => b
  | path :: rest =>
    let next := b.addFile L d path
    match next.error with
    | some _ => next
    | none => next.addFiles L d rest

end Build

/-- The policy files of a config; those that depend on where one stands are sought in
`baseDirectory`, where that is given. -/
def Config.paths (c : Config) (baseDirectory : Option Path) : List Path :=
  c.policyFiles.map fun file =>
    match baseDirectory with
    | some base => (Path.ofString file).under base
    | none => Path.ofString file

/-- Builds the rule set of a config. -/
def Disk.build (d : Disk) (L : Loader) (c : Config) (baseDirectory : Option Path) : Build :=
  let files := Build.start.addFiles L d (c.paths baseDirectory)
  match files.error with
  | some _ => files
  | none => files.addRules c.rules

/-- Builds the rule set of a single policy file. -/
def Disk.buildFromFile (d : Disk) (L : Loader) (path : Path) : Build :=
  Build.start.addFile L d path

end AccessPolicy
