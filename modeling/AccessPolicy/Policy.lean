import AccessPolicy.Loader

/-!
# Policies

A *policy* is a document that maps the names of rules to their texts; an empty document is a policy
without rules. A *config* groups policies: it has a version, names policy files, and may hold rules
of its own, which come last. Each of the three may be left out, and whatever else a config holds is
kept by name only. The texts of rules are not looked at here.
-/

namespace AccessPolicy

open Document (Value)

/-- The shape of rules: a text for each name. -/
def rulesShape : Shape (Dict String) := .mapping .text

/-- The rules of a policy, or everything that is wrong with the document. -/
def policyOfValue (L : Loader) : Value → Checked (Dict String)
  | .null => .ok ∅
  | v => L.validate rulesShape v

/-- Policy files to be read in order, and rules on top of them. -/
structure Config where
  version : String
  policyFiles : List String
  rules : Dict String
  /-- The other names in the document, sorted. -/
  extra : List String

namespace Config

/-- The config of an empty document. -/
def default : Config := ⟨"1", [], ∅, []⟩

/-- The sections of a config. -/
def sections : Fields (String × List String × Dict String × Unit) :=
  .field "version" .text default.version <|
  .field "policy_files" (.list .path) default.policyFiles <|
  .field "rules" rulesShape default.rules .nil

/-- The config that sections make. -/
def ofRecord : Record (String × List String × Dict String × Unit) → Config
  | ⟨(version, policyFiles, rules, ()), extra⟩ =>
    { version, policyFiles, rules, extra := extra.mergeSort fun a b => a ≤ b }

/-- Whether a value says nothing: an empty collection, an empty text, zero, or false. -/
def isVoid : Value → Bool
  | .null | .bool false | .int 0 | .decimal (.finite _ 0 _) | .text "" | .bytes [] | .sequence []
  | .mapping [] => true
  | _ => false

/-- The config that a value is, or everything that is wrong with it. A value that says nothing
counts as a mapping without entries. -/
def ofValue (L : Loader) (v : Value) : Checked Config :=
  (L.validateRecord sections (if isVoid v then .mapping [] else v)).map ofRecord

end Config

/-- Why a text gives no policy and no config. -/
inductive DocumentError where
  | unread (why : ReadError)
  | invalid (violations : List Violation)
  deriving DecidableEq, Repr

/-- Reads a text as a document and makes something of its value. -/
def readDocument (L : Loader) (ofValue : Value → Checked α) (text : String) :
    Except DocumentError α :=
  match L.document text with
  | .error why => .error (.unread why)
  | .ok v =>
    match ofValue v with
    | .error violations => .error (.invalid violations)
    | .ok a => .ok a

/-- The rules of the policy that a text holds. -/
def readPolicy (L : Loader) (text : String) : Except DocumentError (Dict String) :=
  readDocument L (policyOfValue L) text

/-- The config that a text holds. -/
def readConfig (L : Loader) (text : String) : Except DocumentError Config :=
  readDocument L (Config.ofValue L) text

end AccessPolicy
