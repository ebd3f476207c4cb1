import AccessPolicy.Dict
import AccessPolicy.Text.Quoted

/-!
# Requests

What a rule is evaluated for: the *token* of the caller, with roles and attributes, and the
*target*, the attributes of the object that is acted upon.

The right side of a check may refer to the target: `%(name)s`, spanning the whole text, stands for
the target attribute `name` (`Target.resolve`). A reference to an attribute that the target does not
have resolves to nothing; every other text resolves to itself.
-/

namespace AccessPolicy

/-- The caller of a request: the roles held, and named attributes. -/
structure Token where
  roles : List String
  attributes : Dict String

/-- The object that a request acts upon. -/
inductive Target where
  /-- An object about which nothing is known. -/
  | unknown
  /-- An object with these attributes. -/
  | known (attributes : Dict String)

/-- A caller and what the caller acts upon. -/
structure Request where
  token : Token
  target : Target

namespace Token

/-- Whether the token covers a role. -/
def hasRole (t : Token) (role : String) : Bool := t.roles.contains role

/-- The value of an attribute of the token. -/
def attribute? (t : Token) (name : String) : Option String := t.attributes.find? name

/-- The token in one line: its roles sorted and without repetition, its attributes in order. -/
def describe (t : Token) : String :=
  "StaticToken(roles=" ++ Text.quoteList (t.roles.eraseDups.mergeSort fun a b => a ≤ b)
    ++ ", api_attributes=" ++ Text.quotePairs t.attributes.entries ++ ")"

end Token

/-- The text between `%(` and `)s`, where these enclose the whole text. -/
def referenceName? : List Char → Option (List Char)
  | '%' :: '(' :: rest =>
    match rest.reverse with
    | 's' :: ')' :: name => some name.reverse
    | _ => none
  | _ => none

namespace Target

/-- The value of an attribute of the target. -/
def attribute? : Target → String → Option String
  | .unknown, _ => none
  | .known attributes, name => attributes.find? name

/-- The text that a right side stands for: itself, unless it refers to an attribute. -/
def resolve (target : Target) (text : String) : Option String :=
  match referenceName? text.toList with
  | some name => target.attribute? (String.ofList name)
  | none => some text

/-- The target in one line. -/
def describe : Target → String
  | .unknown => "EmptyTarget()"
  | .known attributes => "MappingTarget(" ++ Text.quotePairs attributes.entries ++ ")"

end Target

namespace Request

/-- The same caller acting upon another object. -/
def withTarget (r : Request) (target : Target) : Request := { r with target }

/-- The request in one line. -/
def describe (r : Request) : String :=
  "Request(token=" ++ r.token.describe ++ ", target=" ++ r.target.describe ++ ")"

end Request

/-- A text is a reference to `name` exactly when it is `name` between `%(` and `)s`. -/
theorem referenceName?_eq_some_iff {text name : List Char} :
    referenceName? text = some name ↔ text = '%' :: '(' :: name ++ [')', 's'] := by
  constructor
  · intro h
    unfold referenceName? at h
    split at h
    · next rest =>
      split at h
      · next tail heq =>
        have : rest = tail.reverse ++ [')', 's'] := by
          rw [← List.reverse_reverse rest, heq]; simp
        simp_all
      · simp at h
    · simp at h
  · rintro rfl
    simp [referenceName?]

end AccessPolicy
