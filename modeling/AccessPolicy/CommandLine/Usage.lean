import AccessPolicy.Text.Quoted

/-!
# Words on the command line

A command line is a list of words: options, values of options, and arguments. An option has a long
name, after two hyphens, and maybe a letter, after one. A value follows its option as a word, stands
behind an equals sign after the long name, or right behind the letter; letters without a value may
share a word. After `--` every word is an argument, and a single hyphen is always one.

`Reading` is what the words come to: the options given, in order, and the arguments. A
`UsageError` says why words make no sense; for a long option or a command that is not known, it
names those that look like it.
-/

namespace AccessPolicy.CommandLine

/-! ## Names that look alike -/

/-- The length of the common start of two texts. -/
def commonStart : List Char → List Char → Nat
  | a :: as, b :: bs => if a = b then commonStart as bs + 1 else 0
  | _, _ => 0

/-- The places of two texts, given as how much stands before them. -/
def placePairs (as bs : List Char) : List (Nat × Nat) :=
  (List.range as.length).flatMap fun i => (List.range bs.length).map fun j => (i, j)

/-- The longest run that two texts share, as the places where it begins and its length; of several
the first, in the one text and then in the other. -/
def longestRun (as bs : List Char) : Nat × Nat × Nat :=
  (placePairs as bs).foldl (fun (bestI, bestJ, best) (i, j) =>
    let size := commonStart (as.drop i) (bs.drop j)
    if best < size then (i, j, size) else (bestI, bestJ, best)) (0, 0, 0)

/-- The number of characters in runs that two texts share: the longest, and those on either side of
it. -/
def sharedWithin : (fuel : Nat) → List Char → List Char → Nat
  | 0, _, _ => 0
  | fuel + 1, as, bs =>
    match longestRun as bs with
    | (_, _, 0) => 0
    | (i, j, size) =>
      size + sharedWithin fuel (as.take i) (bs.take j)
        + sharedWithin fuel (as.drop (i + size)) (bs.drop (j + size))

/-- The number of characters in runs that two texts share. -/
def shared (as bs : List Char) : Nat := sharedWithin (as.length + 1) as bs

/-- A likeness of two texts: the shared characters against all. -/
structure Likeness where
  shared : Nat
  total : Nat

/-- How much a name looks like a word. -/
def likeness (name word : String) : Likeness :=
  ⟨2 * shared name.toList word.toList, name.length + word.length⟩

/-- At least three fifths of the characters are shared. -/
def Likeness.isClose (l : Likeness) : Bool := 3 * l.total ≤ 5 * l.shared

/-- Whether one name is at least as good a guess as another: it is more like the word, or as much
and later in order. -/
def isBetterGuess (a b : String × Likeness) : Bool :=
  let left := a.2.shared * b.2.total
  let right := b.2.shared * a.2.total
  right < left || (left = right && b.1 ≤ a.1)

/-- The names that look like a word, at most three, in order. -/
def alike (word : String) (names : List String) : List String :=
  let close := (names.map fun name => (name, likeness name word)).filter (·.2.isClose)
  (((close.mergeSort isBetterGuess).take 3).map Prod.fst).mergeSort fun a b => a ≤ b

/-! ## Errors -/

/-- An option that a command knows. -/
structure OptionSpec where
  long : String
  letter : Option Char
  takesValue : Bool
  deriving DecidableEq, Repr

/-- The names of an option as they are shown. -/
def OptionSpec.shown (o : OptionSpec) : String :=
  " / ".intercalate ((o.long :: o.letter.toList.map fun c => String.ofList ['-', c]).map fun name =>
    Text.quote name)

/-- Why words on the command line make no sense. -/
inductive UsageError where
  | unknownOption (name : String) (alike : List String)
  | missingValue (option : String)
  | unexpectedValue (option : String)
  | unknownCommand (name : String) (alike : List String)
  | missingCommand
  | missingArgument (name : String)
  | extraArguments (words : List String)
  | noSuchFile (argument path : String)
  | directory (argument path : String)
  | notPair (option : OptionSpec) (value : String)
  deriving DecidableEq, Repr

/-- A hint at the names that were perhaps meant. -/
def hint : List String → String
  | [] => ""
  | [name] => " Did you mean " ++ Text.quote name ++ "?"
  | names => " (Did you mean one of: " ++ ", ".intercalate (names.map Text.quote) ++ "?)"

/-- The error in words. -/
def UsageError.message : UsageError → String
  | .unknownOption name alike => "No such option " ++ Text.quote name ++ "." ++ hint alike
  | .missingValue option => "Option " ++ Text.quote option ++ " requires an argument."
  | .unexpectedValue option => "Option " ++ Text.quote option ++ " does not take a value."
  | .unknownCommand name alike => "No such command " ++ Text.quote name ++ "." ++ hint alike
  | .missingCommand => "Missing command."
  | .missingArgument name => "Missing argument '" ++ name ++ "'."
  | .extraArguments [word] => "Got unexpected extra argument (" ++ word ++ ")"
  | .extraArguments words =>
    "Got unexpected extra arguments (" ++ " ".intercalate words ++ ")"
  | .noSuchFile argument path =>
    "Invalid value for '" ++ argument ++ "': File " ++ Text.quote path ++ " does not exist."
  | .directory argument path =>
    "Invalid value for '" ++ argument ++ "': File " ++ Text.quote path ++ " is a directory."
  | .notPair option value =>
    "Invalid value for " ++ option.shown ++ ": expected KEY=VALUE, got " ++ Text.quote value

/-! ## Reading -/

/-- An option as it was given. -/
structure Given where
  option : OptionSpec
  value : String
  deriving DecidableEq, Repr

/-- What the words of a command come to. -/
structure Reading where
  /-- The options, in the order in which they were given. -/
  options : List Given
  arguments : List String

namespace Reading

/-- The same with options in front. -/
def given (r : Reading) (options : List Given) : Reading :=
  { r with options := options ++ r.options }

/-- The values of an option, in order. -/
def values (r : Reading) (option : OptionSpec) : List String :=
  (r.options.filter fun g => g.option = option).map (·.value)

/-- Whether an option was given. -/
def has (r : Reading) (option : OptionSpec) : Bool := r.options.any fun g => g.option = option

end Reading

/-- The options in one word, and the one whose value is the next word, by the name used. -/
structure WordOptions where
  complete : List Given
  open? : Option (String × OptionSpec)

/-- Reads the letters of a word after a hyphen. -/
def letterOptions (specs : List OptionSpec) : List Char → Except UsageError WordOptions
  | [] => .ok ⟨[], none⟩
  | c :: rest =>
    let name := String.ofList ['-', c]
    match specs.find? fun o => o.letter = some c with
    | none => .error (.unknownOption name [])
    | some o =>
      if o.takesValue then
        if rest = [] then .ok ⟨[], some (name, o)⟩ else .ok ⟨[⟨o, String.ofList rest⟩], none⟩
      else do
        let others ← letterOptions specs rest
        .ok { others with complete := ⟨o, ""⟩ :: others.complete }

/-- A text up to its first equals sign, and what follows that sign. -/
def splitAtEquals (text : String) : String × Option String :=
  let cs := text.toList
  match cs.dropWhile (· ≠ '=') with
  | [] => (text, none)
  | _ :: value => (String.ofList (cs.takeWhile (· ≠ '=')), some (String.ofList value))

/-- Reads a word that begins with a hyphen. -/
def wordOptions (specs : List OptionSpec) (word : String) : Except UsageError WordOptions :=
  let (name, value) := splitAtEquals word
  match specs.find? fun o => o.long = name, value with
  | some o, some value =>
    if o.takesValue then .ok ⟨[⟨o, value⟩], none⟩ else .error (.unexpectedValue name)
  | some o, none =>
    if o.takesValue then .ok ⟨[], some (name, o)⟩ else .ok ⟨[⟨o, ""⟩], none⟩
  | none, _ =>
    if ['-', '-'].isPrefixOf word.toList then
      .error (.unknownOption name (alike name (specs.map (·.long))))
    else letterOptions specs (word.toList.drop 1)

/-- Whether a word is read as options. -/
def isOptionWord (word : String) : Bool :=
  word.toList.head? = some '-' && 1 < word.length

/-- Reads words. Where options have to come first, the first argument ends them. -/
def readWords (specs : List OptionSpec) (optionsFirst : Bool) :
    List String → Except UsageError Reading
  | [] => .ok ⟨[], []⟩
  | word :: rest =>
    if word = "--" then .ok ⟨[], rest⟩
    else if isOptionWord word then do
      let options ← wordOptions specs word
      match options.open? with
      | none => return (← readWords specs optionsFirst rest).given options.complete
      | some (name, o) =>
        match rest with
        | [] => throw (.missingValue name)
        | value :: rest =>
          return (← readWords specs optionsFirst rest).given (options.complete ++ [⟨o, value⟩])
    else if optionsFirst then .ok ⟨[], word :: rest⟩
    else do
      let others ← readWords specs optionsFirst rest
      .ok { others with arguments := word :: others.arguments }

end AccessPolicy.CommandLine
