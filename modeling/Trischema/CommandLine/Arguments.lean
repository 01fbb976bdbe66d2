import Trischema.Backend
import Trischema.Number.Reading

/-!
Command lines. A command is named first; its options follow in any order, by their names or by what tells
them apart from the others, with a value behind an equals sign or in the next word. The last of several
values counts, and whatever is not understood is refused as a whole.
-/

namespace Trischema

/-- The options of the commands. -/
inductive OptionName
  | module | entity | backend | maxDepth | output | help
  deriving DecidableEq, Repr

/-- What is asked for. -/
inductive Command
  | compile (entity : String) (backend : Backend) (maxDepth : Option Int)
  | describe (entity : String)
  | snapshot (output : Option String)
  deriving DecidableEq, Repr

/-- A command on the registry of a module, or on the default one. -/
structure Invocation where
  module : Option String
  command : Command
  deriving DecidableEq, Repr

namespace OptionName

/-- The spellings of an option. -/
def spellings : OptionName → List String
  | module => ["--module"]
  | entity => ["--entity"]
  | backend => ["--backend"]
  | maxDepth => ["--max-depth"]
  | output => ["--output", "-o"]
  | help => ["-h", "--help"]

/-- The options that may begin so, with the text that follows a short one. -/
def candidates (options : List OptionName) (word : String) : List (OptionName × Option String) :=
  let starting := options.flatMap fun o => (o.spellings.filter (·.startsWith word)).map fun _ => (o, none)
  if word.startsWith "--" then starting
  else
    let short := String.ofList (word.toList.take 2)
    let rest := String.ofList (word.toList.drop 2)
    (options.filter (·.spellings.contains short)).map (fun o => (o, some rest)) ++ starting

end OptionName

namespace CommandLine

/-- What a word of a command line is: an option, perhaps with its value, or a value. -/
inductive Word
  | option (o : OptionName) (value : Option String)
  | value (s : String)
  | unknown
  deriving DecidableEq, Repr

/-- Whether a word is a negative number. -/
def isNegativeNumber (s : String) : Bool :=
  match s.toList with
  | '-' :: cs =>
    let isDigit (c : Char) : Bool := (Text.digitValue? c).isSome
    let whole := cs.takeWhile isDigit
    match cs.dropWhile isDigit with
    | [] => !whole.isEmpty
    | '.' :: ds => !ds.isEmpty && ds.all isDigit
    | _ => false
  | _ => false

/-- A word cut at its first equals sign. -/
def cutValue (s : String) : String × Option String :=
  let cs := s.toList
  if cs.contains '=' then
    (String.ofList (cs.takeWhile (· != '=')), some (String.ofList ((cs.dropWhile (· != '=')).drop 1)))
  else (s, none)

/-- The option that a word spells out. -/
def spelledOut? (options : List OptionName) (s : String) : Option OptionName :=
  options.find? (·.spellings.contains s)

/-- The option that a word is short for, where no other begins so. -/
def abbreviated (options : List OptionName) (s : String) : Option Word :=
  let (name, value) := if s.startsWith "--" then cutValue s else (s, none)
  match OptionName.candidates options name with
  | [] => none
  | [(o, rest)] => some (.option o (rest <|> value))
  | _ => some .unknown

/-- Tells what a word is. -/
def classify (options : List OptionName) (s : String) : Word :=
  if !s.startsWith "-" || s = "-" then .value s
  else
    match spelledOut? options s, cutValue s with
    | some o, _ => .option o none
    | none, (name, value) =>
      match value.bind fun _ => spelledOut? options name with
      | some o => .option o value
      | none =>
        match abbreviated options s with
        | some w => w
        | none => if isNegativeNumber s || s.toList.contains ' ' then .value s else .unknown

/-- Reads words as options with their values. -/
def readOptions (options : List OptionName) : List String → Option (List (OptionName × String))
  | [] => some []
  | word :: words =>
    match classify options word with
    | .option o (some value) => do return (o, value) :: (← readOptions options words)
    | .option o none =>
      match words with
      | value :: rest =>
        match classify options value with
        | .value s => do return (o, s) :: (← readOptions options rest)
        | _ => none
      | [] => none
    | _ => none

/-- The last value of an option. -/
def last? (given : List (OptionName × String)) (o : OptionName) : Option String := given.reverse.lookup o

/-- Whether a value may be given to an option. -/
def admits (o : OptionName) (value : String) : Bool :=
  match o with
  | .backend => (Backend.ofName? value).isSome
  | .maxDepth => (readWhole? value).isSome
  | .help => false
  | _ => true

/-- The values of the options of a command, each of which must admit its value. -/
def values (options : List OptionName) (words : List String) : Option (List (OptionName × String)) :=
  (readOptions (.help :: options) words).filter fun given => given.all fun (o, value) => admits o value

/-- Reads a command line. -/
def read? : List String → Option Invocation
  | "compile" :: words => do
    let given ← values [.module, .entity, .backend, .maxDepth] words
    let entity ← last? given .entity
    let backend ← (last? given .backend).bind Backend.ofName?
    return ⟨last? given .module, .compile entity backend ((last? given .maxDepth).bind readWhole?)⟩
  | "describe" :: words => do
    let given ← values [.module, .entity] words
    return ⟨last? given .module, .describe (← last? given .entity)⟩
  | "snapshot" :: words => do
    let given ← values [.module, .output] words
    return ⟨last? given .module, .snapshot (last? given .output)⟩
  | _ => none

end CommandLine

end Trischema
