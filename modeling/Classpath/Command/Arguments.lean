/-!
The command line: options, a subcommand and its arguments. Options may stand on either side of the
subcommand. An option's value is the rest of its word or the next word, unless that begins with a
dash; after two dashes every word is an argument. A word's value is checked when the next option
or argument begins, so that a fault behind a subcommand is found before one in front of it.
-/

set_option autoImplicit false

namespace Classpath.Command

/-- Why a command line is refused, or not run. -/
inductive UsageError where
  | helpRequested
  | nothingGiven
  | missingSubcommand
  | unknownSubcommand
  | missingArgument
  | unknownArgument
  /-- A value is missing or empty. -/
  | invalidValue
  /-- A value is given to an option that takes none. -/
  | unexpectedValue
  /-- An option that may stand once stands twice. -/
  | repeatedOption
  deriving DecidableEq, Repr

/-- The options that take a value. -/
inductive ValueOption where
  | path
  | library
  | logLevel
  deriving DecidableEq, Repr

/-- The options that take none. -/
inductive Switch where
  | noWalk
  | own
  | help
  deriving DecidableEq, Repr

structure Options where
  paths : List String
  libraries : List String
  logLevel : Option String
  noWalk : Bool
  own : Bool
  deriving DecidableEq, Repr

def Options.none : Options :=
  { paths := [], libraries := [], logLevel := .none, noWalk := false, own := false }

/-- What may stand in front of a subcommand, or behind one. -/
structure Level where
  subcommands : Bool
  own : Bool
  arguments : Nat
  deriving DecidableEq, Repr

/-- A command line that has been read in part. -/
structure Reading where
  options : Options
  /-- The last option that takes a value, and its value once there is one. -/
  pending : Option (ValueOption × Option String)
  /-- Two dashes have been read. -/
  trailing : Bool
  arguments : List String
  deriving DecidableEq, Repr

def subcommandNames : List String := ["classes", "resources", "methods", "bytecode", "cat", "help"]

namespace Reading

def begin : Reading := { options := .none, pending := none, trailing := false, arguments := [] }

/-- Gives an option its value. Paths add up and are not empty; a log level may be given once. -/
def give (reading : Reading) (option : ValueOption) (value : String) :
    Except UsageError Reading :=
  let options := reading.options
  match option with
  | .path =>
      if value = "" then .error .invalidValue
      else .ok { reading with options := { options with paths := options.paths ++ [value] } }
  | .library =>
      if value = "" then .error .invalidValue
      else .ok { reading with
        options := { options with libraries := options.libraries ++ [value] } }
  | .logLevel =>
      if options.logLevel.isSome then .error .repeatedOption
      else .ok { reading with options := { options with logLevel := some value } }

/-- Gives the last option its value, which must have been read. -/
def settle (reading : Reading) : Except UsageError Reading :=
  match reading.pending with
  | none => .ok reading
  | some (_, none) => .error .invalidValue
  | some (option, some value) => { reading with pending := none }.give option value

def turnOn (reading : Reading) (switch : Switch) : Except UsageError Reading := do
  let reading ← reading.settle
  let options := reading.options
  match switch with
  | .help => throw .helpRequested
  | .noWalk =>
      if options.noWalk then throw .repeatedOption
      return { reading with options := { options with noWalk := true } }
  | .own =>
      if options.own then throw .repeatedOption
      return { reading with options := { options with own := true } }

/-- An option that takes a value, with one in the same word or none yet. -/
def begins (reading : Reading) (option : ValueOption) (attached : Option String) :
    Except UsageError Reading := do
  let reading ← reading.settle
  match attached with
  | some value => reading.give option value
  | none => return { reading with pending := some (option, none) }

/-- An option by its long name, with what follows an equals sign. -/
def long (reading : Reading) (level : Level) (name : String) (attached : Option String) :
    Except UsageError Reading :=
  let switch (switch : Switch) :=
    if attached.isSome then .error .unexpectedValue else reading.turnOn switch
  match name with
  | "path" => reading.begins .path attached
  | "lib" => reading.begins .library attached
  | "log-level" => reading.begins .logLevel attached
  | "no-walk" => switch .noWalk
  | "help" => switch .help
  | "own" => if level.own then switch .own else .error .unknownArgument
  | _ => .error .unknownArgument

/-- Options by their letters. What follows the letter of an option that takes a value is the
value, less an equals sign in front. -/
def short (reading : Reading) : List Char → Except UsageError Reading
  | 'p' :: [] => reading.begins .path none
  | 'p' :: '=' :: value => reading.begins .path (some (String.ofList value))
  | 'p' :: value => reading.begins .path (some (String.ofList value))
  | 'h' :: _ => reading.turnOn .help
  | _ => .error .unknownArgument

def argument (reading : Reading) (level : Level) (word : String) : Except UsageError Reading := do
  if reading.arguments.length < level.arguments then
    let reading ← reading.settle
    return { reading with arguments := reading.arguments ++ [word] }
  else if level.subcommands ∧ ¬ (reading.trailing ∧ word ∈ subcommandNames) then
    throw .unknownSubcommand
  else
    throw .unknownArgument

/-- A long option's name and what follows its equals sign. -/
def longParts (option : List Char) : String × Option String :=
  let name := option.takeWhile (· ≠ '=')
  (String.ofList name, match option.drop name.length with
    | _ :: value => some (String.ofList value)
    | [] => none)

/-- A word that is neither two dashes nor a subcommand. -/
def word (reading : Reading) (level : Level) (word : String) : Except UsageError Reading :=
  if reading.trailing then reading.argument level word
  else
    match word.toList with
    | '-' :: '-' :: option =>
        let (name, attached) := longParts option
        reading.long level name attached
    | '-' :: letter :: letters => reading.short (letter :: letters)
    | _ =>
        match reading.pending with
        | some (option, none) => .ok { reading with pending := some (option, some word) }
        | _ => reading.argument level word

/-- The next word is the value of the last option. -/
def awaitsValue (reading : Reading) : Bool :=
  match reading.pending with
  | some (_, none) => true
  | _ => false

/-- Reads words up to a subcommand, which is given with the words behind it. -/
def words (level : Level) : Reading → List String →
    Except UsageError (Reading × Option (String × List String))
  | reading, [] => .ok (reading, none)
  | reading, next :: rest =>
      if level.subcommands ∧ ¬ reading.trailing ∧ ¬ reading.awaitsValue ∧
          next ∈ subcommandNames then
        .ok (reading, some (next, rest))
      else if next = "--" ∧ ¬ reading.trailing then
        words level { reading with trailing := true } rest
      else do
        words level (← reading.word level next) rest

end Reading

/-- A subcommand with its arguments. -/
inductive Subcommand where
  | classes (own : Bool)
  | resources
  | methods (className : String)
  | bytecode (className method descriptor : String)
  | cat (resource : String)
  deriving DecidableEq, Repr

structure Invocation where
  subcommand : Subcommand
  paths : List String
  libraries : List String
  logLevel : Option String
  noWalk : Bool
  deriving DecidableEq, Repr

/-- What may stand behind the subcommand of a name. -/
def levelOf (name : String) : Level :=
  { subcommands := false
    own := name = "classes"
    arguments := match name with
      | "methods" | "cat" => 1
      | "bytecode" => 3
      | _ => 0 }

/-- The subcommand that a name and arguments make. -/
def Subcommand.ofArguments (name : String) (own : Bool) (arguments : List String) :
    Except UsageError Subcommand :=
  match name, arguments with
  | "classes", _ => .ok (.classes own)
  | "resources", _ => .ok .resources
  | "methods", [className] => .ok (.methods className)
  | "bytecode", [className, method, descriptor] => .ok (.bytecode className method descriptor)
  | "cat", [resource] => .ok (.cat resource)
  | _, _ => .error .missingArgument

/-- Help may be asked for on one subcommand. -/
def helpOn (topics : List String) : UsageError :=
  match topics with
  | [] => .helpRequested
  | [topic] => if topic ∈ subcommandNames then .helpRequested else .unknownSubcommand
  | _ => .unknownSubcommand

/-- Reads the words of a command line. Of an option that stands in front of the subcommand and
behind it, only what stands behind counts. -/
def parse (words : List String) : Except UsageError Invocation := do
  let outer : Level := { subcommands := true, own := false, arguments := 0 }
  match ← Reading.words outer .begin words with
  | (reading, none) => do
      let reading ← reading.settle
      throw (if reading.options = .none then .nothingGiven else .missingSubcommand)
  | (_, some ("help", topics)) => throw (helpOn topics)
  | (reading, some (name, rest)) => do
      let (inner, _) ← Reading.words (levelOf name) .begin rest
      let inner ← inner.settle
      let subcommand ← Subcommand.ofArguments name inner.options.own inner.arguments
      let front := (← reading.settle).options
      let back := inner.options
      return {
        subcommand
        paths := if back.paths = [] then front.paths else back.paths
        libraries := if back.libraries = [] then front.libraries else back.libraries
        logLevel := back.logLevel.or front.logLevel
        noWalk := back.noWalk || front.noWalk }

end Classpath.Command
