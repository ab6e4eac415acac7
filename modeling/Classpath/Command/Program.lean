import Classpath.Command.Json
import Classpath.Command.Settings
import Classpath.Naming
import Classpath.Registry.Residency

/-!
The program: reads a command line, loads its inputs and prints what the subcommand asks for. A usage
error ends it with code two, any other error with code one and nothing printed.
-/

set_option autoImplicit false

namespace Classpath.Command

/-- How a run of the program ends. -/
structure Outcome where
  exitCode : Nat
  output : Bytes
  /-- What is said of an error, or nothing. -/
  complaint : String
  deriving DecidableEq, Repr

def textBytes (text : String) : Bytes := text.toUTF8.data.toList

/-- A value on lines of its own. -/
def printed (value : Json) : Bytes := textBytes (value.pretty 0 ++ "\n")

def classJson (cls : ClassFile) : Json :=
  .object [
    ("name", .string cls.name),
    ("binary_name", .string (Naming.binaryName cls.name)),
    ("own", .bool cls.own),
    ("source", .string cls.source),
    ("source_entry", Json.ofOption .string (Naming.sourceEntryName? cls.source none)),
    ("super_class", Json.ofOption .string cls.superName),
    ("interfaces", .array (cls.interfaces.map .string)),
    ("fields", .number cls.fields.length),
    ("methods", .number cls.methods.length),
    ("major_version", .number cls.majorVersion.toNat),
    ("content_hash", .string cls.contentHash)]

def methodJson (method : Method) : Json :=
  .object [
    ("name", .string method.name),
    ("descriptor", .string method.descriptor),
    ("access_flags", .number method.accessFlags.toNat),
    ("code_length", Json.ofOption (fun length : UInt32 => .number length.toNat)
      method.codeLength)]

/-- Without any number of class suffixes, given backwards. -/
def dropClassSuffixes : List Char → List Char
  | 's' :: 's' :: 'a' :: 'l' :: 'c' :: '.' :: rest => dropClassSuffixes rest
  | text => text

/-- The internal name that a class argument stands for: dots are taken for slashes, and blanks
around the name and class suffixes behind it for nothing. -/
def internalName (argument : String) : String :=
  let name := (dropClassSuffixes (Text.trim argument.toList).reverse).reverse
  String.ofList (name.map fun c => if c = '.' then '/' else c)

def findClass (catalog : Catalog) (argument : String) : Except Error ClassObject :=
  match catalog.registry.class? catalog.objects (internalName argument) with
  | some object => .ok object
  | none => .error (.ofCause (.classNotFound argument))

/-- What a subcommand prints. -/
def perform (files : FileTree) (catalog : Catalog) : Subcommand → Except Error Bytes
  | .classes own =>
      let objects := Registry.objectsOf catalog.objects catalog.registry.classes
      let shown := objects.filter fun object => !own || object.file.own
      .ok (printed (.array (shown.map fun object => classJson object.file)))
  | .resources => .ok (printed (.array (catalog.registry.resourceKeys.map .string)))
  | .methods className => do
      let object ← findClass catalog className
      return printed (.array (object.file.methods.map methodJson))
  | .bytecode className name descriptor => do
      let object ← findClass catalog className
      match object.file.method? name descriptor with
      | none => throw (.ofCause (.methodNotFound className name descriptor))
      | some method =>
          match ← object.methodCode catalog.registry files method with
          | none => throw (.ofCause (.methodWithoutCode className name descriptor))
          | some code =>
              return printed (.object [
                ("class_name", .string object.file.name),
                ("method", .string name),
                ("descriptor", .string descriptor),
                ("length", .number code.length),
                ("code", .string (hexText code))])
  | .cat resource => do
      match ← catalog.registry.readResource files resource with
      | none => throw (.ofCause (.resourceNotFound resource))
      | some bytes => return bytes

/-- What the program prints, once its command line has been read. -/
def execute (files : FileTree) (invocation : Invocation) (libraries logFilter : Option String) :
    Except Error Bytes := do
  let settings ← Settings.resolve invocation libraries logFilter
  let catalog ← settings.load files
  let output := perform files catalog invocation.subcommand
  let (closed, _) := catalog.registry.close
  let output ← output
  closed
  return output

def usage : String :=
  "Usage: classpath [OPTIONS] <COMMAND>\n\nCommands:\n" ++
  "  classes    List registered classes (--own for primary ones only)\n" ++
  "  resources  List every registered resource key\n" ++
  "  methods    List the methods of a class with their code lengths\n" ++
  "  bytecode   Print the bytecode of one method as hex\n" ++
  "  cat        Write the raw bytes of a resource\n\nOptions:\n" ++
  "  -p, --path <PATH>         Primary input (class file, jar/zip or directory); repeatable\n" ++
  "      --lib <PATH>          Library input scanned for classes only; repeatable\n" ++
  "      --no-walk             Refuse to walk directories\n" ++
  "      --log-level <FILTER>\n" ++
  "  -h, --help\n"

/-- Runs the program on the words of its command line and the two settings of its environment. -/
def run (files : FileTree) (words : List String) (libraries logFilter : Option String) : Outcome :=
  match parse words with
  | .error .helpRequested => { exitCode := 0, output := textBytes usage, complaint := "" }
  | .error _ => { exitCode := 2, output := [], complaint := usage }
  | .ok invocation =>
      match execute files invocation libraries logFilter with
      | .ok output => { exitCode := 0, output, complaint := "" }
      | .error error => { exitCode := 1, output := [], complaint := "Error: " ++ error.headline }

end Classpath.Command
