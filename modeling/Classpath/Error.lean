/-!
What can go wrong, as data. An error is a typed cause under the contexts it passed through, and
its text is one line: the contexts from the outermost in, then the cause, joined by colons.
-/

set_option autoImplicit false

namespace Classpath

/-- The two kinds of member that a class declares. -/
inductive MemberKind where
  | field
  | method
  deriving DecidableEq, Repr

def MemberKind.text : MemberKind → String
  | .field => "field"
  | .method => "method"

/-- The condition at the root of an error. -/
inductive Cause where
  /-- The key of a new entry is taken. -/
  | duplicateResource (key entry current : String)
  | duplicateClass (name : String)
  /-- A directory was to be scanned by a registry that does not walk directories. -/
  | directoryScanUnsupported (path : String)
  | archiveClosed (path : String)
  /-- Some entries could not be closed; each failure is a chain of texts, outermost first. -/
  | closeFailed (first : List String) (suppressed : List (List String))
  | wrongMagic (magic : UInt32)
  | unknownConstantTag (tag : UInt8) (index : UInt16)
  /-- No constant stands at the index. -/
  | poolIndexOutOfRange (index size : UInt16)
  /-- The constant at the index is of another kind than the wanted one. -/
  | poolTypeMismatch (index : UInt16) (expected : String)
  | truncatedAttribute (name : String) (length : UInt32)
  /-- Fewer bytes remain than a number of fixed width takes. -/
  | bytesExhausted
  /-- Fewer bytes remain than a run of the wanted length takes. -/
  | bytesTruncated (wanted remaining : Nat)
  | fileNotFound
  | notADirectory
  | isADirectory
  /-- A path with a zero character, which no file can have. -/
  | nulInPath
  /-- A path, or a name in it, that takes more bytes than a file's can. -/
  | nameTooLong
  /-- The file at the path has no contents that could be mapped into memory. -/
  | notMappable
  /-- The stored data of an archive member do not give its contents back. -/
  | memberDataCorrupt
  /-- The records that hold an archive together are damaged, or ask for what is not supported. -/
  | archiveStructureInvalid
  | walkFailed
  | noFileName (path : String)
  | resourceNotRegistered (key : String)
  | resourceGone (source className : String)
  | noInput
  | classNotFound (name : String)
  | methodNotFound (className name descriptor : String)
  | methodWithoutCode (className name descriptor : String)
  | resourceNotFound (name : String)
  deriving DecidableEq, Repr

/-- What was being done when an error arose. -/
inductive Context where
  | readingPoolCount
  | readingPoolEntry (index : Nat)
  | resolvingMemberName (kind : MemberKind) (className : String)
  | resolvingMemberDescriptor (kind : MemberKind) (className name : String)
  | parsingClass (source : String)
  | loadingPool (className : String)
  | loadingBytecode (className name descriptor : String)
  | openingArchive (path : String)
  | mappingArchive (path : String)
  | readingArchiveStructure (path : String)
  | listingMember (index : Nat) (path : String)
  | openingMember (index : Nat) (path : String)
  | readingMember (name path : String)
  | scanningArchive (path : String)
  | openingFile (path : String)
  | readingFile (path : String)
  | walking (root : String)
  | closingEntry (key : String)
  deriving DecidableEq, Repr

structure Error where
  /-- Outermost first. -/
  contexts : List Context
  cause : Cause
  deriving DecidableEq, Repr

/-- Eight lower-case hexadecimal digits after the usual mark. -/
def magicText (magic : UInt32) : String :=
  let digits := Nat.toDigits 16 magic.toNat
  "0x" ++ String.ofList (List.replicate (8 - digits.length) '0' ++ digits)

/-- A chain of texts on one line, outermost first. -/
def chainText (chain : List String) : String := ": ".intercalate chain

def Cause.text : Cause → String
  | .duplicateResource key entry current =>
      s!"cannot register {entry} as {key}, already registered to {current}"
  | .duplicateClass name => s!"duplicate class: {name}"
  | .directoryScanUnsupported path =>
      s!"directory scanning is not supported by this context: {path}"
  | .archiveClosed path => s!"archive already closed: {path}"
  | .closeFailed first suppressed =>
      s!"failed to close struct entries: {chainText first} ({suppressed.length} more suppressed)"
  | .wrongMagic magic => s!"wrong magic number {magicText magic}"
  | .unknownConstantTag tag index => s!"unknown constant pool tag {tag} at index {index}"
  | .poolIndexOutOfRange index size =>
      s!"constant pool index {index} out of range (pool size {size})"
  | .poolTypeMismatch index expected => s!"constant pool entry {index} is not a {expected}"
  | .truncatedAttribute name length =>
      s!"attribute {name} is shorter than its fixed header ({length} bytes)"
  | .bytesExhausted => "failed to fill whole buffer"
  | .bytesTruncated wanted remaining =>
      s!"class stream truncated: wanted {wanted} bytes, {remaining} remaining"
  | .fileNotFound => "No such file or directory (os error 2)"
  | .notADirectory => "Not a directory (os error 20)"
  | .isADirectory => "Is a directory (os error 21)"
  | .nulInPath => "file name contained an unexpected NUL byte"
  | .nameTooLong => "File name too long (os error 36)"
  | .notMappable => "No such device (os error 19)"
  | .memberDataCorrupt => "member data do not decode to their recorded checksum"
  | .archiveStructureInvalid => "archive records are damaged or of an unsupported kind"
  | .walkFailed => "directory cannot be walked"
  | .noFileName path => s!"Path has no file name: {path}"
  | .resourceNotRegistered key => s!"resource {key} is not registered"
  | .resourceGone source className => s!"resource {source} of {className} is gone"
  | .noInput => "No input given, use --path to name a class file, archive or directory"
  | .classNotFound name => s!"Class not found: {name}"
  | .methodNotFound className name descriptor =>
      s!"Method not found: {className}.{name}{descriptor}"
  | .methodWithoutCode className name descriptor =>
      s!"Method has no code: {className}.{name}{descriptor}"
  | .resourceNotFound name => s!"Resource not found: {name}"

def Context.text : Context → String
  | .readingPoolCount => "reading constant pool count"
  | .readingPoolEntry index => s!"reading constant pool entry {index}"
  | .resolvingMemberName kind className => s!"resolving {kind.text} name in {className}"
  | .resolvingMemberDescriptor kind className name =>
      s!"resolving {kind.text} descriptor of {className}.{name}"
  | .parsingClass source => s!"Failed to parse class file: {source}"
  | .loadingPool className => s!"Failed to load constant pool of {className}"
  | .loadingBytecode className name descriptor =>
      s!"Failed to load bytecode of {className}.{name}{descriptor}"
  | .openingArchive path => s!"Failed to open archive: {path}"
  | .mappingArchive path => s!"Failed to mmap archive: {path}"
  | .readingArchiveStructure path => s!"Failed to read zip structure: {path}"
  | .listingMember index path => s!"Failed to read member {index} of {path}"
  | .openingMember index path => s!"Failed to open member {index} of {path}"
  | .readingMember name path => s!"Failed to read {name} from {path}"
  | .scanningArchive path => s!"Failed to scan archive: {path}"
  | .openingFile path => s!"Failed to open file: {path}"
  | .readingFile path => s!"Failed to read file: {path}"
  | .walking root => s!"Failed to walk {root}"
  | .closingEntry key => s!"Failed to close {key}"

namespace Error

def ofCause (cause : Cause) : Error := ⟨[], cause⟩

def within (context : Context) (error : Error) : Error :=
  ⟨context :: error.contexts, error.cause⟩

@[simp] theorem cause_within (context : Context) (error : Error) :
    (error.within context).cause = error.cause := rfl

/-- The texts of an error, outermost first. -/
def chain (error : Error) : List String :=
  error.contexts.map Context.text ++ [error.cause.text]

def message (error : Error) : String := chainText error.chain

/-- The text of the outermost context alone, or of the cause where there is none. -/
def headline (error : Error) : String :=
  match error.contexts with
  | [] => error.cause.text
  | context :: _ => context.text

/-- Several failures to close as one: the first is told in full, the others are counted. -/
def ofCloseFailures : List Error → Except Error Unit
  | [] => .ok ()
  | first :: rest => .error (ofCause (.closeFailed first.chain (rest.map chain)))

end Error

/-- A step whose error, if it ends in one, arose in the given context; the state is the step's
own in either case. -/
def during {σ α : Type} (context : Context) (step : EStateM Error σ α) : EStateM Error σ α :=
  fun state =>
    match step state with
    | .ok value state => .ok value state
    | .error error state => .error (error.within context) state

end Classpath
