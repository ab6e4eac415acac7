import Classpath.Registry.Archive

/-!
What stands behind a resource key: a file, or a member of an archive. The archives that a registry
has opened are numbered in the order in which it opened them, and entries refer to them by number.
-/

set_option autoImplicit false

namespace Classpath

inductive Entry where
  | file (path : Path.Text)
  /-- The member at `index` of archive number `archive`, which was opened at `path`. -/
  | member (path : Path.Text) (archive index : Nat) (name : String)
  deriving DecidableEq, Repr

namespace Entry

def text : Entry → String
  | file path => path.shown
  | member path _ _ name => path.shown ++ "!/" ++ name

def archivePath? : Entry → Option Path.Text
  | file _ => none
  | member path .. => some path

/-- A member of an archive that is not there reads like one of a closed archive. -/
def readMember (archives : Array Archive) (path : Path.Text) (archive index : Nat) :
    Except Error Bytes :=
  match archives[archive]? with
  | some archive => archive.readMember index
  | none => .error (.ofCause (.archiveClosed path))

/-- All bytes behind an entry. -/
def read (files : FileTree) (archives : Array Archive) : Entry → Except Error Bytes
  | file path => (files.read path).mapError
      fun cause => (Error.ofCause cause).within (.readingFile path)
  | member path archive index _ => readMember archives path archive index

/-- All bytes of the stream that an entry opens. A directory can be opened, but gives no bytes. -/
def drain (files : FileTree) (archives : Array Archive) : Entry → Except Error Bytes
  | file path =>
      match files.find path with
      | .error cause => .error ((Error.ofCause cause).within (.openingFile path))
      | .ok (.directory _) => .error (.ofCause .isADirectory)
      | .ok (.file content) => .ok content
  | member path archive index _ => readMember archives path archive index

/-- Closes the archive of a member, and with it all other members of that archive; a file has
nothing to close. Neither fails. -/
def close (archives : Array Archive) : Entry → Except Error (Array Archive)
  | file _ => .ok archives
  | member _ archive _ _ => .ok (archives.modify archive Archive.close)

end Entry

end Classpath
