import Classpath.Files.Tree
import Classpath.Text.Quoted
import Classpath.Zip.ZipFile

/-!
Open archives. An archive keeps the contents that its file had when it was opened, and gives them
out until it is closed; closing it again does nothing.
-/

set_option autoImplicit false

namespace Classpath

structure Archive where
  path : Path.Text
  file : ZipFile
  isOpen : Bool
  deriving DecidableEq, Repr

namespace Archive

/-- A member as it is listed. -/
structure Listed where
  index : Nat
  name : String
  isDirectory : Bool
  deriving DecidableEq, Repr

def openAt (files : FileTree) (path : Path.Text) : Except Error Archive :=
  match files.find path with
  | .error cause => .error ((Error.ofCause cause).within (.openingArchive path))
  | .ok (.directory _) => .error ((Error.ofCause .notMappable).within (.mappingArchive path))
  | .ok (.file content) =>
      match ZipFile.ofBytes? content with
      | none => .error
          ((Error.ofCause .archiveStructureInvalid).within (.readingArchiveStructure path))
      | some file => .ok { path, file, isOpen := true }

def close (archive : Archive) : Archive := { archive with isOpen := false }

@[simp] theorem close_close (archive : Archive) : archive.close.close = archive.close := rfl

/-- Lists the members from `index` on, each of which must open. -/
def listFrom (archive : Archive) (index : Nat) : List Zip.Member → Except Error (List Listed)
  | [] => .ok []
  | member :: rest =>
      match archive.file.open? index with
      | none => .error
          ((Error.ofCause .archiveStructureInvalid).within (.listingMember index archive.path))
      | some _ => do
          let others ← listFrom archive (index + 1) rest
          return ⟨index, member.name, member.isDirectory⟩ :: others

/-- The members in the order of the archive, the same name as often as it occurs. -/
def members (archive : Archive) : Except Error (List Listed) :=
  if archive.isOpen then archive.listFrom 0 archive.file.members
  else .error (.ofCause (.archiveClosed archive.path))

/-- The contents of the member at `index`. -/
def readMember (archive : Archive) (index : Nat) : Except Error Bytes :=
  if archive.isOpen then
    match archive.file.open? index with
    | none => .error
        ((Error.ofCause .archiveStructureInvalid).within (.openingMember index archive.path))
    | some (member, data) =>
        match ZipFile.contents? member data with
        | some contents => .ok contents
        | none => .error
            ((Error.ofCause .memberDataCorrupt).within (.readingMember member.name archive.path))
  else .error (.ofCause (.archiveClosed archive.path))

/-- What a person looking for faults is shown of an archive. -/
def summary (archive : Archive) : String :=
  s!"SharedArchive \x7b path: {Text.quoted archive.path.bytes}, closed: {!archive.isOpen} \x7d"

end Archive

end Classpath
