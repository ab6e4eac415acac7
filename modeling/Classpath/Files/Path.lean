import Classpath.Text.Utf8

/-!
Paths as they are written: bytes, with slashes between their parts. Repeated and trailing slashes
mean nothing, nor does a dot, except one that begins the path. A path is mostly a text in UTF-8, but
need not be one; where it is shown to people or taken for a key, what is no text is replaced.
-/

set_option autoImplicit false

namespace Classpath.Path

/-- The bytes of a path, or of a name in one, as they were given. -/
structure Text where
  bytes : Bytes
  deriving DecidableEq, Repr

namespace Text

/-- The path that a text spells. -/
def ofString (text : String) : Text := ⟨Text.Utf8.encode text.toList⟩

/-- The text of a path, with a replacement for each sequence that is ill-formed. -/
def shown (path : Text) : String := String.ofList (Text.Utf8.decodeLossy path.bytes)

/-- The text of a path, unless some sequence is ill-formed. -/
def string? (path : Text) : Option String := (Text.Utf8.decode? path.bytes).map String.ofList

instance : Coe String Text := ⟨ofString⟩

instance : CoeOut Text String := ⟨shown⟩

instance : CoeOut (List Text) (List String) := ⟨List.map shown⟩

end Text

def slash : UInt8 := 0x2F

def dot : UInt8 := 0x2E

inductive Component where
  /-- The slash that begins an absolute path. -/
  | root
  /-- A dot that begins the path. -/
  | current
  /-- Two dots. -/
  | parent
  | normal (name : Text)
  deriving DecidableEq, Repr

def Component.text : Component → Text
  | root => ⟨[slash]⟩
  | current => ⟨[dot]⟩
  | parent => ⟨[dot, dot]⟩
  | normal name => name

/-- The names from the root to where a component leads, the last of them first, from the names to
where it starts. -/
def Component.step : Component → List Text → List Text
  | root, _ => []
  | current, names => names
  | parent, names => names.tail
  | normal name, names => name :: names

/-- What stands between the slashes. -/
def pieces (path : Text) : List Text := (path.bytes.splitOn slash).map Text.mk

def isAbsolute (path : Text) : Bool := path.bytes.head? = some slash

/-- A piece that leads nowhere: nothing, or a dot. -/
def isIdle (piece : Text) : Bool := piece.bytes = [] ∨ piece.bytes = [dot]

def isParent (piece : Text) : Bool := piece.bytes = [dot, dot]

/-- The component that a piece behind the beginning stands for. -/
def component? (piece : Text) : Option Component :=
  if isIdle piece then none
  else if isParent piece then some .parent
  else some (.normal piece)

def components (path : Text) : List Component :=
  let beginning :=
    if isAbsolute path then [Component.root]
    else if (pieces path).head? = some ⟨[dot]⟩ then [Component.current]
    else []
  beginning ++ (pieces path).filterMap component?

/-- The last component, if it is a name. -/
def fileName? (path : Text) : Option Text :=
  match (components path).getLast? with
  | some (.normal name) => some name
  | _ => none

/-- What follows the last dot of a name, unless that dot begins the name. -/
def nameExtension? (name : Text) : Option Text :=
  let reversed := name.bytes.reverse
  let tail := reversed.takeWhile (· ≠ dot)
  match reversed.drop tail.length with
  | [] | [_] => none
  | _ :: _ => some ⟨tail.reverse⟩

/-- The extension of a path's last name, if it is a text. -/
def extension? (path : Text) : Option String :=
  ((fileName? path).bind nameExtension?).bind Text.string?

/-- A name put behind a path; an absolute one replaces it. -/
def join (path name : Text) : Text :=
  if isAbsolute name then name
  else if path.bytes = [] ∨ path.bytes.getLast? = some slash then ⟨path.bytes ++ name.bytes⟩
  else ⟨path.bytes ++ slash :: name.bytes⟩

/-- The components behind `start`, or all of them if `path` does not start so. -/
def relativeComponents (start path : List Component) : List Component :=
  (start.isPrefixOf? path).getD path

/-- The key of a file found below `root`: the texts of its components from there on, with slashes
between. Names that are no texts may come to the same key. -/
def relativeKey (root path : Text) : String :=
  "/".intercalate ((relativeComponents (components root) (components path)).map (·.text.shown))

end Classpath.Path
