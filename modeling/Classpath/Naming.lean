/-!
Names of classes and of what is written for them.
-/

set_option autoImplicit false

namespace Classpath.Naming

def classSuffix : List Char := ".class".toList

def sourceSuffix : List Char := ".java".toList

/-- Up to the last slash and with it, or nothing if there is no slash. -/
def directoryPart (name : List Char) : List Char :=
  (name.reverse.dropWhile (· ≠ '/')).reverse

/-- Behind the last slash, or everything if there is no slash. -/
def simplePart (name : List Char) : List Char :=
  (name.reverse.takeWhile (· ≠ '/')).reverse

theorem directoryPart_append_simplePart (name : List Char) :
    directoryPart name ++ simplePart name = name := by
  simp only [directoryPart, simplePart, ← List.reverse_append, List.takeWhile_append_dropWhile,
    List.reverse_reverse]

/-- The name under which the source of a class goes: that of the class file with another suffix,
or, in the same directory, the simple name that the class was given. Other names have none. -/
def sourceEntryName? (entry : String) (renamed : Option String) : Option String :=
  (classSuffix.isSuffixOf? entry.toList).map fun stem =>
    match renamed with
    | none => String.ofList (stem ++ sourceSuffix)
    | some name =>
        String.ofList (directoryPart entry.toList ++ simplePart name.toList ++ sourceSuffix)

/-- Dots for slashes. -/
def binaryName (name : String) : String :=
  String.ofList (name.toList.map fun c => if c = '/' then '.' else c)

end Classpath.Naming
