import Classpath.Proofs.Command.Json

/-!
What is shown of classes, methods and code: the members that a printed value has, and the bytes that
hexadecimal text stands for. A printed value can be read back from what is printed, so that nothing
else can have been shown.

Main statements: `unhex?_eq_some_iff`, `Json.summarises_classJson` and `Outcome.shows_of_prints`.
-/

set_option autoImplicit false

namespace Classpath

/-- The number that a lower-case hexadecimal digit stands for. -/
def nibble? (digit : Char) : Option Nat :=
  if '0' ≤ digit ∧ digit ≤ '9' then some (digit.toNat - '0'.toNat)
  else if 'a' ≤ digit ∧ digit ≤ 'f' then some (10 + (digit.toNat - 'a'.toNat))
  else none

/-- The bytes that pairs of lower-case hexadecimal digits stand for, the higher digit first. -/
def unhex? : List Char → Option Bytes
  | [] => some []
  | [_] => none
  | high :: low :: rest => do
      let high ← nibble? high
      let low ← nibble? low
      let bytes ← unhex? rest
      return UInt8.ofNat (16 * high + low) :: bytes

section Hexadecimal

theorem nibble?_digitChar : ∀ value < 16, nibble? (Nat.digitChar value) = some value := by
  decide

/-- A number below sixteen has one digit only. -/
theorem nibble?_eq_some {digit : Char} {value : Nat} (stands : nibble? digit = some value) :
    value < 16 ∧ digit = Nat.digitChar value := by
  have spelled : ∀ number < 128, nibble? (Char.ofNat number) = some value →
      value < 16 ∧ Char.ofNat number = Nat.digitChar value := by
    intro number small known
    have all : ∀ number < 128, ∀ value ∈ nibble? (Char.ofNat number),
        value < 16 ∧ Char.ofNat number = Nat.digitChar value := by decide
    exact all number small value known
  have small : digit.toNat < 128 := by
    unfold nibble? at stands
    split at stands
    · rename_i decimal
      exact Nat.lt_of_le_of_lt (Char.le_def.mp decimal.2) (by decide)
    split at stands
    · rename_i letter
      exact Nat.lt_of_le_of_lt (Char.le_def.mp letter.2) (by decide)
    · cases stands
  have same := spelled digit.toNat small
  rw [Char.ofNat_toNat] at same
  exact same stands

/-- The digits of one byte, in front of others. -/
theorem toList_hexText_cons (byte : UInt8) (bytes : Bytes) :
    (hexText (byte :: bytes)).toList = Nat.digitChar (byte.toNat / 16) ::
      Nat.digitChar (byte.toNat % 16) :: (hexText bytes).toList := by
  rw [hexText, hexText, String.toList_ofList, String.toList_ofList, List.flatMap_cons]
  rfl

theorem unhex?_hexText (bytes : Bytes) : unhex? (hexText bytes).toList = some bytes := by
  induction bytes with
  | nil => rfl
  | cons byte rest ih =>
      have bounded := byte.toNat_lt
      have high := nibble?_digitChar (byte.toNat / 16) (by omega)
      have low := nibble?_digitChar (byte.toNat % 16) (Nat.mod_lt _ (by decide))
      have whole : 16 * (byte.toNat / 16) + byte.toNat % 16 = byte.toNat := by omega
      rw [toList_hexText_cons, unhex?, high, low, ih]
      simp only [bind, Option.bind, whole, UInt8.ofNat_toNat]
      rfl

/-- Bytes have one spelling in lower-case hexadecimal digits. -/
theorem unhex?_eq_some_iff (digits : List Char) (bytes : Bytes) :
    unhex? digits = some bytes ↔ digits = (hexText bytes).toList := by
  constructor
  · intro stands
    fun_induction unhex? digits generalizing bytes with
    | case1 =>
        cases stands
        rfl
    | case2 digit => cases stands
    | case3 highDigit lowDigit rest ih =>
        simp only [Option.bind_eq_bind, Option.bind_eq_some_iff] at stands
        obtain ⟨high, highStands, low, lowStands, behind, others, whole⟩ := stands
        cases whole
        obtain ⟨highSmall, rfl⟩ := nibble?_eq_some highStands
        obtain ⟨lowSmall, rfl⟩ := nibble?_eq_some lowStands
        have byte : (UInt8.ofNat (16 * high + low)).toNat = 16 * high + low :=
          UInt8.toNat_ofNat_of_lt' (Nat.lt_of_lt_of_le (by omega : _ < 256) (by decide))
        have front : (16 * high + low) / 16 = high := by omega
        have back : (16 * high + low) % 16 = low := by omega
        rw [toList_hexText_cons, byte, front, back, ih behind others]
  · rintro rfl
    exact unhex?_hexText bytes

theorem length_hexText (bytes : Bytes) : (hexText bytes).length = 2 * bytes.length := by
  rw [← String.length_toList]
  induction bytes with
  | nil => rfl
  | cons byte rest ih =>
      rw [toList_hexText_cons, List.length_cons, List.length_cons, ih, List.length_cons]
      omega

end Hexadecimal

namespace Command

namespace Json

/-- The member of an object that goes by a name. -/
def member? (name : String) : Json → Option Json
  | object members => members.lookup name
  | _ => none

def text? : Json → Option String
  | string value => some value
  | _ => none

/-- A value that shows a class as its header and its registration have it. -/
structure Summarises (cls : ClassFile) (value : Json) : Prop where
  name : value.member? "name" = some (.string cls.name)
  binaryName : value.member? "binary_name" = some (.string (Naming.binaryName cls.name))
  own : value.member? "own" = some (.bool cls.own)
  source : value.member? "source" = some (.string cls.source)
  sourceEntry : value.member? "source_entry" =
    some (ofOption .string (Naming.sourceEntryName? cls.source none))
  superClass : value.member? "super_class" = some (ofOption .string cls.superName)
  interfaces : value.member? "interfaces" = some (.array (cls.interfaces.map .string))
  fields : value.member? "fields" = some (.number cls.fields.length)
  methods : value.member? "methods" = some (.number cls.methods.length)
  majorVersion : value.member? "major_version" = some (.number cls.majorVersion.toNat)
  contentHash : value.member? "content_hash" = some (.string cls.contentHash)

/-- A value that shows a method. -/
structure IsRowOf (method : Method) (value : Json) : Prop where
  name : value.member? "name" = some (.string method.name)
  descriptor : value.member? "descriptor" = some (.string method.descriptor)
  accessFlags : value.member? "access_flags" = some (.number method.accessFlags.toNat)
  codeLength : value.member? "code_length" =
    some (ofOption (fun length : UInt32 => .number length.toNat) method.codeLength)

/-- A value that shows the code of a method, with two digits for each byte of it. -/
structure ShowsCodeOf (className name descriptor : String) (code : Bytes) (value : Json) :
    Prop where
  className : value.member? "class_name" = some (.string className)
  method : value.member? "method" = some (.string name)
  descriptor : value.member? "descriptor" = some (.string descriptor)
  length : value.member? "length" = some (.number code.length)
  code : ∃ digits, value.member? "code" = some (.string digits) ∧
    digits.length = 2 * code.length ∧ unhex? digits.toList = some code

theorem summarises_classJson (cls : ClassFile) : Summarises cls (classJson cls) := by
  constructor <;> simp [member?, classJson, List.lookup_cons]

theorem isRowOf_methodJson (method : Method) : IsRowOf method (methodJson method) := by
  constructor <;> simp [member?, methodJson, List.lookup_cons]

/-- What is printed of the code of a method. -/
def ofCode (className name descriptor : String) (code : Bytes) : Json :=
  .object [
    ("class_name", .string className),
    ("method", .string name),
    ("descriptor", .string descriptor),
    ("length", .number code.length),
    ("code", .string (hexText code))]

theorem showsCodeOf_ofCode (className name descriptor : String) (code : Bytes) :
    ShowsCodeOf className name descriptor code (ofCode className name descriptor code) where
  className := by simp [member?, ofCode]
  method := by simp [member?, ofCode, List.lookup_cons]
  descriptor := by simp [member?, ofCode, List.lookup_cons]
  length := by simp [member?, ofCode, List.lookup_cons]
  code := ⟨hexText code, by simp [member?, ofCode, List.lookup_cons], length_hexText code,
    unhex?_hexText code⟩

end Json

/-- The program says that something is wrong, and prints nothing. -/
def Outcome.Fails (outcome : Outcome) : Prop := outcome.exitCode = 1 ∧ outcome.output = []

def Outcome.Prints (outcome : Outcome) (output : Bytes) : Prop :=
  outcome.exitCode = 0 ∧ outcome.output = output

/-- The program ends well, and its output is the text of this value and of no other. -/
structure Outcome.Shows (outcome : Outcome) (value : Json) : Prop where
  exits : outcome.exitCode = 0
  text : outcome.output = printed value
  unique : ∀ other, outcome.output = printed other → other = value

theorem Outcome.shows_of_prints {outcome : Outcome} {value : Json}
    (prints : outcome.Prints (printed value)) : outcome.Shows value :=
  ⟨prints.1, prints.2, fun _ text => printed_injective (text.symm.trans prints.2)⟩

theorem Outcome.Shows.prints {outcome : Outcome} {value : Json} (shows : outcome.Shows value) :
    outcome.Prints (printed value) :=
  ⟨shows.exits, shows.text⟩

end Command

end Classpath
