import Mathlib.Data.List.Basic
import Mathlib.Data.List.TakeWhile
import Classpath.Command.Program

/-!
What is printed of a value. Main statement: the value is told by its text, and so are the methods of
a class by what is printed of them.
-/

set_option autoImplicit false

namespace Classpath.Command

namespace Json

/-- A text that does not go on with a digit, so that a number in front of it is whole. -/
def Ends (back : List Char) : Prop := back.takeWhile Char.isDigit = []

theorem ends_cons {first : Char} (other : first.isDigit = false) (rest : List Char) :
    Ends (first :: rest) :=
  List.takeWhile_cons_of_neg (by simp [other])

section Texts

variable {back otherBack : List Char}

theorem number_unique {value other : Nat} (ends : Ends back) (otherEnds : Ends otherBack)
    (same : (toString value).toList ++ back = (toString other).toList ++ otherBack) :
    value = other ∧ back = otherBack := by
  have digits (number : Nat) (behind : List Char) (whole : Ends behind) :
      ((toString number).toList ++ behind).takeWhile Char.isDigit =
        Nat.toDigits 10 number := by
    rw [Nat.toString_eq_ofList_toDigits, String.toList_ofList, List.takeWhile_append_of_pos, whole,
      List.append_nil]
    exact fun digit among => Nat.isDigit_of_mem_toDigits (by decide) (by decide) among
  have numbers := congrArg (List.takeWhile Char.isDigit) same
  rw [digits value back ends, digits other otherBack otherEnds] at numbers
  have values := congrArg (Nat.ofDigitChars 10 · 0) numbers
  simp only [Nat.ofDigitChars_ten_toDigits] at values
  subst values
  exact ⟨rfl, List.append_cancel_left same⟩

def digitValue (digit : Char) : Nat :=
  if digit.isDigit then digit.toNat - '0'.toNat else digit.toNat - 'a'.toNat + 10

theorem digitValue_digitChar : ∀ value < 16, digitValue (Nat.digitChar value) = value := by
  decide

/-- The first character of an escaped text, and what is behind it. -/
def unescape? : List Char → Option (Char × List Char)
  | '\\' :: 'n' :: rest => some ('\n', rest)
  | '\\' :: 'r' :: rest => some ('\r', rest)
  | '\\' :: 't' :: rest => some ('\t', rest)
  | '\\' :: 'b' :: rest => some ('\x08', rest)
  | '\\' :: 'f' :: rest => some ('\x0C', rest)
  | '\\' :: 'u' :: _ :: _ :: high :: low :: rest =>
      some (Char.ofNat (16 * digitValue high + digitValue low), rest)
  | '\\' :: other :: rest => some (other, rest)
  | first :: rest => some (first, rest)
  | [] => none

theorem unescape?_escapeChar (c : Char) (back : List Char) :
    unescape? (escapeChar c ++ back) = some (c, back) := by
  unfold escapeChar
  split
  · rename_i quote
    simp [unescape?, quote]
  split
  · rename_i slash
    simp [unescape?, slash]
  split
  · rename_i line
    simp [unescape?, line]
  split
  · rename_i feed
    simp [unescape?, feed]
  split
  · rename_i tab
    simp [unescape?, tab]
  split
  · rename_i blank
    simp [unescape?, blank]
  split
  · rename_i page
    simp [unescape?, page]
  split
  · rename_i control
    have high := digitValue_digitChar (c.toNat / 16) (by omega)
    have low := digitValue_digitChar (c.toNat % 16) (by omega)
    have whole : 16 * (c.toNat / 16) + c.toNat % 16 = c.toNat := by omega
    simp [unescape?, high, low, whole]
  · rename_i slash _ _ _ _ _ _
    simp [unescape?, slash]

theorem escapeChar_ne_quote (c : Char) (back : List Char) :
    (escapeChar c ++ back).head? ≠ some '"' := by
  unfold escapeChar
  repeat' split
  all_goals simp_all

/-- Escaped texts that end in a quote are told apart. -/
theorem escaped_unique (text other : List Char)
    (same : text.flatMap escapeChar ++ '"' :: back = other.flatMap escapeChar ++ '"' :: otherBack) :
    text = other ∧ back = otherBack := by
  induction text generalizing other with
  | nil =>
      cases other with
      | nil => exact ⟨rfl, List.tail_eq_of_cons_eq same⟩
      | cons first rest =>
          rw [List.flatMap_cons, List.append_assoc] at same
          exact absurd (congrArg List.head? same).symm (escapeChar_ne_quote first _)
  | cons first rest ih =>
      cases other with
      | nil =>
          rw [List.flatMap_cons, List.append_assoc] at same
          exact absurd (congrArg List.head? same) (escapeChar_ne_quote first _)
      | cons otherFirst otherRest =>
          rw [List.flatMap_cons, List.flatMap_cons, List.append_assoc, List.append_assoc] at same
          have read := congrArg unescape? same
          rw [unescape?_escapeChar, unescape?_escapeChar] at read
          obtain ⟨rfl, behind⟩ := Prod.mk.inj (Option.some.inj read)
          obtain ⟨rfl, backs⟩ := ih otherRest behind
          exact ⟨rfl, backs⟩

theorem quote_unique {text other : String}
    (same : (quote text).toList ++ back = (quote other).toList ++ otherBack) :
    text = other ∧ back = otherBack := by
  simp only [quote, String.toList_ofList, List.cons_append, List.append_assoc] at same
  obtain ⟨texts, backs⟩ := escaped_unique _ _ (List.tail_eq_of_cons_eq same)
  exact ⟨String.toList_injective texts, backs⟩

end Texts

/-- Which kind of value has a text that begins with a character. -/
def kindOf (first : Char) : Nat :=
  if first = 'n' then 0 else if first = 't' ∨ first = 'f' then 1 else if first.isDigit then 2
  else if first = '"' then 3 else if first = '[' then 4 else 5

def kind : Json → Nat
  | null => 0
  | bool _ => 1
  | number _ => 2
  | string _ => 3
  | array _ => 4
  | object _ => 5

theorem pretty_array (level : Nat) (first : Json) (rest : List Json) (back : List Char) :
    (pretty level (array (first :: rest))).toList ++ back =
      '[' :: ((newLine (level + 1)).toList ++ ((pretty (level + 1) first).toList ++
        ((prettyItems (level + 1) rest).toList ++
          '\n' :: (List.replicate (2 * level) ' ' ++ ']' :: back)))) := by
  simp only [pretty, newLine, String.toList_append, String.toList_ofList, List.append_assoc]
  rfl

theorem pretty_object (level : Nat) (name : String) (value : Json) (rest : List (String × Json))
    (back : List Char) :
    (pretty level (object ((name, value) :: rest))).toList ++ back =
      '\x7b' :: ((newLine (level + 1)).toList ++ ((quote name).toList ++ (": ".toList ++
        ((pretty (level + 1) value).toList ++ ((prettyMembers (level + 1) rest).toList ++
          '\n' :: (List.replicate (2 * level) ' ' ++ '\x7d' :: back)))))) := by
  simp only [pretty, newLine, String.toList_append, String.toList_ofList, List.append_assoc]
  rfl

theorem prettyItems_cons (level : Nat) (first : Json) (rest : List Json) (back : List Char) :
    (prettyItems level (first :: rest)).toList ++ back =
      ',' :: ((newLine level).toList ++ ((pretty level first).toList ++
        ((prettyItems level rest).toList ++ back))) := by
  simp only [prettyItems, String.toList_append, List.append_assoc]
  rfl

theorem prettyMembers_cons (level : Nat) (name : String) (value : Json)
    (rest : List (String × Json)) (back : List Char) :
    (prettyMembers level ((name, value) :: rest)).toList ++ back =
      ',' :: ((newLine level).toList ++ ((quote name).toList ++ (": ".toList ++
        ((pretty level value).toList ++ ((prettyMembers level rest).toList ++ back))))) := by
  simp only [prettyMembers, String.toList_append, List.append_assoc]
  rfl

theorem kindOf_digit {first : Char} (digit : first.isDigit = true) : kindOf first = 2 := by
  have notN : first ≠ 'n' := by
    rintro rfl
    cases digit
  have notT : first ≠ 't' := by
    rintro rfl
    cases digit
  have notF : first ≠ 'f' := by
    rintro rfl
    cases digit
  simp [kindOf, digit, notN, notT, notF]

/-- The first character tells what kind of value a text is of. -/
theorem kindOf_pretty (level : Nat) (value : Json) (back : List Char) :
    ((pretty level value).toList ++ back).head?.map kindOf = some value.kind := by
  cases value with
  | null => rw [pretty]; rfl
  | bool value =>
      cases value with
      | true => rw [pretty]; rfl
      | false => rw [pretty]; rfl
  | number value =>
      cases whole : Nat.toDigits 10 value with
      | nil => exact absurd whole Nat.toDigits_ne_nil
      | cons first rest =>
          have digit : first.isDigit = true :=
            Nat.isDigit_of_mem_toDigits (b := 10) (n := value) (by decide) (by decide)
              (whole ▸ List.mem_cons_self)
          rw [pretty, Nat.toString_eq_ofList_toDigits, whole, String.toList_ofList]
          exact congrArg some (kindOf_digit digit)
  | string value =>
      rw [pretty, quote, String.toList_ofList]
      rfl
  | array items =>
      cases items with
      | nil => rw [pretty]; rfl
      | cons first rest => rw [pretty_array]; rfl
  | object members =>
      cases members with
      | nil => rw [pretty]; rfl
      | cons first rest => rw [pretty_object]; rfl

/-- Behind a value there is a comma or the end of the line. -/
theorem ends_items (level : Nat) (items : List Json) (back : List Char) :
    Ends ((prettyItems level items).toList ++ '\n' :: back) := by
  cases items with
  | nil =>
      rw [prettyItems]
      exact ends_cons rfl back
  | cons item rest =>
      rw [prettyItems_cons]
      exact ends_cons rfl _

theorem ends_members (level : Nat) (members : List (String × Json)) (back : List Char) :
    Ends ((prettyMembers level members).toList ++ '\n' :: back) := by
  cases members with
  | nil =>
      rw [prettyMembers]
      exact ends_cons rfl back
  | cons member rest =>
      rw [prettyMembers_cons]
      exact ends_cons rfl _

/-- Brackets with something between them go on with a new line. -/
theorem close_ne_newLine {level : Nat} {close : Char} (other : close ≠ '\n')
    {back rest : List Char} : close :: back ≠ (newLine level).toList ++ rest := by
  intro same
  rw [newLine, String.toList_ofList] at same
  exact other (List.head_eq_of_cons_eq same)

section Values

variable {level : Nat} {back otherBack : List Char}

theorem bool_unique {value other : Bool}
    (same : (pretty level (.bool value)).toList ++ back =
      (pretty level (.bool other)).toList ++ otherBack) : value = other ∧ back = otherBack := by
  cases value with
  | true =>
      cases other with
      | true => exact ⟨rfl, List.append_cancel_left same⟩
      | false => simp [pretty] at same
  | false =>
      cases other with
      | true => simp [pretty] at same
      | false => exact ⟨rfl, List.append_cancel_left same⟩

theorem array_nil_iff {items others : List Json}
    (same : (pretty level (.array items)).toList ++ back =
      (pretty level (.array others)).toList ++ otherBack) : items = [] ↔ others = [] := by
  cases items with
  | nil =>
      cases others with
      | nil => exact iff_of_true rfl rfl
      | cons first rest =>
          rw [pretty_array, pretty] at same
          exact absurd (List.tail_eq_of_cons_eq same) (close_ne_newLine (by decide))
  | cons first rest =>
      cases others with
      | nil =>
          rw [pretty_array, pretty] at same
          exact absurd (List.tail_eq_of_cons_eq same).symm (close_ne_newLine (by decide))
      | cons otherFirst otherRest => exact iff_of_false nofun nofun

theorem object_nil_iff {members others : List (String × Json)}
    (same : (pretty level (.object members)).toList ++ back =
      (pretty level (.object others)).toList ++ otherBack) : members = [] ↔ others = [] := by
  cases members with
  | nil =>
      cases others with
      | nil => exact iff_of_true rfl rfl
      | cons first rest =>
          rw [pretty_object, pretty] at same
          exact absurd (List.tail_eq_of_cons_eq same) (close_ne_newLine (by decide))
  | cons first rest =>
      cases others with
      | nil =>
          rw [pretty_object, pretty] at same
          exact absurd (List.tail_eq_of_cons_eq same).symm (close_ne_newLine (by decide))
      | cons otherFirst otherRest => exact iff_of_false nofun nofun

end Values

mutual

/-- A value is told by its text, whatever stands behind it but a digit. -/
theorem pretty_unique (level : Nat) (value other : Json) (back otherBack : List Char)
    (ends : Ends back) (otherEnds : Ends otherBack)
    (same : (pretty level value).toList ++ back = (pretty level other).toList ++ otherBack) :
    value = other ∧ back = otherBack := by
  -- Both are of one kind, so that only the six cases on the diagonal are left.
  have kinds : value.kind = other.kind := by
    have first := kindOf_pretty level value back
    rw [same, kindOf_pretty level other otherBack] at first
    exact (Option.some.inj first).symm
  cases value with
  | null =>
      cases other with
      | null => exact ⟨rfl, List.append_cancel_left same⟩
      | _ => cases kinds
  | bool value =>
      cases other with
      | bool otherValue =>
          obtain ⟨rfl, backs⟩ := bool_unique same
          exact ⟨rfl, backs⟩
      | _ => cases kinds
  | number value =>
      cases other with
      | number otherValue =>
          rw [pretty, pretty] at same
          obtain ⟨rfl, backs⟩ := number_unique ends otherEnds same
          exact ⟨rfl, backs⟩
      | _ => cases kinds
  | string value =>
      cases other with
      | string otherValue =>
          rw [pretty, pretty] at same
          obtain ⟨rfl, backs⟩ := quote_unique same
          exact ⟨rfl, backs⟩
      | _ => cases kinds
  | array items =>
      cases other with
      | array otherItems =>
          have filled := array_nil_iff same
          cases items with
          | nil =>
              obtain rfl := filled.mp rfl
              exact ⟨rfl, List.append_cancel_left same⟩
          | cons first rest =>
              obtain ⟨otherFirst, otherRest, rfl⟩ :=
                List.exists_cons_of_ne_nil fun none => List.cons_ne_nil _ _ (filled.mpr none)
              rw [pretty_array, pretty_array] at same
              have opened := List.append_cancel_left (List.tail_eq_of_cons_eq same)
              obtain ⟨rfl, behind⟩ := pretty_unique (level + 1) first otherFirst _ _
                (ends_items _ _ _) (ends_items _ _ _) opened
              obtain ⟨rfl, closed⟩ := prettyItems_unique (level + 1) rest otherRest _ _ behind
              exact ⟨rfl, List.tail_eq_of_cons_eq (List.append_cancel_left closed)⟩
      | _ => cases kinds
  | object members =>
      cases other with
      | object otherMembers =>
          have filled := object_nil_iff same
          cases members with
          | nil =>
              obtain rfl := filled.mp rfl
              exact ⟨rfl, List.append_cancel_left same⟩
          | cons first rest =>
              obtain ⟨⟨otherName, otherValue⟩, otherRest, rfl⟩ :=
                List.exists_cons_of_ne_nil fun none => List.cons_ne_nil _ _ (filled.mpr none)
              obtain ⟨name, value⟩ := first
              rw [pretty_object, pretty_object] at same
              have opened := List.append_cancel_left (List.tail_eq_of_cons_eq same)
              obtain ⟨rfl, named⟩ := quote_unique opened
              obtain ⟨rfl, behind⟩ := pretty_unique (level + 1) value otherValue _ _
                (ends_members _ _ _) (ends_members _ _ _) (List.append_cancel_left named)
              obtain ⟨rfl, closed⟩ := prettyMembers_unique (level + 1) rest otherRest _ _ behind
              exact ⟨rfl, List.tail_eq_of_cons_eq (List.append_cancel_left closed)⟩
      | _ => cases kinds

/-- The items of an array up to the end of a line. -/
theorem prettyItems_unique (level : Nat) (items others : List Json) (back otherBack : List Char)
    (same : (prettyItems level items).toList ++ '\n' :: back =
      (prettyItems level others).toList ++ '\n' :: otherBack) :
    items = others ∧ back = otherBack := by
  cases items with
  | nil =>
      cases others with
      | nil => exact ⟨rfl, List.tail_eq_of_cons_eq (List.append_cancel_left same)⟩
      | cons otherFirst otherRest =>
          rw [prettyItems_cons, prettyItems] at same
          cases List.head_eq_of_cons_eq same
  | cons first rest =>
      cases others with
      | nil =>
          rw [prettyItems_cons, prettyItems] at same
          cases List.head_eq_of_cons_eq same
      | cons otherFirst otherRest =>
          rw [prettyItems_cons, prettyItems_cons] at same
          have opened := List.append_cancel_left (List.tail_eq_of_cons_eq same)
          obtain ⟨rfl, behind⟩ := pretty_unique level first otherFirst _ _
            (ends_items _ _ _) (ends_items _ _ _) opened
          obtain ⟨rfl, backs⟩ := prettyItems_unique level rest otherRest _ _ behind
          exact ⟨rfl, backs⟩

theorem prettyMembers_unique (level : Nat) (members others : List (String × Json))
    (back otherBack : List Char)
    (same : (prettyMembers level members).toList ++ '\n' :: back =
      (prettyMembers level others).toList ++ '\n' :: otherBack) :
    members = others ∧ back = otherBack := by
  cases members with
  | nil =>
      cases others with
      | nil => exact ⟨rfl, List.tail_eq_of_cons_eq (List.append_cancel_left same)⟩
      | cons otherFirst otherRest =>
          rw [prettyMembers_cons, prettyMembers] at same
          cases List.head_eq_of_cons_eq same
  | cons first rest =>
      cases others with
      | nil =>
          rw [prettyMembers_cons, prettyMembers] at same
          cases List.head_eq_of_cons_eq same
      | cons otherFirst otherRest =>
          obtain ⟨name, value⟩ := first
          obtain ⟨otherName, otherValue⟩ := otherFirst
          rw [prettyMembers_cons, prettyMembers_cons] at same
          have opened := List.append_cancel_left (List.tail_eq_of_cons_eq same)
          obtain ⟨rfl, named⟩ := quote_unique opened
          obtain ⟨rfl, behind⟩ := pretty_unique level value otherValue _ _
            (ends_members _ _ _) (ends_members _ _ _) (List.append_cancel_left named)
          obtain ⟨rfl, backs⟩ := prettyMembers_unique level rest otherRest _ _ behind
          exact ⟨rfl, backs⟩

end

end Json

theorem textBytes_injective {text other : String} (same : textBytes text = textBytes other) :
    text = other :=
  String.toByteArray_inj.mp (ByteArray.ext (Array.toList_inj.mp same))

/-- What is printed tells the value. -/
theorem printed_injective {value other : Json} (same : printed value = printed other) :
    value = other := by
  have texts := congrArg String.toList (textBytes_injective same)
  rw [String.toList_append, String.toList_append] at texts
  have ends : Json.Ends "\n".toList := Json.ends_cons rfl []
  exact (Json.pretty_unique 0 value other _ _ ends ends texts).1

theorem methodJson_injective {method other : Method} (same : methodJson method = methodJson other) :
    method = other := by
  obtain ⟨flags, name, descriptor, length⟩ := method
  obtain ⟨otherFlags, otherName, otherDescriptor, otherLength⟩ := other
  simp only [methodJson, Json.object.injEq, List.cons.injEq, Prod.mk.injEq, Json.string.injEq,
    Json.number.injEq, true_and, and_true] at same
  obtain ⟨rfl, rfl, flagsSame, lengths⟩ := same
  cases UInt16.toNat_inj.mp flagsSame
  cases length with
  | none =>
      cases otherLength with
      | none => rfl
      | some other => cases lengths
  | some value =>
      cases otherLength with
      | none => cases lengths
      | some other =>
          cases UInt32.toNat_inj.mp (Json.number.inj lengths)
          rfl

/-- What is printed of methods tells them. -/
theorem methods_of_printed {methods others : List Method}
    (same : printed (.array (methods.map methodJson)) = printed (.array (others.map methodJson))) :
    methods = others := by
  have items := Json.array.inj (printed_injective same)
  exact List.map_injective_iff.mpr (fun _ _ => methodJson_injective) items

end Classpath.Command
