import Classpath.Proofs.Text.ModifiedUtf8

/-!
Malformed texts in class files. A lead is believed: as many bytes as it announces are taken for its
group, whatever they are, and only a byte that leads no group or whose group runs past the end is
replaced. Main statement: where each group that is taken is well formed, a malformed text is read
with a replacement in it, and a lead that is not followed by what it announces is replaced by itself
alone. A group that is taken and is not well formed is read as another character.
-/

set_option autoImplicit false

namespace Classpath.Text

namespace Utf16

/-- What is unpaired stays unpaired in front of a replacement. -/
theorem decodeLossy_append_replaced (front rest : List UInt16) :
    decodeLossy (front ++ 0xFFFD :: rest) =
      decodeLossy front ++ replacement :: decodeLossy rest := by
  have alone (later : List UInt16) :
      decodeLossy (0xFFFD :: later) = replacement :: decodeLossy later :=
    decodeLossy_cons_of_plain 0xFFFD later (by decide) (by decide)
  have notLow : isLow 0xFFFD = false := by decide
  induction front using decodeLossy.induct with
  | case1 => exact alone rest
  | case2 unit surrogate =>
      simp only [List.cons_append, List.nil_append, decodeLossy, notLow, Bool.and_false,
        Bool.false_eq_true, if_false, if_pos surrogate, alone]
  | case3 unit plain =>
      simp only [List.cons_append, List.nil_append, decodeLossy, notLow, Bool.and_false,
        Bool.false_eq_true, if_false, if_neg plain, alone]
  | case4 unit next front paired ih =>
      simp only [List.cons_append, decodeLossy, if_pos paired, ih]
  | case5 unit next front unpaired surrogate ih =>
      rw [List.cons_append] at ih
      simp only [List.cons_append, decodeLossy, if_neg unpaired, if_pos surrogate, ih]
  | case6 unit next front unpaired plain ih =>
      rw [List.cons_append] at ih
      simp only [List.cons_append, decodeLossy, if_neg unpaired, if_neg plain, ih]

end Utf16

namespace ModifiedUtf8

open Utf8 (isContinuation)

/-- The groups of the encoding: no more bytes than the unit needs, but for the zero, which may have
two. -/
def isGroup : Bytes → Bool
  | [byte] => byte < 0x80
  | [lead, second] =>
      isContinuation second && (0xC2 ≤ lead && lead ≤ 0xDF || lead == 0xC0 && second == 0x80)
  | [lead, second, third] =>
      0xE0 ≤ lead && lead ≤ 0xEF && isContinuation second && isContinuation third &&
        (lead != 0xE0 || 0xA0 ≤ second)
  | _ => false

/-- Groups one behind the other. -/
inductive WellFormed : Bytes → Prop
  | nil : WellFormed []
  | cons {group rest : Bytes} (grouped : isGroup group = true) (formed : WellFormed rest) :
      WellFormed (group ++ rest)

/-- How many bytes a lead says are behind it. -/
def announced (lead : UInt8) : Nat :=
  if 0xC0 ≤ lead ∧ lead ≤ 0xDF then 1 else if 0xE0 ≤ lead ∧ lead ≤ 0xEF then 2 else 0

/-- As many continuation bytes are behind a lead as it announces. -/
def isContinued (lead : UInt8) (rest : Bytes) : Bool :=
  announced lead ≤ rest.length && (rest.take (announced lead)).all isContinuation

/-- Each lead with as many bytes behind it as it announces leads a group. -/
def leadsGroups : Bytes → Bool
  | [] => true
  | lead :: rest =>
      (announced lead == 0 || rest.length < announced lead ||
        isGroup (lead :: rest.take (announced lead))) && leadsGroups rest

theorem announced_cases (lead : UInt8) :
    (announced lead = 1 ∧ 0xC0 ≤ lead.toNat ∧ lead.toNat ≤ 0xDF) ∨
    (announced lead = 2 ∧ 0xE0 ≤ lead.toNat ∧ lead.toNat ≤ 0xEF) ∨
    (announced lead = 0 ∧ (lead.toNat < 0xC0 ∨ 0xEF < lead.toNat)) := by
  simp only [announced, UInt8.le_iff_toNat_le, UInt8.reduceToNat]
  by_cases two : 192 ≤ lead.toNat ∧ lead.toNat ≤ 223
  · exact Or.inl ⟨if_pos two, two⟩
  · rw [if_neg two]
    by_cases three : 224 ≤ lead.toNat ∧ lead.toNat ≤ 239
    · exact Or.inr (Or.inl ⟨if_pos three, three⟩)
    · rw [if_neg three]
      omega

/-- No lead continues a group. -/
theorem not_isContinuation {lead : UInt8} (leads : 0 < announced lead) :
    isContinuation lead = false := by
  have ranges := announced_cases lead
  rw [← Bool.not_eq_true, Utf8.isContinuation_iff]
  omega

theorem length_of_isGroup {lead : UInt8} {behind : Bytes}
    (grouped : isGroup (lead :: behind) = true) : behind.length = announced lead := by
  have ranges := announced_cases lead
  match behind with
  | [] =>
      simp only [isGroup, decide_eq_true_eq, UInt8.lt_iff_toNat_lt, UInt8.reduceToNat] at grouped
      rw [List.length_nil]
      omega
  | [second] =>
      simp only [isGroup, Bool.and_eq_true, Bool.or_eq_true, decide_eq_true_eq, beq_iff_eq,
        UInt8.le_iff_toNat_le, ← UInt8.toNat_inj, UInt8.reduceToNat] at grouped
      rw [List.length_singleton]
      omega
  | [second, third] =>
      simp only [isGroup, Bool.and_eq_true, decide_eq_true_eq, UInt8.le_iff_toNat_le,
        UInt8.reduceToNat] at grouped
      simp only [List.length_cons, List.length_nil]
      omega
  | _ :: _ :: _ :: _ => cases grouped

/-- A text is well formed if its first group is, and what is behind it. -/
theorem wellFormed_cons_iff (lead : UInt8) (rest : Bytes) : WellFormed (lead :: rest) ↔
    isGroup (lead :: rest.take (announced lead)) = true ∧
      WellFormed (rest.drop (announced lead)) := by
  constructor
  · intro formed
    generalize same : lead :: rest = bytes at formed
    cases formed with
    | nil => cases same
    | @cons group later grouped formed =>
        cases group with
        | nil => cases grouped
        | cons first behind =>
            obtain ⟨rfl, appended⟩ := List.cons.inj same
            have split : rest = behind ++ later := appended
            rw [split, ← length_of_isGroup grouped, List.take_left, List.drop_left]
            exact ⟨grouped, formed⟩
  · intro ⟨grouped, formed⟩
    have joined := WellFormed.cons grouped formed
    rwa [List.cons_append, List.take_append_drop] at joined

/-! What is read first: a byte by itself, a group as long as its lead says, or a stray byte. -/

theorem exists_units_whole {lead : UInt8} {behind : Bytes} (leads : 0 < announced lead)
    (whole : behind.length = announced lead) :
    ∃ unit, ∀ rest, units (lead :: (behind ++ rest)) = unit :: units rest := by
  rcases announced_cases lead with ⟨one, lower, upper⟩ | ⟨two, lower, upper⟩ | ⟨none, _⟩
  · obtain ⟨second, rfl⟩ := List.length_eq_one_iff.mp (whole.trans one)
    exact ⟨_, fun rest => units_cons_two lead second rest lower upper⟩
  · match behind with
    | [second, third] =>
        exact ⟨_, fun rest => units_cons_three lead second third rest lower upper⟩
    | [] | [_] | _ :: _ :: _ :: _ =>
        simp only [List.length_cons, List.length_nil] at whole
        omega
  · omega

theorem units_stray {lead : UInt8} {rest : Bytes} (lower : 0x80 ≤ lead.toNat)
    (stray : announced lead = 0 ∨ rest.length < announced lead) :
    units (lead :: rest) = 0xFFFD :: units rest := by
  have notOne : ¬ lead.toNat < 0x80 := by omega
  rcases announced_cases lead with
    ⟨one, lower, upper⟩ | ⟨two, lower, upper⟩ | ⟨_, outside⟩
  · have short : rest.length = 0 := by omega
    rw [List.length_eq_zero_iff.mp short]
    simp [units, UInt8.lt_iff_toNat_lt, UInt8.le_iff_toNat_le, notOne, lower, upper]
  · have notTwo : ¬ lead.toNat ≤ 0xDF := by omega
    cases rest with
    | nil =>
        simp [units, UInt8.lt_iff_toNat_lt, UInt8.le_iff_toNat_le, notOne, notTwo, lower, upper]
    | cons second rest =>
        cases rest with
        | nil =>
            rw [units.eq_def]
            simp [UInt8.lt_iff_toNat_lt, UInt8.le_iff_toNat_le, notOne, notTwo, lower, upper]
        | cons third rest =>
            rw [List.length_cons, List.length_cons] at stray
            omega
  · have notTwo : ¬ (0xC0 ≤ lead.toNat ∧ lead.toNat ≤ 0xDF) := by omega
    have notThree : ¬ (0xE0 ≤ lead.toNat ∧ lead.toNat ≤ 0xEF) := by omega
    rw [units.eq_def]
    simp [UInt8.lt_iff_toNat_lt, UInt8.le_iff_toNat_le, notOne, notTwo, notThree]

/-- The recursion of the reading, with the groups of either length as one case. -/
@[elab_as_elim]
theorem reading_induction {motive : Bytes → Prop} (nil : motive [])
    (single : ∀ byte rest, byte.toNat < 0x80 → motive rest → motive (byte :: rest))
    (whole : ∀ lead behind rest, 0 < announced lead → behind.length = announced lead →
      motive rest → motive (lead :: (behind ++ rest)))
    (stray : ∀ lead rest, 0x80 ≤ lead.toNat →
      announced lead = 0 ∨ rest.length < announced lead → motive rest → motive (lead :: rest))
    (bytes : Bytes) : motive bytes := by
  induction size : bytes.length using Nat.strongRecOn generalizing bytes with
  | ind length ih =>
      cases bytes with
      | nil => exact nil
      | cons lead rest =>
          rw [List.length_cons] at size
          by_cases lower : 0x80 ≤ lead.toNat
          · by_cases stays : announced lead = 0 ∨ rest.length < announced lead
            · exact stray lead rest lower stays (ih rest.length (by omega) rest rfl)
            · have taken : (rest.take (announced lead)).length = announced lead := by
                rw [List.length_take]
                omega
              have left : (rest.drop (announced lead)).length < length := by
                rw [List.length_drop]
                omega
              have reached := whole lead (rest.take (announced lead)) (rest.drop (announced lead))
                (by omega) taken (ih _ left _ rfl)
              rwa [List.take_append_drop] at reached
          · exact single lead rest (by omega) (ih rest.length (by omega) rest rfl)

/-! Where each lead leads a group, reading is in step at every lead. -/

theorem leadsGroups_of_append {front bytes : Bytes} (led : leadsGroups (front ++ bytes) = true) :
    leadsGroups bytes = true := by
  induction front with
  | nil => exact led
  | cons byte front ih =>
      rw [List.cons_append, leadsGroups, Bool.and_eq_true] at led
      exact ih led.2

theorem isGroup_of_leadsGroups {lead : UInt8} {behind rest : Bytes} (leads : 0 < announced lead)
    (whole : behind.length = announced lead)
    (led : leadsGroups (lead :: (behind ++ rest)) = true) : isGroup (lead :: behind) = true := by
  have some : announced lead ≠ 0 := by omega
  have enough : ¬ (behind ++ rest).length < announced lead := by
    rw [List.length_append]
    omega
  have front : (behind ++ rest).take (announced lead) = behind := List.take_left' whole
  simp only [leadsGroups, front, Bool.and_eq_true, Bool.or_eq_true, beq_iff_eq, decide_eq_true_eq,
    some, enough, false_or] at led
  exact led.1

/-- Behind the lead of a group there are continuation bytes only. -/
theorem isContinuation_of_isGroup {lead byte : UInt8} {behind : Bytes}
    (grouped : isGroup (lead :: behind) = true) (among : byte ∈ behind) :
    isContinuation byte = true := by
  match behind with
  | [] => cases among
  | [second] =>
      simp only [isGroup, Bool.and_eq_true] at grouped
      rw [List.mem_singleton.mp among]
      exact grouped.1
  | [second, third] =>
      simp only [isGroup, Bool.and_eq_true] at grouped
      simp only [List.mem_cons, List.not_mem_nil, or_false] at among
      cases among with
      | inl same => rw [same]; exact grouped.1.1.2
      | inr same => rw [same]; exact grouped.1.2
  | _ :: _ :: _ :: _ => cases grouped

/-- A group that lacks bytes in front of a lead is not made up with the lead. -/
theorem short_of_lead_behind {first lead : UInt8} {front rest : Bytes} (leads : 0 < announced lead)
    (led : leadsGroups (first :: (front ++ lead :: rest)) = true)
    (short : front.length < announced first) :
    (front ++ lead :: rest).length < announced first := by
  apply Nat.lt_of_not_le
  intro enough
  have begins : 0 < announced first := by omega
  have whole : ((front ++ lead :: rest).take (announced first)).length = announced first :=
    List.length_take_of_le enough
  rw [← List.take_append_drop (announced first) (front ++ lead :: rest)] at led
  have grouped := isGroup_of_leadsGroups begins whole led
  have among : lead ∈ (front ++ lead :: rest).take (announced first) := by
    have within : announced first - front.length ≠ 0 := by omega
    obtain ⟨more, same⟩ := Nat.exists_eq_succ_of_ne_zero within
    rw [List.take_append, List.mem_append, same, List.take_succ_cons]
    exact Or.inr List.mem_cons_self
  have continues := isContinuation_of_isGroup grouped among
  rw [not_isContinuation leads] at continues
  cases continues

theorem units_append_lead {front : Bytes} {lead : UInt8} {rest : Bytes} (leads : 0 < announced lead)
    (led : leadsGroups (front ++ lead :: rest) = true) :
    units (front ++ lead :: rest) = units front ++ units (lead :: rest) := by
  induction front using reading_induction with
  | nil => rfl
  | single byte front upper ih =>
      have later : leadsGroups ([byte] ++ (front ++ lead :: rest)) = true := led
      rw [List.cons_append, units_cons_one _ _ upper, units_cons_one _ _ upper,
        ih (leadsGroups_of_append later), List.cons_append]
  | whole first behind front begins whole ih =>
      obtain ⟨unit, taken⟩ := exists_units_whole begins whole
      have later : leadsGroups ((first :: behind) ++ (front ++ lead :: rest)) = true := by
        rwa [List.cons_append, ← List.append_assoc]
      rw [List.cons_append, List.append_assoc, taken, taken, ih (leadsGroups_of_append later),
        List.cons_append]
  | stray first front lower stray ih =>
      have later : leadsGroups ([first] ++ (front ++ lead :: rest)) = true := led
      have still : announced first = 0 ∨ (front ++ lead :: rest).length < announced first :=
        stray.imp id (short_of_lead_behind leads led)
      rw [List.cons_append, units_stray lower still, units_stray lower stray,
        ih (leadsGroups_of_append later), List.cons_append]

/-- A malformed text has a byte that is not taken, if all that is taken is well formed. By induction
on the text as it is read: what is taken first is a group, so what is behind it is malformed. -/
theorem exists_stray_of_malformed {bytes : Bytes} (led : leadsGroups bytes = true)
    (malformed : ¬ WellFormed bytes) :
    ∃ before after, units bytes = before ++ 0xFFFD :: after := by
  induction bytes using reading_induction with
  | nil => exact absurd WellFormed.nil malformed
  | single byte rest upper ih =>
      have later : leadsGroups ([byte] ++ rest) = true := led
      have grouped : isGroup [byte] = true := by
        simpa [isGroup, UInt8.lt_iff_toNat_lt] using upper
      obtain ⟨before, after, found⟩ := ih (leadsGroups_of_append later)
        fun formed => malformed (WellFormed.cons grouped formed)
      rw [units_cons_one _ _ upper, found]
      exact ⟨byte.toUInt16 :: before, after, rfl⟩
  | whole lead behind rest leads whole ih =>
      have later : leadsGroups ((lead :: behind) ++ rest) = true := led
      have grouped := isGroup_of_leadsGroups leads whole led
      obtain ⟨unit, taken⟩ := exists_units_whole leads whole
      obtain ⟨before, after, found⟩ := ih (leadsGroups_of_append later)
        fun formed => malformed (WellFormed.cons grouped formed)
      rw [taken, found]
      exact ⟨unit :: before, after, rfl⟩
  | stray lead rest lower stray _ =>
      exact ⟨[], units rest, units_stray lower stray⟩

/-- A stray byte that reading comes to is replaced, whatever is in front of it and behind it. -/
theorem decodeGroups_stray {front : Bytes} {lead : UInt8} {rest : Bytes}
    (inStep : units (front ++ lead :: rest) = units front ++ units (lead :: rest))
    (lower : 0x80 ≤ lead.toNat) (stray : announced lead = 0 ∨ rest.length < announced lead) :
    decodeGroups (front ++ lead :: rest) =
      decodeGroups front ++ replacement :: decodeGroups rest := by
  rw [decodeGroups, inStep, units_stray lower stray, Utf16.decodeLossy_append_replaced]
  rfl

/-- A lead whose group is well formed is continued. -/
theorem isContinued_of_leadsGroups {lead : UInt8} {rest : Bytes} (leads : 0 < announced lead)
    (enough : announced lead ≤ rest.length) (led : leadsGroups (lead :: rest) = true) :
    isContinued lead rest = true := by
  have whole : (rest.take (announced lead)).length = announced lead := List.length_take_of_le enough
  rw [← List.take_append_drop (announced lead) rest] at led
  have grouped := isGroup_of_leadsGroups leads whole led
  rw [isContinued, Bool.and_eq_true, decide_eq_true_eq, List.all_eq_true]
  exact ⟨enough, fun byte among => isContinuation_of_isGroup grouped among⟩

/-- In a text that is not UTF-8, each byte that reading comes to and that leads no group, or a
longer one than there is, is replaced by itself. Where each lead that has as many bytes behind it as
it announces leads a group, a text that is not well formed is read with a replacement in it, and
each lead that is not followed by the continuation bytes it announces is replaced, and what is
behind it is read as it is by itself. -/
theorem decode_of_malformed (bytes : Bytes) (foreign : Utf8.decode? bytes = none) :
    (∀ front lead rest, bytes = front ++ lead :: rest →
      units bytes = units front ++ units (lead :: rest) → 0x80 ≤ lead.toNat →
      announced lead = 0 ∨ rest.length < announced lead →
      (decode bytes).toList = decodeGroups front ++ replacement :: decodeGroups rest) ∧
    (leadsGroups bytes = true → ¬ WellFormed bytes →
      replacement ∈ (decode bytes).toList ∧
        ∀ front lead rest, bytes = front ++ lead :: rest → 0 < announced lead →
          isContinued lead rest = false →
          (decode bytes).toList = decodeGroups front ++ replacement :: decodeGroups rest) := by
  have grouped : (decode bytes).toList = decodeGroups bytes := by
    rw [decode, String.toList_ofList, decodeChars, foreign]
  rw [grouped]
  refine ⟨?_, fun led malformed => ⟨?_, ?_⟩⟩
  · intro front lead rest same inStep lower stray
    rw [same] at inStep ⊢
    exact decodeGroups_stray inStep lower stray
  · obtain ⟨before, after, found⟩ := exists_stray_of_malformed led malformed
    rw [decodeGroups, found, Utf16.decodeLossy_append_replaced]
    exact List.mem_append_right _ List.mem_cons_self
  · intro front lead rest same leads notContinued
    rw [same] at led
    have ranges := announced_cases lead
    have short : rest.length < announced lead := by
      apply Nat.lt_of_not_le
      intro enough
      have continued := isContinued_of_leadsGroups leads enough (leadsGroups_of_append led)
      rw [notContinued] at continued
      cases continued
    rw [same]
    exact decodeGroups_stray (units_append_lead leads led) (by omega) (Or.inr short)

/-- A group of three behind a letter, and the end behind its second byte. -/
theorem decode_of_malformed_cut :
    replacement ∈ (decode [0x61, 0xE3, 0x81]).toList ∧
      (decode [0x61, 0xE3, 0x81]).toList = ['a', replacement, replacement] := by
  have foreign : Utf8.decode? [0x61, 0xE3, 0x81] = none := by decide +kernel
  have malformed : ¬ WellFormed [0x61, 0xE3, 0x81] := by
    simp [wellFormed_cons_iff, announced, isGroup, isContinuation]
  have led : leadsGroups [0x61, 0xE3, 0x81] = true := by decide
  obtain ⟨marked, replaced⟩ := (decode_of_malformed _ foreign).2 led malformed
  exact ⟨marked, replaced [0x61] 0xE3 [0x81] rfl (by decide) (by decide)⟩

/-- A letter behind the lead of a group of two is taken for its second byte, and a letter in two
bytes is read as the letter. -/
theorem malformed_group_read_as_other :
    (Utf8.decode? [0xC3, 0x41] = none ∧ ¬ WellFormed [0xC3, 0x41] ∧
      decode [0xC3, 0x41] = "Á" ∧ replacement ∉ (decode [0xC3, 0x41]).toList) ∧
    (Utf8.decode? [0xC1, 0x81] = none ∧ ¬ WellFormed [0xC1, 0x81] ∧
      decode [0xC1, 0x81] = "A") := by
  have follows : ¬ WellFormed [0xC3, 0x41] := by
    simp [wellFormed_cons_iff, announced, isGroup, isContinuation]
  have overlong : ¬ WellFormed [0xC1, 0x81] := by
    simp [wellFormed_cons_iff, announced, isGroup, isContinuation]
  refine ⟨⟨by decide +kernel, follows, by decide +kernel, by decide +kernel⟩,
    by decide +kernel, overlong, by decide +kernel⟩

end ModifiedUtf8

end Classpath.Text
