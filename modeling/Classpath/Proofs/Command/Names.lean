import Mathlib.Data.List.DropRight
import Classpath.Proofs.Command.Runs
import Classpath.Proofs.Session.Reaching

/-!
The names that a list of classes prints, given back as arguments. Main statement: a class is found
by its name unless white space stands at an end of it, and by its binary name unless that looks like
the name of a class file as well.
-/

set_option autoImplicit false

namespace Classpath

namespace Text

theorem trim_sublist (text : List Char) : (trim text).Sublist text := by
  have front : (text.dropWhile isBlank).Sublist text := (List.dropWhile_suffix isBlank).sublist
  have back : (trim text).Sublist (text.dropWhile isBlank) :=
    (List.rdropWhile_prefix isBlank (text.dropWhile isBlank)).sublist
  exact back.trans front

/-- Nothing is trimmed where no white space is at either end. -/
theorem trim_eq_self_iff (text : List Char) : trim text = text ↔
    ∀ c, text.head? = some c ∨ text.getLast? = some c → isBlank c = false := by
  have front : text.dropWhile isBlank = text ↔ ∀ c, text.head? = some c → isBlank c = false := by
    cases text with
    | nil => simp
    | cons first rest => simp [List.dropWhile_eq_self_iff]
  have back : text.rdropWhile isBlank = text ↔
      ∀ c, text.getLast? = some c → isBlank c = false := by
    by_cases nothing : text = []
    · simp [nothing]
    · simp [List.rdropWhile_eq_self_iff, nothing, List.getLast?_eq_some_getLast nothing]
  simp only [or_imp, forall_and, ← front, ← back]
  have shape : trim text = (text.dropWhile isBlank).rdropWhile isBlank := rfl
  constructor
  · intro same
    have shorter := (List.rdropWhile_prefix isBlank (text.dropWhile isBlank)).length_le
    rw [← shape, same] at shorter
    have whole := (List.dropWhile_suffix isBlank).eq_of_length_le shorter
    rw [whole] at shape
    exact ⟨whole, shape.symm.trans same⟩
  · intro ⟨whole, ends⟩
    rw [shape, whole, ends]

end Text

/-- A class that is listed is the one that goes by its name. -/
theorem Catalog.WellKept.class?_of_listed {catalog : Catalog} (kept : catalog.WellKept)
    {object : ClassObject}
    (listed : object ∈ Registry.objectsOf catalog.objects catalog.registry.classes) :
    catalog.class? object.file.name = some object := by
  obtain ⟨⟨name, number⟩, among, held⟩ := List.mem_filterMap.mp listed
  have found : catalog.class? name = some object :=
    (catalog.class?_eq_some_iff name object).mpr
      ⟨number, Std.ExtTreeMap.mem_toList_iff_getElem?_eq_some.mp among, held⟩
  rwa [kept.class?_name found]

theorem Catalog.listed_of_class? (catalog : Catalog) {name : String} {object : ClassObject}
    (found : catalog.class? name = some object) :
    object ∈ Registry.objectsOf catalog.objects catalog.registry.classes := by
  obtain ⟨number, entered, held⟩ := (catalog.class?_eq_some_iff name object).mp found
  exact List.mem_filterMap.mpr
    ⟨(name, number), Std.ExtTreeMap.mem_toList_iff_getElem?_eq_some.mpr entered, held⟩

/-- A class that has been scanned is listed. -/
theorem Session.exists_listed {raw : RawClass} (resolves : raw.Resolvable) {name : String}
    (named : raw.pool.className? raw.thisClass = some name) : ∃ registry object,
    (scanned raw).registries[0]? = some registry ∧
      object ∈ Registry.objectsOf (scanned raw).objects registry.classes ∧
      object.file.name = name := by
  obtain ⟨cls, _, goes, _, ran⟩ := exists_scanned resolves named
  rw [ran]
  refine ⟨_, ⟨cls, some raw.pool.pool⟩, rfl, ?_, goes⟩
  apply Catalog.listed_of_class?
  exact (Catalog.class?_eq_some_iff _ cls.name _).mpr
    ⟨0, Std.ExtTreeMap.getElem?_insert_self, rfl⟩

namespace Command

def slashed (c : Char) : Char := if c = '.' then '/' else c

def dotted (c : Char) : Char := if c = '/' then '.' else c

/-- Text without its class suffixes. -/
def withoutSuffixes (text : List Char) : List Char := (dropClassSuffixes text.reverse).reverse

theorem toList_internalName (argument : String) :
    (internalName argument).toList =
      (withoutSuffixes (Text.trim argument.toList)).map slashed :=
  String.toList_ofList

theorem toList_binaryName (name : String) :
    (Naming.binaryName name).toList = name.toList.map dotted :=
  String.toList_ofList

section Names

variable {text : List Char}

/-- Where there was no dot, each dot stands for a slash. -/
theorem map_slashed_dotted (noDot : '.' ∉ text) : (text.map dotted).map slashed = text := by
  rw [List.map_map]
  apply (List.map_congr_left _).trans text.map_id
  intro c among
  have plain : c ≠ '.' := fun same => noDot (same ▸ among)
  by_cases slash : c = '/'
  · rw [slash]
    rfl
  · simp [slashed, dotted, slash, plain]

theorem map_slashed (noDot : '.' ∉ text) : text.map slashed = text := by
  apply (List.map_congr_left _).trans text.map_id
  intro c among
  have plain : c ≠ '.' := fun same => noDot (same ▸ among)
  simp [slashed, plain]

/-- Neither a dot nor a slash is white space. -/
theorem isBlank_dotted (c : Char) : Text.isBlank (dotted c) = Text.isBlank c := by
  by_cases slash : c = '/'
  · rw [slash]
    decide
  · rw [dotted, if_neg slash]

theorem trim_map_dotted (text : List Char) :
    Text.trim (text.map dotted) = (Text.trim text).map dotted := by
  have blank : Text.isBlank ∘ dotted = Text.isBlank := funext isBlank_dotted
  simp only [Text.trim, List.dropWhile_map, blank, ← List.map_reverse]

theorem dropClassSuffixes_suffix (text : List Char) : dropClassSuffixes text <:+ text := by
  fun_induction dropClassSuffixes text with
  | case1 rest ih => exact ih.trans (List.suffix_append ['s', 's', 'a', 'l', 'c', '.'] rest)
  | case2 text other => exact List.suffix_rfl

theorem withoutSuffixes_begins (text : List Char) : withoutSuffixes text <+: text := by
  have reversed := List.reverse_prefix.mpr (dropClassSuffixes_suffix text.reverse)
  rwa [List.reverse_reverse] at reversed

/-- Nothing is dropped just where there is no class suffix. -/
theorem withoutSuffixes_eq_self_iff (text : List Char) :
    withoutSuffixes text = text ↔ ¬ Naming.classSuffix <:+ text := by
  have turned : withoutSuffixes text = text ↔ dropClassSuffixes text.reverse = text.reverse :=
    List.reverse_eq_iff
  have suffixed : Naming.classSuffix <:+ text ↔ ['s', 's', 'a', 'l', 'c', '.'] <+: text.reverse :=
    List.reverse_prefix.symm
  rw [turned, suffixed]
  generalize text.reverse = backwards
  rw [dropClassSuffixes.eq_def]
  split
  · rename_i rest
    have shorter := (dropClassSuffixes_suffix rest).length_le
    constructor
    · intro same
      have sized := congrArg List.length same
      simp only [List.length_cons] at sized
      omega
    · intro absent
      exact absurd ⟨rest, rfl⟩ absent
  · rename_i other
    apply iff_of_true rfl
    intro ⟨rest, whole⟩
    exact other rest whole.symm

theorem exists_dropClassSuffixes (text : List Char) : ∃ count,
    text = (List.replicate count ['s', 's', 'a', 'l', 'c', '.']).flatten ++
      dropClassSuffixes text ∧
    ¬ ['s', 's', 'a', 'l', 'c', '.'] <+: dropClassSuffixes text := by
  fun_induction dropClassSuffixes text with
  | case1 rest ih =>
      obtain ⟨count, whole, kept⟩ := ih
      refine ⟨count + 1, ?_, kept⟩
      rw [List.replicate_succ, List.flatten_cons, List.append_assoc, ← whole]
      rfl
  | case2 text other =>
      refine ⟨0, rfl, ?_⟩
      intro ⟨rest, whole⟩
      exact other rest whole.symm

/-- All class suffixes are dropped, and nothing else. -/
theorem exists_withoutSuffixes (text : List Char) : ∃ count,
    text = withoutSuffixes text ++ (List.replicate count Naming.classSuffix).flatten ∧
      ¬ Naming.classSuffix <:+ withoutSuffixes text := by
  obtain ⟨count, whole, kept⟩ := exists_dropClassSuffixes text.reverse
  refine ⟨count, ?_, ?_⟩
  · have turned := congrArg List.reverse whole
    rw [List.reverse_reverse, List.reverse_append, List.reverse_flatten, List.map_replicate,
      List.reverse_replicate] at turned
    exact turned
  · intro suffixed
    apply kept
    rw [← List.reverse_suffix, ← withoutSuffixes]
    exact suffixed

/-- What a name ends in whose binary name has the class suffix. -/
def classSegment : List Char := "/class".toList

theorem classSuffix_map_dotted_iff (noDot : '.' ∉ text) :
    Naming.classSuffix <:+ text.map dotted ↔ classSegment <:+ text := by
  constructor
  · intro ⟨front, whole⟩
    have split := congrArg (List.map slashed) whole
    rw [map_slashed_dotted noDot, List.map_append] at split
    exact ⟨front.map slashed, split⟩
  · intro ⟨front, whole⟩
    exact ⟨front.map dotted, by rw [← whole, List.map_append]; rfl⟩

theorem classSuffix_not_suffix (noDot : '.' ∉ text) : ¬ Naming.classSuffix <:+ text := by
  intro ends
  have dot : '.' ∈ Naming.classSuffix := by decide
  exact noDot (ends.subset dot)

end Names

/-- White space stands at an end of a name. -/
def HasBlankEnd (name : String) : Prop :=
  ∃ c, (name.toList.head? = some c ∨ name.toList.getLast? = some c) ∧ Text.isBlank c = true

theorem not_hasBlankEnd_iff (name : String) :
    ¬ HasBlankEnd name ↔ Text.trim name.toList = name.toList := by
  rw [Text.trim_eq_self_iff, HasBlankEnd]
  simp only [not_exists, not_and, Bool.not_eq_true]

section Internal

variable {name : String}

theorem length_internalName_le (argument : String) :
    (internalName argument).toList.length ≤ (Text.trim argument.toList).length := by
  rw [toList_internalName, List.length_map]
  exact (withoutSuffixes_begins _).length_le

/-- A name stands for itself just if nothing is trimmed. -/
theorem internalName_eq_self_iff (noDot : '.' ∉ name.toList) :
    internalName name = name ↔ ¬ HasBlankEnd name := by
  rw [not_hasBlankEnd_iff]
  constructor
  · intro same
    have long := length_internalName_le name
    rw [same] at long
    exact (Text.trim_sublist name.toList).eq_of_length_le long
  · intro trimmed
    have whole := (withoutSuffixes_eq_self_iff name.toList).mpr (classSuffix_not_suffix noDot)
    apply String.toList_injective
    rw [toList_internalName, trimmed, whole, map_slashed noDot]

/-- A binary name stands for the name that it was made from just if nothing is trimmed and nothing
is dropped. -/
theorem internalName_binaryName_eq_iff (noDot : '.' ∉ name.toList) :
    internalName (Naming.binaryName name) = name ↔
      ¬ HasBlankEnd name ∧ ¬ classSegment <:+ name.toList := by
  rw [not_hasBlankEnd_iff, ← classSuffix_map_dotted_iff noDot, ← withoutSuffixes_eq_self_iff]
  have expanded : (internalName (Naming.binaryName name)).toList =
      (withoutSuffixes ((Text.trim name.toList).map dotted)).map slashed := by
    rw [toList_internalName, toList_binaryName, trim_map_dotted]
  constructor
  · intro same
    rw [same] at expanded
    -- Neither trimming nor dropping can have made the name shorter.
    have sized := congrArg List.length expanded
    rw [List.length_map] at sized
    have dropped := (withoutSuffixes_begins ((Text.trim name.toList).map dotted)).length_le
    rw [List.length_map] at dropped
    have trimmed := (Text.trim_sublist name.toList).eq_of_length_le (by omega)
    rw [trimmed] at sized
    refine ⟨trimmed, (withoutSuffixes_begins _).eq_of_length_le ?_⟩
    rw [List.length_map]
    omega
  · intro ⟨trimmed, kept⟩
    apply String.toList_injective
    rw [expanded, trimmed, kept, map_slashed_dotted noDot]

/-- The binary name of a name that ends in "/class" stands for the name without any such ends. -/
theorem exists_internalName_binaryName (noDot : '.' ∉ name.toList) (plain : ¬ HasBlankEnd name)
    (segment : classSegment <:+ name.toList) : ∃ count, 0 < count ∧
      name.toList = (internalName (Naming.binaryName name)).toList ++
        (List.replicate count classSegment).flatten ∧
      ¬ classSegment <:+ (internalName (Naming.binaryName name)).toList := by
  have trimmed := (not_hasBlankEnd_iff name).mp plain
  have expanded : (internalName (Naming.binaryName name)).toList =
      (withoutSuffixes (name.toList.map dotted)).map slashed := by
    rw [toList_internalName, toList_binaryName, trim_map_dotted, trimmed]
  obtain ⟨count, whole, kept⟩ := exists_withoutSuffixes (name.toList.map dotted)
  have split : name.toList = (internalName (Naming.binaryName name)).toList ++
      (List.replicate count classSegment).flatten := by
    have back := congrArg (List.map slashed) whole
    rw [map_slashed_dotted noDot, List.map_append, List.map_flatten, List.map_replicate] at back
    rw [expanded]
    exact back
  have some : 0 < count := by
    apply Nat.pos_of_ne_zero
    rintro rfl
    rw [List.replicate_zero, List.flatten_nil, List.append_nil] at whole
    rw [← whole] at kept
    exact kept ((classSuffix_map_dotted_iff noDot).mpr segment)
  refine ⟨count, some, split, ?_⟩
  rintro ⟨front, ends⟩
  -- What is left has no dot, so that its binary name is what was left of the whole binary name.
  have noDotLeft : '.' ∉ (internalName (Naming.binaryName name)).toList := by
    intro among
    apply noDot
    rw [split]
    exact List.mem_append_left _ among
  apply kept
  have left : withoutSuffixes (name.toList.map dotted) =
      (internalName (Naming.binaryName name)).toList.map dotted := by
    have both := congrArg (List.map dotted) split
    rw [List.map_append, List.map_flatten, List.map_replicate] at both
    exact List.append_cancel_right (whole.symm.trans both)
  rw [left]
  exact (classSuffix_map_dotted_iff noDotLeft).mpr ⟨front, ends⟩

end Internal

/-- A subcommand that is given an argument works on just this class: its methods are listed, and the
code of one of its methods is printed, if there is any. -/
structure Selects (files : FileTree) (catalog : Catalog) (argument : String)
    (object : ClassObject) : Prop where
  found : findClass catalog argument = .ok object
  methods : perform files catalog (.methods argument) =
    .ok (printed (.array (object.file.methods.map methodJson)))
  bytecode : ∀ name descriptor output,
    perform files catalog (.bytecode argument name descriptor) = .ok output ↔
      ∃ method code, object.file.method? name descriptor = some method ∧
        object.methodCode catalog.registry files method = .ok (some code) ∧
        output = printed (.ofCode object.file.name name descriptor code)

section Selecting

variable (files : FileTree) {catalog : Catalog} {argument : String} {object : ClassObject}

theorem perform_bytecode_iff (found : catalog.class? (internalName argument) = some object)
    (name descriptor : String) (output : Bytes) :
    perform files catalog (.bytecode argument name descriptor) = .ok output ↔
      ∃ method code, object.file.method? name descriptor = some method ∧
        object.methodCode catalog.registry files method = .ok (some code) ∧
        output = printed (.ofCode object.file.name name descriptor code) := by
  rw [perform_bytecode found]
  cases object.file.method? name descriptor with
  | none => simp
  | some method =>
      cases loaded : object.methodCode catalog.registry files method with
      | error error => simp [loaded]
      | ok code? =>
          cases code? with
          | none => simp [loaded]
          | some code => simp [loaded, eq_comm]

theorem selects_iff :
    Selects files catalog argument object ↔
      catalog.class? (internalName argument) = some object := by
  constructor
  · intro selects
    have found := selects.found
    rw [findClass_eq] at found
    split at found
    · rename_i other there
      rw [there, Except.ok.inj found]
    · cases found
  · intro found
    exact ⟨by rw [findClass_eq, found], perform_methods found, perform_bytecode_iff files found⟩

/-- Only what stands for its name selects a class. -/
theorem selects_iff_internalName (kept : catalog.WellKept)
    (registered : catalog.class? object.file.name = some object) :
    Selects files catalog argument object ↔ internalName argument = object.file.name := by
  rw [selects_iff]
  constructor
  · intro found
    exact (kept.class?_name found).symm
  · intro same
    rw [same, registered]

/-- A class that the argument does not stand for is not found by it. -/
theorem findClass_ne (kept : catalog.WellKept)
    (other : internalName argument ≠ object.file.name) :
    findClass catalog argument ≠ .ok object := by
  intro found
  rw [findClass_eq] at found
  split at found
  · rename_i known there
    have named := kept.class?_name there
    rw [Except.ok.inj found] at named
    exact other named.symm
  · cases found

end Selecting

/-- In every session, a class that is listed and has no dot in its name is selected by its name just
if no white space stands at an end of it, and by its binary name just if, besides, the last segment
of its name is not "class"; and by these no other class is found then. By the binary name of a class
with such segments at the end, what is found is the class that goes by the name without them, and no
class if there is none. -/
theorem printed_names_select {session : Session} (reachable : session.Reachable)
    {number : Nat} {registry : Registry} (there : session.registries[number]? = some registry)
    (files : FileTree) {object : ClassObject}
    (listed : object ∈ Registry.objectsOf session.objects registry.classes)
    (noDot : '.' ∉ object.file.name.toList) :
    let catalog : Catalog := ⟨registry, session.objects⟩
    let name := object.file.name
    (Selects files catalog name object ↔ ¬ HasBlankEnd name) ∧
      (Selects files catalog (Naming.binaryName name) object ↔
        ¬ HasBlankEnd name ∧ ¬ classSegment <:+ name.toList) ∧
      (¬ HasBlankEnd name → ∀ other, findClass catalog name = .ok other → other = object) ∧
      (¬ HasBlankEnd name → ¬ classSegment <:+ name.toList →
        ∀ other, findClass catalog (Naming.binaryName name) = .ok other → other = object) ∧
      (¬ HasBlankEnd name → classSegment <:+ name.toList → ∃ (front : String) (count : Nat),
        0 < count ∧ name.toList = front.toList ++ (List.replicate count classSegment).flatten ∧
        ¬ classSegment <:+ front.toList ∧
        (∀ other, Selects files catalog (Naming.binaryName name) other ↔
          catalog.class? front = some other) ∧
        (catalog.class? front = none → findClass catalog (Naming.binaryName name) =
          .error (.ofCause (.classNotFound (Naming.binaryName name))))) := by
  intro catalog name
  have kept : catalog.WellKept := reachable.wellKept number registry there
  have registered := kept.class?_of_listed listed
  have byName := (selects_iff_internalName files kept registered).trans
    (internalName_eq_self_iff noDot)
  have byBinary := (selects_iff_internalName files kept registered).trans
    (internalName_binaryName_eq_iff noDot)
  refine ⟨byName, byBinary, ?_, ?_, ?_⟩
  · intro plain other found
    exact Except.ok.inj (found.symm.trans (byName.mpr plain).found)
  · intro plain apart other found
    exact Except.ok.inj (found.symm.trans (byBinary.mpr ⟨plain, apart⟩).found)
  · intro plain segment
    obtain ⟨count, some, split, kept⟩ := exists_internalName_binaryName noDot plain segment
    refine ⟨_, count, some, split, kept, fun other => selects_iff files, ?_⟩
    intro absent
    rw [findClass_eq, absent]

/-- The class of the specimen is selected by its name. -/
theorem printed_names_select_specimen : ∃ registry object,
    Session.specimen.registries[0]? = some registry ∧
      object ∈ Registry.objectsOf Session.specimen.objects registry.classes ∧
      object.file.name = "A" ∧
      Selects RawClass.specimenFiles ⟨registry, Session.specimen.objects⟩ "A" object := by
  obtain ⟨registry, object, there, listed, named⟩ :=
    Session.exists_listed RawClass.specimen_resolvable RawClass.specimen_called.1
  have noDot : '.' ∉ object.file.name.toList := by
    rw [named]
    decide
  obtain ⟨byName, _⟩ := printed_names_select Session.specimen_reachable there
    RawClass.specimenFiles listed noDot
  have plain : ¬ HasBlankEnd object.file.name := by
    rw [named, not_hasBlankEnd_iff]
    decide
  have selects := byName.mpr plain
  rw [named] at selects
  exact ⟨registry, object, there, listed, named, selects⟩

/-- The class "A/class". -/
def segmentSpecimen : RawClass := .onlyName [0x41, 0x2F, 0x63, 0x6C, 0x61, 0x73, 0x73] (by decide)

/-- The class " A". -/
def blankSpecimen : RawClass := .onlyName [0x20, 0x41] (by decide)

/-- By the binary name "A.class" of the class "A/class", the class "A" is selected, and the class
" A" is found by neither of its names. -/
theorem printed_names_miss :
    let session := Session.shelved (.letter 0x41) segmentSpecimen
    session.Reachable ∧ (Session.scanned blankSpecimen).Reachable ∧
    (∃ (registry : Registry) (object other : ClassObject),
      session.registries[0]? = some registry ∧
      object ∈ Registry.objectsOf session.objects registry.classes ∧
      other ∈ Registry.objectsOf session.objects registry.classes ∧
      object.file.name = "A/class" ∧ other.file.name = "A" ∧
      Selects session.files ⟨registry, session.objects⟩ (Naming.binaryName object.file.name)
        other) ∧
    ∃ registry object, (Session.scanned blankSpecimen).registries[0]? = some registry ∧
      object ∈ Registry.objectsOf (Session.scanned blankSpecimen).objects registry.classes ∧
      object.file.name = " A" ∧
      findClass ⟨registry, (Session.scanned blankSpecimen).objects⟩ object.file.name ≠
        .ok object ∧
      findClass ⟨registry, (Session.scanned blankSpecimen).objects⟩
        (Naming.binaryName object.file.name) ≠ .ok object := by
  intro session
  have segment : segmentSpecimen.pool.className? 2 = some "A/class" :=
    congrArg some (Text.ModifiedUtf8.decode_utf8Encode "A/class".toList)
  have blank : blankSpecimen.pool.className? 2 = some " A" :=
    congrArg some (Text.ModifiedUtf8.decode_utf8Encode " A".toList)
  refine ⟨Session.shelved_reachable _ _, Session.scanned_reachable _, ?_, ?_⟩
  · obtain ⟨registry, other, object, there, otherFound, otherNamed, found, named⟩ :=
      Session.exists_shelved (RawClass.letter_resolvable 0x41) RawClass.letter_named.1
        (RawClass.onlyName_resolvable _ _) segment (by decide)
    have reads : internalName (Naming.binaryName object.file.name) = "A" := by
      rw [named]
      decide
    refine ⟨registry, object, other, there,
      Catalog.listed_of_class? ⟨registry, session.objects⟩ found,
      Catalog.listed_of_class? ⟨registry, session.objects⟩ otherFound, named,
      otherNamed, (selects_iff _).mpr ?_⟩
    rw [reads]
    exact otherFound
  · obtain ⟨registry, object, there, listed, named⟩ :=
      Session.exists_listed (RawClass.onlyName_resolvable _ _) blank
    have kept : (⟨registry, _⟩ : Catalog).WellKept :=
      (Session.scanned_reachable blankSpecimen).wellKept 0 registry there
    refine ⟨registry, object, there, listed, named, findClass_ne kept ?_, findClass_ne kept ?_⟩
    · rw [named]
      decide
    · rw [named]
      decide

end Command

end Classpath
