import Mathlib.Data.List.Induction
import Classpath.Proofs.Lookup
import Classpath.Proofs.Registry.Scanning
import Classpath.Proofs.Session.Handles

/-!
What a scan of an archive leaves. Main statement: the members of the archive are added in order up to
the first that cannot be, and of that one at most its key; the scan fails just as that member does.
-/

set_option autoImplicit false

namespace Classpath

theorem modify_push {α : Type} (items : Array α) (item : α) (change : α → α) :
    (items.push item).modify items.size change = items.push (change item) := by
  apply Array.ext_getElem?
  intro index
  rw [Array.getElem?_modify, Array.getElem?_push, Array.getElem?_push]
  by_cases last : index = items.size
  · simp [last]
  · simp [last, Ne.symm last]

namespace Archive

/-- Whether a scan adds a member. -/
def Listed.isUsable (own : Bool) (member : Listed) : Bool :=
  !member.isDirectory && (Scan.isClassName member.name || own)

/-- What stands behind the name of a member of the archive of a number. -/
def entryOf (archive : Archive) (number : Nat) (member : Listed) : String × Entry :=
  (member.name, .member archive.path number member.index member.name)

/-- The class that a member is read and parsed as. -/
def classOf (archive : Archive) (own : Bool) (member : Listed) : Except Error ClassObject :=
  match archive.readMember member.index with
  | .error error => .error error
  | .ok bytes =>
      (ClassFile.parse bytes own member.name).map fun parsed => ⟨parsed.1, some parsed.2⟩

/-- The classes among the members, in order. -/
def classesOf (archive : Archive) (own : Bool) (members : List Listed) : List ClassObject :=
  members.filterMap fun member =>
    if Scan.isClassName member.name then (archive.classOf own member).toOption else none

section Classes

variable {archive : Archive} {own : Bool} {front : List Listed} {member : Listed}
  {object : ClassObject}

theorem classesOf_snoc (isClass : Scan.isClassName member.name = true)
    (parsed : archive.classOf own member = .ok object) :
    archive.classesOf own (front ++ [member]) = archive.classesOf own front ++ [object] := by
  simp [classesOf, isClass, parsed, Except.toOption]

theorem classesOf_snoc_other (other : ¬ Scan.isClassName member.name = true) :
    archive.classesOf own (front ++ [member]) = archive.classesOf own front := by
  simp [classesOf, other]

/-- A class from an archive is whose the archive is, and its source is its member. -/
theorem origin_of_classOf (parsed : archive.classOf own member = .ok object) :
    object.file.own = own ∧ object.file.source = member.name := by
  unfold classOf at parsed
  cases read : archive.readMember member.index with
  | error error =>
      rw [read] at parsed
      cases parsed
  | ok bytes =>
      rw [read] at parsed
      dsimp only at parsed
      cases ran : ClassFile.parse bytes own member.name with
      | error error =>
          rw [ran] at parsed
          cases parsed
      | ok found =>
          rw [ran] at parsed
          cases parsed
          exact ClassFile.parse_origin ran

theorem origin_of_classesOf {members : List Listed} (among : object ∈ archive.classesOf own members) :
    object.file.own = own ∧ ∃ member ∈ members, object.file.source = member.name := by
  obtain ⟨member, here, parsed⟩ := List.mem_filterMap.mp among
  split at parsed
  · cases ran : archive.classOf own member with
    | error error =>
        rw [ran] at parsed
        cases parsed
    | ok found =>
        rw [ran] at parsed
        cases parsed
        obtain ⟨owned, sourced⟩ := origin_of_classOf ran
        exact ⟨owned, member, here, sourced⟩
  · cases parsed

end Classes

end Archive

namespace Catalog

/-- What stands behind a key once the members in `front` have been added. -/
def entryWith? (before : Catalog) (archive : Archive) (front : List Archive.Listed)
    (key : String) : Option Entry :=
  before.registry.entries[key]?.or
    ((front.map (archive.entryOf before.registry.archives.size)).lookup key)

/-- Whether a class goes by a name once the members in `front` have been added. -/
def namesWith (before : Catalog) (archive : Archive) (own : Bool) (front : List Archive.Listed)
    (name : String) : Bool :=
  before.registry.classes.contains name ||
    (archive.classesOf own front).any (·.file.name = name)

/-- Why a member cannot be added once those in `front` have been, if it cannot. -/
def fault? (before : Catalog) (archive : Archive) (own : Bool) (front : List Archive.Listed)
    (member : Archive.Listed) : Option Error :=
  match before.entryWith? archive front member.name with
  | some current =>
      let entry := (archive.entryOf before.registry.archives.size member).2
      some (.ofCause (.duplicateResource member.name entry.text current.text))
  | none =>
      if Scan.isClassName member.name then
        match archive.classOf own member with
        | .error error => some error
        | .ok object =>
            if before.namesWith archive own front object.file.name then
              some (.ofCause (.duplicateClass object.file.name))
            else none
      else none

/-- Each of the members can be added once those in front of it have been. -/
def Admits (before : Catalog) (archive : Archive) (own : Bool) (members : List Archive.Listed) :
    Prop :=
  ∀ front member back, members = front ++ member :: back →
    before.fault? archive own front member = none

/-- A catalog has another archive, these keys and these objects more than before, the objects
numbered from where the old ones end, and all that it had before. -/
structure Gains (before after : Catalog) (archive : Archive) (keys : List (String × Entry))
    (added : List ClassObject) : Prop where
  walker : after.registry.walker = before.registry.walker
  archives : after.registry.archives = before.registry.archives.push archive
  entries : ∀ key : String, after.registry.entries[key]? =
    before.registry.entries[key]?.or (keys.lookup key)
  entriesSize : after.registry.entries.size = before.registry.entries.size + keys.length
  classes : ∀ name : String, after.registry.classes[name]? =
    before.registry.classes[name]?.or
      ((added.findIdx? (·.file.name = name)).map (before.objects.size + ·))
  classesSize : after.registry.classes.size = before.registry.classes.size + added.length
  objects : after.objects.toList = before.objects.toList ++ added

namespace Gains

variable {before after : Catalog} {archive : Archive} {keys : List (String × Entry)}
  {added : List ClassObject}

theorem opened (before : Catalog) (archive : Archive) :
    Gains before (before.withArchives (before.registry.archives.push archive)) archive [] [] where
  walker := rfl
  archives := rfl
  entries key := by simp [withArchives]
  entriesSize := rfl
  classes name := by simp [withArchives]
  classesSize := rfl
  objects := by simp [withArchives]

theorem enter (gains : before.Gains after archive keys added) {key : String}
    (free : after.registry.entries[key]? = none) (entry : Entry) :
    before.Gains (after.enter key entry) archive (keys ++ [(key, entry)]) added where
  walker := gains.walker
  archives := gains.archives
  entries other := by
    change (after.registry.entries.insert key entry)[other]? = _
    rw [Std.ExtTreeMap.getElem?_insert, List.lookup_append, ← Option.or_assoc, ← gains.entries other]
    by_cases same : key = other
    · subst same
      simp [free]
    · have apart : other ≠ key := fun one => same one.symm
      rw [lookup_cons_of_ne apart, List.lookup_nil]
      simp [same]
  entriesSize := by
    change (after.registry.entries.insert key entry).size = _
    rw [size_insert_free free, gains.entriesSize, List.length_append]
    rfl
  classes := gains.classes
  classesSize := gains.classesSize
  objects := gains.objects

theorem add (gains : before.Gains after archive keys added) {object : ClassObject}
    (unnamed : after.registry.classes[object.file.name]? = none) :
    before.Gains (after.add object) archive keys (added ++ [object]) where
  walker := gains.walker
  archives := gains.archives
  entries := gains.entries
  entriesSize := gains.entriesSize
  classes name := by
    have numbered : after.objects.size = before.objects.size + added.length := by
      rw [← Array.length_toList, gains.objects, List.length_append, Array.length_toList]
    change (after.registry.classes.insert object.file.name after.objects.size)[name]? = _
    rw [Std.ExtTreeMap.getElem?_insert, List.findIdx?_append, Option.map_or, ← Option.or_assoc,
      ← gains.classes name]
    by_cases same : object.file.name = name
    · subst same
      simp [unnamed, numbered]
    · simp [same]
  classesSize := by
    change (after.registry.classes.insert object.file.name after.objects.size).size = _
    rw [size_insert_free unnamed, gains.classesSize, List.length_append]
    rfl
  objects := by
    change (after.objects.push object).toList = _
    rw [Array.toList_push, gains.objects, List.append_assoc]

theorem close (gains : before.Gains after archive keys added) :
    before.Gains (after.withArchives
      (after.registry.archives.modify before.registry.archives.size Archive.close))
        archive.close keys added where
  walker := gains.walker
  archives := by
    change after.registry.archives.modify _ _ = _
    rw [gains.archives, modify_push]
  entries := gains.entries
  entriesSize := gains.entriesSize
  classes := gains.classes
  classesSize := gains.classesSize
  objects := gains.objects

end Gains

/-- The catalog has grown by the members in `front`. -/
def GainsMembers (before after : Catalog) (archive : Archive) (own : Bool)
    (front : List Archive.Listed) : Prop :=
  before.Gains after archive (front.map (archive.entryOf before.registry.archives.size))
    (archive.classesOf own front)

variable {before after : Catalog} {archive : Archive} {own : Bool} {front : List Archive.Listed}
  {member : Archive.Listed}

/-- The catalog has grown by the keys of some members and the classes of some, and the archive is
open if there are any. -/
def GainsFrom (before after : Catalog) (archive : Archive) (own : Bool)
    (keyed classed : List Archive.Listed) : Prop :=
  before.Gains after (if keyed = [] then archive.close else archive)
    (keyed.map (archive.entryOf before.registry.archives.size)) (archive.classesOf own classed)

/-- The archive is closed again if nothing was added from it. -/
theorem Gains.closeUnused {keyed classed : List Archive.Listed}
    (gains : before.Gains after archive
      (keyed.map (archive.entryOf before.registry.archives.size))
      (archive.classesOf own classed)) :
    before.GainsFrom
      (if after.registry.entries.size = before.registry.entries.size then
        after.withArchives
          (after.registry.archives.modify before.registry.archives.size Archive.close)
      else after) archive own keyed classed := by
  have sized := gains.entriesSize
  rw [List.length_map] at sized
  unfold GainsFrom
  by_cases none : keyed = []
  · rw [none, List.length_nil, Nat.add_zero] at sized
    rw [if_pos sized, if_pos none]
    exact gains.close
  · have filled := List.length_pos_iff.mpr none
    rw [if_neg (by omega), if_neg none]
    exact gains

theorem admits_nil (before : Catalog) (archive : Archive) (own : Bool) :
    before.Admits archive own [] := by
  intro front member back split
  simp at split

theorem admits_append_singleton {members : List Archive.Listed} :
    before.Admits archive own (members ++ [member]) ↔
      before.Admits archive own members ∧ before.fault? archive own members member = none := by
  constructor
  · intro admitted
    refine ⟨?_, admitted members member [] rfl⟩
    intro earlier other back split
    apply admitted earlier other (back ++ [member])
    rw [split, List.append_assoc, List.cons_append]
  · rintro ⟨admitted, admits⟩ earlier other back split
    cases back using List.reverseRecOn with
    | nil =>
        obtain ⟨rfl, last⟩ := List.append_inj' split rfl
        cases last
        exact admits
    | append_singleton back last _ =>
        rw [← List.cons_append, ← List.append_assoc] at split
        exact admitted earlier other back (List.append_inj' split rfl).1

/-- If not all members can be added, there is a first that cannot. -/
theorem admits_or_fault (before : Catalog) (archive : Archive) (own : Bool)
    (members : List Archive.Listed) : before.Admits archive own members ∨
      ∃ front member back error, members = front ++ member :: back ∧
        before.Admits archive own front ∧
        before.fault? archive own front member = some error := by
  induction members using List.reverseRecOn with
  | nil => exact Or.inl (admits_nil before archive own)
  | append_singleton members last ih =>
      rcases ih with admitted | ⟨front, member, back, error, split, admitted, faulty⟩
      · cases faulty : before.fault? archive own members last with
        | none => exact Or.inl (admits_append_singleton.mpr ⟨admitted, faulty⟩)
        | some error => exact Or.inr ⟨members, last, [], error, rfl, admitted, faulty⟩
      · refine Or.inr ⟨front, member, back ++ [last], error, ?_, admitted, faulty⟩
        rw [split, List.append_assoc, List.cons_append]

theorem GainsMembers.entry (gains : before.GainsMembers after archive own front) (key : String) :
    after.registry.entries[key]? = before.entryWith? archive front key :=
  gains.entries key

theorem GainsMembers.contains (gains : before.GainsMembers after archive own front)
    (name : String) :
    after.registry.classes.contains name = before.namesWith archive own front name := by
  rw [Std.ExtTreeMap.contains_eq_isSome_getElem?, gains.classes name, Option.isSome_or,
    Option.isSome_map, List.findIdx?_isSome, namesWith,
    Std.ExtTreeMap.contains_eq_isSome_getElem?]

/-- A member is read from the archive that was opened. -/
theorem Gains.read {keys : List (String × Entry)} {added : List ClassObject}
    (gains : before.Gains after archive keys added) (files : FileTree) (member : Archive.Listed) :
    (archive.entryOf before.registry.archives.size member).2.read files after.registry.archives =
      archive.readMember member.index := by
  rw [Archive.entryOf, Entry.read, Entry.readMember, gains.archives, Array.getElem?_push_size]

end Catalog

namespace Scan

open Catalog (Gains GainsMembers Admits)

/-- Adds one member. -/
def addMember (files : FileTree) (archive : Archive) (number : Nat) (own : Bool)
    (member : Archive.Listed) : Scan Unit := do
  addResource member.name (archive.entryOf number member).2
  if isClassName member.name then
    addClass files member.name own

variable {files : FileTree} {before after : Catalog} {archive : Archive} {own : Bool}
  {front : List Archive.Listed} {member : Archive.Listed}

/-- Each way in which a member is added or is not. -/
theorem addMember_eq {number : Nat} {catalog : Catalog}
    (reads : (archive.entryOf number member).2.read files catalog.registry.archives =
      archive.readMember member.index) :
    addMember files archive number own member catalog =
      match catalog.registry.entries[member.name]? with
      | some current =>
          .error (.ofCause (.duplicateResource member.name (archive.entryOf number member).2.text
            current.text)) catalog
      | none =>
          let entered := catalog.enter member.name (archive.entryOf number member).2
          if isClassName member.name then
            match archive.classOf own member with
            | .error error => .error error entered
            | .ok object =>
                if catalog.registry.classes.contains object.file.name then
                  .error (.ofCause (.duplicateClass object.file.name)) entered
                else .ok () (entered.add object)
          else .ok () entered := by
  unfold addMember
  by_cases isClass : isClassName member.name = true
  · simp only [if_pos isClass]
    rw [addBoth_eq, reads, Archive.classOf]
    cases catalog.registry.entries[member.name]? with
    | some current => rfl
    | none =>
        cases archive.readMember member.index with
        | error error => rfl
        | ok bytes =>
            dsimp only
            cases ClassFile.parse bytes own member.name with
            | error error => rfl
            | ok parsed => rfl
  · simp only [if_neg isClass, bind_pure_unit]
    exact addResource_eq member.name (archive.entryOf number member).2 catalog

theorem addMember_of_none (files : FileTree) (gains : before.GainsMembers after archive own front)
    (admits : before.fault? archive own front member = none) :
    ∃ later, addMember files archive before.registry.archives.size own member after =
        .ok () later ∧ before.GainsMembers later archive own (front ++ [member]) := by
  have behind := gains.entry member.name
  unfold Catalog.fault? at admits
  rw [addMember_eq (gains.read files member), behind]
  cases free : before.entryWith? archive front member.name with
  | some current =>
      rw [free] at admits
      cases admits
  | none =>
      rw [free] at admits behind
      have entered := Gains.enter gains behind
        (archive.entryOf before.registry.archives.size member).2
      dsimp only at admits ⊢
      unfold GainsMembers
      rw [List.map_append]
      by_cases isClass : isClassName member.name = true
      · rw [if_pos isClass] at admits ⊢
        cases parsed : archive.classOf own member with
        | error error =>
            rw [parsed] at admits
            cases admits
        | ok object =>
            rw [parsed] at admits
            dsimp only at admits ⊢
            rw [gains.contains object.file.name]
            by_cases taken : before.namesWith archive own front object.file.name = true
            · rw [if_pos taken] at admits
              cases admits
            · rw [if_neg taken]
              refine ⟨_, rfl, ?_⟩
              have unnamed := not_contains_iff.mp (gains.contains object.file.name ▸ taken)
              rw [Archive.classesOf_snoc isClass parsed]
              exact entered.add unnamed
      · rw [if_neg isClass]
        rw [Archive.classesOf_snoc_other isClass]
        exact ⟨_, rfl, entered⟩

/-- A member that cannot be added leaves its key behind if the key was free. -/
theorem addMember_of_fault (files : FileTree)
    (gains : before.GainsMembers after archive own front) {error : Error}
    (faulty : before.fault? archive own front member = some error) :
    ∃ later, addMember files archive before.registry.archives.size own member after =
        .error error later ∧
      before.Gains later archive
        ((if before.entryWith? archive front member.name = none then front ++ [member]
          else front).map (archive.entryOf before.registry.archives.size))
        (archive.classesOf own front) := by
  have behind := gains.entry member.name
  unfold Catalog.fault? at faulty
  rw [addMember_eq (gains.read files member), behind]
  cases free : before.entryWith? archive front member.name with
  | some current =>
      rw [free] at faulty
      cases faulty
      refine ⟨after, rfl, ?_⟩
      rw [if_neg nofun]
      exact gains
  | none =>
      rw [free] at faulty behind
      have entered := Gains.enter gains behind
        (archive.entryOf before.registry.archives.size member).2
      dsimp only at faulty ⊢
      rw [if_pos rfl, List.map_append]
      by_cases isClass : isClassName member.name = true
      · rw [if_pos isClass] at faulty ⊢
        cases parsed : archive.classOf own member with
        | error reason =>
            rw [parsed] at faulty
            cases faulty
            exact ⟨_, rfl, entered⟩
        | ok object =>
            rw [parsed] at faulty
            dsimp only at faulty ⊢
            rw [gains.contains object.file.name]
            by_cases taken : before.namesWith archive own front object.file.name = true
            · rw [if_pos taken] at faulty ⊢
              cases faulty
              exact ⟨_, rfl, entered⟩
            · rw [if_neg taken] at faulty
              cases faulty
      · rw [if_neg isClass] at faulty
        cases faulty

theorem addMembers_cons (files : FileTree) (archive : Archive) (number : Nat) (own : Bool)
    (member : Archive.Listed) (rest : List Archive.Listed) :
    addMembers files number archive.path own (member :: rest) =
      if member.isUsable own then do
        addMember files archive number own member
        addMembers files number archive.path own rest
      else addMembers files number archive.path own rest := by
  rw [addMembers, addMember]
  dsimp only
  by_cases isClass : isClassName member.name = true
  · cases directory : member.isDirectory with
    | true => simp [Archive.Listed.isUsable, directory]
    | false => simp [Archive.Listed.isUsable, Archive.entryOf, directory, isClass]
  · cases directory : member.isDirectory with
    | true => simp [Archive.Listed.isUsable, directory]
    | false => simp [Archive.Listed.isUsable, Archive.entryOf, directory, isClass]

/-- Only the members that are usable matter. -/
theorem addMembers_filter (files : FileTree) (archive : Archive) (number : Nat) (own : Bool)
    (members : List Archive.Listed) :
    addMembers files number archive.path own (members.filter (·.isUsable own)) =
      addMembers files number archive.path own members := by
  induction members with
  | nil => rfl
  | cons member rest ih =>
      rw [addMembers_cons]
      by_cases usable : member.isUsable own = true
      · rw [List.filter_cons_of_pos usable, addMembers_cons, ih, if_pos usable]
      · rw [List.filter_cons_of_neg usable, ih, if_neg usable]

theorem addMembers_append (files : FileTree) (archive : Archive) (number : Nat) (own : Bool)
    (front back : List Archive.Listed) :
    addMembers files number archive.path own (front ++ back) = (do
      addMembers files number archive.path own front
      addMembers files number archive.path own back) := by
  induction front with
  | nil => rfl
  | cons member rest ih =>
      rw [List.cons_append, addMembers_cons, addMembers_cons, ih]
      split
      · rw [bind_assoc]
      · rfl

/-- Members that can be added are. -/
theorem addMembers_of_admits (files : FileTree) (before : Catalog) (archive : Archive)
    (own : Bool) (members : List Archive.Listed)
    (usable : ∀ member ∈ members, member.isUsable own = true)
    (admitted : before.Admits archive own members) :
    ∃ after, addMembers files before.registry.archives.size archive.path own members
        (before.withArchives (before.registry.archives.push archive)) = .ok () after ∧
      before.GainsMembers after archive own members := by
  -- From the end, since it is all members in front that decide whether one can be added.
  induction members using List.reverseRecOn with
  | nil => exact ⟨_, rfl, .opened before archive⟩
  | append_singleton members last ih =>
      obtain ⟨front, admits⟩ := Catalog.admits_append_singleton.mp admitted
      obtain ⟨between, ran, gains⟩ :=
        ih (fun member among => usable member (List.mem_append_left _ among)) front
      obtain ⟨after, added, more⟩ := addMember_of_none files gains admits
      refine ⟨after, ?_, more⟩
      rw [addMembers_append, bind_of_ok ran, addMembers_cons,
        if_pos (usable last (List.mem_append_right _ List.mem_cons_self)), bind_of_ok added]
      rfl

/-- The first member that cannot be added ends the scan. -/
theorem addMembers_of_fault (files : FileTree) (before : Catalog) (archive : Archive)
    (own : Bool) (front back : List Archive.Listed) (member : Archive.Listed) (error : Error)
    (usable : ∀ one ∈ front ++ member :: back, one.isUsable own = true)
    (admitted : before.Admits archive own front)
    (faulty : before.fault? archive own front member = some error) :
    ∃ after, addMembers files before.registry.archives.size archive.path own
        (front ++ member :: back)
        (before.withArchives (before.registry.archives.push archive)) = .error error after ∧
      before.Gains after archive
        ((if before.entryWith? archive front member.name = none then front ++ [member]
          else front).map (archive.entryOf before.registry.archives.size))
        (archive.classesOf own front) := by
  obtain ⟨between, ran, gains⟩ := addMembers_of_admits files before archive own front
    (fun one among => usable one (List.mem_append_left _ among)) admitted
  obtain ⟨after, stopped, more⟩ := addMember_of_fault files gains faulty
  refine ⟨after, ?_, more⟩
  rw [addMembers_append, bind_of_ok ran, addMembers_cons,
    if_pos (usable member (List.mem_append_right _ List.mem_cons_self))]
  change EStateM.bind _ _ between = _
  rw [EStateM.bind, stopped]

section Archive

variable {path : Path.Text} {keyed classed members : List Archive.Listed} {error : Error}

theorem scanArchive_of_ok (opened : Archive.openAt files path = .ok archive)
    (ran : addArchive files archive own before = .ok () after)
    (gains : before.Gains after archive
      (keyed.map (archive.entryOf before.registry.archives.size))
      (archive.classesOf own classed)) :
    ∃ later, scanArchive files path own before = .ok () later ∧
      before.GainsFrom later archive own keyed classed := by
  refine ⟨_, ?_, gains.closeUnused⟩
  rw [scanArchive_eq, opened]
  dsimp only [during]
  rw [ran]

theorem scanArchive_of_error (opened : Archive.openAt files path = .ok archive)
    (ran : addArchive files archive own before = .error error after)
    (gains : before.Gains after archive
      (keyed.map (archive.entryOf before.registry.archives.size))
      (archive.classesOf own classed)) :
    ∃ later, scanArchive files path own before =
        .error (error.within (.scanningArchive path)) later ∧
      before.GainsFrom later archive own keyed classed := by
  refine ⟨_, ?_, gains.closeUnused⟩
  rw [scanArchive_eq, opened]
  dsimp only [during]
  rw [ran]

theorem addArchive_of_members (files : FileTree) (own : Bool) (before : Catalog)
    (listed : archive.members = .ok members) :
    addArchive files archive own before =
      addMembers files before.registry.archives.size archive.path own
        (members.filter (·.isUsable own))
        (before.withArchives (before.registry.archives.push archive)) := by
  rw [addMembers_filter]
  change ((ofExcept archive.members >>= fun listed =>
    addMembers files before.registry.archives.size archive.path own listed : Scan Unit)
      (before.withArchives (before.registry.archives.push archive))) = _
  rw [listed]
  rfl

theorem addArchive_of_unlisted (files : FileTree) (own : Bool) (before : Catalog)
    (listed : archive.members = .error error) :
    addArchive files archive own before =
      .error error (before.withArchives (before.registry.archives.push archive)) := by
  change ((ofExcept archive.members >>= fun listed =>
    addMembers files before.registry.archives.size archive.path own listed : Scan Unit)
      (before.withArchives (before.registry.archives.push archive))) = _
  rw [listed]
  rfl

end Archive

/-- A scan of an archive that cannot be opened changes nothing, and one whose members cannot be
listed registers nothing. Else, of the members that are usable, either all can be added in order,
and are, or one is the first that cannot. Then the scan fails as that member does, with those in
front of it added, and of that member no more than its key, if the key was free. Whatever was
registered before stays as it was, and the classes are one's own if the archive is. -/
theorem scanArchive_adds_prefix (files : FileTree) (path : Path.Text) (own : Bool)
    (before : Catalog) :
    (files.isDirectory path = false →
      Path.extension? path = some "jar" ∨ Path.extension? path = some "zip" →
      scan files path own = scanArchive files path own) ∧
    (∀ error, Archive.openAt files path = .error error →
      scanArchive files path own before = .error error before) ∧
    ∀ archive, Archive.openAt files path = .ok archive →
      (∀ error, archive.members = .error error →
        ∃ after, scanArchive files path own before =
            .error (error.within (.scanningArchive path)) after ∧
          before.GainsFrom after archive own [] []) ∧
      ∀ members usable, archive.members = .ok members →
        usable = members.filter (·.isUsable own) →
        (before.Admits archive own usable →
          ∃ after, scanArchive files path own before = .ok () after ∧
            before.GainsFrom after archive own usable usable) ∧
        (∀ front member back error, usable = front ++ member :: back →
          before.Admits archive own front →
          before.fault? archive own front member = some error →
          ∃ after, scanArchive files path own before =
              .error (error.within (.scanningArchive path)) after ∧
            before.GainsFrom after archive own
              (if before.entryWith? archive front member.name = none then front ++ [member]
                else front) front) ∧
        (before.Admits archive own usable ∨
          ∃ front member back error, usable = front ++ member :: back ∧
            before.Admits archive own front ∧
            before.fault? archive own front member = some error) ∧
        ∀ object ∈ archive.classesOf own usable, object.file.own = own := by
  refine ⟨?_, ?_, ?_⟩
  · intro plain extended
    have named : ∃ key, Path.fileName? path = some key := by
      cases named : Path.fileName? path with
      | none => simp [Path.extension?, named] at extended
      | some key => exact ⟨key, rfl⟩
    obtain ⟨key, named⟩ := named
    rcases extended with extended | extended
    · simp [scan, scanFile, plain, named, extended]
    · simp [scan, scanFile, plain, named, extended]
  · intro error failed
    rw [scanArchive_eq, failed]
  · intro archive opened
    refine ⟨?_, ?_⟩
    · intro error unlisted
      exact scanArchive_of_error opened (addArchive_of_unlisted files own before unlisted)
        (.opened before archive)
    · rintro members usable listed rfl
      have added := addArchive_of_members files own before listed
      have allUsable : ∀ member ∈ members.filter (·.isUsable own), member.isUsable own = true :=
        fun member among => (List.mem_filter.mp among).2
      refine ⟨?_, ?_, before.admits_or_fault archive own _, fun object among =>
        (Archive.origin_of_classesOf among).1⟩
      · intro admitted
        obtain ⟨after, ran, gains⟩ :=
          addMembers_of_admits files before archive own _ allUsable admitted
        exact scanArchive_of_ok opened (added.trans ran) gains
      · intro front member back error split admitted faulty
        rw [split] at added allUsable
        obtain ⟨after, ran, gains⟩ :=
          addMembers_of_fault files before archive own front back member error allUsable admitted
            faulty
        exact scanArchive_of_error opened (added.trans ran) gains

/-- The member of the specimen is added to an empty registry, and not to one that has its key. -/
theorem scanArchive_adds_prefix_specimen : ∃ archive,
    Archive.openAt Session.archiveFiles "a.jar" = .ok archive ∧
    archive.members = .ok [⟨0, "n", false⟩] ∧
    (∃ after, scan Session.archiveFiles "a.jar" true ⟨Registry.empty none, #[]⟩ = .ok () after ∧
      after.registry.entries["n"]? = some (.member "a.jar" 0 0 "n")) ∧
    ∃ after, scan Session.archiveFiles "a.jar" true
        ((⟨Registry.empty none, #[]⟩ : Catalog).enter "n" (.file "x")) =
          .error ((Error.ofCause (.duplicateResource "n" "a.jar!/n" "x")).within
            (.scanningArchive "a.jar")) after ∧
      after.registry.entries["n"]? = some (.file "x") := by
  obtain ⟨archive, opened, path, listed⟩ := Session.exists_openAt_specimen
  have plain : isClassName "n" = false := by decide
  have usable : [⟨0, "n", false⟩] = List.filter (·.isUsable true)
      [(⟨0, "n", false⟩ : Archive.Listed)] := rfl
  obtain ⟨chosen, _, scanned⟩ := scanArchive_adds_prefix Session.archiveFiles "a.jar" true
    ⟨Registry.empty none, #[]⟩
  obtain ⟨_, _, takenScanned⟩ := scanArchive_adds_prefix Session.archiveFiles "a.jar" true
    ((⟨Registry.empty none, #[]⟩ : Catalog).enter "n" (.file "x"))
  rw [chosen (by decide) (Or.inl ((Path.extension?_eq_some_iff _ _).mpr (by decide)))]
  refine ⟨archive, opened, listed, ?_, ?_⟩
  · obtain ⟨added, _⟩ := (scanned archive opened).2 _ _ listed usable
    have free : (Catalog.entryWith? ⟨Registry.empty none, #[]⟩ archive [] "n") = none := by
      simp [Catalog.entryWith?, Registry.empty]
    have admits : Catalog.fault? ⟨Registry.empty none, #[]⟩ archive true [] ⟨0, "n", false⟩ =
        none := by
      simp [Catalog.fault?, free, plain]
    have admitted := Catalog.admits_append_singleton.mpr
      ⟨Catalog.admits_nil ⟨Registry.empty none, #[]⟩ archive true, admits⟩
    obtain ⟨after, ran, gains⟩ := added admitted
    refine ⟨after, ran, ?_⟩
    rw [gains.entries]
    simp [Registry.empty, Archive.entryOf, path]
  · obtain ⟨_, faults, _⟩ := (takenScanned archive opened).2 _ _ listed usable
    have taken : Catalog.entryWith? ((⟨Registry.empty none, #[]⟩ : Catalog).enter "n" (.file "x"))
        archive [] "n" = some (.file "x") := by
      simp [Catalog.entryWith?, Catalog.enter]
    obtain ⟨after, ran, gains⟩ := faults [] ⟨0, "n", false⟩ [] _ rfl
      (Catalog.admits_nil _ archive true) (by rw [Catalog.fault?, taken])
    refine ⟨after, ?_, ?_⟩
    · rw [ran]
      simp [Archive.entryOf, Entry.text, path]
    · rw [gains.entries]
      simp [Catalog.enter]

end Scan

end Classpath
