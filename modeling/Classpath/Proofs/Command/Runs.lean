import Classpath.Proofs.ClassFile.CodeExtent
import Classpath.Proofs.Command.Reading
import Classpath.Proofs.Command.ScanOrder
import Classpath.Proofs.Command.Shown
import Classpath.Proofs.Registry.Closing

/-!
Runs of the program. Main statement: what one run prints of a method is what another that lists the
methods of the class, over the same inputs, says of it.
-/

set_option autoImplicit false

namespace Classpath

namespace Catalog

variable {files : FileTree} {catalog : Catalog}

/-- Every registered class is what its source reads as, with the pool that was read with it. -/
def AllReadBack (files : FileTree) (catalog : Catalog) : Prop :=
  ∀ (name : String) (number : ClassNumber), catalog.registry.classes[name]? = some number →
    catalog.ReadsBack files number

theorem Grows.readsBack {own : Bool} {before after : Catalog}
    (grows : Grows files own before after) (kept : before.WellKept) {number : ClassNumber}
    (reads : before.ReadsBack files number) : after.ReadsBack files number := by
  induction grows with
  | refl => exact reads
  | tail front step ih => exact step.readsBack (Grows.wellKept front kept) ih

theorem AllReadBack.grows {own : Bool} {before after : Catalog} (all : before.AllReadBack files)
    (grows : Grows files own before after) (kept : before.WellKept) :
    after.AllReadBack files := by
  intro name number entered
  rcases Grows.classes_new grows kept name number entered with old | ⟨_, reads⟩
  · exact Grows.readsBack grows kept (all name number old)
  · exact reads

theorem AllReadBack.class? (all : catalog.AllReadBack files) {name : String} {object : ClassObject}
    (found : catalog.class? name = some object) :
    ∃ bytes pool, catalog.registry.readClassOf files object.file = .ok (some bytes) ∧
      ClassFile.parse bytes object.file.own object.file.source = .ok (object.file, pool) ∧
      object.pool = some pool := by
  obtain ⟨number, entered, there⟩ := (class?_eq_some_iff catalog name object).mp found
  obtain ⟨known, entry, bytes, pool, knownThere, sourced, read, parsed, pooled⟩ :=
    all name number entered
  have same : known = object := Option.some.inj (knownThere.symm.trans there)
  subst same
  exact ⟨bytes, pool, (Registry.readClassOf_eq_ok_iff _ _).mpr ⟨entry, sourced, read⟩, parsed,
    pooled⟩

end Catalog

/-- The code of a method of a class that was parsed from the bytes which are still its own. -/
theorem ClassObject.methodCode_of_parsed {files : FileTree} {registry : Registry}
    {object : ClassObject} {bytes : Bytes} {pool : Pool}
    (read : registry.readClassOf files object.file = .ok (some bytes))
    (parsed : ClassFile.parse bytes object.file.own object.file.source = .ok (object.file, pool))
    (pooled : object.pool = some pool) {name descriptor : String} {method : Method}
    (first : object.file.method? name descriptor = some method) {length : UInt32}
    (recorded : method.codeLength = some length) :
    ∃ (raw : RawClass) (tail : Bytes) (start : Nat), bytes = raw.encode ++ tail ∧
      raw.Describes object.file ∧ raw.codeStart? name descriptor = some start ∧
      BehindLength bytes start length ∧
      object.methodCode registry files method =
        if start + length.toNat ≤ bytes.length then
          .ok (some ((bytes.drop start).take length.toNat))
        else .error ⟨[.loadingBytecode object.file.name name descriptor],
          .bytesTruncated length.toNat (bytes.length - start)⟩ := by
  obtain ⟨raw, tail, resolves, describes, _, _, _, rfl, rfl⟩ :=
    (ClassFile.parse_eq_ok_iff _ _ _ _ _).mp parsed
  have goes := List.find?_some first
  simp only [decide_eq_true_eq] at goes
  have placed := raw.codeStart?_behindLength object.file resolves describes tail name descriptor
  rw [first, Option.bind_some, recorded] at placed
  obtain ⟨file, kept⟩ := object
  have loads := ClassObject.loadCode_eq_carvedAt raw resolves tail read (Or.inl pooled) name
    descriptor length.toNat
  generalize located : raw.codeStart? name descriptor = start? at placed loads
  cases placed with
  | @some start _ behind =>
      refine ⟨raw, tail, start, rfl, describes, located, behind, ?_⟩
      rw [ClassObject.methodCode, recorded, goes.1, goes.2]
      dsimp only
      rw [loads, ClassFile.carvedAt]
      split
      · rfl
      · rfl

namespace Command

variable {files : FileTree} {libraries logFilter : Option String}

theorem Settings.allReadBack_scanAll (inputs : List (Path.Text × Bool)) {catalog after : Catalog}
    (kept : catalog.WellKept) (all : catalog.AllReadBack files)
    (ran : scanAll files inputs catalog = .ok () after) : after.AllReadBack files := by
  induction inputs generalizing catalog with
  | nil =>
      cases ran
      exact all
  | cons input rest ih =>
      change EStateM.bind (Scan.scan files input.1 input.2) _ catalog = _ at ran
      unfold EStateM.bind at ran
      cases scanned : Scan.scan files input.1 input.2 catalog with
      | error error between =>
          rw [scanned] at ran
          cases ran
      | ok value between =>
          rw [scanned] at ran
          have grown := Scan.grows_of_ok (Scan.growing_scan files input.1 input.2 catalog kept)
            scanned
          exact ih (Catalog.Grows.wellKept grown kept) (all.grows grown kept) ran

theorem Settings.load_of_scanAll {settings : Settings} {catalog : Catalog}
    (ran : scanAll files settings.inputs (fresh settings.walker?) = .ok () catalog) :
    settings.load files = .ok catalog := by
  unfold fresh at ran
  rw [load, ran]

/-- Nothing in a registry of all inputs is other than what its source reads as. -/
theorem Settings.allReadBack_load {settings : Settings} {catalog : Catalog}
    (ran : settings.load files = .ok catalog) : catalog.AllReadBack files := by
  unfold load at ran
  split at ran
  · rename_i after scanned
    cases ran
    refine allReadBack_scanAll settings.inputs (wellKept_fresh _) ?_ scanned
    intro name number entered
    change (∅ : ClassMap)[name]? = some number at entered
    rw [Std.ExtTreeMap.getElem?_empty] at entered
    cases entered
  · cases ran

/-- The registry of all inputs that a command line and the environment name. -/
def loaded (files : FileTree) (invocation : Invocation) (libraries logFilter : Option String) :
    Except Error Catalog := do
  (← Settings.resolve invocation libraries logFilter).load files

theorem allReadBack_loaded {invocation : Invocation} {catalog : Catalog}
    (ran : loaded files invocation libraries logFilter = .ok catalog) :
    catalog.AllReadBack files := by
  unfold loaded at ran
  cases resolved : Settings.resolve invocation libraries logFilter with
  | error error =>
      rw [resolved] at ran
      cases ran
  | ok settings =>
      rw [resolved] at ran
      exact Settings.allReadBack_load ran

/-- Which subcommand it is makes no difference to the inputs. -/
theorem loaded_invoke (options : Options) (subcommand other : Subcommand) :
    loaded files (options.invoke subcommand) libraries logFilter =
      loaded files (options.invoke other) libraries logFilter := rfl

/-- Closing what is open does not fail, so that it is what the subcommand prints that counts. -/
theorem execute_eq (invocation : Invocation) :
    execute files invocation libraries logFilter = (do
      perform files (← loaded files invocation libraries logFilter) invocation.subcommand) := by
  unfold execute loaded
  cases Settings.resolve invocation libraries logFilter with
  | error error => rfl
  | ok settings =>
      simp only [bind, Except.bind]
      cases settings.load files with
      | error error => rfl
      | ok catalog =>
          simp only [Registry.close_eq]
          cases perform files catalog invocation.subcommand with
          | error error => rfl
          | ok output => rfl

section Ends

variable {line : List String} {invocation : Invocation}

theorem fails_of_execute (parsed : parse line = .ok invocation) {error : Error}
    (ran : execute files invocation libraries logFilter = .error error) :
    (run files line libraries logFilter).Fails := by
  rw [run, parsed]
  dsimp only
  rw [ran]
  exact ⟨rfl, rfl⟩

theorem prints_of_execute (parsed : parse line = .ok invocation) {output : Bytes}
    (ran : execute files invocation libraries logFilter = .ok output) :
    (run files line libraries logFilter).Prints output := by
  rw [run, parsed]
  dsimp only
  rw [ran]
  exact ⟨rfl, rfl⟩

theorem fails_of_loaded (parsed : parse line = .ok invocation) {error : Error}
    (ran : loaded files invocation libraries logFilter = .error error) :
    (run files line libraries logFilter).Fails :=
  fails_of_execute parsed (by rw [execute_eq, ran]; rfl)

theorem execute_of_loaded {catalog : Catalog}
    (ran : loaded files invocation libraries logFilter = .ok catalog) :
    execute files invocation libraries logFilter =
      perform files catalog invocation.subcommand := by
  rw [execute_eq, ran]
  rfl

end Ends

section Perform

variable {catalog : Catalog} {object : ClassObject} {className : String}

theorem findClass_eq (catalog : Catalog) (className : String) :
    findClass catalog className =
      match catalog.class? (internalName className) with
      | some object => .ok object
      | none => .error (.ofCause (.classNotFound className)) := rfl

theorem perform_methods_missing (missing : catalog.class? (internalName className) = none) :
    perform files catalog (.methods className) = .error (.ofCause (.classNotFound className)) := by
  rw [perform, findClass_eq, missing]
  rfl

theorem perform_bytecode_missing (missing : catalog.class? (internalName className) = none)
    (name descriptor : String) :
    perform files catalog (.bytecode className name descriptor) =
      .error (.ofCause (.classNotFound className)) := by
  rw [perform, findClass_eq, missing]
  rfl

theorem perform_methods (found : catalog.class? (internalName className) = some object) :
    perform files catalog (.methods className) =
      .ok (printed (.array (object.file.methods.map methodJson))) := by
  rw [perform, findClass_eq, found]
  rfl

theorem perform_bytecode (found : catalog.class? (internalName className) = some object)
    (name descriptor : String) :
    perform files catalog (.bytecode className name descriptor) =
      match object.file.method? name descriptor with
      | none => .error (.ofCause (.methodNotFound className name descriptor))
      | some method =>
          match object.methodCode catalog.registry files method with
          | .error error => .error error
          | .ok none => .error (.ofCause (.methodWithoutCode className name descriptor))
          | .ok (some code) =>
              .ok (printed (.ofCode object.file.name name descriptor code)) := by
  rw [perform, findClass_eq, found]
  simp only [bind, Except.bind]
  cases object.file.method? name descriptor with
  | none => rfl
  | some method =>
      dsimp only
      cases object.methodCode catalog.registry files method with
      | error error => rfl
      | ok code? =>
          cases code? with
          | none => rfl
          | some code => rfl

end Perform

/-- What a run shows of a method with a recorded length: as many bytes of the class from behind the
length in the first code attribute of the first method of the name and descriptor, as the layout of
the class has them, or nothing where there are not as many. -/
def ShowsCode (files : FileTree) (catalog : Catalog) (object : ClassObject)
    (name descriptor : String) (length : UInt32) (shown : Outcome) : Prop :=
  ∃ (bytes : Bytes) (raw : RawClass) (tail : Bytes) (start : Nat),
    catalog.registry.readClassOf files object.file = .ok (some bytes) ∧
    bytes = raw.encode ++ tail ∧ raw.Describes object.file ∧
    raw.codeStart? name descriptor = some start ∧ BehindLength bytes start length ∧
    if start + length.toNat ≤ bytes.length then
      ∃ code value, code = (bytes.drop start).take length.toNat ∧ code.length = length.toNat ∧
        Json.ShowsCodeOf object.file.name name descriptor code value ∧ shown.Shows value
    else shown.Fails

section Shows

variable {line : List String} {invocation : Invocation} {catalog : Catalog} {object : ClassObject}
  {className name descriptor : String}

/-- With a length recorded, it is the bytes that are left which decide. -/
theorem shows_length (parsed : parse line = .ok invocation)
    (asked : invocation.subcommand = .bytecode className name descriptor)
    (ran : loaded files invocation libraries logFilter = .ok catalog)
    (found : catalog.class? (internalName className) = some object) {method : Method}
    (first : object.file.method? name descriptor = some method) {length : UInt32}
    (recorded : method.codeLength = some length) :
    ShowsCode files catalog object name descriptor length
      (run files line libraries logFilter) := by
  -- What the list shows was parsed from the bytes that are still behind the class.
  obtain ⟨bytes, pool, read, own, pooled⟩ := (allReadBack_loaded ran).class? found
  obtain ⟨raw, tail, start, laid, describes, located, behind, code⟩ :=
    ClassObject.methodCode_of_parsed read own pooled first recorded
  have performed := execute_of_loaded ran
  rw [asked, perform_bytecode found, first] at performed
  dsimp only at performed
  rw [code] at performed
  refine ⟨bytes, raw, tail, start, read, laid, describes, located, behind, ?_⟩
  split
  · rename_i enough
    rw [if_pos enough] at performed
    have sized : ((bytes.drop start).take length.toNat).length = length.toNat := by
      rw [List.length_take, List.length_drop]
      omega
    exact ⟨_, _, rfl, sized, Json.showsCodeOf_ofCode _ _ _ _,
      Outcome.shows_of_prints (prints_of_execute parsed performed)⟩
  · rename_i short
    rw [if_neg short] at performed
    exact fails_of_execute parsed performed

/-- The run that prints code, by what the class that it finds records. -/
theorem shows_recorded (parsed : parse line = .ok invocation)
    (asked : invocation.subcommand = .bytecode className name descriptor)
    (ran : loaded files invocation libraries logFilter = .ok catalog)
    (found : catalog.class? (internalName className) = some object) :
    match (object.file.method? name descriptor).bind Method.codeLength with
    | none => (run files line libraries logFilter).Fails
    | some length => ShowsCode files catalog object name descriptor length
        (run files line libraries logFilter) := by
  have performed := execute_of_loaded ran
  rw [asked, perform_bytecode found] at performed
  cases first : object.file.method? name descriptor with
  | none =>
      rw [first] at performed
      exact fails_of_execute parsed performed
  | some method =>
      rw [first] at performed
      dsimp only at performed
      rw [Option.bind_some]
      cases recorded : method.codeLength with
      | none =>
          have codeless : object.methodCode catalog.registry files method = .ok none := by
            unfold ClassObject.methodCode
            rw [recorded]
          rw [codeless] at performed
          exact fails_of_execute parsed performed
      | some length => exact shows_length parsed asked ran found first recorded

end Shows

/-- Two runs that find no class both fail, and with one of them found its methods are listed. -/
theorem fails_or_lists {options : Options} {listing showing : List String}
    {className name descriptor : String}
    (listingParsed : parse listing = .ok (options.invoke (.methods className)))
    (showingParsed : parse showing = .ok (options.invoke (.bytecode className name descriptor))) :
    ((run files listing libraries logFilter).Fails ∧
      (run files showing libraries logFilter).Fails) ∨
    ∃ catalog object, loaded files (options.invoke (.methods className)) libraries logFilter =
        .ok catalog ∧
      catalog.class? (internalName className) = some object ∧
      (run files listing libraries logFilter).Prints
        (printed (.array (object.file.methods.map methodJson))) := by
  cases ran : loaded files (options.invoke (.methods className)) libraries logFilter with
  | error error =>
      exact .inl ⟨fails_of_loaded listingParsed ran, fails_of_loaded showingParsed ran⟩
  | ok catalog =>
      have listed := execute_of_loaded ran
      have shown := execute_of_loaded
        ((loaded_invoke options (.bytecode className name descriptor) _).trans ran)
      cases found : catalog.class? (internalName className) with
      | none =>
          exact .inl
            ⟨fails_of_execute listingParsed (listed.trans (perform_methods_missing found)),
              fails_of_execute showingParsed
                (shown.trans (perform_bytecode_missing found name descriptor))⟩
      | some object =>
          exact .inr ⟨catalog, object, rfl, found,
            prints_of_execute listingParsed (listed.trans (perform_methods found))⟩

/-- A row of a list of methods that has the name and the descriptor. -/
def Json.isRow (name descriptor : String) (row : Json) : Bool :=
  (row.member? "name").bind text? = some name ∧
    (row.member? "descriptor").bind text? = some descriptor

theorem Json.isRow_methodJson (name descriptor : String) (method : Method) :
    (methodJson method).isRow name descriptor = true ↔
      method.name = name ∧ method.descriptor = descriptor := by
  have row := isRowOf_methodJson method
  simp [isRow, row.name, row.descriptor, text?]

/-- The first row of a name and descriptor is that of the first such method. -/
theorem find?_methodJson (methods : List Method) (name descriptor : String) :
    (methods.map methodJson).find? (Json.isRow name descriptor) =
      (methods.find? fun method => method.name = name ∧ method.descriptor = descriptor).map
        methodJson := by
  rw [List.find?_map]
  congr 2
  funext method
  rw [Function.comp_apply, Bool.eq_iff_iff, Json.isRow_methodJson, decide_eq_true_iff]

theorem rowsOf_methodJson (methods : List Method) :
    List.Forall₂ Json.IsRowOf methods (methods.map methodJson) := by
  induction methods with
  | nil => exact .nil
  | cons method rest ih => exact .cons (Json.isRowOf_methodJson method) ih

/-- What the two runs say of one method: the length in the row of one is null and the other fails,
or the length is a number and the other shows as many bytes of code, if there are as many. -/
def RowAgrees (files : FileTree) (catalog : Catalog) (object : ClassObject)
    (name descriptor : String) (row : Json) (shown : Outcome) : Prop :=
  (row.member? "code_length" = some .null ∧ shown.Fails) ∨
    ∃ length : UInt32, row.member? "code_length" = some (.number length.toNat) ∧
      ShowsCode files catalog object name descriptor length shown

/-- Whatever options stand in front, the two subcommands are asked for as they are written. Of two
runs over the same inputs, where the one that lists the methods of a class fails, the one that prints
the code of a method fails too. Otherwise the list has a row for each method of the class, and tells
what the other prints: with no row of the name and descriptor it fails, and with the first such row
the two agree. -/
theorem bytecode_agrees_with_methods (files : FileTree) (libraries logFilter : Option String)
    (options : Options) (className name descriptor : String) :
    (∀ front, OptionWords front options → IsPlain className → IsPlain name →
      IsPlain descriptor →
      parse (front ++ ["methods", className]) = .ok (options.invoke (.methods className)) ∧
      parse (front ++ ["bytecode", className, name, descriptor]) =
        .ok (options.invoke (.bytecode className name descriptor))) ∧
    ∀ listing showing, parse listing = .ok (options.invoke (.methods className)) →
      parse showing = .ok (options.invoke (.bytecode className name descriptor)) →
      ((run files listing libraries logFilter).exitCode ≠ 0 →
        (run files listing libraries logFilter).Fails ∧
          (run files showing libraries logFilter).Fails) ∧
      ((run files listing libraries logFilter).exitCode = 0 → ∃ rows : List Json,
        (run files listing libraries logFilter).Shows (.array rows)) ∧
      ∀ rows : List Json, (run files listing libraries logFilter).Shows (.array rows) →
        ∃ catalog object,
          loaded files (options.invoke (.methods className)) libraries logFilter = .ok catalog ∧
          catalog.class? (internalName className) = some object ∧
          List.Forall₂ Json.IsRowOf object.file.methods rows ∧
          match rows.find? (Json.isRow name descriptor) with
          | none => (run files showing libraries logFilter).Fails
          | some row => RowAgrees files catalog object name descriptor row
              (run files showing libraries logFilter) := by
  refine ⟨fun front given plain namePlain descriptorPlain =>
    ⟨parse_methods given plain, parse_bytecode given plain namePlain descriptorPlain⟩, ?_⟩
  intro listing showing listingParsed showingParsed
  rcases fails_or_lists listingParsed showingParsed with
    ⟨listingFails, showingFails⟩ | ⟨catalog, object, ran, found, lists⟩
  · refine ⟨fun _ => ⟨listingFails, showingFails⟩, fun exits => ?_, fun rows shows => ?_⟩
    · exact absurd (listingFails.1.symm.trans exits) (by decide)
    · exact absurd (listingFails.1.symm.trans shows.exits) (by decide)
  · have listed := Outcome.shows_of_prints lists
    refine ⟨fun fails => absurd lists.1 fails, fun _ => ⟨_, listed⟩, fun rows shows => ?_⟩
    have same : rows = object.file.methods.map methodJson :=
      Json.array.inj (listed.unique _ shows.text)
    refine ⟨catalog, object, ran, found, same ▸ rowsOf_methodJson _, ?_⟩
    have shown := shows_recorded showingParsed rfl
      ((loaded_invoke options (.bytecode className name descriptor) _).trans ran) found
    rw [same, find?_methodJson]
    unfold ClassFile.method? at shown
    cases first : object.file.methods.find? fun method =>
        method.name = name ∧ method.descriptor = descriptor with
    | none =>
        rw [first] at shown
        exact shown
    | some method =>
        have row := (Json.isRowOf_methodJson method).codeLength
        rw [first, Option.bind_some] at shown
        cases recorded : method.codeLength with
        | none =>
            rw [recorded] at shown row
            exact .inl ⟨row, shown⟩
        | some length =>
            rw [recorded] at shown row
            exact .inr ⟨length, row, shown⟩

/-- One class file given as the only input. -/
def specimenOptions : Options := { Options.none with paths := ["A.class"] }

theorem loaded_specimen (subcommand : Subcommand) : ∃ catalog cls,
    ClassFile.parse RawClass.specimen.encode true "A.class" =
      .ok (cls, RawClass.specimen.pool.pool) ∧
    loaded RawClass.specimenFiles (specimenOptions.invoke subcommand) none none = .ok catalog ∧
    catalog.class? "A" = some ⟨cls, some RawClass.specimen.pool.pool⟩ ∧
    catalog.registry.readClassOf RawClass.specimenFiles cls =
      .ok (some RawClass.specimen.encode) := by
  obtain ⟨cls, parsed, named, sourced, scanned⟩ := Scan.scan_specimen (some FileTree.walk)
  let fresh := Settings.fresh (some FileTree.walk)
  have all : Settings.scanAll RawClass.specimenFiles [("A.class", true)] fresh =
      .ok () ((fresh.enter "A.class" (.file "A.class")).add
        ⟨cls, some RawClass.specimen.pool.pool⟩) :=
    Scan.bind_of_ok scanned
  have ran : loaded RawClass.specimenFiles (specimenOptions.invoke subcommand) none none =
      .ok ((fresh.enter "A.class" (.file "A.class")).add
        ⟨cls, some RawClass.specimen.pool.pool⟩) := by
    change Settings.load _ _ = _
    exact Settings.load_of_scanAll all
  have entered : ((∅ : ClassMap).insert cls.name 0)["A"]? = some 0 := by
    rw [named]
    exact Std.ExtTreeMap.getElem?_insert_self
  refine ⟨_, cls, parsed, ran, (Catalog.class?_eq_some_iff _ _ _).mpr ⟨0, entered, rfl⟩, ?_⟩
  exact ClassObject.readClassOf_filesWith _ sourced Std.ExtTreeMap.getElem?_insert_self

/-- The method of a class file given as the only input, and its one byte of code. -/
theorem bytecode_agrees_with_methods_specimen : ∃ (rows : List Json) (row value : Json),
    (run RawClass.specimenFiles ["--path=A.class", "methods", "A"] none none).Shows
      (.array rows) ∧
    rows.find? (Json.isRow "m" "()V") = some row ∧
    row.member? "code_length" = some (.number 1) ∧
    (run RawClass.specimenFiles ["--path=A.class", "bytecode", "A", "m", "()V"] none none).Shows
      value ∧
    value.member? "length" = some (.number 1) ∧ value.member? "code" = some (.string "b1") := by
  have given : OptionWords ["--path=A.class"] specimenOptions :=
    optionWords_attached ["A.class"] [] (by decide) (by decide)
  obtain ⟨parses, agrees⟩ := bytecode_agrees_with_methods RawClass.specimenFiles none none
    specimenOptions "A" "m" "()V"
  obtain ⟨listingParsed, showingParsed⟩ := parses _ given (by decide) (by decide) (by decide)
  obtain ⟨_, _, agree⟩ := agrees _ _ listingParsed showingParsed
  obtain ⟨catalog, cls, parsed, ran, found, read⟩ := loaded_specimen (.methods "A")
  obtain ⟨_, parsedAgain, describes, _⟩ := ClassFile.exists_parse_specimen
  cases parsed.symm.trans parsedAgain
  have internal : internalName "A" = "A" := by decide
  rw [← internal] at found
  have lists := Outcome.shows_of_prints (prints_of_execute listingParsed
    ((execute_of_loaded ran).trans (perform_methods found)))
  obtain ⟨-, ofName, ofShape⟩ := RawClass.specimen_called
  obtain ⟨method, first, recorded⟩ := ClassObject.exists_onlyMethod describes rfl ofName ofShape
  have one : method.codeLength = some 1 := by
    rw [recorded]
    decide +kernel
  have row := (Json.isRowOf_methodJson method).codeLength
  rw [one] at row
  have firstRow := find?_methodJson cls.methods "m" "()V"
  rw [ClassFile.method?] at first
  rw [first, Option.map_some] at firstRow
  obtain ⟨_, _, ranAgain, foundAgain, _, shown⟩ := agree _ lists
  cases ran.symm.trans ranAgain
  cases found.symm.trans foundAgain
  rw [firstRow] at shown
  rcases shown with ⟨null, _⟩ | ⟨length, known, shownCode⟩
  · cases row.symm.trans null
  obtain rfl : length = 1 :=
    UInt32.toNat_inj.mp (Json.number.inj (Option.some.inj (known.symm.trans row)))
  obtain ⟨bytes, raw, tail, start, readAgain, laid, _, located, _, code⟩ := shownCode
  cases read.symm.trans readAgain
  obtain ⟨rfl, _⟩ := PrefixFree.rawClass RawClass.specimen raw [] tail
    (by rw [List.append_nil, laid])
  obtain ⟨placed, sized, byte⟩ := RawClass.specimen_carved
  cases placed.symm.trans located
  have enough : 109 + 1 ≤ RawClass.specimen.encode.length := by omega
  rw [UInt32.toNat_one, if_pos enough] at code
  obtain ⟨_, value, rfl, _, holds, shows⟩ := code
  rw [byte] at holds
  obtain ⟨digits, spelled, _, stands⟩ := holds.code
  have text : digits = "b1" := by
    apply String.toList_injective
    rw [(unhex?_eq_some_iff _ _).mp stands]
    decide
  exact ⟨_, _, value, lists, firstRow, row, shows, holds.length, text ▸ spelled⟩

end Command

end Classpath
