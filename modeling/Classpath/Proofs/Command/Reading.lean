import Classpath.Command.Arguments

/-!
Command lines with their options in front. Main statement: whatever options are given, a subcommand
behind them takes words that do not begin with a dash for its arguments.
-/

set_option autoImplicit false

namespace Classpath.Command

/-- In front of a subcommand. -/
def outer : Level := { subcommands := true, own := false, arguments := 0 }

/-- A word that is not taken for an option. -/
def IsPlain (word : String) : Prop := word.toList.head? ≠ some '-'

instance (word : String) : Decidable (IsPlain word) :=
  inferInstanceAs (Decidable (word.toList.head? ≠ some '-'))

/-- What is asked for with these options. -/
def Options.invoke (options : Options) (subcommand : Subcommand) : Invocation :=
  { subcommand
    paths := options.paths
    libraries := options.libraries
    logLevel := options.logLevel
    noWalk := options.noWalk }

/-- Words that are options and their values, and nothing else. -/
def OptionWords (front : List String) (options : Options) : Prop :=
  ∃ reading settled, Reading.words outer .begin front = .ok (reading, none) ∧
    reading.trailing = false ∧ reading.awaitsValue = false ∧ reading.settle = .ok settled ∧
    settled.options = options

namespace Reading

variable {level : Level} {reading next : Reading}

theorem words_append (front back : List String)
    (read : words level reading front = .ok (next, none)) :
    words level reading (front ++ back) = words level next back := by
  induction front generalizing reading with
  | nil =>
      cases read
      rfl
  | cons first rest ih =>
      rw [List.cons_append]
      rw [words] at read ⊢
      split at read
      · cases read
      · rename_i notSubcommand
        rw [if_neg notSubcommand]
        split at read
        · rename_i dashes
          rw [if_pos dashes]
          exact ih read
        · rename_i notDashes
          rw [if_neg notDashes]
          cases taken : reading.word level first with
          | error error =>
              rw [taken] at read
              cases read
          | ok between =>
              rw [taken] at read
              exact ih read

theorem words_subcommand {name : String} (opens : reading.trailing = false)
    (whole : reading.awaitsValue = false) (known : name ∈ subcommandNames) (rest : List String) :
    words outer reading (name :: rest) = .ok (reading, some (name, rest)) := by
  rw [words, if_pos]
  simp [outer, opens, whole, known]

/-- A plain word is an argument unless an option waits for it. -/
theorem word_plain {word : String} (plain : IsPlain word) (opens : reading.trailing = false)
    (nothing : reading.pending = none) (room : reading.arguments.length < level.arguments) :
    reading.word level word = .ok { reading with arguments := reading.arguments ++ [word] } := by
  have settled : reading.settle = .ok reading := by rw [settle, nothing]
  have argument : reading.argument level word =
      .ok { reading with arguments := reading.arguments ++ [word] } := by
    rw [Reading.argument, if_pos room, settled]
    rfl
  unfold Reading.word
  rw [if_neg (by simp [opens])]
  split
  · rename_i option dashes
    exact absurd (congrArg List.head? dashes) plain
  · rename_i letter letters dash
    exact absurd (congrArg List.head? dash) plain
  · split
    · rename_i option waits
      rw [nothing] at waits
      cases waits
    · exact argument

theorem words_plain (nested : level.subcommands = false) (opens : reading.trailing = false)
    (nothing : reading.pending = none) (words : List String) (plain : ∀ word ∈ words, IsPlain word)
    (room : reading.arguments.length + words.length ≤ level.arguments) :
    Reading.words level reading words =
      .ok ({ reading with arguments := reading.arguments ++ words }, none) := by
  induction words generalizing reading with
  | nil => simp [Reading.words]
  | cons first rest ih =>
      have firstPlain := plain first List.mem_cons_self
      have notDashes : ¬ (first = "--" ∧ ¬ reading.trailing = true) := by
        rintro ⟨rfl, _⟩
        exact firstPlain rfl
      rw [List.length_cons] at room
      rw [Reading.words, if_neg (by simp [nested]), if_neg notDashes,
        word_plain firstPlain opens nothing (by omega)]
      have later : Reading.words level
          { reading with arguments := reading.arguments ++ [first] } rest =
            .ok ({ reading with arguments := reading.arguments ++ [first] ++ rest }, none) :=
        ih opens nothing (fun word among => plain word (List.mem_cons_of_mem first among))
          (by simp only [List.length_append, List.length_singleton]; omega)
      rw [List.append_assoc] at later
      exact later

theorem plain_of_subcommand {name : String} (known : name ∈ subcommandNames) : IsPlain name := by
  revert name
  decide

theorem longParts_attached (name value : List Char) (whole : '=' ∉ name) :
    longParts (name ++ '=' :: value) = (String.ofList name, some (String.ofList value)) := by
  have passes : ∀ character ∈ name, decide (character ≠ '=') = true :=
    fun character among => decide_eq_true fun same => whole (same ▸ among)
  have taken : (name ++ '=' :: value).takeWhile (· ≠ '=') = name := by
    rw [List.takeWhile_append_of_pos passes, List.takeWhile_cons_of_neg (by simp),
      List.append_nil]
  simp only [longParts, taken, List.drop_left]

/-- An option by its long name, with its value in the same word. -/
theorem words_attached {name : List Char} {value : String} (whole : '=' ∉ name)
    (opens : reading.trailing = false)
    (taken : reading.long outer (String.ofList name) (some value) = .ok next)
    (rest : List String) :
    words outer reading (String.ofList ('-' :: '-' :: (name ++ '=' :: value.toList)) :: rest) =
      words outer next rest := by
  have dashed : ¬ IsPlain (String.ofList ('-' :: '-' :: (name ++ '=' :: value.toList))) := by
    simp [IsPlain]
  have more : String.ofList ('-' :: '-' :: (name ++ '=' :: value.toList)) ≠ "--" := by
    intro same
    have lists := congrArg String.toList same
    simp at lists
  rw [words, if_neg fun named => dashed (plain_of_subcommand named.2.2.2),
    if_neg fun dashes => more dashes.1, Reading.word, if_neg (by simp [opens]),
    String.toList_ofList]
  simp only [longParts_attached name value.toList whole, String.ofList_toList, taken]
  rfl

/-- A word for an option with its value. -/
def attached (name value : String) : String :=
  String.ofList ('-' :: '-' :: (name.toList ++ '=' :: value.toList))

/-- Values of one option, each in a word with its name; `given` are the options with the values of
that one. -/
theorem words_attachedEach {name : String} (whole : '=' ∉ name.toList)
    (given : List String → Options)
    (gives : ∀ before value, value ≠ "" →
      ({ Reading.begin with options := given before } : Reading).long outer name (some value) =
        .ok { Reading.begin with options := given (before ++ [value]) })
    (before values : List String) (filled : ∀ value ∈ values, value ≠ "") (rest : List String) :
    words outer { Reading.begin with options := given before }
        (values.map (attached name) ++ rest) =
      words outer { Reading.begin with options := given (before ++ values) } rest := by
  induction values generalizing before with
  | nil => rw [List.append_nil]; rfl
  | cons value values ih =>
      have taken := gives before value (filled value List.mem_cons_self)
      rw [← String.ofList_toList (s := name)] at taken
      rw [List.map_cons, List.cons_append, attached, words_attached whole rfl taken,
        ih _ fun later among => filled later (List.mem_cons_of_mem value among), List.append_assoc]
      rfl

theorem words_paths (paths : List String) (filled : ∀ path ∈ paths, path ≠ "")
    (options : Options) (rest : List String) :
    words outer { Reading.begin with options } (paths.map (attached "path") ++ rest) =
      words outer
        { Reading.begin with options := { options with paths := options.paths ++ paths } } rest := by
  apply words_attachedEach (by decide) (fun paths => { options with paths }) _ options.paths paths
    filled rest
  intro before value present
  simp only [long, begins, settle, give, present, begin]
  rfl

theorem words_libraries (libraries : List String) (filled : ∀ path ∈ libraries, path ≠ "")
    (options : Options) (rest : List String) :
    words outer { Reading.begin with options } (libraries.map (attached "lib") ++ rest) =
      words outer
        { Reading.begin with
          options := { options with libraries := options.libraries ++ libraries } } rest := by
  apply words_attachedEach (by decide) (fun libraries => { options with libraries }) _
    options.libraries libraries filled rest
  intro before value present
  simp only [long, begins, settle, give, present, begin]
  rfl

end Reading

/-- Every list of inputs can be given by options. -/
theorem optionWords_attached (paths libraries : List String) (filled : ∀ path ∈ paths, path ≠ "")
    (librariesFilled : ∀ path ∈ libraries, path ≠ "") :
    OptionWords
      (paths.map (Reading.attached "path") ++ libraries.map (Reading.attached "lib"))
      { Options.none with paths, libraries } := by
  have read := Reading.words_paths paths filled .none (libraries.map (Reading.attached "lib"))
  have librariesRead := Reading.words_libraries libraries librariesFilled
    { Options.none with paths } []
  rw [List.append_nil] at librariesRead
  exact ⟨_, _, read.trans librariesRead, rfl, rfl, rfl, rfl⟩

/-- A subcommand behind options, with plain words behind it. -/
theorem parse_of_optionWords {front : List String} {options : Options}
    (given : OptionWords front options) {name : String} (known : name ∈ subcommandNames)
    (other : name ≠ "help") (arguments : List String)
    (plain : ∀ argument ∈ arguments, IsPlain argument)
    (room : arguments.length ≤ (levelOf name).arguments) :
    parse (front ++ name :: arguments) =
      (Subcommand.ofArguments name false arguments).map options.invoke := by
  obtain ⟨reading, settled, read, opens, whole, settles, rfl⟩ := given
  have words : Reading.words outer .begin (front ++ name :: arguments) =
      .ok (reading, some (name, arguments)) := by
    rw [Reading.words_append front _ read, Reading.words_subcommand opens whole known]
  have nested : (levelOf name).subcommands = false := rfl
  have inner : Reading.words (levelOf name) .begin arguments =
      .ok ({ Reading.begin with arguments := arguments }, none) :=
    Reading.words_plain nested rfl rfl arguments plain (by simpa [Reading.begin] using room)
  change (Reading.words outer .begin (front ++ name :: arguments) >>= _) = _
  rw [words]
  simp only [bind, Except.bind]
  have innerSettles : ({ Reading.begin with arguments := arguments } : Reading).settle =
      .ok { Reading.begin with arguments := arguments } := rfl
  have notOwn : Reading.begin.options.own = false := rfl
  rw [inner]
  simp only [innerSettles, settles, notOwn]
  cases Subcommand.ofArguments name false arguments with
  | error error => rfl
  | ok subcommand => rfl

theorem parse_methods {front : List String} {options : Options}
    (given : OptionWords front options) {className : String} (plain : IsPlain className) :
    parse (front ++ ["methods", className]) = .ok (options.invoke (.methods className)) :=
  parse_of_optionWords given (by decide) (by decide) [className] (by simpa using plain)
    (Nat.le_refl 1)

theorem parse_bytecode {front : List String} {options : Options}
    (given : OptionWords front options) {className name descriptor : String}
    (plain : IsPlain className) (namePlain : IsPlain name) (descriptorPlain : IsPlain descriptor) :
    parse (front ++ ["bytecode", className, name, descriptor]) =
      .ok (options.invoke (.bytecode className name descriptor)) :=
  parse_of_optionWords given (by decide) (by decide) [className, name, descriptor]
    (by simp [plain, namePlain, descriptorPlain]) (Nat.le_refl 3)

end Classpath.Command
