import SqlPipeline.Build.Command

/-!
# Arguments of the command line

Options have a long name and mostly a letter; letters may be joined, and a value may follow an
equals sign or come next. An option of several values takes all arguments up to the next option.
Options for the whole program may stand before or after the name of the subcommand.
-/

namespace SqlPipeline.CommandLine

/-- How many values an option takes. -/
inductive Arity where
  | none
  | one
  /-- At least one, up to the next option. -/
  | many
deriving DecidableEq, Repr

/-- An option. -/
structure OptionSpec where
  long : String
  letter : Option Char
  arity : Arity
  /-- Whether the option may be given several times. -/
  repeatable : Bool
deriving DecidableEq, Repr

/-- Why the arguments ask for no action. -/
inductive Refusal where
  /-- The arguments break the rules. -/
  | rejected
  /-- A description of the arguments is asked for. -/
  | help
deriving DecidableEq, Repr

/-- The options that have been read, with their values. -/
abbrev Found := List (OptionSpec × List String)

/-- Options that every subcommand takes. -/
def globalOptions : List OptionSpec := [
  ⟨"project-dir", some 'p', .one, false⟩,
  ⟨"config", some 'c', .one, false⟩,
  ⟨"verbose", some 'v', .none, false⟩]

/-- Options that select models. -/
def selectionOptions : List OptionSpec := [
  ⟨"select", some 's', .many, true⟩,
  ⟨"exclude", none, .many, true⟩]

/-- Options of the subcommands that run something. -/
def runOptions : List OptionSpec := selectionOptions ++ [
  ⟨"threads", some 't', .one, false⟩,
  ⟨"fail-fast", some 'x', .none, false⟩,
  ⟨"writer", some 'w', .one, false⟩,
  ⟨"output", some 'o', .one, false⟩,
  ⟨"notify", none, .one, true⟩]

/-- Record an option with its values. -/
def addFound (found : Found) (spec : OptionSpec) (values : List String) :
    Except Refusal Found :=
  if !spec.repeatable && found.any (·.1.long = spec.long) then .error .rejected
  else .ok (found ++ [(spec, values)])

/-- Record the option that values have been collected for. -/
def settle (found : Found) : Option (OptionSpec × List String) → Except Refusal Found
  | none => .ok found
  | some (_, []) => .error .rejected
  | some (spec, values) => addFound found spec values

/-- What follows letters after a hyphen: nothing, or an option that waits for its values. -/
abbrev Waiting := Option (OptionSpec × List String)

/-- Read the letters after a hyphen. -/
def readLetters (specs : List OptionSpec) : List Char → Found → Except Refusal (Found × Waiting)
  | [], found => .ok (found, none)
  | letter :: rest, found =>
    match specs.find? (·.letter = some letter) with
    | none => .error (if letter = 'h' then .help else .rejected)
    | some spec =>
      match spec.arity, rest with
      | .none, _ => do
        let found ← addFound found spec []
        readLetters specs rest found
      | _, [] => .ok (found, some (spec, []))
      | _, '=' :: value => do .ok (← addFound found spec [String.ofList value], none)
      | _, value => do .ok (← addFound found spec [String.ofList value], none)

/-- Read a long name after two hyphens, with a value if it has an equals sign. -/
def readLong (specs : List OptionSpec) (text : List Char) (found : Found) :
    Except Refusal (Found × Waiting) :=
  let (name, value) := text.span (· ≠ '=')
  match specs.find? (·.long.toList = name) with
  | none => .error (if name = "help".toList ∧ value = [] then .help else .rejected)
  | some spec =>
    match spec.arity, value with
    | .none, [] => do .ok (← addFound found spec [], none)
    | .none, _ => .error .rejected
    | _, [] => .ok (found, some (spec, []))
    | _, _ :: value => do .ok (← addFound found spec [String.ofList value], none)

/-- Read options up to the name of a subcommand; the result is the options, and the subcommand with
the arguments after it if there is one. -/
def readOptions (specs : List OptionSpec) (subcommands : List String) :
    List String → Waiting → Found → Except Refusal (Found × Option (String × List String))
  | [], waiting, found => do .ok (← settle found waiting, none)
  | arg :: args, waiting, found =>
    match arg.toList with
    | ['-', '-'] =>
      if args.isEmpty then do .ok (← settle found waiting, none) else .error .rejected
    | '-' :: '-' :: text => do
      let found ← settle found waiting
      let (found, waiting) ← readLong specs text found
      readOptions specs subcommands args waiting found
    | '-' :: letter :: letters => do
      let found ← settle found waiting
      let (found, waiting) ← readLetters specs (letter :: letters) found
      readOptions specs subcommands args waiting found
    | _ =>
      match waiting with
      | some (spec, values) =>
        if spec.arity = .one then do
          let found ← addFound found spec [arg]
          readOptions specs subcommands args none found
        else readOptions specs subcommands args (some (spec, values ++ [arg])) found
      | none =>
        if subcommands.contains arg then .ok (found, some (arg, args))
        else if arg = "help" ∧ subcommands ≠ [] then .error .help
        else .error .rejected

/-- Which models take part. -/
structure Selection where
  select : List String
  exclude : List String
deriving DecidableEq, Repr

/-- The options of a run. -/
structure RunOptions where
  selection : Selection
  threads : Option Nat
  failFast : Bool
  writer : Option String
  output : Option String
  notify : List String
deriving DecidableEq, Repr

/-- What the program is to do. -/
inductive Action where
  | run (command : Command) (options : RunOptions)
  /-- List models. -/
  | list (selection : Selection)
  /-- List plugins. -/
  | plugins
deriving DecidableEq, Repr

/-- What the arguments ask for. -/
structure Invocation where
  projectDir : Option String
  config : Option String
  verbose : Bool
  action : Action
deriving DecidableEq, Repr

/-- All values of an option. -/
def valuesOf (found : Found) (long : String) : List String :=
  found.flatMap fun entry => if entry.1.long = long then entry.2 else []

/-- Whether an option has been given. -/
def isGiven (found : Found) (long : String) : Bool := found.any (·.1.long = long)

/-- A path that an option gives, which must not be empty. -/
def pathOf (found : Found) (long : String) : Except Refusal (Option String) :=
  match (valuesOf found long).head? with
  | none => .ok none
  | some path => if path.isEmpty then .error .rejected else .ok (some path)

/-- A number that an option gives. -/
def numberOf (found : Found) (long : String) : Except Refusal (Option Nat) :=
  match (valuesOf found long).head? with
  | none => .ok none
  | some text =>
    let digits := match text.toList with
      | '+' :: digits => digits
      | digits => digits
    let value := digits.foldl (fun value digit => 10 * value + (digit.toNat - 48)) 0
    if digits.isEmpty || !digits.all Char.isDigit || Nat.pow 2 64 ≤ value then .error .rejected
    else .ok (some value)

/-- Which models the options select. -/
def selectionOf (found : Found) : Selection := ⟨valuesOf found "select", valuesOf found "exclude"⟩

/-- The options of a run. -/
def runOptionsOf (found : Found) : Except Refusal RunOptions := do
  let threads ← numberOf found "threads"
  let output ← pathOf found "output"
  .ok {
    selection := selectionOf found
    threads
    failFast := isGiven found "fail-fast"
    writer := (valuesOf found "writer").head?
    output
    notify := valuesOf found "notify" }

/-- The options of a subcommand, and what it does. -/
def subcommand? (name : String) : Option (List OptionSpec × (Found → Except Refusal Action)) :=
  match Command.all.find? (·.text = name) with
  | some command => some (runOptions, fun found => (runOptionsOf found).map (.run command))
  | none =>
    match name with
    | "ls" => some (selectionOptions, fun found => .ok (.list (selectionOf found)))
    | "plugins" => some ([], fun _ => .ok .plugins)
    | _ => none

/-- The names of the subcommands. -/
def subcommandNames : List String := Command.all.map Command.text ++ ["ls", "plugins"]

/-- Read the arguments of the program. What is given for a subcommand counts before what is given in
front of it. -/
def readArguments (args : List String) : Except Refusal Invocation := do
  let (before, next) ← readOptions globalOptions subcommandNames args none []
  match next with
  | none => .error .rejected
  | some (name, args) =>
    match subcommand? name with
    | none => .error .rejected
    | some (specs, action) =>
      let (after, _) ← readOptions (globalOptions ++ specs) [] args none []
      let outerDir ← pathOf before "project-dir"
      let outerConfig ← pathOf before "config"
      let innerDir ← pathOf after "project-dir"
      let innerConfig ← pathOf after "config"
      let action ← action after
      .ok {
        projectDir := innerDir.or outerDir
        config := innerConfig.or outerConfig
        verbose := isGiven before "verbose" || isGiven after "verbose"
        action }

end SqlPipeline.CommandLine
