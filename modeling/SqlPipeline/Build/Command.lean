import SqlPipeline.Build.Materialization

/-!
# Commands

Each command builds models of some materializations; the compile command takes all of them and
executes nothing.
-/

namespace SqlPipeline

/-- What a run is to do. -/
inductive Command where
  | run
  | build
  | seed
  | snapshot
  | test
  | compile
deriving DecidableEq, Repr

/-- A text that names no command. -/
structure UnknownCommand where
  text : String
deriving DecidableEq, Repr

/-- What is wrong, in words. -/
def UnknownCommand.message (unknown : UnknownCommand) : String :=
  "Unknown command: '" ++ unknown.text ++ "'"

namespace Command

/-- All commands. -/
def all : List Command := [run, build, seed, snapshot, test, compile]

/-- The name of a command. -/
def text : Command → String
  | run => "run"
  | build => "build"
  | seed => "seed"
  | snapshot => "snapshot"
  | test => "test"
  | compile => "compile"

/-- Whether a command can build models of a materialization. -/
def supports (command : Command) (materialization : Materialization) : Bool :=
  match command with
  | compile => true
  | build => materialization.isBuiltin
  | run => [.table, .view, .incremental, .ephemeral].contains materialization
  | seed => materialization = .seed
  | snapshot => materialization = .snapshot
  | test => materialization = .test

/-- Whether a command executes statements. -/
def executes : Command → Bool
  | compile => false
  | _ => true

/-- The command with a name, in any case and with blanks around it. -/
def parse (text : String) : Except UnknownCommand Command :=
  let name := Text.lowerAscii (Text.trim text)
  match all.find? fun command => command.text = name with
  | some command => .ok command
  | none => .error ⟨text⟩

end Command

end SqlPipeline
