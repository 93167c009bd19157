/-!
# Command-line arguments

An invocation is a command with its flags and values. Arguments are read from left to right, and the
first one that asks for help or is out of place decides; what is missing or in conflict is found at
the end.
-/
namespace TuffSafety.Command

inductive Flag where
  | verbose
  | noColour
  | help
  | version
  | ast
  | json
  | relaxed
  | strict
deriving DecidableEq, Repr

namespace Flag

def name : Flag → String
  | verbose => "verbose"
  | noColour => "no-color"
  | help => "help"
  | version => "version"
  | ast => "ast"
  | json => "json"
  | relaxed => "relaxed"
  | strict => "strict"

def letter? : Flag → Option Char
  | verbose => some 'v'
  | help => some 'h'
  | version => some 'V'
  | _ => none

/-- Whether the flag may be given more than once. -/
def repeatable (flag : Flag) : Bool :=
  flag = verbose

def summary : Flag → String
  | verbose => "Increase log verbosity"
  | noColour => "Disable colored output"
  | help => "Print help"
  | version => "Print version"
  | ast => "Treat the input as a JSON AST (implied by a .json extension)"
  | json => "Print the diagnostic as JSON on stdout"
  | relaxed => "Skip the safety proofs and match exhaustiveness"
  | strict => "Force strict safety even when tuff.json disables it"

end Flag

/-- The part of a command line that has flags and values of its own. -/
inductive Level where
  | top
  | check
  | explain
deriving DecidableEq, Repr

namespace Level

def flags : Level → List Flag
  | top => [.verbose, .noColour, .help, .version]
  | check => [.ast, .json, .relaxed, .strict, .verbose, .noColour, .help]
  | explain => [.verbose, .noColour, .help]

def usage : Level → String
  | top => "tuff [OPTIONS] <COMMAND>"
  | check => "tuff check [OPTIONS] <FILE>"
  | explain => "tuff explain [OPTIONS] [CODE]"

end Level

inductive Misuse where
  | unexpected (argument : String)
  | repeated (flag : Flag)
  | valueGiven (flag : Flag)
  | noCommand
  | unknownCommand (name : String)
  | noFile
  | emptyFile
  | conflict (first second : Flag)
deriving DecidableEq, Repr

namespace Misuse

def message : Misuse → String
  | unexpected argument => s!"unexpected argument '{argument}' found"
  | repeated flag => s!"the argument '--{flag.name}' cannot be used multiple times"
  | valueGiven flag => s!"unexpected value for '--{flag.name}' found"
  | noCommand => "a command is required"
  | unknownCommand name => s!"unrecognized command '{name}'"
  | noFile => "the argument '<FILE>' is required"
  | emptyFile => "a value is required for '<FILE>'"
  | conflict first second =>
    s!"the argument '--{first.name}' cannot be used with '--{second.name}'"

end Misuse

/-- Why reading the arguments ends before their end. -/
inductive Stop where
  | help (level : Level)
  | version
  | misuse (cause : Misuse)
deriving DecidableEq, Repr

structure Check where
  file : String
  ast : Bool := false
  json : Bool := false
  relaxed : Bool := false
  strict : Bool := false
deriving DecidableEq, Repr

inductive Job where
  | check (request : Check)
  | explain (code : Option String)
deriving DecidableEq, Repr

structure Invocation where
  job : Job
  colours : Bool := true
deriving DecidableEq, Repr

/-! ### Words -/

/-- One argument by its form. -/
inductive Word where
  /-- `--`, behind which every argument is a value. -/
  | escape
  /-- `--name` or `--name=value`. -/
  | long (name : String) (hasValue : Bool)
  /-- `-abc`. -/
  | short (letters : List Char)
  | value (text : String)
deriving DecidableEq, Repr

def Word.ofText (text : String) : Word :=
  match text.toList with
  | ['-', '-'] => .escape
  | '-' :: '-' :: rest =>
    .long (String.ofList (rest.takeWhile (· ≠ '='))) (rest.any (· = '='))
  | '-' :: letter :: rest => .short (letter :: rest)
  | _ => .value text

/-- The flags and values met so far at one level, both in order. -/
structure Given where
  flags : List Flag := []
  values : List String := []
deriving DecidableEq, Repr

namespace Given

def has (given : Given) (flag : Flag) : Bool :=
  given.flags.contains flag

def addFlag (level : Level) (given : Given) (flag : Flag) : Except Stop Given :=
  match flag with
  | .help => .error (.help level)
  | .version => .error .version
  | flag =>
    if given.has flag && !flag.repeatable then .error (.misuse (.repeated flag))
    else .ok { given with flags := given.flags ++ [flag] }

def addLong (level : Level) (given : Given) (name : String) (hasValue : Bool) : Except Stop Given :=
  match level.flags.find? fun flag => flag.name == name with
  | none => .error (.misuse (.unexpected ("--" ++ name)))
  | some flag =>
    if hasValue then .error (.misuse (.valueGiven flag)) else given.addFlag level flag

def addShort (level : Level) (given : Given) (letter : Char) : Except Stop Given :=
  match level.flags.find? fun flag => flag.letter? == some letter with
  | none => .error (.misuse (.unexpected (String.ofList ['-', letter])))
  | some flag => given.addFlag level flag

/-- A command takes one value; a file has a name that is not empty. -/
def addValue (level : Level) (given : Given) (text : String) : Except Stop Given :=
  if !given.values.isEmpty then .error (.misuse (.unexpected text))
  else if level = .check && text.isEmpty then .error (.misuse .emptyFile)
  else .ok { given with values := [text] }

end Given

/-- Reads the arguments of a command. -/
def gather (level : Level) : Given → List String → Except Stop Given
  | given, [] => .ok given
  | given, argument :: rest =>
    match Word.ofText argument with
    | .escape => rest.foldlM (Given.addValue level) given
    | .long name hasValue => do gather level (← given.addLong level name hasValue) rest
    | .short letters => do gather level (← letters.foldlM (Given.addShort level) given) rest
    | .value text => do gather level (← given.addValue level text) rest

/-! ### Invocations -/

def Check.ofGiven (given : Given) : Except Stop Check :=
  match given.values.head? with
  | none => .error (.misuse .noFile)
  | some file =>
    if given.has .relaxed && given.has .strict then .error (.misuse (.conflict .relaxed .strict))
    else .ok
      { file
        ast := given.has .ast
        json := given.has .json
        relaxed := given.has .relaxed
        strict := given.has .strict }

/-- The part of the command line that a command name stands for. -/
def Level.ofName? : String → Option Level
  | "check" => some .check
  | "explain" => some .explain
  | "help" => some .top
  | _ => none

/-- The help that the names behind `help` ask for; commands have none below them. -/
def helpOn : List String → Stop
  | [] => .help .top
  | name :: inner =>
    match Level.ofName? name, inner with
    | some level, [] => .help level
    | some _, name :: _ => .misuse (.unknownCommand name)
    | none, _ => .misuse (.unknownCommand name)

/-- The command of that name with its arguments, behind the flags of the top level. -/
def named (top : Given) (name : String) (arguments : List String) : Except Stop Invocation :=
  match name with
  | "check" => do
    let given ← gather .check {} arguments
    let request ← Check.ofGiven given
    .ok { job := .check request, colours := !(top.has .noColour || given.has .noColour) }
  | "explain" => do
    let given ← gather .explain {} arguments
    .ok { job := .explain given.values.head?, colours := !(top.has .noColour || given.has .noColour) }
  | "help" => .error (helpOn arguments)
  | name => .error (.misuse (.unknownCommand name))

/-- Reads the arguments in front of the command, and the command. -/
def invocation : Given → List String → Except Stop Invocation
  | _, [] => .error (.misuse .noCommand)
  | given, argument :: rest =>
    match Word.ofText argument with
    | .escape =>
      match rest with
      | [] => .error (.misuse .noCommand)
      | value :: _ => .error (.misuse (.unexpected value))
    | .long name hasValue => do invocation (← given.addLong .top name hasValue) rest
    | .short letters => do invocation (← letters.foldlM (Given.addShort .top) given) rest
    | .value name => named given name rest

def Invocation.ofArguments (arguments : List String) : Except Stop Invocation :=
  invocation {} arguments

end TuffSafety.Command
