import PrimScript.Decimal.Numeral
import PrimScript.Text.Search

/-! The commands of the command line.  Options may stand before or after the file they are about;
the value of an option is the next argument, or follows the option directly. -/

namespace PrimScript.CommandLine

structure RunOptions where
  /-- The path of the settings. -/
  settings : Option String
  /-- For how many seconds. -/
  duration : Option Float
  /-- Are lines of input heard as chat? -/
  interactive : Bool
  /-- Are diagnostics shown? -/
  diagnostics : Bool

inductive Command
  | run (script : String) (options : RunOptions) : Command
  | check (script : String) : Command
  | tree (script : String) : Command

inductive Flag
  | settings : Flag
  | duration : Flag
  | interactive : Flag
  | diagnostics : Flag
  | verbose : Flag
  deriving DecidableEq, Repr

namespace Flag

def takesValue : Flag → Bool
  | .settings => true
  | .duration => true
  | _ => false

def ofWord? : String → Option Flag
  | "config" => some .settings
  | "duration" => some .duration
  | "interactive" => some .interactive
  | "diagnostics" => some .diagnostics
  | "verbose" => some .verbose
  | _ => none

def ofLetter? : Char → Option Flag
  | 'c' => some .settings
  | 'd' => some .duration
  | 'i' => some .interactive
  | 'v' => some .verbose
  | _ => none

end Flag

namespace RunOptions

def none : RunOptions := ⟨.none, .none, false, false⟩

/-- The options with one more set, unless it is set already or its value is not of its form. -/
def set? (o : RunOptions) (flag : Flag) (value : List Char) : Option RunOptions :=
  match flag with
  | .settings =>
    if o.settings.isSome then .none else some { o with settings := some (String.ofList value) }
  | .duration =>
    if o.duration.isSome then .none
    else (Decimal.float? value).map fun seconds => { o with duration := some seconds }
  | .interactive => if o.interactive then .none else some { o with interactive := true }
  | .diagnostics => if o.diagnostics then .none else some { o with diagnostics := true }
  | .verbose => some o

def isNone (o : RunOptions) : Bool :=
  o.settings.isNone && o.duration.isNone && !o.interactive && !o.diagnostics

end RunOptions

abbrev Written := Flag × Option (List Char)

/-- Flags of one letter each, written together; what follows one that takes a value is that. -/
def readLetters : List Char → Option (List Written)
  | [] => some []
  | c :: rest => do
    let flag ← Flag.ofLetter? c
    if flag.takesValue then
      match rest with
      | [] => some [(flag, none)]
      | '=' :: value => some [(flag, some value)]
      | value => some [(flag, some value)]
    else return (flag, some []) :: (← readLetters rest)

def readWord (cs : List Char) : Option (List Written) := do
  let word := cs.takeWhile (· ≠ '=')
  let flag ← Flag.ofWord? (String.ofList word)
  match cs.drop word.length, flag.takesValue with
  | [], true => some [(flag, none)]
  | [], false => some [(flag, some [])]
  | _ :: value, true => some [(flag, some value)]
  | _ :: _, false => none

/-- The options with flags set, and the flag whose value is still to come. -/
def setAll (o : RunOptions) : List Written → Option (RunOptions × Option Flag)
  | [] => some (o, none)
  | (flag, none) :: _ => some (o, some flag)
  | (flag, some value) :: rest => do setAll (← o.set? flag value) rest

/-- Reads the arguments of a command.  `awaiting` is a flag whose value is to come, and after a
double dash there are no more flags. -/
def readArguments (script : Option String) (o : RunOptions) (dashes : Bool)
    (awaiting : Option Flag) : List String → Option (String × RunOptions)
  | [] => if awaiting.isSome then none else script.map (·, o)
  | arg :: rest =>
    let positional : Option (String × RunOptions) :=
      if script.isSome then none else readArguments (some arg) o dashes none rest
    match awaiting, arg.toList with
    | some _, '-' :: _ :: _ => none
    | some flag, value => do readArguments script (← o.set? flag value) dashes none rest
    | none, ['-', '-'] => if dashes then positional else readArguments script o true none rest
    | none, '-' :: c :: more =>
      if dashes then positional
      else do
        let flags ← if c = '-' then readWord more else readLetters (c :: more)
        let (o, awaiting) ← setAll o flags
        readArguments script o dashes awaiting rest
    | none, _ => positional

def Command.read? : List String → Option Command
  | [] => none
  | name :: rest =>
    if name = "-v" ∨ name = "--verbose" then Command.read? rest
    else do
      let (script, o) ← readArguments none .none false none rest
      match name with
      | "run" => some (.run script o)
      | "check" => if o.isNone then some (.check script) else none
      | "ast" => if o.isNone then some (.tree script) else none
      | _ => none

end PrimScript.CommandLine
