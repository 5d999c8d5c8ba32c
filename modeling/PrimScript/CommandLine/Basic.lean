import PrimScript.CommandLine.Command
import PrimScript.Engine.Time
import PrimScript.Json.Printer
import PrimScript.Settings.Stored
import PrimScript.Syntax.Source

/-! The command line: what a command prints, given the files it reads and its lines of input. -/

namespace PrimScript.CommandLine

structure Outcome where
  code : Nat
  output : String
  errors : String
  deriving DecidableEq, Repr

inductive Failure
  | noScript (path : String) : Failure
  | noSettings : Failure
  | badSettings : Failure
  | script (e : ScriptError) : Failure
  | engine (e : EngineError) : Failure
  /-- The script has come to an error. -/
  | fatal : Failure

def noFile : String := "No such file or directory (os error 2)"

def Failure.message : Failure → String
  | .noScript path => s!"Internal error: Failed to read {path}: {noFile}"
  | .noSettings => s!"Config error: Failed to open config file: {noFile}"
  | .badSettings => "Config error: Failed to parse config: not a configuration"
  | .script e => s!"Parse error: {e.message}"
  | .engine e => s!"Runtime error: {e.message}"
  | .fatal => "Internal error: script stopped on a fatal error"

def chatLine (m : ChatMessage) : String :=
  let target := m.target.getD "?"
  match m.volume with
  | .text => s!"[text] {m.speaker}: {m.text}\n"
  | .direct => s!"[{m.channel.toInt}] {m.speaker} -> {target}: {m.text}\n"
  | _ => s!"[{m.channel.toInt}] {m.speaker}: {m.text}\n"

def diagnosticLine (d : Diagnostic) : String :=
  s!"{d.kind.severity} ({d.kind.name}): {d.message}\n"

def errorLine (f : Failure) : String := s!"Error: {f.message}\n"

structure Files where
  /-- The text of the file at a path. -/
  text? : String → Option String
  /-- The texts of the files in a folder, by their names. -/
  folder : String → NameMap String

def Files.script (files : Files) (path : String) : Except Failure Script :=
  match files.text? path with
  | none => .error (.noScript path)
  | some text => (Script.readOrLoad text).mapError .script

def Files.settings (files : Files) : Option String → Except Failure Settings
  | none => .ok default
  | some path =>
    match files.text? path with
    | none => .error .noSettings
    | some text =>
      match Settings.read? text with
      | some s => .ok s
      | none => .error .badSettings

def channel? (cs : List Char) : Option Int32 :=
  let (negative, digits) := Decimal.scanSign cs
  if digits = [] ∨ digits.any (!Decimal.isDigit ·) then none
  else
    let n : Int := Decimal.ofDigits 10 digits
    let n := if negative then -n else n
    if n < -2147483648 ∨ 2147483647 < n then none else some (Int32.ofInt n)

/-- The channel and the message of a line of input.  A line that does not start with a channel is
said on channel zero. -/
def spoken (line : List Char) : Int32 × String :=
  let line := Text.trim line
  let word := line.takeWhile (!Text.isBlank ·)
  match channel? word with
  | some channel => (channel, String.ofList (Text.trimStart (line.drop word.length)))
  | none => (0, String.ofList line)

def turns : Nat := 1000000

/-- Hears lines of input as the owner's chat, and runs what that leads to, until the script has come
to an error. -/
def hearLines : List String → Engine → Except Failure Unit × Engine
  | [], g => (.ok (), g)
  | line :: rest, g =>
    if Text.trim line.toList = [] then hearLines rest g
    else
      let (channel, message) := spoken line.toList
      let o := g.world.object
      match g.hear channel o.ownerName o.ownerKey message with
      | (.error e, g) => (.error (.engine e), g)
      | (.ok _, g) =>
        let g := g.settle turns
        if g.status = .failed then (.ok (), g) else hearLines rest g

def runStarted (o : RunOptions) (input : List String) (g : Engine) : Except Failure Unit × Engine :=
  let g := g.settle turns
  match hearLines (if o.interactive then input else []) g with
  | (.error e, g) => (.error e, g)
  | (.ok (), g) =>
    let g := match o.duration, o.interactive with
      | some seconds, _ =>
        g.runFor ((Span.ofSeconds? (if 0 < seconds then seconds else 0)).getD Span.limit) turns
      | none, true => g
      | none, false => g.runUntil (fun _ => false) none turns
    let g := g.stop
    (if g.status = .failed then .error .fatal else .ok (), g)

def runEngine (o : RunOptions) (input : List String) (g : Engine) : Except Failure Unit × Engine :=
  match g.start with
  | (.error e, g) => (.error (.engine e), g)
  | (.ok (), g) => runStarted o input g

def Outcome.fail (output errors : String) (f : Failure) : Outcome :=
  ⟨1, output, errors ++ errorLine f⟩

def Files.world (files : Files) (settings : Settings) : World :=
  .ofSettings settings (.plain ((settings.notecardFolder.map files.folder).getD []))

def run (o : RunOptions) (input : List String) (script : Script) (w : World) : Outcome :=
  let (result, g) := runEngine o input (.ofScript script w)
  let output := String.join (g.world.chat.toList.map chatLine)
  let errors :=
    if o.diagnostics then String.join (g.world.diagnostics.toList.map diagnosticLine) else ""
  match result with
  | .ok () => ⟨0, output, errors⟩
  | .error f => .fail output errors f

def summary (s : Script) : String :=
  s!"ok: {s.states.length} state(s), {s.functions.length} function(s), {s.globals.length} global(s)\n"

def Command.perform (files : Files) (input : List String) : Command → Outcome
  | .run path o =>
    match files.settings o.settings with
    | .error f => .fail "" "" f
    | .ok settings =>
      match files.script path with
      | .error f => .fail "" "" f
      | .ok script => CommandLine.run o input script (files.world settings)
  | .check path =>
    match files.script path with
    | .error f => .fail "" "" f
    | .ok script => ⟨0, summary script, ""⟩
  | .tree path =>
    match files.script path with
    | .error f => .fail "" "" f
    | .ok script => ⟨0, script.toJson.pretty ++ "\n", ""⟩

def usage : Outcome := ⟨2, "", "error: expected run, check or ast, and the path of a script\n"⟩

def perform (args : List String) (files : Files) (input : List String) : Outcome :=
  match Command.read? args with
  | some c => c.perform files input
  | none => usage

end PrimScript.CommandLine
