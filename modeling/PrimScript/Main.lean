import PrimScript.CommandLine.Basic

/-! The program: it reads the files that a command asks for, and prints what the command comes
to. -/

open PrimScript PrimScript.CommandLine

def readText? (path : String) : IO (Option String) := do
  try
    return some (← IO.FS.readFile path)
  catch _ => return none

def readFolder (path : String) : IO (NameMap String) := do
  try
    let mut files : NameMap String := []
    for entry in ← ((← IO.currentDir) / path).readDir do
      try
        files := files.insert entry.fileName (← IO.FS.readFile entry.path)
      catch _ => pure ()
    return files
  catch _ => return []

/-- The lines of the input up to its end. -/
partial def readLines (input : IO.FS.Stream) : IO (List String) := do
  let line ← input.getLine
  if line.isEmpty then return []
  return (Text.lines line.toList).map String.ofList ++ (← readLines input)

def main (args : List String) : IO UInt32 := do
  let command := Command.read? args
  let paths := match command with
    | some (.run script o) => script :: o.settings.toList
    | some (.check script) => [script]
    | some (.tree script) => [script]
    | none => []
  let texts ← paths.mapM fun path => return (path, ← readText? path)
  let input ← match command with
    | some (.run _ o) => if o.interactive then readLines (← IO.getStdin) else pure []
    | _ => pure []
  let text? (path : String) : Option String := (texts.find? (·.1 = path)).bind (·.2)
  let folder ← match command with
    | some (.run _ o) =>
      match ((o.settings.bind text?).bind Settings.read?).bind (·.notecardFolder) with
      | some path => readFolder path
      | none => pure []
    | _ => pure []
  let files : Files := ⟨text?, fun _ => folder⟩
  let outcome := perform args files input
  IO.print outcome.output
  IO.eprint outcome.errors
  return outcome.code.toUInt32
