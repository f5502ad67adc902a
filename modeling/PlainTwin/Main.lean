import PlainTwin.Command.Invocation

namespace PlainTwin

def FileError.ofError (e : IO.Error) : FileError :=
  match e with
  | .noFileOrDirectory .. => .missing
  | .alreadyExists .. => .present
  | .inappropriateType _ 21 _ => .isDirectory
  | .inappropriateType .. => .notDirectory
  | e => .other e.toString

def caught {α : Type} (act : IO α) : IO (Except FileError α) := do
  match ← act.toBaseIO with
  | .ok a => return .ok a
  | .error e => return .error (.ofError e)

def caughtBool (act : IO Bool) : IO Bool := do
  return (← caught act).toOption.getD false

instance : Files IO where
  read p := caught (IO.FS.readBinFile p.text)
  write p bytes := caught (IO.FS.writeBinFile p.text bytes)
  makeDir p := caught (IO.FS.createDir p.text)
  isPresent p := caughtBool do (← IO.FS.realPath p.text).pathExists
  isDir p := caughtBool do (← IO.FS.realPath p.text).isDir
  names p := caught do
    let entries ← (← IO.FS.realPath p.text).readDir
    return (entries.toList.map (·.fileName)).mergeSort

/-- No program for laying out text is started: it is written as it is generated. -/
instance : Layout IO where
  layOut? _ := return none

def UsageError.message : UsageError → String
  | helpAsked | helpShown => "usage: gen -i INPUT.. [--out-dir DIR] [--suffix TEXT] [--no-fmt]\n" ++
      "       explain [--kind option|und|elastic] [--elem TYPE] TAG"
  | missingArgument => "error: a required argument is missing"
  | invalidValue => "error: invalid value"
  | unknownArgument => "error: unexpected argument"
  | conflict => "error: an argument cannot be used multiple times"
  | tooManyValues => "error: unexpected value"
  | unknownCommand => "error: unrecognized subcommand"
  | missingCommand => "error: a subcommand is required"

end PlainTwin

open PlainTwin in
/-- Answers with 0 when all went well, 1 when the command failed, and 2 when it was not
understood. -/
def main (args : List String) : IO UInt32 := do
  match Invocation.ofArgs args with
  | .error e =>
    if e = .helpAsked then IO.println e.message else IO.eprintln e.message
    return e.exitCode.toUInt32
  | .ok i =>
    let report : Report ← i.command.run
    IO.print report.text
    match report.result with
    | .ok () => return 0
    | .error e =>
      IO.eprintln ("Error: " ++ e.message)
      return 1
