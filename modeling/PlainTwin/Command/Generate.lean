import PlainTwin.Command.Report
import PlainTwin.Files.Search
import PlainTwin.Files.Tree
import PlainTwin.Twin.File

namespace PlainTwin

class Layout (m : Type → Type) where
  layOut? : String → m (Option String)

instance : Layout (StateM Tree) where
  layOut? _ := return none

inductive InputError where
  | unreadable (input : FilePath) (e : FileError)
  | notText (input : FilePath)
  | malformed
  | unwritable (output : FilePath) (e : FileError)
  deriving DecidableEq

def InputError.message : InputError → String
  | unreadable p e => "failed to read source file " ++ p.text ++ ": " ++ e.message
  | notText p => "failed to read source file " ++ p.text ++ ": stream did not contain valid UTF-8"
  | malformed => "syntax: malformed source file"
  | unwritable p e => "failed to write " ++ p.text ++ ": " ++ e.message

inductive Outcome where
  | written (output : FilePath) (structs : List String) (errors : List GenerateError)
  | nothing (errors : List GenerateError)
  | skipped
  | failed (e : InputError)
  deriving DecidableEq

namespace Outcome

def errors : Outcome → List GenerateError
  | written _ _ es | nothing es => es
  | _ => []

def failures : Outcome → Nat
  | failed _ => 1
  | o => o.errors.length

def headLine? (input : FilePath) : Outcome → Option String
  | written output structs _ =>
    some ("ok " ++ input.text ++ " → " ++ output.text ++ " (" ++ ", ".intercalate structs ++ ")")
  | nothing [] => some ("-- " ++ input.text ++ ": no tagged structs")
  | failed e => some ("error " ++ input.text ++ ": " ++ e.message)
  | _ => none

def lines (input : FilePath) (o : Outcome) : List String :=
  (o.headLine? input).toList ++
    o.errors.map fun e => "error " ++ input.text ++ ": " ++ e.message

end Outcome

structure Generate where
  inputs : List String
  outDir : Option FilePath := none
  suffix : String := "_plain"
  noLayout : Bool := false

namespace Generate

variable {m : Type → Type} [Monad m] [Files m]

/-- The output stands next to its input, or in the directory for outputs. -/
def output (g : Generate) (input : FilePath) : FilePath :=
  let name := (input.name?.map FilePath.stemOf).getD "" ++ g.suffix ++ ".rs"
  match g.outDir with
  | some dir => dir.join ⟨name⟩
  | none => input.withName name

def resolveInput (input : String) : ExceptT CommandError m (List FilePath) := do
  if !PathPattern.isMeant input then return [⟨input⟩]
  match PathPattern.ofText? input with
  | none => throw .unresolved
  | some p =>
    match ← ExceptT.lift (Search.run (m := m) p) with
    | .error _ => throw .unresolved
    | .ok [] => throw (.unmatched input)
    | .ok paths => return paths

/-- All inputs are found before anything is made. -/
def prepare (g : Generate) : ExceptT CommandError m (List FilePath) := do
  let found ← g.inputs.mapM resolveInput
  match g.outDir with
  | some dir => ExceptT.mk (return (← Files.makeDirs dir).mapError (.noDirectory dir))
  | none => pure ()
  return found.flatten

def source (input : FilePath) : m (Except InputError String) := do
  match ← Files.read input with
  | .error e => return .error (.unreadable input e)
  | .ok bytes =>
    match String.fromUTF8? bytes with
    | none => return .error (.notText input)
    | some text => return .ok text

variable [Layout m]

def laidOut (g : Generate) (text : String) : m String :=
  if g.noLayout then return text else return (← Layout.layOut? text).getD text

def process (g : Generate) (input : FilePath) : m Outcome := do
  match ← source input with
  | .error e => return .failed e
  | .ok text =>
    match Generated.ofText? text with
    | none => return .failed .malformed
    | some made =>
      if made.skipped then return .skipped
      else if made.isEmpty then return .nothing made.errors
      else
        let output := g.output input
        match ← Files.write output (← g.laidOut made.render).toUTF8 with
        | .error e => return .failed (.unwritable output e)
        | .ok () => return .written output made.structs made.errors

def report (outcomes : List (FilePath × Outcome)) : Report :=
  let n := outcomes.foldl (fun n (_, o) => n + o.failures) 0
  ⟨outcomes.flatMap fun (input, o) => o.lines input, if n = 0 then .ok () else .error (.failures n)⟩

def run (g : Generate) : m Report := do
  match ← g.prepare.run with
  | .error e => return .fail e
  | .ok inputs => return report (← inputs.mapM fun input => return (input, ← g.process input))

end Generate

end PlainTwin
