import PlainTwin.Command.Arguments

namespace PlainTwin

inductive Command where
  | generate (g : Generate)
  | explain (x : Explain)

structure Invocation where
  verbose : Bool
  command : Command

namespace Invocation

def commandNames : List String := ["gen", "explain", "help"]

/-- Help on a command is asked for by its name, which is the last word then. -/
def help : List String → UsageError
  | [] => .helpAsked
  | name :: rest =>
    if commandNames.contains name ∧ rest = [] then .helpAsked else .unknownCommand

def ofCommand (verbose : Bool) (name : String) (args : List String) :
    Except UsageError Invocation :=
  if name = "gen" then do
    let r ← Arguments.all .generate {} args
    return ⟨verbose || r.has .verbose, .generate (← r.generate)⟩
  else if name = "explain" then do
    let r ← Arguments.all .explain {} args
    return ⟨verbose || r.has .verbose, .explain (← r.explain)⟩
  else if name = "help" then .error (help args)
  else .error .unknownCommand

def ofNothing (r : Arguments) : UsageError :=
  if r.given = [] then .helpShown else .missingCommand

def afterSettings (r : Arguments) : List String → UsageError
  | [] => ofNothing r
  | w :: _ => if commandNames.contains w then .unknownArgument else .unknownCommand

def read (r : Arguments) : List String → Except UsageError Invocation
  | [] => .error (ofNothing r)
  | arg :: args =>
    match Shape.of arg with
    | .endOfSettings => .error (afterSettings r args)
    | .long name value => do read (← r.long .top name value) args
    | .short cs => do read (← r.shorts .top cs) args
    | .word => ofCommand (r.has .verbose) arg args

def ofArgs (args : List String) : Except UsageError Invocation := read {} args

end Invocation

def Command.run {m : Type → Type} [Monad m] [Files m] [Layout m] : Command → m Report
  | generate g => g.run
  | explain x => return x.run

end PlainTwin
