import PlainTwin.Command.Explain
import PlainTwin.Command.Generate
import PlainTwin.Command.Setting

namespace PlainTwin

/-- What was read of the arguments so far. The pending setting takes values until something else
settles it. -/
structure Arguments where
  given : List (Setting × List String) := []
  pending : Option (Setting × List String) := none
  words : List String := []

namespace Arguments

def has (r : Arguments) (o : Setting) : Bool := r.given.any (·.1 = o)

def add (r : Arguments) (o : Setting) (values : List String) : Except UsageError Arguments :=
  if o = .help then .error .helpAsked
  else if o.arity ≠ .none ∧ values = [] then .error .invalidValue
  else if o.arity ≠ .many ∧ r.has o then .error .conflict
  else if values.all o.accepts then .ok { r with given := r.given ++ [(o, values)] }
  else .error .invalidValue

def settle (r : Arguments) : Except UsageError Arguments :=
  match r.pending with
  | none => .ok r
  | some (o, values) => { r with pending := none }.add o values

def flag (r : Arguments) (o : Setting) : Except UsageError Arguments := do (← r.settle).add o []

def attached (r : Arguments) (o : Setting) (value : String) : Except UsageError Arguments := do
  (← r.settle).add o [value]

def await (r : Arguments) (o : Setting) : Except UsageError Arguments := do
  return { ← r.settle with pending := some (o, []) }

def long (s : Scope) (r : Arguments) (name : String) (value : Option String) :
    Except UsageError Arguments :=
  match s.settings.find? (·.long = name), value with
  | none, _ => .error .unknownArgument
  | some o, some v => if o.arity = .none then .error .tooManyValues else r.attached o v
  | some o, none => if o.arity = .none then r.flag o else r.await o

/-- Short names in one argument, up to the first that takes a value: the rest is its value. -/
def shorts (s : Scope) : Arguments → List Char → Except UsageError Arguments
  | r, [] => .ok r
  | r, c :: cs =>
    match s.settings.find? (·.short? = some c) with
    | none => .error .unknownArgument
    | some o =>
      if o.arity = .none then do shorts s (← r.flag o) cs
      else match cs with
        | [] => r.await o
        | '=' :: value => r.attached o (String.ofList value)
        | value => r.attached o (String.ofList value)

def word (s : Scope) (r : Arguments) (w : String) : Except UsageError Arguments :=
  if r.words.length < s.words then do
    let r ← r.settle
    return { r with words := r.words ++ [w] }
  else .error .unknownArgument

def wordOrValue (s : Scope) (r : Arguments) (w : String) : Except UsageError Arguments :=
  match r.pending with
  | some (o, values) =>
    if o.arity = .many ∨ values = [] then .ok { r with pending := some (o, values ++ [w]) }
    else r.word s w
  | none => r.word s w

def all (s : Scope) : Arguments → List String → Except UsageError Arguments
  | r, [] => r.settle
  | r, arg :: args =>
    match Shape.of arg with
    | .endOfSettings => do (← args.foldlM (word s) r).settle
    | .long name value => do all s (← r.long s name value) args
    | .short cs => do all s (← r.shorts s cs) args
    | .word => do all s (← r.wordOrValue s arg) args

def values (r : Arguments) (o : Setting) : List String :=
  r.given.flatMap fun (p, vs) => if p = o then vs else []

def value? (r : Arguments) (o : Setting) : Option String := (r.values o).head?

def generate (r : Arguments) : Except UsageError Generate :=
  match r.values .input with
  | [] => .error .missingArgument
  | inputs =>
    .ok ⟨inputs, (r.value? .outDir).map FilePath.mk, (r.value? .suffix).getD "_plain",
      r.has .noLayout⟩

def explain (r : Arguments) : Except UsageError Explain :=
  match r.words with
  | [] => .error .missingArgument
  | tag :: _ =>
    .ok ⟨((r.value? .kind).bind Kind.ofText?).getD .elastic, (r.value? .elem).getD "T", tag⟩

end Arguments

end PlainTwin
