import PlainTwin.Conversion

namespace PlainTwin

/-- Why arguments ask for nothing that can be done. Help is asked for, or shown because nothing
is. -/
inductive UsageError where
  | helpAsked
  | helpShown
  | missingArgument
  | invalidValue
  | unknownArgument
  | conflict
  | tooManyValues
  | unknownCommand
  | missingCommand
  deriving DecidableEq

def UsageError.exitCode : UsageError → Nat
  | helpAsked => 0
  | _ => 2

inductive Arity where
  | none | one | many
  deriving DecidableEq

inductive Setting where
  | verbose | help | input | outDir | suffix | noLayout | kind | elem
  deriving DecidableEq

namespace Setting

def long : Setting → String
  | verbose => "verbose"
  | help => "help"
  | input => "input"
  | outDir => "out-dir"
  | suffix => "suffix"
  | noLayout => "no-fmt"
  | kind => "kind"
  | elem => "elem"

def short? : Setting → Option Char
  | verbose => some 'v'
  | help => some 'h'
  | input => some 'i'
  | _ => none

def arity : Setting → Arity
  | verbose | help | noLayout => .none
  | input => .many
  | outDir | suffix | kind | elem => .one

end Setting

def Kind.ofText? (s : String) : Option Kind :=
  if s = "option" then some .option
  else if s = "und" then some .tri
  else if s = "elastic" then some .elastic
  else none

def Setting.accepts (o : Setting) (value : String) : Bool :=
  match o with
  | kind => (Kind.ofText? value).isSome
  | outDir => value ≠ ""
  | _ => true

/-- What can be given to a command: its settings, and a number of plain words. -/
structure Scope where
  settings : List Setting
  words : Nat

namespace Scope

def top : Scope := ⟨[.verbose, .help], 0⟩

def generate : Scope := ⟨[.verbose, .help, .input, .outDir, .suffix, .noLayout], 0⟩

def explain : Scope := ⟨[.verbose, .help, .kind, .elem], 1⟩

end Scope

/-- How an argument looks. A long name may carry a value behind an equals sign. -/
inductive Shape where
  | endOfSettings
  | long (name : String) (value : Option String)
  | short (cs : List Char)
  | word
  deriving DecidableEq

def Shape.of (arg : String) : Shape :=
  match arg.toList with
  | ['-', '-'] => endOfSettings
  | '-' :: '-' :: cs =>
    match cs.span (· != '=') with
    | (name, _ :: value) => long (String.ofList name) (some (String.ofList value))
    | (name, []) => long (String.ofList name) none
  | '-' :: c :: cs => short (c :: cs)
  | _ => word

end PlainTwin
