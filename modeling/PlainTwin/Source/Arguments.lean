import PlainTwin.Source.Type

namespace PlainTwin.Source

/-- What can be wrong with the arguments of an attribute. A flag tells that the text ended. -/
inductive ArgumentError where
  | bare (path : String)
  | assigned (path : String)
  | nestedMissing
  | nestedLiteral
  | nestedOther
  | notName (keyword : Option String) (atEnd : Bool)
  | noName (atEnd : Bool)
  | noComma
  | noBrackets (atEnd : Bool)
  deriving DecidableEq

namespace ArgumentError

def early (atEnd : Bool) (text : String) : String :=
  (if atEnd then "unexpected end of input, " else "") ++ text

def message : ArgumentError → String
  | bare p => "expected attribute arguments in parentheses: #[" ++ p ++ "(...)]"
  | assigned p => "expected parentheses: #[" ++ p ++ "(...)]"
  | nestedMissing => "unexpected end of input, expected nested attribute"
  | nestedLiteral => "unexpected literal in nested attribute, expected ident"
  | nestedOther => "unexpected token in nested attribute, expected ident"
  | notName none atEnd => early atEnd "expected identifier"
  | notName (some k) _ => "expected identifier, found keyword `" ++ k ++ "`"
  | noName atEnd => early atEnd "expected ident"
  | noComma => "expected `,`"
  | noBrackets atEnd => early atEnd "expected parentheses"

end ArgumentError

structure DerivedTrait where
  tokens : Tokens
  last : String

def ModulePath.derived (p : ModulePath) : DerivedTrait := ⟨p.tokens, p.names.getLast?.getD ""⟩

namespace Arguments

def nameAfter (ts : Tokens) : Except ArgumentError (String × Tokens) :=
  match ts with
  | .ident n :: rest => .ok (n, rest)
  | _ => .error (.noName ts.isEmpty)

def moreNames : Nat → Tokens → Except ArgumentError (List String × Tokens)
  | 0, ts => .ok ([], ts)
  | k + 1, ts =>
    if ts.startsOp "::" then do
      let (n, rest) ← nameAfter (ts.past 2)
      let (names, rest) ← moreNames k rest
      return (n :: names, rest)
    else .ok ([], ts)

def path (ts : Tokens) : Except ArgumentError (ModulePath × Tokens) :=
  let absolute := ts.startsOp "::"
  let ts := if absolute then ts.past 2 else ts
  match ts with
  | .ident n :: rest => do
    let (names, rest) ← moreNames rest.length rest
    return (⟨absolute, n :: names⟩, rest)
  | [] => .error .nestedMissing
  | ts => .error (if Rule.startsLiteral ts then .nestedLiteral else .nestedOther)

def separator (ts : Tokens) : Except ArgumentError Tokens :=
  if ts.isEmpty then .ok []
  else if ts.startsOp "," then .ok (ts.past 1)
  else .error .noComma

def pathsFor : Nat → Tokens → Except ArgumentError (List ModulePath)
  | 0, _ => .ok []
  | k + 1, ts => do
    let (p, rest) ← path ts
    let rest ← separator rest
    if rest.isEmpty then return [p] else return p :: (← pathsFor k rest)

def bracketedPaths (ts : Tokens) : Except ArgumentError (List ModulePath × Tokens) :=
  match ts with
  | .group .paren content :: rest => do
    return (← pathsFor (content.length + 1) content, rest)
  | ts => .error (.noBrackets ts.isEmpty)

def pathError : Nat → Tokens → ArgumentError
  | 0, _ => .notName none false
  | k + 1, ts =>
    let ts := if ts.startsOp "::" then ts.past 2 else ts
    match ts with
    | [] => .notName none true
    | .ident n :: rest =>
      if keywords.contains n && !Rule.pathWords.contains n then .notName (some n) false
      else if Tokens.startsOp "::" rest then pathError k rest
      else .notName none false
    | _ => .notName none false

def traitsFor : Nat → Tokens → Except ArgumentError (List DerivedTrait)
  | 0, _ => .ok []
  | k + 1, ts =>
    if ts.isEmpty then .ok []
    else match Rule.path (Rule.type) (Rule.bound Rule.type) ts with
      | some (p, rest) => do
        return ⟨p.tokens, p.pathEnd.name⟩ :: (← traitsFor k (← separator rest))
      | none => .error (pathError ts.length ts)

def traits (a : Attribute) : Except ArgumentError (List DerivedTrait) :=
  match a.args with
  | .bare => .error (.bare (Tokens.render a.path.tokens))
  | .value _ => .error (.assigned (Tokens.render a.path.tokens))
  | .list _ args => traitsFor (args.length + 1) args

end Arguments

end PlainTwin.Source
