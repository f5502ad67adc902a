import PlainTwin.Source.Rule

namespace PlainTwin.Source

def longOps : List (List Char) :=
  ["<<=", ">>=", "...", "..=", "&&", "||", "<<", ">>", "+=", "-=", "*=", "/=", "%=", "^=", "&=",
    "|=", "==", "!=", ">=", "<=", "..", "::", "->", "=>"].map String.toList

def opTail (ts : Tokens) : Nat :=
  (longOps.find? fun cs => Tokens.startsMarks cs ts).elim 0 (·.length - 1)

mutual

def Token.settle : Token → Token
  | .group d content => .group d (Tokens.settle 0 content)
  | t => t

/-- The tokens with only the marks of an operator joined. The number counts the marks that belong
to the operator before. -/
def Tokens.settle : Nat → Tokens → Tokens
  | _, [] => []
  | k, .mark c joined :: ts =>
    let k := if k = 0 then opTail (.mark c joined :: ts) else k - 1
    .mark c (k != 0) :: Tokens.settle k ts
  | _, t :: ts => t.settle :: Tokens.settle 0 ts

end

def openWords : List String :=
  ["if", "match", "loop", "while", "for", "unsafe", "async", "const", "move", "return", "break",
    "continue", "let", "static", "yield", "do", "try"]

def valueWords : List String := ["self", "Self", "super", "crate", "true", "false"]

/-- Whether operands and operators take turns, so that the tokens can be one value. The flag says
that an operand stands before them. -/
def isValueAfter : Bool → List Token → Bool
  | done, [] => done
  | false, .literal _ _ :: ts => isValueAfter true ts
  | false, .group _ _ :: ts => isValueAfter true ts
  | false, .lifetime _ :: _ => true
  | false, .ident n :: ts =>
    openWords.contains n ||
      if n == "mut" then isValueAfter false ts
      else (valueWords.contains n || !keywords.contains n) && isValueAfter true ts
  | false, .mark c _ :: ts =>
    "|<.:".toList.contains c || ("-!*&".toList.contains c && isValueAfter false ts)
  | true, .mark '?' _ :: ts => isValueAfter true ts
  | true, .mark '!' _ :: .group _ _ :: ts => isValueAfter true ts
  | true, .mark '.' true :: _ => true
  | true, .mark c _ :: ts => ".:+-*/%^&|<>=!".toList.contains c && isValueAfter false ts
  | true, .group _ _ :: ts => isValueAfter true ts
  | true, .ident n :: ts => n == "as" && isValueAfter false ts
  | true, _ => false

def isValue (ts : Tokens) : Bool := isValueAfter false ts

def Rule.value : Rule Tokens := fun ts =>
  if isValue ts then some (Tokens.settle 0 ts, []) else none

end PlainTwin.Source
