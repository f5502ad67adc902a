import PlainTwin.Text.Quoted

namespace PlainTwin.Source

inductive Delimiter where
  | paren | bracket | brace
  deriving DecidableEq

/-- A text literal carries the text that it stands for. -/
inductive LiteralKind where
  | text (value : String)
  | byteText | cText | byte | char | int | float
  deriving DecidableEq

/-- A token of source text. A mark is joined when another mark follows it without a gap; groups
hold what stands between matching brackets. -/
inductive Token where
  | ident (name : String)
  | lifetime (name : String)
  | mark (c : Char) (joined : Bool)
  | literal (kind : LiteralKind) (text : String)
  | group (d : Delimiter) (content : List Token)

abbrev Tokens := List Token

namespace Token

def isJoined : Token → Bool
  | mark _ joined => joined
  | _ => false

def isMark (c : Char) : Token → Bool
  | mark d _ => c == d
  | _ => false

def isIdent (name : String) : Token → Bool
  | ident n => n == name
  | _ => false

def ident? : Token → Option String
  | ident n => some n
  | _ => none

end Token

def Delimiter.opening : Delimiter → String
  | paren => "("
  | bracket => "["
  | brace => "\x7b "

def Delimiter.closing : Delimiter → String
  | paren => ")"
  | bracket => "]"
  | brace => "\x7d"

mutual

def Token.render : Token → String
  | .ident name => name
  | .lifetime name => "'" ++ name
  | .mark c _ => c.toString
  | .literal _ text => text
  | .group d content =>
    let gap := if d = .brace ∧ !content.isEmpty then " " else ""
    d.opening ++ Tokens.render content ++ gap ++ d.closing

/-- One space between tokens, and none after a joined mark. -/
def Tokens.render : Tokens → String
  | [] => ""
  | [t] => t.render
  | t :: u :: ts => t.render ++ (if t.isJoined then "" else " ") ++ Tokens.render (u :: ts)

end

def marks : List Char → Tokens
  | [] => []
  | [c] => [.mark c false]
  | c :: cs => .mark c true :: marks cs

def op (s : String) : Tokens := marks s.toList

def words (names : List String) : Tokens := names.map .ident

def paren (content : Tokens) : Tokens := [.group .paren content]

def bracket (content : Tokens) : Tokens := [.group .bracket content]

def brace (content : Tokens) : Tokens := [.group .brace content]

def path (names : List String) : Tokens := names.flatMap fun n => op "::" ++ [.ident n]

def angled (args : Tokens) : Tokens := op "<" ++ args ++ op ">"

def separated (sep : Tokens) (items : List Tokens) : Tokens := sep.intercalate items

def textLiteral (s : String) : Token := .literal (.text s) (Text.quotedLiteral s)

def countLiteral (n : Nat) : Token := .literal .int (n.repr ++ "usize")

def flag (b : Bool) : Token := .ident (if b then "true" else "false")

end PlainTwin.Source
