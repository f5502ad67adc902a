import PlainTwin.Source.Token
import PlainTwin.Text.CharSet

namespace PlainTwin.Source

open Text

namespace Lexer

/-- White space between tokens. The two marks of writing direction count as such. -/
def isGap (c : Char) : Bool := isBlank c || c == '\u200e' || c == '\u200f'

def restOfLine : List Char → List Char × List Char
  | [] => ([], [])
  | '\n' :: cs => ([], '\n' :: cs)
  | '\r' :: '\n' :: cs => ([], '\n' :: cs)
  | c :: cs => let (line, rest) := restOfLine cs; (c :: line, rest)

/-- The rest of a block comment inside `depth` others, without the mark that closes it. -/
def restOfBlock : Nat → List Char → Option (List Char × List Char)
  | _, [] => none
  | depth, '/' :: '*' :: cs => (restOfBlock (depth + 1) cs).map fun p => ('/' :: '*' :: p.1, p.2)
  | 0, '*' :: '/' :: cs => some ([], cs)
  | depth + 1, '*' :: '/' :: cs => (restOfBlock depth cs).map fun p => ('*' :: '/' :: p.1, p.2)
  | depth, c :: cs => (restOfBlock depth cs).map fun p => (c :: p.1, p.2)

def isDocLine : List Char → Bool
  | '/' :: '/' :: _ => false
  | '/' :: _ | '!' :: _ => true
  | _ => false

def isDocBlock : List Char → Bool
  | '*' :: '*' :: _ | '*' :: '/' :: _ => false
  | '*' :: _ | '!' :: _ => true
  | _ => false

def skip? : List Char → Option (List Char)
  | '/' :: '/' :: cs => if isDocLine cs then none else some (restOfLine cs).2
  | '/' :: '*' :: cs => if isDocBlock cs then none else (restOfBlock 0 cs).map Prod.snd
  | c :: cs => if isGap c then some cs else none
  | [] => none

def skipAll : Nat → List Char → List Char
  | 0, cs => cs
  | n + 1, cs => match skip? cs with
    | some rest => skipAll n rest
    | none => cs

/-- A doc comment: whether it documents what encloses it, its text, and what follows. -/
def doc? : List Char → Option (Bool × List Char × List Char)
  | '/' :: '/' :: '!' :: cs => some (true, restOfLine cs)
  | '/' :: '/' :: '/' :: cs => some (false, restOfLine cs)
  | '/' :: '*' :: '!' :: cs => (restOfBlock 0 cs).map (true, ·)
  | '/' :: '*' :: '*' :: cs => (restOfBlock 0 cs).map (false, ·)
  | _ => none

def hasLoneReturn : List Char → Bool
  | [] => false
  | '\r' :: '\n' :: cs => hasLoneReturn cs
  | '\r' :: _ => true
  | _ :: cs => hasLoneReturn cs

def docTokens (inner : Bool) (text : List Char) : Tokens :=
  op "#" ++ (if inner then op "!" else []) ++
    bracket (words ["doc"] ++ op "=" ++ [textLiteral (String.ofList text)])

def markChars : List Char := "~!@#$%^&*-=+|;:,<.>/?'".toList

def startsMark : List Char → Bool
  | '/' :: '/' :: _ | '/' :: '*' :: _ => false
  | c :: _ => markChars.contains c
  | [] => false

def plainName? : List Char → Option (List Char × List Char)
  | [] => none
  | c :: cs =>
    if isIdentStart c then some (c :: cs.takeWhile isIdentPart, cs.dropWhile isIdentPart) else none

/-- A name, or a raw name, which may be a keyword but not one that a path starts with. -/
def name? : List Char → Option (String × List Char)
  | 'r' :: '#' :: cs => do
    let (name, rest) ← plainName? cs
    let name := String.ofList name
    if ["_", "super", "self", "Self", "crate"].contains name then none
    else some ("r#" ++ name, rest)
  | cs => (plainName? cs).map fun p => (String.ofList p.1, p.2)

def suffix (cs : List Char) : List Char := ((plainName? cs).map Prod.snd).getD cs

def digitValue? (c : Char) : Option Nat :=
  if '0' ≤ c ∧ c ≤ '9' then some (c.toNat - 48)
  else if 'a' ≤ c ∧ c ≤ 'f' then some (c.toNat - 87)
  else if 'A' ≤ c ∧ c ≤ 'F' then some (c.toNat - 55)
  else none

def scalar? (n : Nat) : Option Char :=
  if n < 0xD800 ∨ (0xDFFF < n ∧ n < 0x110000) then some (Char.ofNat n) else none

/-- What the three kinds of quoted text allow: plain text, bytes, and text without NUL. -/
inductive Quoting where
  | text | bytes | terminated
  deriving DecidableEq

namespace Quoting

def allows : Quoting → Char → Bool
  | text, _ => true
  | bytes, c => c.toNat < 128
  | terminated, c => c != '\x00'

def allowsCode : Quoting → Nat → Bool
  | text, n => n < 128
  | bytes, _ => true
  | terminated, n => n != 0

def escape? (q : Quoting) : List Char → Option (Char × List Char)
  | 'x' :: a :: b :: cs => do
    let n := 16 * (← digitValue? a) + (← digitValue? b)
    if q.allowsCode n then some (Char.ofNat n, cs) else none
  | 'u' :: '\x7b' :: cs => do
    let isDigit := fun c => c == '_' || (digitValue? c).isSome
    let digits := (cs.takeWhile isDigit).filterMap digitValue?
    let '\x7d' :: rest := cs.dropWhile isDigit | none
    if q = .bytes ∨ cs.head? = some '_' ∨ digits.isEmpty ∨ 6 < digits.length then none
    else
      let c ← scalar? (digits.foldl (16 * · + ·) 0)
      if q.allows c then some (c, rest) else none
  | 'n' :: cs => some ('\n', cs)
  | 'r' :: cs => some ('\r', cs)
  | 't' :: cs => some ('\t', cs)
  | '0' :: cs => if q = .terminated then none else some ('\x00', cs)
  | c :: cs => if c = '\\' ∨ c = '\'' ∨ c = '"' then some (c, cs) else none
  | [] => none

def gap? : List Char → Option (List Char)
  | '\r' :: '\n' :: cs => gap? cs
  | '\r' :: _ | [] => none
  | c :: cs => if c = ' ' ∨ c = '\t' ∨ c = '\n' then gap? cs else some (c :: cs)

def body? (q : Quoting) : Nat → List Char → Option (List Char × List Char)
  | 0, _ => none
  | n + 1, cs => match cs with
    | '"' :: rest => some ([], rest)
    | '\r' :: '\n' :: rest => keep '\n' (q.body? n rest)
    | '\\' :: '\n' :: rest => (gap? rest).bind fun r => q.body? n r
    | '\\' :: '\r' :: rest => (gap? ('\r' :: rest)).bind fun r => q.body? n r
    | '\\' :: rest => do
      let (c, rest) ← q.escape? rest
      keep c (q.body? n rest)
    | c :: rest => if c = '\r' ∨ !q.allows c then none else keep c (q.body? n rest)
    | [] => none
where
  keep (c : Char) : Option (List Char × List Char) → Option (List Char × List Char) :=
    Option.map fun p => (c :: p.1, p.2)

def raw? (q : Quoting) (hashes : List Char) : List Char → Option (List Char × List Char)
  | [] => none
  | '\r' :: '\n' :: cs => (q.raw? hashes cs).map fun p => ('\r' :: '\n' :: p.1, p.2)
  | c :: cs =>
    if c = '"' ∧ hashes.isPrefixOf cs then some ([], cs.drop hashes.length)
    else if c = '\r' ∨ !q.allows c then none
    else (q.raw? hashes cs).map fun p => (c :: p.1, p.2)

def rawText? (q : Quoting) (cs : List Char) : Option (List Char × List Char) :=
  let hashes := cs.takeWhile (· == '#')
  match cs.dropWhile (· == '#') with
  | '"' :: rest => if 255 < hashes.length then none else q.raw? hashes rest
  | _ => none

def text? (q : Quoting) (cs : List Char) : Option (List Char × List Char) :=
  q.body? (cs.length + 1) cs

def char? (q : Quoting) (cs : List Char) : Option (List Char) := do
  let (_, rest) ← match cs with
    | '\\' :: cs => q.escape? cs
    | c :: cs => if q.allows c then some (c, cs) else none
    | [] => none
  match rest with
  | '\'' :: rest => some rest
  | _ => none

end Quoting

/-- What follows the exponent of a number. An exponent without digits is none. -/
def exponent? (otherwise : Option (List Char)) (signed valued : Bool) :
    List Char → Option (List Char)
  | [] => if valued then some [] else otherwise
  | c :: cs =>
    if c = '+' ∨ c = '-' then
      if valued then some (c :: cs)
      else if signed then otherwise
      else exponent? otherwise true valued cs
    else if c.isDigit then exponent? otherwise signed true cs
    else if c = '_' then exponent? otherwise signed valued cs
    else if valued then some (c :: cs)
    else otherwise

def isDigitOrLine (c : Char) : Bool := c.isDigit || c == '_'

/-- What follows a number with a point or an exponent. A point before a name or another point is
no part of a number. -/
def floatDigits? (cs : List Char) : Option (List Char) :=
  if !(cs.head?.any Char.isDigit) then none else
  match cs.dropWhile isDigitOrLine with
  | '.' :: rest =>
    if rest.head?.any fun c => c == '.' || isIdentStart c then none
    else
      let rest := rest.dropWhile isDigitOrLine
      match rest with
      | 'e' :: r | 'E' :: r => exponent? (some rest) false false r
      | _ => some rest
  | 'e' :: rest | 'E' :: rest => exponent? none false false rest
  | _ => none

def digits? (base : Nat) (seen : Bool) : List Char → Option (List Char)
  | [] => if seen then some [] else none
  | c :: cs =>
    if c = '_' then if !seen ∧ base = 10 then none else digits? base seen cs
    else match digitValue? c with
      | some d =>
        if d < base then digits? base true cs
        else if c.isDigit then none
        else if seen then some (c :: cs)
        else none
      | none => if seen then some (c :: cs) else none

def intDigits? : List Char → Option (List Char)
  | '0' :: 'x' :: cs => digits? 16 false cs
  | '0' :: 'o' :: cs => digits? 8 false cs
  | '0' :: 'b' :: cs => digits? 2 false cs
  | cs => digits? 10 false cs

def numberEnd? (cs : List Char) : Option (List Char) :=
  let rest := suffix cs
  if rest.head?.any isIdentPart then none else some rest

def literal? (cs : List Char) : Option (LiteralKind × List Char) :=
  quoted? cs <|>
  ((floatDigits? cs).bind numberEnd?).map (.float, ·) <|>
  ((intDigits? cs).bind numberEnd?).map (.int, ·)
where
  value (p : List Char × List Char) : LiteralKind × List Char :=
    (.text (String.ofList p.1), suffix p.2)
  quoted? : List Char → Option (LiteralKind × List Char)
    | '"' :: cs => (Quoting.text.text? cs).map value
    | 'r' :: cs => (Quoting.text.rawText? cs).map value
    | 'b' :: '"' :: cs => (Quoting.bytes.text? cs).map fun p => (.byteText, suffix p.2)
    | 'b' :: 'r' :: cs => (Quoting.bytes.rawText? cs).map fun p => (.byteText, suffix p.2)
    | 'c' :: '"' :: cs => (Quoting.terminated.text? cs).map fun p => (.cText, suffix p.2)
    | 'c' :: 'r' :: cs => (Quoting.terminated.rawText? cs).map fun p => (.cText, suffix p.2)
    | 'b' :: '\'' :: cs => (Quoting.bytes.char? cs).map fun r => (.byte, suffix r)
    | '\'' :: cs => (Quoting.text.char? cs).map fun r => (.char, suffix r)
    | _ => none

def opensLiteral (cs : List Char) : Bool :=
  ["r\"", "r#\"", "r##", "b\"", "b'", "br\"", "br#", "c\"", "cr\"", "cr#"].any
    fun s => s.toList.isPrefixOf cs

def lifetime? (cs : List Char) : Option (Token × List Char) := do
  let (name, rest) ← name? cs
  match rest with
  | '\'' :: _ => none
  | '#' :: _ => if "r#".toList.isPrefixOf cs then some (.lifetime name, rest) else none
  | _ => some (.lifetime name, rest)

def leaf? (cs : List Char) : Option (Token × List Char) :=
  match literal? cs with
  | some (kind, rest) =>
    some (.literal kind (String.ofList (cs.take (cs.length - rest.length))), rest)
  | none => match cs with
    | '\'' :: rest => lifetime? rest
    | c :: rest =>
      if startsMark cs then some (.mark c (startsMark rest), rest)
      else if opensLiteral cs then none
      else (name? cs).map fun p => (.ident p.1, p.2)
    | [] => none

def opened? : Char → Option Delimiter
  | '(' => some .paren
  | '[' => some .bracket
  | '\x7b' => some .brace
  | _ => none

def closed? : Char → Option Delimiter
  | ')' => some .paren
  | ']' => some .bracket
  | '\x7d' => some .brace
  | _ => none

/-- The tokens before each open bracket, and those since the last one, are kept in reverse. -/
def run : Nat → List (Delimiter × Tokens) → Tokens → List Char → Option Tokens
  | 0, _, _, _ => none
  | n + 1, groups, tokens, cs =>
    match skip? cs with
    | some rest => run n groups tokens rest
    | none => match doc? cs with
      | some (inner, text, rest) =>
        if hasLoneReturn text then none
        else run n groups ((docTokens inner text).reverse ++ tokens) rest
      | none => match cs with
        | [] => if groups.isEmpty then some tokens.reverse else none
        | c :: rest => match opened? c, closed? c, groups with
          | some d, _, _ => run n ((d, tokens) :: groups) [] rest
          | _, some d, (e, before) :: groups =>
            if d = e then run n groups (.group d tokens.reverse :: before) rest else none
          | _, some _, [] => none
          | _, _, _ => do
            let (t, rest) ← leaf? cs
            run n groups (t :: tokens) rest

def withoutByteOrderMark : List Char → List Char
  | '\ufeff' :: cs => cs
  | cs => cs

end Lexer

def Tokens.ofText? (text : String) : Option Tokens :=
  let cs := Lexer.withoutByteOrderMark text.toList
  Lexer.run (cs.length + 1) [] [] cs

end PlainTwin.Source
