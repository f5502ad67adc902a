namespace PlainTwin

inductive Atom where
  | char (c : Char)
  | anyChar
  | anyRun
  | charClass (ranges : List (Char × Char)) (negated : Bool)
  deriving DecidableEq

namespace Atom

def admits : Atom → Char → Bool
  | char d, c => c == d
  | anyChar, _ => true
  | anyRun, _ => false
  | charClass rs negated, c => (rs.any fun (a, b) => a ≤ c && c ≤ b) != negated

def suffixes : List Char → List (List Char)
  | [] => [[]]
  | c :: cs => (c :: cs) :: suffixes cs

def covers : List Atom → List Char → Bool
  | [], cs => cs.isEmpty
  | anyRun :: atoms, cs => (suffixes cs).any (covers atoms)
  | _ :: _, [] => false
  | a :: atoms, c :: cs => a.admits c && covers atoms cs

def ranges : List Char → List (Char × Char)
  | [] => []
  | a :: '-' :: b :: cs => (a, b) :: ranges cs
  | c :: cs => (c, c) :: ranges cs

/-- Splits off a class up to the bracket that closes it. Its first character closes nothing. -/
def splitClass? : List Char → Option (List Char × List Char)
  | [] => none
  | c :: cs =>
    match cs.span (· != ']') with
    | (inner, _ :: rest) => some (c :: inner, rest)
    | (_, []) => none

def readUpTo : Nat → List Char → Option (List Atom)
  | _, [] => some []
  | 0, _ => none
  | n + 1, '?' :: cs => (readUpTo n cs).map (anyChar :: ·)
  | _ + 1, '*' :: '*' :: _ => none
  | n + 1, '*' :: cs => (readUpTo n cs).map (anyRun :: ·)
  | n + 1, '[' :: '!' :: cs => do
    let (inner, rest) ← splitClass? cs
    return charClass (ranges inner) true :: (← readUpTo n rest)
  | n + 1, '[' :: cs => do
    let (inner, rest) ← splitClass? cs
    return charClass (ranges inner) false :: (← readUpTo n rest)
  | n + 1, c :: cs => (readUpTo n cs).map (char c :: ·)

def ofChars? (cs : List Char) : Option (List Atom) := readUpTo cs.length cs

def isChar : Atom → Bool
  | char _ => true
  | _ => false

end Atom

inductive PartPattern where
  | name (text : String)
  | anyDepth
  | atoms (as : List Atom)
  deriving DecidableEq

namespace PartPattern

def ofChars? (cs : List Char) : Option PartPattern :=
  if cs = ['*', '*'] then some anyDepth
  else (Atom.ofChars? cs).map fun as =>
    if as.all Atom.isChar then name (String.ofList cs) else atoms as

def covers : PartPattern → String → Bool
  | name text, s => s == text
  | anyDepth, _ => false
  | atoms as, s => Atom.covers as s.toList

/-- A pattern has to begin with a dot itself to mean the entries that lead here and above. -/
def beginsWithDot : PartPattern → Bool
  | atoms (.char '.' :: _) => true
  | _ => false

end PartPattern

structure PathPattern where
  isAbsolute : Bool
  parts : List PartPattern
  dirsOnly : Bool

namespace PathPattern

/-- Whether an input is meant as a pattern. A brace makes it one, though it stands for itself
there. -/
def isMeant (text : String) : Bool :=
  text.toList.any fun c => c == '*' || c == '?' || c == '[' || c == '\x7b'

def ofText? (text : String) : Option PathPattern := do
  let isAbsolute := text.toList.head? == some '/'
  let dirsOnly := text.toList.getLast? == some '/'
  let pieces := (if isAbsolute then text.toList.tail else text.toList).splitOn '/'
  let parts ← (if dirsOnly then pieces.dropLast else pieces).mapM PartPattern.ofChars?
  return ⟨isAbsolute, parts, dirsOnly⟩

end PathPattern

end PlainTwin
