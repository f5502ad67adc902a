import PlainTwin.Tag
import PlainTwin.Text.CharSet
import PlainTwin.Text.Quoted

namespace PlainTwin

open Text

inductive TagError where
  | conflict (piece : String)
  | unknown (piece : String)
  | malformedLength (piece : String)
  | malformedValues (piece : String)
  deriving DecidableEq

def TagError.piece : TagError → String
  | conflict p | unknown p | malformedLength p | malformedValues p => p

def TagError.message : TagError → String
  | conflict p => "multiple option: " ++ quoted p ++ " conflicts with an earlier option"
  | unknown p => "unknown option: " ++ quoted p
  | malformedLength p => "malformed len: " ++ quoted p
  | malformedValues p => "malformed values: " ++ quoted p

namespace Tag

inductive StateWord where
  | required | nullish | defined | null | undefined
  deriving DecidableEq

def StateWord.ofText? (s : String) : Option StateWord :=
  if s = "required" then some required
  else if s = "nullish" then some nullish
  else if s = "def" then some defined
  else if s = "null" then some null
  else if s = "und" then some undefined
  else none

def StateWord.isShorthand : StateWord → Bool
  | required | nullish => true
  | _ => false

def StateWord.states : StateWord → StateSet
  | required => .required
  | nullish => .nullish
  | defined => { StateSet.empty with defined := true }
  | null => { StateSet.empty with null := true }
  | undefined => { StateSet.empty with undefined := true }

inductive Piece where
  | state (w : StateWord)
  | length (r : LengthRule)
  | values (r : ValuesRule)
  deriving DecidableEq

/-- What stands after `len`, when the piece is to be read as a length. -/
def lengthTail? (cs : List Char) : Option (List Char) :=
  match "len".toList.isPrefixOf? cs with
  | some [] => some []
  | some (c :: r) => if c = '=' ∨ c = '<' ∨ c = '>' then some (c :: r) else none
  | none => none

/-- The longest operator at the front, and what follows it. -/
def splitOp? : List Char → Option (LengthOp × List Char)
  | '=' :: '=' :: r => some (.eq, r)
  | '>' :: '=' :: r => some (.ge, r)
  | '<' :: '=' :: r => some (.le, r)
  | '<' :: r => some (.lt, r)
  | '>' :: r => some (.gt, r)
  | _ => none

def bound? (ds : List Char) : Option UInt64 :=
  let n := Nat.ofDigitChars 10 ds 0
  if ds ≠ [] ∧ ds.all Char.isDigit ∧ n < UInt64.size then some (.ofNat n) else none

def lengthRule? (tail : List Char) : Option LengthRule := do
  let (op, ds) ← splitOp? tail
  return ⟨op, ← bound? ds⟩

def valuesRule? (tail : List Char) : Option ValuesRule :=
  if tail = "nonnull".toList then some ⟨true⟩ else none

def Piece.read (cs : List Char) : Except TagError Piece :=
  let piece := String.ofList cs
  match StateWord.ofText? piece with
  | some w => .ok (.state w)
  | none =>
    match lengthTail? cs with
    | some tail =>
      match lengthRule? tail with
      | some r => .ok (.length r)
      | none => .error (.malformedLength piece)
    | none =>
      match "values:".toList.isPrefixOf? cs with
      | some tail =>
        match valuesRule? tail with
        | some r => .ok (.values r)
        | none => .error (.malformedValues piece)
      | none => .error (.unknown piece)

structure Draft where
  constraint : Constraint := {}
  shorthand : Bool := false
  deriving DecidableEq

/-- Adds a state word, unless it repeats a state or a shorthand meets any other word. -/
def Draft.addState? (d : Draft) (w : StateWord) : Option Draft :=
  let s := d.constraint.states.getD .empty
  if d.shorthand || (w.isShorthand && !s.isEmpty) || s.meets w.states then none
  else some ⟨{ d.constraint with states := some (s.union w.states) }, w.isShorthand⟩

def Draft.add? (d : Draft) : Piece → Option Draft
  | .state w => d.addState? w
  | .length r =>
    if d.constraint.length.isSome then none
    else some { d with constraint := { d.constraint with length := some r } }
  | .values r =>
    if d.constraint.values.isSome then none
    else some { d with constraint := { d.constraint with values := some r } }

def Draft.read (d : Draft) (cs : List Char) : Except TagError Draft := do
  let p ← Piece.read cs
  match d.add? p with
  | some d => .ok d
  | none => .error (.conflict (String.ofList cs))

end Tag

/-- Reads a tag. A blank tag says nothing; any other is a list of pieces between commas. -/
def Constraint.parse (tag : String) : Except TagError Constraint :=
  let cs := tag.toList
  if trim cs = [] then .ok {}
  else Tag.Draft.constraint <$> ((cs.splitOn ',').map trim).foldlM Tag.Draft.read {}

end PlainTwin
