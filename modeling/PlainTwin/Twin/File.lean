import PlainTwin.Twin.Emission

namespace PlainTwin

open Source

inductive GenerateError where
  | marking (e : AttributeError)
  | plan (e : PlanError)
  deriving DecidableEq

def GenerateError.message : GenerateError → String
  | marking e => "syntax: " ++ e.message
  | plan e => e.message

def RichStruct.isExcluded (s : RichStruct) : Bool :=
  s.directives.ignore || s.directives.generated || !s.hasTags

structure Generated where
  skipped : Bool := false
  structs : List String := []
  errors : List GenerateError := []
  tokens : Tokens := []

namespace Generated

def header : String := "// Code generated by undgen. DO NOT EDIT."

/-- Whether the first line that is not blank marks the text as generated. -/
def isGenerated (text : String) : Bool :=
  ((text.toList.splitOn '\n').map Text.trim).find? (!·.isEmpty) == some header.toList

def addError (g : Generated) (e : GenerateError) : Generated :=
  { g with errors := g.errors ++ [e] }

/-- Takes in one more struct. One that cannot be planned does not keep others from their twins. -/
def addStruct (g : Generated) (s : Struct) : Generated :=
  match RichStruct.ofStruct s with
  | .error e => g.addError (.marking e)
  | .ok none => g
  | .ok (some r) =>
    if r.isExcluded then g
    else match Plan.build r with
      | .error e => g.addError (.plan e)
      | .ok p =>
        { g with structs := g.structs ++ [r.name], tokens := g.tokens ++ (Twin.ofPlan p).tokens }

def addItem (g : Generated) : Item → Generated
  | .struct s => g.addStruct s
  | .other => g

def ofItems (items : List Item) : Generated := items.foldl addItem {}

/-- The output for a source text, if it is well formed. A text that was generated itself is
skipped, whatever follows its mark. -/
def ofText? (text : String) : Option Generated :=
  if isGenerated text then some { skipped := true }
  else (Item.ofFile? text).map ofItems

def isEmpty (g : Generated) : Bool := g.structs.isEmpty

def render (g : Generated) : String :=
  header ++ "\n\n#[allow(unused_imports)]\nuse super::*;\n\n" ++ Tokens.render g.tokens ++ "\n"

end Generated

inductive ExpandError where
  | notStruct
  | noNamedFields
  | marking (e : AttributeError)
  | plan (e : PlanError)
  deriving DecidableEq

def ExpandError.message : ExpandError → String
  | notStruct => "UndPlain only works on structs"
  | noNamedFields => "UndPlain requires named fields"
  | marking e => e.message
  | plan e => e.message

/-- The twin of one declaration. It is asked for, so no directive is heeded. -/
def Twin.ofDeclaration : Item → Except ExpandError Twin
  | .other => .error .notStruct
  | .struct s =>
    match RichStruct.ofStruct s with
    | .error e => .error (.marking e)
    | .ok none => .error .noNamedFields
    | .ok (some r) => match Plan.build r with
      | .error e => .error (.plan e)
      | .ok p => .ok (Twin.ofPlan p)

end PlainTwin
