namespace PlainTwin

structure FilePath where
  text : String
  deriving DecidableEq

namespace FilePath

def parts (p : FilePath) : List String := (p.text.toList.splitOn '/').map String.ofList

def isAbsolute (p : FilePath) : Bool := p.text.toList.head? == some '/'

def isIdle (part : String) : Bool := part = "" || part = "."

/-- Leaves out the idle parts at the end. The first part stays in any case, as it tells the root and
the directory in use from the empty path. -/
def trimParts : List String → List String
  | [] => []
  | part :: parts => part :: (parts.reverse.dropWhile isIdle).reverse

def ofParts : List String → FilePath
  | [""] => ⟨"/"⟩
  | parts => ⟨String.ofList (['/'].intercalate (parts.map String.toList))⟩

def name? (p : FilePath) : Option String :=
  (trimParts p.parts).getLast?.filter fun n => !isIdle n && n != ".."

def parent? (p : FilePath) : Option FilePath :=
  match trimParts p.parts with
  | [] | [""] => none
  | [_] => some ⟨""⟩
  | parts => some (ofParts (trimParts parts.dropLast))

/-- A name up to its last dot, unless the name begins there. -/
def stemOf (name : String) : String :=
  match name.toList.reverse.dropWhile (· != '.') with
  | _ :: c :: cs => String.ofList (c :: cs).reverse
  | _ => name

def join (dir p : FilePath) : FilePath :=
  if p.isAbsolute || dir.text = "" then p
  else if dir.text.toList.getLast? = some '/' then ⟨dir.text ++ p.text⟩
  else ⟨dir.text ++ "/" ++ p.text⟩

def withName (p : FilePath) (name : String) : FilePath :=
  match p.name?, p.parent? with
  | some _, some dir => dir.join ⟨name⟩
  | _, _ => p.join ⟨name⟩

def isHere (p : FilePath) : Bool := trimParts p.parts == ["."]

end FilePath

end PlainTwin
