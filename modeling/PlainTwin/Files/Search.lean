import PlainTwin.Files
import PlainTwin.Files.Pattern

namespace PlainTwin.Search

variable {m : Type → Type} [Monad m] [Files m]

abbrev Results (m : Type → Type) := ExceptT FileError m (List FilePath)

abbrev Below (m : Type → Type) := List PartPattern → FilePath → Results m

def isDir (p : FilePath) : ExceptT FileError m Bool := ExceptT.lift (Files.isDir p)

def isPresent (p : FilePath) : ExceptT FileError m Bool := ExceptT.lift (Files.isPresent p)

def entry (dir : FilePath) (name : String) : FilePath :=
  if dir.isHere then ⟨name⟩ else dir.join ⟨name⟩

def collect {α : Type} (xs : List α) (f : α → Results m) : Results m :=
  return (← xs.mapM f).flatten

def goOn (dirsOnly : Bool) (below : Below m) : Below m
  | [], p => do return if dirsOnly && !(← isDir p) then [] else [p]
  | parts, p => below parts p

def named (dirsOnly : Bool) (below : Below m) (name : String) : Below m
  | [], _ => return []
  | part :: parts, p => if part.covers name then goOn dirsOnly below parts p else return []

/-- An entry of a directory. At any depth, a directory comes before what is in it. -/
def visit (dirsOnly : Bool) (below : Below m) (name : String) : Below m
  | .anyDepth :: parts, p => do
    let parts := parts.dropWhile (· = .anyDepth)
    if ← isDir p then
      let self ← if parts.isEmpty then pure [p] else named dirsOnly below name parts p
      return self ++ (← below (.anyDepth :: parts) p)
    else named dirsOnly below name parts p
  | parts, p => named dirsOnly below name parts p

/-- A part without wildcards has to be there and need not be searched for. The part for any number
of directories does not take in the one that the search is at. -/
def step (dirsOnly : Bool) (below : Below m) : Below m
  | [], _ => return []
  | .name text :: parts, dir => do
    let p := entry dir text
    let there ← if text = "." ∨ text = ".." then isDir dir else isPresent p
    if there then goOn dirsOnly below parts p else return []
  | part :: parts, dir => do
    if !(← isDir dir) then return []
    let names ← ExceptT.mk (Files.names dir)
    let dots := if part.beginsWithDot then ["..", "."].filter part.covers else []
    let around ← collect dots fun name => goOn dirsOnly below parts (dir.join ⟨name⟩)
    let inside ← collect names fun name =>
      visit dirsOnly below name (part :: parts) (entry dir name)
    return around ++ inside

def downTo (dirsOnly : Bool) : Nat → Below m
  | 0, _, _ => return []
  | n + 1, parts, p => step dirsOnly (downTo dirsOnly n) parts p

/-- No path is longer than this many bytes, and so none has more parts. -/
def maxDepth : Nat := 4096

def run (p : PathPattern) : Results m :=
  downTo p.dirsOnly maxDepth p.parts ⟨if p.isAbsolute then "/" else "."⟩

end PlainTwin.Search
