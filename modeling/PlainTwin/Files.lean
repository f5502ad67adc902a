import PlainTwin.Files.Path

namespace PlainTwin

inductive FileError where
  | missing
  | notDirectory
  | isDirectory
  | present
  | other (text : String)
  deriving DecidableEq

def FileError.message : FileError → String
  | missing => "No such file or directory (os error 2)"
  | notDirectory => "Not a directory (os error 20)"
  | isDirectory => "Is a directory (os error 21)"
  | present => "File exists (os error 17)"
  | other text => text

/-- A place with files. The names of the entries of a directory come in ascending order. -/
class Files (m : Type → Type) where
  read : FilePath → m (Except FileError ByteArray)
  write : FilePath → ByteArray → m (Except FileError Unit)
  makeDir : FilePath → m (Except FileError Unit)
  isPresent : FilePath → m Bool
  isDir : FilePath → m Bool
  names : FilePath → m (Except FileError (List String))

namespace Files

variable {m : Type → Type} [Monad m] [Files m]

def ensureDir (p : FilePath) : m (Except FileError Unit) := do
  match ← makeDir p with
  | .ok () => return .ok ()
  | .error e => if ← isDir p then return .ok () else return .error e

def makeDirsUpTo : Nat → FilePath → m (Except FileError Unit)
  | 0, _ => return .error .missing
  | n + 1, p => do
    if p.text = "" then return .ok ()
    match ← ensureDir p, p.parent? with
    | .error .missing, some dir =>
      match ← makeDirsUpTo n dir with
      | .ok () => ensureDir p
      | .error e => return .error e
    | r, _ => return r

def makeDirs (p : FilePath) : m (Except FileError Unit) := makeDirsUpTo (p.parts.length + 1) p

end Files

end PlainTwin
