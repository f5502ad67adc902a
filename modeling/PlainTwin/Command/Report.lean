import PlainTwin.Files
import PlainTwin.Tag.Parser
import PlainTwin.Conversion

namespace PlainTwin

inductive CommandError where
  | unresolved
  | unmatched (pattern : String)
  | noDirectory (dir : FilePath) (e : FileError)
  | failures (n : Nat)
  | tag (e : TagError)
  | notType (text : String)
  | select (e : SelectError)
  deriving DecidableEq

def CommandError.message : CommandError → String
  | unresolved => "failed to resolve input file paths"
  | unmatched p => "failed to resolve input file paths: glob pattern matched no files: " ++ p
  | noDirectory dir e => "failed to create " ++ dir.text ++ ": " ++ e.message
  | failures n => n.repr ++ " error(s)"
  | tag e => e.message
  | notType text => "not a type: " ++ text
  | select e => e.message

structure Report where
  lines : List String := []
  result : Except CommandError Unit

def Report.fail (e : CommandError) : Report := { result := .error e }

def Report.text (r : Report) : String :=
  String.ofList (r.lines.flatMap fun l => l.toList ++ ['\n'])

end PlainTwin
