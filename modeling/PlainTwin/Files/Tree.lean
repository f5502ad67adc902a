import PlainTwin.Files

namespace PlainTwin

/-- Where a path starts: some levels above the directory in use, or at the root. -/
inductive Base where
  | above (levels : Nat)
  | root
  deriving DecidableEq

/-- A place reached from a base by names, the last one in front. -/
structure Location where
  base : Base
  names : List String
  deriving DecidableEq

namespace Location

def here : Location := ⟨.above 0, []⟩

def parent : Location → Location
  | ⟨b, _ :: names⟩ => ⟨b, names⟩
  | ⟨.above n, []⟩ => ⟨.above (n + 1), []⟩
  | ⟨.root, []⟩ => ⟨.root, []⟩

def child (l : Location) (name : String) : Location := ⟨l.base, name :: l.names⟩

def nameIn? (l dir : Location) : Option String :=
  match l.names with
  | name :: names => if l.base = dir.base ∧ names = dir.names then some name else none
  | [] => none

end Location

inductive Node where
  | file (bytes : ByteArray)
  | dir

/-- Files in memory. A base is always a directory. -/
structure Tree where
  nodes : List (Location × Node) := []

namespace Tree

def node? (t : Tree) (l : Location) : Option Node :=
  if l.names = [] then some .dir else t.nodes.lookup l

def insert (t : Tree) (l : Location) (n : Node) : Tree :=
  ⟨(l, n) :: t.nodes.filter (·.1 ≠ l)⟩

theorem node?_insert_self (t : Tree) {l : Location} (h : l.names ≠ []) (n : Node) :
    (t.insert l n).node? l = some n := by
  simp [node?, insert, h]

theorem lookup_filter_ne {l k : Location} (h : k ≠ l) (nodes : List (Location × Node)) :
    (nodes.filter (·.1 ≠ l)).lookup k = nodes.lookup k := by
  induction nodes with
  | nil => rfl
  | cons p nodes ih =>
    obtain ⟨a, n⟩ := p
    by_cases ha : a = l
    · subst ha
      have hk : (k == a) = false := beq_eq_false_iff_ne.2 h
      simpa [List.lookup_cons, hk] using ih
    · simp only [ne_eq, decide_not] at ih
      simp [List.lookup_cons, ha, ih]

theorem node?_insert_of_ne (t : Tree) {l k : Location} (h : k ≠ l) (n : Node) :
    (t.insert l n).node? k = t.node? k := by
  have hk : (k == l) = false := beq_eq_false_iff_ne.2 h
  simp only [node?, insert, List.lookup_cons, hk, lookup_filter_ne h]

def step (t : Tree) (l : Location) (part : String) : Except FileError Location :=
  match t.node? l with
  | none => .error .missing
  | some (.file _) => .error .notDirectory
  | some .dir =>
    .ok (if FilePath.isIdle part then l else if part = ".." then l.parent else l.child part)

def walk (t : Tree) (p : FilePath) (parts : List String) : Except FileError Location :=
  if p.text = "" then .error .missing
  else parts.foldlM t.step (if p.isAbsolute then ⟨.root, []⟩ else .here)

/-- The place that a path leads to. There may be nothing at it, but it is in a directory. -/
def locate (t : Tree) (p : FilePath) : Except FileError Location := t.walk p p.parts

def find (t : Tree) (p : FilePath) : Except FileError Node := do
  match t.node? (← t.locate p) with
  | some n => .ok n
  | none => .error .missing

def read (t : Tree) (p : FilePath) : Except FileError ByteArray := do
  match ← t.find p with
  | .file bytes => .ok bytes
  | .dir => .error .isDirectory

def write (t : Tree) (p : FilePath) (bytes : ByteArray) : Except FileError Tree := do
  let l ← t.locate p
  match t.node? l with
  | some .dir => .error .isDirectory
  | _ => .ok (t.insert l (.file bytes))

def makeDir (t : Tree) (p : FilePath) : Except FileError Tree := do
  let l ← t.walk p (p.parts.reverse.dropWhile (· = "")).reverse
  match t.node? l with
  | some _ => .error .present
  | none => .ok (t.insert l .dir)

def isDir (t : Tree) (p : FilePath) : Bool :=
  match t.find p with
  | .ok .dir => true
  | _ => false

def names (t : Tree) (p : FilePath) : Except FileError (List String) := do
  let l ← t.locate p
  .ok ((t.nodes.filterMap fun (k, _) => k.nameIn? l).mergeSort)

def attempt (op : Tree → Except FileError Tree) : StateM Tree (Except FileError Unit) := fun t =>
  match op t with
  | .ok t' => (.ok (), t')
  | .error e => (.error e, t)

instance : Files (StateM Tree) where
  read p t := (t.read p, t)
  write p bytes := attempt (·.write p bytes)
  makeDir p := attempt (·.makeDir p)
  isPresent p t := ((t.find p).isOk, t)
  isDir p t := (t.isDir p, t)
  names p t := (t.names p, t)

def addFile (p : FilePath) (bytes : ByteArray) : StateM Tree Unit := do
  let _ ← Files.makeDirs (p.parent?.getD ⟨""⟩)
  let _ ← Files.write p bytes

def ofFiles (files : List (FilePath × ByteArray)) : Tree :=
  ((files.forM fun (p, bytes) => addFile p bytes).run {}).2

def files (t : Tree) : List (String × ByteArray) :=
  (t.nodes.filterMap fun
    | (⟨.above 0, names⟩, .file bytes) => some ((FilePath.ofParts names.reverse).text, bytes)
    | _ => none).mergeSort fun a b => a.1 ≤ b.1

def changes (before after : Tree) : List (String × ByteArray) :=
  after.files.filter fun f => !before.files.contains f

end Tree

end PlainTwin
