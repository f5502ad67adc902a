import Mathlib.Logic.Relation
import PlainTwin.Command.Generate
import PlainTwin.Proofs.TreePlaces

namespace PlainTwin

inductive FileOp where
  | read (p : FilePath)
  | write (p : FilePath) (bytes : ByteArray)
  | makeDir (p : FilePath)
  | isPresent (p : FilePath)
  | isDir (p : FilePath)
  | names (p : FilePath)

namespace FileOp

abbrev Answer : FileOp → Type
  | read _ => Except FileError ByteArray
  | write _ _ | makeDir _ => Except FileError Unit
  | isPresent _ | isDir _ => Bool
  | names _ => Except FileError (List String)

def perform : (op : FileOp) → StateM Tree op.Answer
  | read p => Files.read p
  | write p bytes => Files.write p bytes
  | makeDir p => Files.makeDir p
  | isPresent p => Files.isPresent p
  | isDir p => Files.isDir p
  | names p => Files.names p

end FileOp

/-- A program as the operations on files that it asks for, each in view of the answers before. -/
inductive FileProgram (α : Type) where
  | done (a : α)
  | ask (op : FileOp) (next : op.Answer → FileProgram α)

namespace FileProgram

variable {α β : Type}

def bind (f : α → FileProgram β) : FileProgram α → FileProgram β
  | done a => f a
  | ask op next => ask op fun r => bind f (next r)

instance : Monad FileProgram where
  pure := done
  bind x f := bind f x

instance : LawfulMonad FileProgram :=
  .mk' _
    (fun x => by
      induction x with
      | done a => rfl
      | ask op next ih => exact congrArg (ask op) (funext ih))
    (fun _ _ => rfl)
    (fun x f h => by
      induction x with
      | done a => rfl
      | ask op next ih => exact congrArg (ask op) (funext ih))

def perform (op : FileOp) : FileProgram op.Answer := ask op done

/-- A file is emptied when it is opened for writing, and filled afterwards. -/
instance : Files FileProgram where
  read p := perform (.read p)
  write p bytes := do
    match ← perform (.write p .empty) with
    | .error e => return .error e
    | .ok () => perform (.write p bytes)
  makeDir p := perform (.makeDir p)
  isPresent p := perform (.isPresent p)
  isDir p := perform (.isDir p)
  names p := perform (.names p)

instance : Layout FileProgram where
  layOut? _ := return none

def run : FileProgram α → StateM Tree α
  | done a, t => (a, t)
  | ask op next, t =>
    let (r, t) := op.perform t
    run (next r) t

end FileProgram

structure Workers where
  tree : Tree
  jobs : List (FilePath × FileProgram Outcome)

inductive Workers.Step : Workers → Workers → Prop
  | perform (t : Tree) (before after : List (FilePath × FileProgram Outcome)) (input : FilePath)
      (op : FileOp) (next : op.Answer → FileProgram Outcome) :
      Step ⟨t, before ++ (input, .ask op next) :: after⟩
        ⟨(op.perform t).2, before ++ (input, next (op.perform t).1) :: after⟩

abbrev Workers.Steps : Workers → Workers → Prop := Relation.ReflTransGen Workers.Step

namespace Generate

variable (g : Generate)

def workers (t : Tree) (inputs : List FilePath) : Workers :=
  ⟨t, inputs.map fun input => (input, g.process input)⟩

/-- The workers can come to an end with these outcomes, and leave this tree. -/
def Ends (t : Tree) (inputs : List FilePath) (outcomes : List (FilePath × Outcome)) (t' : Tree) :
    Prop :=
  (g.workers t inputs).Steps ⟨t', outcomes.map fun (input, o) => (input, .done o)⟩

def inOrder (t : Tree) (inputs : List FilePath) : List (FilePath × Outcome) × Tree :=
  (inputs.mapM fun input => return (input, ← g.process input) :
    StateM Tree (List (FilePath × Outcome))).run t

end Generate

namespace Workers

open Generate PlainTwin.Tree TreePlaces

/-- What comes of an input once it is read: an outcome, or something to be written. -/
def work (input : FilePath) : Except FileError ByteArray → Outcome ⊕ Generated
  | .error e => .inl (.failed (.unreadable input e))
  | .ok bytes =>
    match String.fromUTF8? bytes with
    | none => .inl (.failed (.notText input))
    | some text =>
      match Generated.ofText? text with
      | none => .inl (.failed .malformed)
      | some made =>
        if made.skipped then .inl .skipped
        else if made.isEmpty then .inl (.nothing made.errors)
        else .inr made

section Process

variable {m : Type → Type} [Monad m] [LawfulMonad m] [Files m] [Layout m] (g : Generate)
  (input : FilePath)

def written (made : Generated) : Except FileError Unit → Outcome
  | .error e => .failed (.unwritable (g.output input) e)
  | .ok () => .written (g.output input) made.structs made.errors

theorem process_eq : (g.process input : m Outcome) = do
    match work input (← Files.read input) with
    | .inl o => return o
    | .inr made =>
      return written g input made (← Files.write (g.output input) (← g.laidOut made.render).toUTF8)
    := by
  simp only [Generate.process, Generate.source, bind_assoc]
  congr 1
  funext r
  rcases r with e | bytes
  · simp [work]
  · simp only [work]
    cases String.fromUTF8? bytes with
    | none => simp
    | some text =>
      simp only [pure_bind]
      cases Generated.ofText? text with
      | none => rfl
      | some made =>
        dsimp only
        split
        · rfl
        · split
          · rfl
          · congr 1
            funext laid
            congr 1
            funext r
            rcases r with e | ⟨⟩ <;> rfl

end Process

section Sequence

theorem run_bind {α β : Type} (x : FileProgram α) (f : α → FileProgram β) (t : Tree) :
    (x >>= f).run t = (f (x.run t).1).run (x.run t).2 := by
  induction x generalizing t with
  | done a => rfl
  | ask op next ih => exact ih _ _

theorem attempt_of_ok {op : Tree → Except FileError Tree} {t t' : Tree} (h : op t = .ok t') :
    attempt op t = (.ok (), t') := by
  simp [attempt, h]

theorem attempt_of_error {op : Tree → Except FileError Tree} {t : Tree} {e : FileError}
    (h : op t = .error e) : attempt op t = (.error e, t) := by
  simp [attempt, h]

theorem run_write (p : FilePath) (bytes : ByteArray) (t : Tree) :
    (Files.write p bytes : FileProgram (Except FileError Unit)).run t =
      (Files.write p bytes : StateM Tree (Except FileError Unit)) t := by
  have hrun : (Files.write p bytes : FileProgram (Except FileError Unit)).run t =
      match attempt (·.write p .empty) t with
      | (.error e, t) => (.error e, t)
      | (.ok (), t) => attempt (·.write p bytes) t := by
    rcases h : attempt (·.write p .empty) t with ⟨e | ⟨⟩, t'⟩ <;>
      simp only [Files.write, FileProgram.perform, Bind.bind, FileProgram.bind, FileProgram.run,
        FileOp.perform, h] <;> rfl
  rw [hrun]
  obtain ⟨e, he⟩ | ⟨l, hl, hn, hw⟩ := write_cases t p
  · rw [attempt_of_error (he .empty)]
    exact (attempt_of_error (he bytes)).symm
  · rw [attempt_of_ok (hw .empty)]
    have hagain : (t.insert l (.file .empty)).write p bytes = .ok (t.insert l (.file bytes)) := by
      rw [write_eq_ok_iff]
      have hd := sameDirs_insert hn .empty
      exact ⟨l, (locate_eq_ok_iff hd).mp hl, fun h => hn ((hd l).mpr h), (insert_insert ..).symm⟩
    exact (attempt_of_ok hagain).trans (attempt_of_ok (hw bytes)).symm

variable (g : Generate)

theorem laidOut_program (text : String) : (g.laidOut text : FileProgram String) = pure text := by
  unfold Generate.laidOut
  split <;> rfl

theorem laidOut_tree (text : String) : (g.laidOut text : StateM Tree String) = pure text := by
  unfold Generate.laidOut
  split <;> rfl

theorem run_process (input : FilePath) (t : Tree) :
    (g.process input : FileProgram Outcome).run t = (g.process input : StateM Tree Outcome) t := by
  have hread : (Files.read input : FileProgram (Except FileError ByteArray)).run t =
      (t.read input, t) := rfl
  rw [process_eq, process_eq, run_bind, hread]
  change _ = (match work input (t.read input) with
    | .inl o => pure o
    | .inr made => _ : StateM Tree Outcome) t
  cases work input (t.read input) with
  | inl o => rfl
  | inr made =>
    simp only [laidOut_program, laidOut_tree, pure_bind]
    rw [run_bind, run_write]
    rfl

theorem steps_of_run (p : FileProgram Outcome) (t : Tree)
    (before after : List (FilePath × FileProgram Outcome)) (input : FilePath) :
    Steps ⟨t, before ++ (input, p) :: after⟩
      ⟨(p.run t).2, before ++ (input, .done (p.run t).1) :: after⟩ := by
  induction p generalizing t with
  | done o => exact .refl
  | ask op next ih => exact .head (.perform t before after input op next) (ih _ _)

def finish : Tree → List (FilePath × FileProgram Outcome) → List (FilePath × Outcome) × Tree
  | t, [] => ([], t)
  | t, (input, p) :: jobs =>
    let r := p.run t
    let rest := finish r.2 jobs
    ((input, r.1) :: rest.1, rest.2)

theorem steps_finish (t : Tree) (before jobs : List (FilePath × FileProgram Outcome)) :
    Steps ⟨t, before ++ jobs⟩
      ⟨(finish t jobs).2, before ++ (finish t jobs).1.map fun (input, o) => (input, .done o)⟩ := by
  induction jobs generalizing t before with
  | nil => exact .refl
  | cons job jobs ih =>
    obtain ⟨input, p⟩ := job
    have htail := ih (p.run t).2 (before ++ [(input, .done (p.run t).1)])
    simp only [List.append_assoc, List.singleton_append] at htail
    exact (steps_of_run p t before jobs input).trans htail

theorem mem_finish {t : Tree} {jobs : List (FilePath × FileProgram Outcome)} {input : FilePath}
    {o : Outcome} (h : (input, .done o) ∈ jobs) : (input, o) ∈ (finish t jobs).1 := by
  induction jobs generalizing t with
  | nil => exact absurd h List.not_mem_nil
  | cons job jobs ih =>
    obtain rfl | h := List.mem_cons.mp h
    · exact List.mem_cons_self
    · exact List.mem_cons_of_mem _ (ih h)

theorem finish_process (inputs : List FilePath) (t : Tree) :
    finish t (inputs.map fun input => (input, g.process input)) = g.inOrder t inputs := by
  induction inputs generalizing t with
  | nil => rfl
  | cons input inputs ih =>
    rw [List.map_cons, finish, run_process, ih, Generate.inOrder, Generate.inOrder, List.mapM_cons]
    rfl

/-- To process the inputs one after the other is one way for the workers to come to an end. -/
theorem ends_inOrder (inputs : List FilePath) (t : Tree) :
    g.Ends t inputs (g.inOrder t inputs).1 (g.inOrder t inputs).2 := by
  rw [← finish_process]
  exact steps_finish t [] (inputs.map fun input => (input, g.process input))

theorem step_set (t : Tree) {jobs : List (FilePath × FileProgram Outcome)} {k : Nat}
    {input : FilePath} {op : FileOp} {next : op.Answer → FileProgram Outcome}
    (h : jobs[k]? = some (input, .ask op next)) :
    Step ⟨t, jobs⟩ ⟨(op.perform t).2, jobs.set k (input, next (op.perform t).1)⟩ := by
  obtain ⟨hlt, hk⟩ := List.getElem?_eq_some_iff.mp h
  have hjobs : jobs = jobs.take k ++ (input, .ask op next) :: jobs.drop (k + 1) := by
    rw [← hk, List.getElem_cons_drop, List.take_append_drop]
  rw [List.set_eq_take_append_cons_drop, if_pos hlt]
  nth_rewrite 1 [hjobs]
  exact .perform t _ _ input op next

end Sequence

end Workers

end PlainTwin
